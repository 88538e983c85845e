import SetecWizard.Operations.GptRewrite

/-! The vectors that a GPT is serialized into. The size of the entry array is a product of
32-bit words that a disk supplies and the parser does not bound; where an entry goes in
it is computed with 64 bits.
-/
namespace SetecWizard.Core
open SetecWizard.Library

namespace GptPartitionTable

/-- The vectors that are put together: the protective MBR, the two headers, and the entry
array in whole sectors once for each of them. -/
def serializedLength (t : GptPartitionTable) : Nat :=
  t.sectorSize.toNat + t.sectorSize.toNat + (t.entryArraySectors * t.sectorSize).toNat +
    (t.entryArraySectors * t.sectorSize).toNat + t.sectorSize.toNat

def wholeLength (t : GptPartitionTable) : Nat :=
  2 * t.sectorSize.toNat + 2 * ((t.entryCount.toNat * t.entrySize.toNat + t.sectorSize.toNat - 1) /
    t.sectorSize.toNat * t.sectorSize.toNat) + t.sectorSize.toNat

/-- Every entry is written inside the array that was allocated for it, and the buffer has
the length of the table. -/
structure SerializesWhole (t : GptPartitionTable) : Prop where
  inside : ∀ pe ∈ t.entries, 0 ≤ pe.index → pe.index < (t.entryCount.toNat : Int) →
    pe.index.toNat * t.entrySize.toNat + 128 ≤ t.entryArrayBytes.toNat
  allocated : t.serializedLength = t.wholeLength
  returned : ∀ image, t.serialize = .ok image → image.length = t.wholeLength

/-- The entry array with the sectors it takes can be counted in 32 bits. -/
def Countable (t : GptPartitionTable) : Prop :=
  t.entryCount.toNat * t.entrySize.toNat + t.sectorSize.toNat ≤ 2 ^ 32

/-- What holds of a parsed table whatever is done to it. -/
structure Numbered (t : GptPartitionTable) : Prop where
  wide : 128 ≤ t.entrySize.toNat
  slotted : t.Slotted
  typed : ∀ pe ∈ t.entries, pe.typeGuid.isZero = false

section Counted

variable {t : GptPartitionTable}

theorem Countable.bytes (countable : t.Countable) (long : 512 ≤ t.sectorSize.toNat) :
    t.entryArrayBytes.toNat = t.entryCount.toNat * t.entrySize.toNat := by
  unfold Countable at countable
  rw [entryArrayBytes,UInt32.toNat_mul,Nat.mod_eq_of_lt (by omega)]

theorem countable_of_allocated (long : 512 ≤ t.sectorSize.toNat) (same : t.serializedLength = t.wholeLength) :
    t.Countable := by
  have one : (1 : UInt32).toNat = 1 := rfl
  have width := t.sectorSize.toNat_lt
  have cut : (t.entryArraySectors * t.sectorSize).toNat =
      (t.entryArrayBytes + t.sectorSize - 1).toNat / t.sectorSize.toNat * t.sectorSize.toNat := by
    have below := Nat.div_mul_le_self (t.entryArrayBytes + t.sectorSize - 1).toNat t.sectorSize.toNat
    have bound := (t.entryArrayBytes + t.sectorSize - 1).toNat_lt
    rw [entryArraySectors,UInt32.toNat_mul,UInt32.toNat_div,Nat.mod_eq_of_lt (by omega)]
  refine Nat.le_of_not_lt (fun large => ?_)
  have less : (t.entryArrayBytes + t.sectorSize - 1).toNat + t.sectorSize.toNat ≤
      t.entryCount.toNat * t.entrySize.toNat + t.sectorSize.toNat - 1 := by
    rw [entryArrayBytes,UInt32.toNat_sub,UInt32.toNat_add,UInt32.toNat_mul,one]
    generalize t.entryCount.toNat * t.entrySize.toNat = bytes at large ⊢
    omega
  have fewer := Nat.div_le_div_right (c := t.sectorSize.toNat) less
  rw [Nat.add_div_right _ (by omega)] at fewer
  have apart := Nat.mul_le_mul_right t.sectorSize.toNat fewer
  rw [Nat.succ_mul] at apart
  rw [serializedLength,wholeLength,cut] at same
  omega

theorem Numbered.recordable (numbered : t.Numbered) (countable : t.Countable) (long : 512 ≤ t.sectorSize.toNat) :
    t.Recordable := by
  have bytes := countable.bytes long
  refine ⟨⟨numbered.wide,numbered.slotted,fun pe member => ?_⟩,numbered.typed,?_⟩
  · obtain ⟨low,high⟩ := numbered.slotted.inside pe member
    have slots := Nat.mul_le_mul_right t.entrySize.toNat (show pe.index.toNat + 1 ≤ t.entryCount.toNat by omega)
    rw [Nat.succ_mul] at slots
    have wide := numbered.wide
    omega
  · rw [bytes]
    exact countable

theorem serializesWhole_iff (numbered : t.Numbered) (long : 512 ≤ t.sectorSize.toNat) :
    t.SerializesWhole ↔ t.Countable := by
  refine ⟨fun whole => countable_of_allocated long whole.allocated,fun countable => ?_⟩
  have bytes := countable.bytes long
  have recordable := numbered.recordable countable long
  have sectors := (recordable.arraySectors (by omega)).2
  rw [bytes] at sectors
  have allocated : t.serializedLength = t.wholeLength := by
    rw [serializedLength,wholeLength,sectors]
    omega
  refine ⟨fun pe member _ _ => recordable.fits pe member,allocated,fun image serialized => ?_⟩
  have mbr := length_protMbr long
  have header : t.primaryHeader.length = t.sectorSize.toNat := length_primaryHeader (by omega)
  have backup : t.backupHeader.length = t.sectorSize.toNat := length_backupHeader (by omega)
  have array := (recordable.paddedEntries_eq (by omega)).1
  rw [serialize,Except.ok.injEq] at serialized
  rw [← allocated,serializedLength,← serialized]
  simp only [List.length_append,mbr,header,backup,array]

theorem Numbered.step (numbered : t.Numbered) (call : GptCall) : (call.step t).Numbered := by
  have effect := step_effect t call
  obtain ⟨_,size,_⟩ := effect_geometry effect
  refine ⟨by rw [size]; exact numbered.wide,numbered.slotted.kept effect,?_⟩
  exact effect_labels effect (P := fun type _ => type.isZero = false) numbered.typed
    (fun params random slot _ => newEntry_typed _ params random slot)

theorem numbered_of_parse {self : GptPartitionTable} {readFunc : DiskReadCallback}
    (parsed : self.parse readFunc = .ok t) : t.Numbered := by
  refine ⟨?_,(parse_shape parsed).1,typed_of_parse parsed⟩
  obtain ⟨_,_,_,_,_,readable,_,rfl⟩ := parse_eq parsed
  exact UInt32.le_iff_toNat_le.mp readable.wide

theorem run_geometry (t : GptPartitionTable) (calls : List GptCall) :
    (calls.foldl GptCall.step t).entryCount = t.entryCount ∧ (calls.foldl GptCall.step t).entrySize = t.entrySize ∧
      (calls.foldl GptCall.step t).sectorSize = t.sectorSize := by
  induction calls generalizing t with
  | nil => exact ⟨rfl,rfl,rfl⟩
  | cons call rest ih =>
    obtain ⟨count,size,_,sector⟩ := effect_geometry (step_effect t call)
    obtain ⟨count',size',sector'⟩ := ih (call.step t)
    exact ⟨count'.trans count,size'.trans size,sector'.trans sector⟩

end Counted

/-- A table that was parsed is serialized whole, whatever is done to it before, exactly when
its entry array with the sectors it takes can be counted in 32 bits. -/
theorem parsed_run_whole_iff {self t : GptPartitionTable} {readFunc : DiskReadCallback}
    (long : 512 ≤ self.sectorSize.toNat) (parsed : self.parse readFunc = .ok t) (calls : List GptCall) :
    (calls.foldl GptCall.step t).SerializesWhole ↔ t.Countable := by
  have numbered := Run.trace_invariant GptCall.step Numbered (fun _ call numbered => numbered.step call) t calls
    (numbered_of_parse parsed) _ (Run.foldl_mem_trace _ _ _)
  obtain ⟨count,size,sector⟩ := run_geometry t calls
  have same : t.sectorSize = self.sectorSize := (parse_shape parsed).2.2
  rw [serializesWhole_iff numbered (by rw [sector,same]; exact long),Countable,Countable,count,size,sector]

section Sample

def pairHeader (entrySize : List UInt8) : List UInt8 :=
  [0x45,0x46,0x49,0x20,0x50,0x41,0x52,0x54] ++ List.replicate 32 0 ++ [34,0,0,0,0,0,0,0] ++
    [0xE8,0x03,0,0,0,0,0,0] ++ List.replicate 16 0 ++ [2,0,0,0,0,0,0,0] ++ [2,0,0,0] ++ entrySize ++
    List.replicate 424 0

def headerDisk (header : List UInt8) : DiskReadCallback := fun _ size => .ok (header.take size.toNat)

def pairBlank : GptPartitionTable := { diskSizeBytes := 1048576,sectorSize := 512 }

def pairTable (entrySize : List UInt8) : GptPartitionTable :=
  (pairBlank.parse (headerDisk (pairHeader entrySize))).toOption.getD {}

theorem parsed_pairTable {entrySize : List UInt8}
    (readable : (pairBlank.parse (headerDisk (pairHeader entrySize))).isOk = true) :
    pairBlank.parse (headerDisk (pairHeader entrySize)) = .ok (pairTable entrySize) := by
  unfold pairTable
  cases outcome : pairBlank.parse (headerDisk (pairHeader entrySize)) with
  | error e =>
    rw [outcome] at readable
    cases readable
  | ok t => rfl

def pairCall : GptCall := .add { startLba := 100,sectorCount := 50 } (.zero 16)

/-- With entries of 128 bytes there is room for the new one. -/
theorem parsed_run_whole_sample : ([pairCall].foldl GptCall.step (pairTable [0x80,0,0,0])).SerializesWhole := by
  have shape : (pairTable [0x80,0,0,0]).entryCount = 2 ∧ (pairTable [0x80,0,0,0]).entrySize = 128 ∧
      (pairTable [0x80,0,0,0]).sectorSize = 512 := by decide +kernel
  have long : 512 ≤ pairBlank.sectorSize.toNat := Nat.le_refl 512
  have parsed := @parsed_pairTable [0x80,0,0,0] (by decide +kernel)
  refine (parsed_run_whole_iff long parsed [pairCall]).mpr ?_
  unfold Countable
  simp only [shape.1,shape.2.1,shape.2.2]
  decide

/-- With entries of 2 GiB the array has no bytes at all. -/
theorem added_outside_array : ¬ ∀ (self t : GptPartitionTable) (readFunc : DiskReadCallback) (calls : List GptCall),
    512 ≤ self.sectorSize.toNat → self.parse readFunc = .ok t → (calls.foldl GptCall.step t).SerializesWhole := by
  intro always
  have whole := always pairBlank _ _ [pairCall] (Nat.le_refl 512)
    (@parsed_pairTable [0,0,0,0x80] (by decide +kernel))
  have written : ∃ pe ∈ (GptCall.step (pairTable [0,0,0,0x80]) pairCall).entries, pe.index = 0 := by decide +kernel
  obtain ⟨pe,member,first⟩ := written
  have table : [pairCall].foldl GptCall.step (pairTable [0,0,0,0x80]) =
      GptCall.step (pairTable [0,0,0,0x80]) pairCall := rfl
  have shape : (GptCall.step (pairTable [0,0,0,0x80]) pairCall).entryCount = 2 ∧
      (GptCall.step (pairTable [0,0,0,0x80]) pairCall).entryArrayBytes = 0 := by decide +kernel
  rw [table] at whole
  obtain ⟨inside,_,_⟩ := whole
  generalize GptCall.step (pairTable [0,0,0,0x80]) pairCall = t at *
  have written := inside pe member first.ge (by rw [first,shape.1]; decide)
  rw [shape.2] at written
  exact absurd written (Nat.not_le.mpr (Nat.lt_add_left _ (by decide)))

end Sample

end GptPartitionTable
end SetecWizard.Core
