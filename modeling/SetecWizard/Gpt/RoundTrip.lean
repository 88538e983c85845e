import SetecWizard.Gpt.Placement

/-! Decoding undoes encoding. What a GPT needs to be encoded without loss holds of a
new table and is kept by the mutators, as long as the names of new partitions fit;
that the ranges make sense is not needed.
-/
namespace SetecWizard.Core
open SetecWizard.Library

namespace GptPartitionTable

def Nameable (name : List UInt8) : Prop :=
  ∃ chars : List Char, name = nameBytes chars ∧ chars.length ≤ 35 ∧ ∀ c ∈ chars, Basic c

def NamesPartition : GptCall → Prop
  | .add params _ => Nameable params.gptName
  | .delete _ => True
  | .resize _ _ _ => True

/-- A table that can be encoded without loss, on a disk of a given size. -/
structure Encodable (diskSizeBytes : UInt64) (sectorSize : UInt32) (t : GptPartitionTable) : Prop where
  std : t.Standard
  disk : t.diskSizeBytes = diskSizeBytes
  sector : t.sectorSize = sectorSize
  typed : ∀ pe ∈ t.entries, pe.typeGuid.isZero = false
  named : ∀ pe ∈ t.entries, Nameable pe.gptName

section Steps

variable {t t' : GptPartitionTable}

theorem effect_labels {call : GptCall} (effect : Effect t call t') {P : Guid → List UInt8 → Prop}
    (held : ∀ pe ∈ t.entries, P pe.typeGuid pe.gptName)
    (fresh : ∀ params random slot, call = .add params random →
      P (t.withLastUsable.newEntry params random slot).typeGuid params.gptName) :
    ∀ pe ∈ t'.entries, P pe.typeGuid pe.gptName := by
  cases effect with
  | refused => exact held
  | settled => simpa using held
  | added params random slot =>
    intro pe member
    rcases List.mem_append.mp member with old | last
    · exact held pe old
    · rw [List.mem_singleton.mp last]
      exact fresh params random slot rfl
  | deleted => exact fun pe member => held pe ((List.eraseIdx_sublist _ _).subset member)
  | resized =>
    intro pe member
    rcases mem_after_resize member with old | ⟨old,at_pos,rfl⟩
    · exact held pe old
    · exact held old (List.mem_of_getElem? at_pos)

theorem newEntry_typed (t : GptPartitionTable) (params : PartitionParams) (random : Bytes 16) (slot : Nat) :
    (t.newEntry params random slot).typeGuid.isZero = false := by
  unfold newEntry
  cases zero : params.typeGuid.isZero with
  | true => rfl
  | false => simpa using zero

theorem Encodable.kept {diskSizeBytes : UInt64} {sectorSize : UInt32}
    (enc : t.Encodable diskSizeBytes sectorSize) {call : GptCall} (effect : Effect t call t')
    (names : NamesPartition call) : t'.Encodable diskSizeBytes sectorSize := by
  obtain ⟨_,_,disk,sector⟩ := effect_geometry effect
  constructor
  · exact enc.std.kept effect
  · exact disk.trans enc.disk
  · exact sector.trans enc.sector
  · exact effect_labels effect (P := fun type _ => type.isZero = false) enc.typed
      (fun params random slot _ => newEntry_typed _ params random slot)
  · refine effect_labels effect (P := fun _ name => Nameable name) enc.named ?_
    rintro params random slot rfl
    exact names

end Steps

theorem created_encodable {diskSizeBytes : UInt64} {sectorSize : UInt32} {diskGuid : Guid}
    {random : Bytes 16} {t : GptPartitionTable}
    (created : PartitionTable.createNew .gpt diskSizeBytes sectorSize diskGuid random = some (.gpt t)) :
    t.Encodable diskSizeBytes sectorSize := by
  simp only [PartitionTable.createNew,Option.some.injEq,PartitionTable.gpt.injEq] at created
  rw [← created]
  exact ⟨⟨rfl,rfl,by simp,by simp⟩,rfl,rfl,by simp,by simp⟩

theorem run_encodable {diskSizeBytes : UInt64} {sectorSize : UInt32} {t : GptPartitionTable}
    (enc : t.Encodable diskSizeBytes sectorSize) (calls : List GptCall)
    (names : ∀ call ∈ calls, NamesPartition call) :
    (calls.foldl GptCall.step t).Encodable diskSizeBytes sectorSize := by
  have guarded := Run.guarded_of_forall GptCall.step (fun _ call => NamesPartition call) t calls
    (fun call member _ => names call member)
  exact Run.guarded_invariant GptCall.step _ (Encodable diskSizeBytes sectorSize)
    (fun s call held named => held.kept (step_effect s call) named) t calls enc guarded _
    (Run.foldl_mem_trace _ _ _)

/-- What decoding recovers of a table. -/
structure Restored (t parsed : GptPartitionTable) : Prop where
  diskGuid : parsed.diskGuid = t.diskGuid
  revision : parsed.revision = t.revision
  firstUsableLba : parsed.firstUsableLba = t.firstUsableLba
  entryCount : parsed.entryCount = t.entryCount
  entrySize : parsed.entrySize = t.entrySize
  entries : SameEntries parsed.entries t.entries

theorem Encodable.geometry {diskSizeBytes : UInt64} {sectorSize : UInt32} {t : GptPartitionTable}
    (enc : t.Encodable diskSizeBytes sectorSize) (size : sectorSize = 512 ∨ sectorSize = 4096)
    (large : 68 ≤ diskSizeBytes.toNat / sectorSize.toNat) : t.Geometry :=
  ⟨⟨enc.std,by rw [enc.sector]; exact size⟩,by rw [enc.disk,enc.sector]; omega⟩

/-- A table made by a run of the mutators is serialized; when its pieces stand where its
headers say, parsing restores it, its CRCs are valid, and the backup holds the same
entries, whether it is looked for by the parsed table or by a blank one. -/
theorem created_run_round_trip (diskSizeBytes : UInt64) (sectorSize : UInt32) (diskGuid : Guid)
    (random : Bytes 16) (t : GptPartitionTable)
    (created : PartitionTable.createNew .gpt diskSizeBytes sectorSize diskGuid random = some (.gpt t))
    (size : sectorSize = 512 ∨ sectorSize = 4096) (large : 68 ≤ diskSizeBytes.toNat / sectorSize.toNat)
    (calls : List GptCall) (names : ∀ call ∈ calls, NamesPartition call) :
    ∃ image, (calls.foldl GptCall.step t).serialize = .ok image ∧
      ∀ base readFunc,
        Reads readFunc sectorSize.toNat (placePieces sectorSize.toNat image base) diskSizeBytes.toNat →
        ∃ parsed, parse { diskSizeBytes,sectorSize } readFunc = .ok parsed ∧
          Restored (calls.foldl GptCall.step t) parsed ∧ parsed.validateCrcs readFunc = .ok () ∧
          ∀ reader ∈ [parsed,{ diskSizeBytes,sectorSize }],
            ∃ backup, reader.parseBackup readFunc = .ok backup ∧ backup.entries = parsed.entries := by
  have enc := run_encodable (created_encodable created) calls names
  generalize calls.foldl GptCall.step t = t' at enc ⊢
  have geo := enc.geometry size large
  refine ⟨_,rfl,?_⟩
  intro base readFunc reads
  have placed := geo.placed rfl base
  obtain rfl := enc.sector
  obtain rfl := enc.disk
  let blank : GptPartitionTable := { diskSizeBytes := t'.diskSizeBytes,sectorSize := t'.sectorSize }
  obtain ⟨protectiveMbr,read⟩ := Placed.parse geo placed reads (rfl : blank.sectorSize = t'.sectorSize)
  have named : ∀ pe ∈ t'.entries, utf16leToUtf8 (utf8ToUtf16le pe.gptName 36) 36 = pe.gptName := by
    intro pe member
    obtain ⟨chars,name,short,basic⟩ := enc.named pe member
    rw [name,utf16leToUtf8_name chars basic short]
  have count := enc.std.count
  have size := enc.std.size
  let parsed := parseEntries (t'.adopted blank protectiveMbr) t'.entryArray
  refine ⟨parsed,read,⟨rfl,rfl,rfl,rfl,rfl,?_⟩,?_,?_⟩
  · exact sameEntries_parseEntries enc.std enc.typed named count size
  · exact Placed.validateCrcs geo placed reads (rfl : parsed.sectorSize = t'.sectorSize)
  · intro reader among
    have disk : reader.diskSizeBytes = t'.diskSizeBytes ∧ reader.sectorSize = t'.sectorSize ∧
        (reader.alternateLba = 0 ∨ reader.alternateLba = t'.diskSectors - 1) := by
      rcases List.mem_cons.mp among with rfl | later
      · exact ⟨rfl,rfl,.inr rfl⟩
      · rw [List.mem_singleton.mp later]
        exact ⟨rfl,rfl,.inl rfl⟩
    obtain ⟨sameDisk,sameSector,known⟩ := disk
    exact ⟨_,Placed.parseBackup geo placed reads sameSector sameDisk known,
      parseEntries_congr rfl rfl sameSector⟩

def sampleName : List UInt8 := [0x44,0x61,0x74,0x61]

/-- A disk of 1 MiB with one named partition, read back from where its pieces stand. -/
theorem created_run_round_trip_sample :
    ∃ image parsed,
      (GptCall.step emptyTable (.add { startLba := 40,sectorCount := 100,gptName := sampleName }
        (.zero 16))).serialize = .ok image ∧
      parse { diskSizeBytes := 1048576 } (fun off n =>
        .ok (window (placePieces 512 image (fun _ => 0)) off.toNat n.toNat)) = .ok parsed ∧
      SameEntries parsed.entries (GptCall.step emptyTable
        (.add { startLba := 40,sectorCount := 100,gptName := sampleName } (.zero 16))).entries := by
  have name : Nameable sampleName := ⟨['D','a','t','a'],by decide,by decide,by simp [Basic]⟩
  obtain ⟨image,serialized,restored⟩ := created_run_round_trip 1048576 512 sampleGuid (.zero 16) emptyTable
    created_emptyTable (.inl rfl) (by decide)
    [.add { startLba := 40,sectorCount := 100,gptName := sampleName } (.zero 16)] (by simp [NamesPartition,name])
  obtain ⟨parsed,read,same,_⟩ := restored (fun _ => 0) _ (fun _ _ _ _ _ => rfl)
  exact ⟨image,parsed,serialized,read,same.entries⟩

end GptPartitionTable
end SetecWizard.Core
