import SetecWizard.Format.Integers
import SetecWizard.Mbr.Parsing

/-! Sector 0 as four slots and what lies around them. A slot is read from its own
sixteen bytes alone, so parsing what serialization wrote is a matter of one slot
at a time.
-/
namespace SetecWizard.Core
open SetecWizard.Library

def slotBytes (raw : List UInt8) (i : Nat) : List UInt8 :=
  slice raw (MBR_PARTITION_ENTRY_OFFSET + i * MBR_PARTITION_ENTRY_SIZE) MBR_PARTITION_ENTRY_SIZE

def blockEmpty (block : List UInt8) : Bool :=
  block.getD 4 0 == MbrTypes.Empty && readLE32 block 8 == 0 && readLE32 block 12 == 0

def blockEntry (sectorSize : UInt32) (i : Nat) (block : List UInt8) : PartitionEntry :=
  { index := i
    startLba := (readLE32 block 8).toUInt64
    sectorCount := (readLE32 block 12).toUInt64
    sectorSize := sectorSize
    mbrType := block.getD 4 0
    isActive := block.getD 0 0 == 0x80
    isExtended := MbrTypes.isExtendedType (block.getD 4 0)
    isLogical := false
    chsStart := decodeCHS block 1
    chsEnd := decodeCHS block 5 }

theorem decodeCHS_slice (p : List UInt8) (off n i : Nat) (inside : i + 3 ≤ n) :
    decodeCHS (slice p off n) i = decodeCHS p (off + i) := by
  unfold decodeCHS
  rw [getD_slice _ _ _ _ (by omega),getD_slice _ _ _ _ (by omega),getD_slice _ _ _ _ (by omega)]
  rfl

theorem slotEmpty_eq (raw : List UInt8) (i : Nat) : slotEmpty raw i = blockEmpty (slotBytes raw i) := by
  have size : MBR_PARTITION_ENTRY_SIZE = 16 := rfl
  unfold slotEmpty blockEmpty slotBytes
  rw [getD_slice _ _ _ _ (by omega),readLE32_slice _ _ _ _ (by omega),readLE32_slice _ _ _ _ (by omega)]

theorem primaryEntry_eq (sectorSize : UInt32) (raw : List UInt8) (i : Nat) :
    primaryEntry sectorSize raw i = blockEntry sectorSize i (slotBytes raw i) := by
  have size : MBR_PARTITION_ENTRY_SIZE = 16 := rfl
  unfold primaryEntry blockEntry slotBytes
  rw [getD_slice _ _ _ _ (by omega),getD_slice _ _ _ _ (by omega),readLE32_slice _ _ _ _ (by omega),
    readLE32_slice _ _ _ _ (by omega),decodeCHS_slice _ _ _ _ (by omega),
    decodeCHS_slice _ _ _ _ (by omega)]
  rfl

namespace MbrPartitionTable

theorem chsBytes_three (e : PartitionEntry) (chs : CHSAddress) : ∃ a b c, chsBytes e chs = [a,b,c] := by
  unfold chsBytes
  split
  · exact ⟨_,_,_,rfl⟩
  · exact ⟨_,_,_,rfl⟩

@[simp] theorem length_primarySlot (e : PartitionEntry) : (primarySlot e).length = 16 := by
  obtain ⟨a,b,c,first⟩ := chsBytes_three e e.chsStart
  obtain ⟨d,f,g,last⟩ := chsBytes_three e e.chsEnd
  simp [primarySlot,first,last]

/-- What a slot keeps of an entry: 32 bits of its range, and of its CHS addresses
what fits three bytes. -/
def rewritten (sectorSize : UInt32) (i : Nat) (e : PartitionEntry) : PartitionEntry :=
  { index := i
    startLba := e.startLba.toUInt32.toUInt64
    sectorCount := e.sectorCount.toUInt32.toUInt64
    sectorSize := sectorSize
    mbrType := e.mbrType
    isActive := e.isActive
    isExtended := MbrTypes.isExtendedType e.mbrType
    isLogical := false
    chsStart := decodeCHS (chsBytes e e.chsStart) 0
    chsEnd := decodeCHS (chsBytes e e.chsEnd) 0 }

theorem blockEntry_primarySlot (sectorSize : UInt32) (i : Nat) (e : PartitionEntry) :
    blockEntry sectorSize i (primarySlot e) = rewritten sectorSize i e := by
  have status : (statusByte e == 0x80) = e.isActive := by
    unfold statusByte
    cases e.isActive <;> rfl
  obtain ⟨a,b,c,first⟩ := chsBytes_three e e.chsStart
  obtain ⟨d,f,g,last⟩ := chsBytes_three e e.chsEnd
  have start : readLE32 (primarySlot e) 8 = e.startLba.toUInt32 :=
    readLE32_of_slice (by simp [primarySlot,first,last,slice,le32])
  have count : readLE32 (primarySlot e) 12 = e.sectorCount.toUInt32 :=
    readLE32_of_slice (by simp [primarySlot,first,last,slice,le32])
  unfold blockEntry rewritten
  rw [start,count]
  simp [primarySlot,first,last,decodeCHS,status]

/-- An entry that a slot does not hold as an unused one. -/
def Occupies (e : PartitionEntry) : Prop :=
  ¬ (e.mbrType = MbrTypes.Empty ∧ e.startLba.toUInt32 = 0 ∧ e.sectorCount.toUInt32 = 0)

theorem blockEmpty_primarySlot (e : PartitionEntry) :
    blockEmpty (primarySlot e) = false ↔ Occupies e := by
  obtain ⟨a,b,c,first⟩ := chsBytes_three e e.chsStart
  obtain ⟨d,f,g,last⟩ := chsBytes_three e e.chsEnd
  have type : (primarySlot e).getD 4 0 = e.mbrType := by simp [primarySlot,first]
  have start : readLE32 (primarySlot e) 8 = e.startLba.toUInt32 :=
    readLE32_of_slice (by simp [primarySlot,first,last,slice,le32])
  have count : readLE32 (primarySlot e) 12 = e.sectorCount.toUInt32 :=
    readLE32_of_slice (by simp [primarySlot,first,last,slice,le32])
  rw [blockEmpty,type,start,count,Occupies]
  simp

def slotArea (t : MbrPartitionTable) : List UInt8 :=
  (t.primaries.take MBR_MAX_PRIMARY_PARTITIONS).flatMap primarySlot

theorem length_slotArea (t : MbrPartitionTable) :
    t.slotArea.length = 16 * min 4 t.primaries.length := by
  rw [slotArea,length_flatMap_blocks _ _ length_primarySlot,List.length_take]
  rfl

theorem length_slotArea_le (t : MbrPartitionTable) : t.slotArea.length ≤ 64 := by
  rw [length_slotArea]
  omega

def mbrFields (t : MbrPartitionTable) : List (Nat × List UInt8) :=
  [(0,t.bootCode.data.take 440),(440,le32 t.diskSignature),(444,le16 t.reserved),
    (MBR_PARTITION_ENTRY_OFFSET,t.slotArea),(510,le16 MBR_SIGNATURE)]

theorem mbrSector_eq (t : MbrPartitionTable) :
    t.mbrSector = overwrite (List.replicate MBR_SIZE.toNat 0) t.mbrFields := by
  simp only [mbrSector,overwrite,mbrFields,List.foldl_cons,List.foldl_nil,writeLE32,writeLE16,slotArea]

theorem length_blank : (List.replicate MBR_SIZE.toNat (0 : UInt8)).length = 512 := List.length_replicate

theorem length_bootCode (t : MbrPartitionTable) : (t.bootCode.data.take 440).length = 440 := by
  rw [List.length_take,t.bootCode.size]
  rfl

theorem mbrFields_layout (t : MbrPartitionTable) : Fields 512 t.mbrFields := by
  have boot := length_bootCode t
  have slots := length_slotArea_le t
  have base : MBR_PARTITION_ENTRY_OFFSET = 446 := rfl
  constructor
  · simp [mbrFields,boot,base]
    omega
  · simp [mbrFields,Outside,boot,base]
    omega

@[simp] theorem length_mbrSector (t : MbrPartitionTable) : t.mbrSector.length = 512 := by
  rw [mbrSector_eq]
  exact length_overwrite t.mbrFields_layout.fit length_blank

theorem mbrSector_whole (t : MbrPartitionTable) : MBR_SIZE.toNat ≤ t.mbrSector.length := by
  rw [length_mbrSector]
  decide

theorem mbrSector_field (t : MbrPartitionTable) (off : Nat) (block : List UInt8)
    (member : (off,block) ∈ t.mbrFields) : slice t.mbrSector off block.length = block := by
  rw [mbrSector_eq]
  exact t.mbrFields_layout.read length_blank member

theorem mbrSector_signed (t : MbrPartitionTable) : readLE16 t.mbrSector 510 = MBR_SIGNATURE := by
  have field := t.mbrSector_field 510 (le16 MBR_SIGNATURE) (by simp [mbrFields])
  rw [length_le16] at field
  exact readLE16_of_slice field

theorem slotBytes_mbrSector (t : MbrPartitionTable) (i : Nat) (bound : i < 4) :
    slotBytes t.mbrSector i = (t.primaries[i]?).elim (List.replicate 16 0) primarySlot := by
  have base : MBR_PARTITION_ENTRY_OFFSET = 446 := rfl
  have area := t.mbrSector_field 446 t.slotArea (by simp [mbrFields,base])
  have size : MBR_PARTITION_ENTRY_SIZE = 16 := rfl
  have most : MBR_MAX_PRIMARY_PARTITIONS = 4 := rfl
  have length := length_slotArea t
  unfold slotBytes
  rw [base,size]
  rcases Nat.lt_or_ge i t.primaries.length with present | absent
  · have inside : 16 * i + 16 ≤ t.slotArea.length := by omega
    rw [Nat.mul_comm,← slice_slice _ _ t.slotArea.length _ _ inside,area,slotArea,
      slice_flatMap _ _ length_primarySlot,List.getElem?_take,if_pos (by omega),
      List.getElem?_eq_getElem present]
    rfl
  · rw [List.getElem?_eq_none absent,Option.elim_none]
    rw [← slice_replicate (0 : UInt8) MBR_SIZE.toNat (446 + i * 16) 16 (by simp [MBR_SIZE]; omega),
      mbrSector_eq]
    refine slice_overwrite_apart t.mbrFields_layout.fit length_blank ?_
    simp [mbrFields,Outside,base]
    omega

theorem filter_range_lt (k n : Nat) (fits : k ≤ n) :
    (List.range n).filter (fun i => decide (i < k)) = List.range k := by
  induction n with
  | zero =>
    obtain rfl : k = 0 := by omega
    rfl
  | succ n ih =>
    rw [List.range_succ,List.filter_append]
    rcases Nat.lt_or_eq_of_le fits with below | rfl
    · rw [ih (by omega)]
      simp
      omega
    · have all : (List.range n).filter (fun i => decide (i < n + 1)) = List.range n :=
        List.filter_eq_self.mpr (fun i member => by
          have := List.mem_range.mp member
          simp
          omega)
      rw [all,List.range_succ]
      simp

theorem occupiedSlots_mbrSector (t : MbrPartitionTable) (few : t.primaries.length ≤ 4)
    (each : ∀ e ∈ t.primaries, Occupies e) :
    occupiedSlots t.mbrSector = List.range t.primaries.length := by
  rw [← filter_range_lt _ 4 few]
  refine List.filter_congr ?_
  intro i member
  have bound : i < 4 := List.mem_range.mp member
  rw [slotEmpty_eq,slotBytes_mbrSector t i bound]
  rcases Nat.lt_or_ge i t.primaries.length with present | absent
  · rw [List.getElem?_eq_getElem present,Option.elim_some,
      (blockEmpty_primarySlot _).mpr (each _ (List.getElem_mem present))]
    simpa using present
  · rw [List.getElem?_eq_none absent,Option.elim_none]
    have blank : blockEmpty (List.replicate 16 0) = true := by decide
    rw [blank]
    simpa using absent

theorem primaryEntries_mbrSector (t : MbrPartitionTable) (sectorSize : UInt32)
    (few : t.primaries.length ≤ 4) (each : ∀ e ∈ t.primaries, Occupies e) :
    primaryEntries sectorSize t.mbrSector = t.primaries.mapIdx (rewritten sectorSize) := by
  rw [primaryEntries,occupiedSlots_mbrSector t few each]
  apply List.ext_getElem?
  intro i
  rw [List.getElem?_map,List.getElem?_mapIdx]
  rcases Nat.lt_or_ge i t.primaries.length with present | absent
  · rw [List.getElem?_range present,List.getElem?_eq_getElem present,Option.map_some,Option.map_some,
      primaryEntry_eq,slotBytes_mbrSector t i (by omega),List.getElem?_eq_getElem present,
      Option.elim_some,blockEntry_primarySlot]
  · rw [List.getElem?_eq_none (by simpa using absent),List.getElem?_eq_none absent]
    rfl

theorem length_logicalSlot (e : PartitionEntry) : (logicalSlot e).length = 16 := by
  simp [logicalSlot,encodeCHSOverflow]

theorem length_linkSlot (extStartLba : UInt64) (next : PartitionEntry) :
    (linkSlot extStartLba next).length = 16 := by
  simp [linkSlot,encodeCHSOverflow]

def ebrFields (extStartLba : UInt64) (e : PartitionEntry) (next : Option PartitionEntry) :
    List (Nat × List UInt8) :=
  (MBR_PARTITION_ENTRY_OFFSET,logicalSlot e)
    :: (next.toList.map (fun next =>
        (MBR_PARTITION_ENTRY_OFFSET + MBR_PARTITION_ENTRY_SIZE,linkSlot extStartLba next))
      ++ [(510,le16 MBR_SIGNATURE)])

section EbrSector

variable (extStartLba : UInt64) (e : PartitionEntry) (next : Option PartitionEntry)

theorem ebrSector_eq : ebrSector extStartLba e next =
    overwrite (List.replicate MBR_SIZE.toNat 0) (ebrFields extStartLba e next) := by
  cases next <;> simp [ebrSector,overwrite,ebrFields,writeLE16]

theorem ebrFields_layout : Fields 512 (ebrFields extStartLba e next) := by
  have base : MBR_PARTITION_ENTRY_OFFSET = 446 := rfl
  have size : MBR_PARTITION_ENTRY_SIZE = 16 := rfl
  cases next <;> constructor <;> simp [ebrFields,Outside,base,size,length_logicalSlot,length_linkSlot]

@[simp] theorem length_ebrSector : (ebrSector extStartLba e next).length = 512 := by
  rw [ebrSector_eq]
  exact length_overwrite (ebrFields_layout extStartLba e next).fit length_blank

theorem ebrSector_field (off : Nat) (block : List UInt8)
    (member : (off,block) ∈ ebrFields extStartLba e next) :
    slice (ebrSector extStartLba e next) off block.length = block := by
  rw [ebrSector_eq]
  exact (ebrFields_layout extStartLba e next).read length_blank member

theorem ebrSector_signed : readLE16 (ebrSector extStartLba e next) 510 = MBR_SIGNATURE := by
  have field := ebrSector_field extStartLba e next 510 (le16 MBR_SIGNATURE) (by simp [ebrFields])
  rw [length_le16] at field
  exact readLE16_of_slice field

theorem slotBytes_ebrSector_first : slotBytes (ebrSector extStartLba e next) 0 = logicalSlot e := by
  have field := ebrSector_field extStartLba e next MBR_PARTITION_ENTRY_OFFSET (logicalSlot e)
    (by simp [ebrFields])
  rw [length_logicalSlot] at field
  exact field

theorem slotBytes_ebrSector_second : slotBytes (ebrSector extStartLba e next) 1 =
    next.elim (List.replicate 16 0) (linkSlot extStartLba) := by
  have base : MBR_PARTITION_ENTRY_OFFSET = 446 := rfl
  have size : MBR_PARTITION_ENTRY_SIZE = 16 := rfl
  cases next with
  | none =>
    rw [Option.elim_none,← slice_replicate (0 : UInt8) MBR_SIZE.toNat 462 16 (by decide),ebrSector_eq]
    refine slice_overwrite_apart (ebrFields_layout extStartLba e none).fit length_blank ?_
    simp [ebrFields,Outside,base,size,length_logicalSlot]
  | some link =>
    have field := ebrSector_field extStartLba e (some link)
      (MBR_PARTITION_ENTRY_OFFSET + MBR_PARTITION_ENTRY_SIZE) (linkSlot extStartLba link)
      (by simp [ebrFields])
    rw [length_linkSlot] at field
    exact field

end EbrSector

def ebrRewritten (sectorSize : UInt32) (lba : UInt64) (i : Nat) (e : PartitionEntry) : PartitionEntry :=
  { index := i
    startLba := lba + 1
    sectorCount := e.sectorCount.toUInt32.toUInt64
    sectorSize := sectorSize
    mbrType := e.mbrType
    isActive := e.isActive
    isExtended := false
    isLogical := true
    chsStart := ⟨1023,254,63⟩
    chsEnd := ⟨1023,254,63⟩ }

theorem logicalSlot_fields (e : PartitionEntry) :
    (logicalSlot e).getD 0 0 = statusByte e ∧ (logicalSlot e).getD 4 0 = e.mbrType ∧
      readLE32 (logicalSlot e) 8 = 1 ∧ readLE32 (logicalSlot e) 12 = e.sectorCount.toUInt32 := by
  refine ⟨rfl,rfl,readLE32_of_slice rfl,readLE32_of_slice rfl⟩

/-- The EBR of a logical partition holds it in use unless its type or its size is zero. -/
theorem ebr_used (extStartLba lba : UInt64) (e : PartitionEntry) (next : Option PartitionEntry) :
    (Ebr.mk lba (ebrSector extStartLba e next)).Used ↔
      e.mbrType ≠ MbrTypes.Empty ∧ 0 < e.sectorCount.toUInt32 := by
  have block := slotBytes_ebrSector_first extStartLba e next
  obtain ⟨_,type,_,count⟩ := logicalSlot_fields e
  rw [← block] at type count
  rw [slotBytes,getD_slice _ _ _ _ (by decide)] at type
  rw [slotBytes,readLE32_slice _ _ _ _ (by decide)] at count
  simp only [Ebr.Used]
  simp only [Nat.zero_mul,Nat.add_zero] at type count
  rw [type,count]

theorem ebr_logical (extStartLba lba : UInt64) (e : PartitionEntry) (next : Option PartitionEntry)
    (sectorSize : UInt32) (i : Nat) :
    (Ebr.mk lba (ebrSector extStartLba e next)).logical sectorSize i = ebrRewritten sectorSize lba i e := by
  have block := slotBytes_ebrSector_first extStartLba e next
  obtain ⟨status,type,start,count⟩ := logicalSlot_fields e
  have overflow : decodeCHS encodeCHSOverflow 0 = ⟨1023,254,63⟩ := by decide
  have first : decodeCHS (logicalSlot e) 1 = ⟨1023,254,63⟩ := Eq.trans rfl overflow
  have last : decodeCHS (logicalSlot e) 5 = ⟨1023,254,63⟩ := Eq.trans rfl overflow
  have active : (statusByte e == 0x80) = e.isActive := by
    unfold statusByte
    cases e.isActive <;> rfl
  rw [← block] at status type start count first last
  rw [slotBytes,getD_slice _ _ _ _ (by decide)] at status type
  rw [slotBytes,readLE32_slice _ _ _ _ (by decide)] at start count
  rw [slotBytes,decodeCHS_slice _ _ _ _ (by decide)] at first last
  simp only [Nat.zero_mul,Nat.add_zero] at status type start count first last
  unfold Ebr.logical ebrRewritten
  simp only
  rw [status,type,start,count,first,last,active]
  rfl

theorem ebr_next (extStartLba lba : UInt64) (e : PartitionEntry) (next : Option PartitionEntry)
    (extStart : UInt64) :
    (Ebr.mk lba (ebrSector extStartLba e next)).next extStart =
      next.bind (fun n =>
        if (n.startLba - 1 - extStartLba).toUInt32 ≠ 0 then
          some (extStart + (n.startLba - 1 - extStartLba).toUInt32.toUInt64)
        else none) := by
  have block := slotBytes_ebrSector_second extStartLba e next
  have type : (ebrSector extStartLba e next).getD (446 + 16 + 4) 0 =
      (slotBytes (ebrSector extStartLba e next) 1).getD 4 0 := (getD_slice _ _ _ _ (by decide)).symm
  have link : readLE32 (ebrSector extStartLba e next) (446 + 16 + 8) =
      readLE32 (slotBytes (ebrSector extStartLba e next) 1) 8 := (readLE32_slice _ _ _ _ (by decide)).symm
  have base : MBR_PARTITION_ENTRY_OFFSET = 446 := rfl
  have size : MBR_PARTITION_ENTRY_SIZE = 16 := rfl
  unfold Ebr.next
  simp only [base,size]
  rw [type,link,block]
  cases next with
  | none => rfl
  | some n =>
    have target : readLE32 (linkSlot extStartLba n) 8 = (n.startLba - 1 - extStartLba).toUInt32 :=
      readLE32_of_slice rfl
    have extended : MbrTypes.isExtendedType ((linkSlot extStartLba n).getD 4 0) = true := rfl
    simp only [Option.elim_some,Option.bind_some,target,extended,true_and]

end MbrPartitionTable

section Images

def imageRead (image : List UInt8) : DiskReadCallback :=
  fun off n => .ok (slice image off.toNat n.toNat)

theorem imageRead_first (sector rest : List UInt8) (size : sector.length = 512) :
    imageRead (sector ++ rest) 0 MBR_SIZE = .ok sector := by
  have all := slice_all sector
  rw [size] at all
  have first := slice_append_left sector rest 0 512 (by omega)
  exact congrArg Except.ok (first.trans all)

theorem imageRead_second (sector next : List UInt8) (size : sector.length = 512)
    (nextSize : next.length = 512) : imageRead (sector ++ next) 512 MBR_SIZE = .ok next := by
  have all := slice_all next
  rw [nextSize] at all
  have second := slice_append_right sector next 0 512
  rw [size] at second
  exact congrArg Except.ok (second.trans all)

variable (i : Nat) (block : List UInt8)

def slotSector : List UInt8 :=
  overwrite (List.replicate MBR_SIZE.toNat 0)
    [(MBR_PARTITION_ENTRY_OFFSET + i * MBR_PARTITION_ENTRY_SIZE,block),(510,le16 MBR_SIGNATURE)]

variable (bound : i < 4) (size : block.length = 16)

include bound size in
theorem slotSector_layout : Fields 512
    [(MBR_PARTITION_ENTRY_OFFSET + i * MBR_PARTITION_ENTRY_SIZE,block),(510,le16 MBR_SIGNATURE)] := by
  have base : MBR_PARTITION_ENTRY_OFFSET = 446 := rfl
  have width : MBR_PARTITION_ENTRY_SIZE = 16 := rfl
  constructor <;> simp [Outside,base,width,size] <;> omega

include bound size in
theorem length_slotSector : (slotSector i block).length = 512 :=
  length_overwrite (slotSector_layout i block bound size).fit MbrPartitionTable.length_blank

include bound size in
theorem slotSector_signed : readLE16 (slotSector i block) 510 = MBR_SIGNATURE := by
  have layout := slotSector_layout i block bound size
  have member : (510,le16 MBR_SIGNATURE) ∈
      [(MBR_PARTITION_ENTRY_OFFSET + i * MBR_PARTITION_ENTRY_SIZE,block),(510,le16 MBR_SIGNATURE)] := by simp
  exact readLE16_of_slice (layout.read MbrPartitionTable.length_blank member)

include bound size in
theorem slotBytes_slotSector (j : Nat) (other : j < 4) :
    slotBytes (slotSector i block) j = if j = i then block else List.replicate 16 0 := by
  have base : MBR_PARTITION_ENTRY_OFFSET = 446 := rfl
  have width : MBR_PARTITION_ENTRY_SIZE = 16 := rfl
  have layout := slotSector_layout i block bound size
  by_cases same : j = i
  · subst same
    have field := layout.read MbrPartitionTable.length_blank (List.mem_cons_self ..)
    rw [size] at field
    rw [if_pos rfl]
    exact field
  · rw [if_neg same,← slice_replicate (0 : UInt8) MBR_SIZE.toNat (446 + j * 16) 16
      (by simp [MBR_SIZE]; omega)]
    refine slice_overwrite_apart layout.fit MbrPartitionTable.length_blank ?_
    simp [Outside,base,width,size]
    omega

include bound size in
theorem occupiedSlots_slotSector (filled : blockEmpty block = false) :
    occupiedSlots (slotSector i block) = [i] := by
  have only : occupiedSlots (slotSector i block) = (List.range 4).filter (fun j => decide (j = i)) := by
    refine List.filter_congr ?_
    intro j member
    rw [slotEmpty_eq,slotBytes_slotSector i block bound size j (List.mem_range.mp member)]
    by_cases same : j = i
    · simp [same,filled]
    · rw [if_neg same]
      simpa [same] using (by decide : blockEmpty (List.replicate 16 0) = true)
  rw [only]
  obtain rfl | rfl | rfl | rfl : i = 0 ∨ i = 1 ∨ i = 2 ∨ i = 3 := by omega
  all_goals rfl

end Images

end SetecWizard.Core
