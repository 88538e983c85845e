import SetecWizard.Format.Slots

/-! The MBR sector parsed and serialized with no edit in between. All bytes outside
the slots come back; an occupied slot that has no empty one before it comes back in
its place, with its CHS bytes replaced by the sentinel when it starts beyond the
CHS range; slots that are empty to the end come back as zeros.
-/
namespace SetecWizard.Core
open SetecWizard.Library

theorem UInt8.forall_of_bytes {P : UInt8 → Prop} (all : ∀ n < 256, P (UInt8.ofNat n)) (b : UInt8) : P b := by
  have back : UInt8.ofNat b.toNat = b := UInt8.ofNat_toNat
  rw [← back]
  exact all b.toNat b.toNat_lt

theorem chs_sector_bits (b : UInt8) :
    (((b &&& 0x3F).toUInt32 &&& (0x3F : UInt32)) |||
      ((((b &&& 0xC0).toUInt32 <<< 2) >>> 2) &&& (0xC0 : UInt32))).toUInt8 = b ∧
    ((b &&& 0xC0).toUInt32 <<< 2) &&& (0xFF : UInt32) = 0 := by
  revert b
  refine UInt8.forall_of_bytes ?_
  decide +kernel

theorem chs_cylinder_bits (b : UInt8) :
    (b.toUInt32 >>> 2) &&& (0xC0 : UInt32) = 0 ∧ (b.toUInt32 &&& (0xFF : UInt32)).toUInt8 = b := by
  revert b
  refine UInt8.forall_of_bytes ?_
  decide +kernel

theorem or_and_right (a b c : UInt32) : (a ||| b) &&& c = (a &&& c) ||| (b &&& c) := by
  apply UInt32.toNat_inj.mp
  simp only [UInt32.toNat_and,UInt32.toNat_or]
  exact Nat.and_or_distrib_right ..

theorem encodeCHS_decodeCHS (p : List UInt8) (off : Nat) :
    encodeCHS (decodeCHS p off) = [p.getD off 0,p.getD (off + 1) 0,p.getD (off + 2) 0] := by
  obtain ⟨sector,high⟩ := chs_sector_bits (p.getD (off + 1) 0)
  obtain ⟨low,cylinder⟩ := chs_cylinder_bits (p.getD (off + 2) 0)
  simp only [encodeCHS,decodeCHS,List.cons.injEq,and_true,true_and]
  refine ⟨?_,?_⟩
  · rw [UInt32.shiftRight_or,or_and_right,low,UInt32.zero_or]
    exact sector
  · rw [or_and_right,high,UInt32.or_zero]
    exact cylinder

/-- A slot as it is written back: CHS bytes beyond the CHS range become the sentinel. -/
def keptSlot (block : List UInt8) : List UInt8 :=
  if MbrPartitionTable.CHS_LIMIT < (readLE32 block 8).toUInt64 then
    overwrite block [(1,encodeCHSOverflow),(5,encodeCHSOverflow)]
  else block

theorem sixteen {block : List UInt8} (size : block.length = 16) :
    ∃ a b c d e f g h i j k l m n o p, block = [a,b,c,d,e,f,g,h,i,j,k,l,m,n,o,p] := by
  match block,size with
  | [a,b,c,d,e,f,g,h,i,j,k,l,m,n,o,p],_ => exact ⟨a,b,c,d,e,f,g,h,i,j,k,l,m,n,o,p,rfl⟩

namespace MbrPartitionTable

theorem primarySlot_blockEntry (sectorSize : UInt32) (i : Nat) {block : List UInt8}
    (size : block.length = 16) (status : block.getD 0 0 = 0x00 ∨ block.getD 0 0 = 0x80) :
    primarySlot (blockEntry sectorSize i block) = keptSlot block := by
  have start : le32 (readLE32 block 8) = slice block 8 4 := le32_readLE32 (by omega)
  have count : le32 (readLE32 block 12) = slice block 12 4 := le32_readLE32 (by omega)
  have first := encodeCHS_decodeCHS block 1
  have last := encodeCHS_decodeCHS block 5
  have active : statusByte (blockEntry sectorSize i block) = block.getD 0 0 := by
    have flag : (blockEntry sectorSize i block).isActive = (block.getD 0 0 == 0x80) := rfl
    rcases status with clear | set
    · have off : (blockEntry sectorSize i block).isActive = false := by rw [flag,clear]; rfl
      rw [statusByte,off,clear]
      rfl
    · have on : (blockEntry sectorSize i block).isActive = true := by rw [flag,set]; rfl
      rw [statusByte,on,set]
      rfl
  unfold primarySlot chsBytes keptSlot
  rw [active]
  simp only [blockEntry,UInt32.toUInt32_toUInt64,start,count,first,last]
  obtain ⟨a,b,c,d,e,f,g,h,i,j,k,l,m,n,o,p,rfl⟩ := sixteen size
  split
  · rfl
  · rfl

/-- No slot has an extended type. -/
def NoExtendedSlot (raw : List UInt8) : Prop :=
  ∀ i < 4, MbrTypes.isExtendedType ((slotBytes raw i).getD 4 0) = false

theorem mem_occupiedSlots {raw : List UInt8} {i : Nat} (member : i ∈ occupiedSlots raw) : i < 4 :=
  List.mem_range.mp (List.mem_filter.mp member).1

section ReadAndWritten

variable (self : MbrPartitionTable) {raw : List UInt8}

theorem primaryEntries_not_extended (plain : NoExtendedSlot raw) (sectorSize : UInt32) :
    ∀ e ∈ primaryEntries sectorSize raw, e.isExtended = false := by
  intro e member
  obtain ⟨i,occupied,rfl⟩ := mem_primaryEntries member
  rw [primaryEntry_eq]
  exact plain i (mem_occupiedSlots occupied)

theorem serialize_scanned (plain : NoExtendedSlot raw) :
    (self.scanned raw []).serialize = .ok (self.scanned raw []).mbrSector := by
  have none : (self.scanned raw []).findExtended = none := by
    rw [findExtended,entries_scanned,List.find?_eq_none]
    intro e member
    simp [primaryEntries_not_extended plain _ e member]
  rw [serialize,none]

theorem primaries_scanned : (self.scanned raw []).primaries = primaryEntries self.sectorSize raw := by
  rw [primaries,entries_scanned]
  refine List.filter_eq_self.mpr ?_
  intro e member
  obtain ⟨i,_,rfl⟩ := mem_primaryEntries member
  rfl

theorem head_scanned (size : raw.length = 512) :
    slice (self.scanned raw []).mbrSector 0 446 = slice raw 0 446 := by
  let t := self.scanned raw []
  have boot := t.mbrSector_field 0 (t.bootCode.data.take 440) (by simp [mbrFields])
  have signature := t.mbrSector_field 440 (le32 t.diskSignature) (by simp [mbrFields])
  have reserved := t.mbrSector_field 444 (le16 t.reserved) (by simp [mbrFields])
  rw [length_bootCode] at boot
  rw [length_le32] at signature
  rw [length_le16] at reserved
  have code : t.bootCode.data.take 440 = slice raw 0 440 := by
    have copied := Bytes.copy_data raw 0 446 (by omega)
    have bytes : t.bootCode.data = slice raw 0 446 := copied
    rw [bytes]
    exact slice_slice raw 0 446 0 440 (by omega)
  have id : le32 t.diskSignature = slice raw 440 4 := le32_readLE32 (by omega)
  have word : le16 t.reserved = slice raw 444 2 := le16_readLE16 (by omega)
  calc slice t.mbrSector 0 446
      = slice t.mbrSector 0 440 ++ slice t.mbrSector 440 4 ++ slice t.mbrSector 444 2 := by
        rw [← slice_add t.mbrSector 0 440 4,← slice_add t.mbrSector 0 444 2]
    _ = slice raw 0 440 ++ slice raw 440 4 ++ slice raw 444 2 := by
        rw [boot,signature,reserved,code,id,word]
    _ = slice raw 0 446 := by
        rw [← slice_add raw 0 440 4,← slice_add raw 0 444 2]

theorem tail_mbrSector (t : MbrPartitionTable) (size : raw.length = 512)
    (signed : readLE16 raw 510 = MBR_SIGNATURE) : slice t.mbrSector 510 2 = slice raw 510 2 := by
  have field := t.mbrSector_field 510 (le16 MBR_SIGNATURE) (by simp [mbrFields])
  rw [length_le16] at field
  rw [field,← signed]
  exact le16_readLE16 (by omega)

theorem occupiedSlots_prefix {i : Nat} (bound : i < 4) (filled : ∀ j ≤ i, slotEmpty raw j = false) :
    (occupiedSlots raw)[i]? = some i := by
  have parts : List.range 4 = List.range (i + 1) ++ (List.range (4 - (i + 1))).map (i + 1 + ·) := by
    rw [← List.range_add]
    congr 1
    omega
  have first : (List.range (i + 1)).filter (fun i => !slotEmpty raw i) = List.range (i + 1) :=
    List.filter_eq_self.mpr (fun j member => by
      have below := List.mem_range.mp member
      simp [filled j (by omega)])
  have whole : occupiedSlots raw = (List.range 4).filter (fun i => !slotEmpty raw i) := rfl
  rw [whole,parts,List.filter_append,first,List.getElem?_append_left (by simp)]
  simp

theorem occupiedSlots_suffix {i : Nat} (bound : i < 4)
    (blank : ∀ j, i ≤ j → j < 4 → slotEmpty raw j = true) : (occupiedSlots raw)[i]? = none := by
  have parts : List.range 4 = List.range i ++ (List.range (4 - i)).map (i + ·) := by
    rw [← List.range_add]
    congr 1
    omega
  have last : ((List.range (4 - i)).map (i + ·)).filter (fun i => !slotEmpty raw i) = [] :=
    List.filter_eq_nil_iff.mpr (fun j member => by
      obtain ⟨k,below,rfl⟩ := List.mem_map.mp member
      have := List.mem_range.mp below
      simp [blank (i + k) (by omega) (by omega)])
  have whole : occupiedSlots raw = (List.range 4).filter (fun i => !slotEmpty raw i) := rfl
  rw [whole,parts,List.filter_append,last,List.append_nil]
  refine List.getElem?_eq_none ((List.length_filter_le _ _).trans ?_)
  rw [List.length_range]

theorem slot_kept (size : raw.length = 512) {i : Nat} (bound : i < 4)
    (status : (slotBytes raw i).getD 0 0 = 0x00 ∨ (slotBytes raw i).getD 0 0 = 0x80)
    (filled : ∀ j ≤ i, slotEmpty raw j = false) :
    slotBytes (self.scanned raw []).mbrSector i = keptSlot (slotBytes raw i) := by
  have block : (slotBytes raw i).length = 16 := by
    have base : MBR_PARTITION_ENTRY_OFFSET = 446 := rfl
    have width : MBR_PARTITION_ENTRY_SIZE = 16 := rfl
    unfold slotBytes
    rw [base,width]
    exact length_slice _ _ _ (by omega)
  rw [slotBytes_mbrSector _ i bound,primaries_scanned,primaryEntries,List.getElem?_map,
    occupiedSlots_prefix bound filled,Option.map_some,Option.elim_some,primaryEntry_eq,
    primarySlot_blockEntry _ _ block status]

theorem slot_blank {i : Nat} (bound : i < 4) (blank : ∀ j, i ≤ j → j < 4 → slotEmpty raw j = true) :
    slotBytes (self.scanned raw []).mbrSector i = List.replicate 16 0 := by
  rw [slotBytes_mbrSector _ i bound,primaries_scanned,primaryEntries,List.getElem?_map,
    occupiedSlots_suffix bound blank]
  rfl

theorem no_container (plain : NoExtendedSlot raw) (sectorSize : UInt32) :
    (primaryEntries sectorSize raw).find? (·.isExtended) = none := by
  rw [List.find?_eq_none]
  intro e member
  simp [primaryEntries_not_extended plain _ e member]

end ReadAndWritten

/-- A signed sector without an extended slot, parsed and serialized: everything around
the slots comes back, occupied slots in the front come back in place up to the CHS
sentinel, and the slots after the last occupied one come back as zeros. -/
theorem parse_serialize_sector (fuel : Nat) (self : MbrPartitionTable) (readFunc : DiskReadCallback)
    (raw : List UInt8) (sector : readFunc 0 MBR_SIZE = .ok raw) (size : raw.length = 512)
    (signed : readLE16 raw 510 = MBR_SIGNATURE) (plain : NoExtendedSlot raw)
    (status : ∀ i < 4, (slotBytes raw i).getD 0 0 = 0x00 ∨ (slotBytes raw i).getD 0 0 = 0x80) :
    ∃ t image, parse fuel self readFunc = some (.ok t) ∧ t.serialize = .ok image ∧
      image.length = 512 ∧ slice image 0 446 = slice raw 0 446 ∧ slice image 510 2 = slice raw 510 2 ∧
      (∀ i < 4, (∀ j ≤ i, slotEmpty raw j = false) → slotBytes image i = keptSlot (slotBytes raw i)) ∧
      (∀ i < 4, (∀ j, i ≤ j → j < 4 → slotEmpty raw j = true) →
        slotBytes image i = List.replicate 16 0) := by
  have whole : MBR_SIZE.toNat ≤ raw.length := by
    rw [size]
    decide
  refine ⟨self.scanned raw [],(self.scanned raw []).mbrSector,?_,serialize_scanned self plain,
    length_mbrSector _,head_scanned self size,tail_mbrSector _ size signed,?_,?_⟩
  · exact parse_of_no_container self sector whole signed (no_container plain _) fuel
  · exact fun i bound filled => slot_kept self size bound (status i bound) filled
  · exact fun i bound blank => slot_blank self bound blank

/-- A slot from sector 20000000 on with CHS addresses of its own. -/
def farSlot : List UInt8 :=
  [0x00,0x01,0x01,0x00,0x07,0x02,0x02,0x00,0x00,0x2D,0x31,0x01,0xE8,0x03,0x00,0x00]

def farSector : List UInt8 := slotSector 0 farSlot

theorem length_farSector : farSector.length = 512 := length_slotSector 0 farSlot (by decide) rfl

theorem signed_farSector : readLE16 farSector 510 = MBR_SIGNATURE :=
  slotSector_signed 0 farSlot (by decide) rfl

theorem slotBytes_farSector (i : Nat) (bound : i < 4) :
    slotBytes farSector i = if i = 0 then farSlot else List.replicate 16 0 :=
  slotBytes_slotSector 0 farSlot (by decide) rfl i bound

theorem plain_farSector : NoExtendedSlot farSector := by
  intro i bound
  rw [slotBytes_farSector i bound]
  split <;> rfl

theorem status_farSector (i : Nat) (bound : i < 4) :
    (slotBytes farSector i).getD 0 0 = 0x00 ∨ (slotBytes farSector i).getD 0 0 = 0x80 := by
  rw [slotBytes_farSector i bound]
  split <;> exact .inl rfl

theorem sector_farSector : imageRead farSector 0 MBR_SIZE = .ok farSector := by
  have first := imageRead_first farSector [] length_farSector
  rwa [List.append_nil] at first

theorem parse_serialize_sector_sample :
    ∃ t image, parse 1 {} (imageRead farSector) = some (.ok t) ∧ t.serialize = .ok image ∧
      image.length = 512 ∧ slice image 0 446 = slice farSector 0 446 ∧
      slice image 510 2 = slice farSector 510 2 ∧
      (∀ i < 4, (∀ j ≤ i, slotEmpty farSector j = false) →
        slotBytes image i = keptSlot (slotBytes farSector i)) ∧
      (∀ i < 4, (∀ j, i ≤ j → j < 4 → slotEmpty farSector j = true) →
        slotBytes image i = List.replicate 16 0) :=
  parse_serialize_sector 1 {} (imageRead farSector) farSector sector_farSector length_farSector
    signed_farSector plain_farSector status_farSector

/-- The CHS addresses of the far slot do not survive. -/
theorem far_slot_not_reproduced :
    ¬ ∀ raw : List UInt8, raw.length = 512 → readLE16 raw 510 = MBR_SIGNATURE → NoExtendedSlot raw →
      (∀ i < 4, (slotBytes raw i).getD 0 0 = 0x00 ∨ (slotBytes raw i).getD 0 0 = 0x80) →
      ∀ t image, parse 1 {} (imageRead raw) = some (.ok t) → t.serialize = .ok image → image = raw := by
  intro always
  let t : MbrPartitionTable := scanned {} farSector []
  have whole : MBR_SIZE.toNat ≤ farSector.length := by
    rw [length_farSector]
    decide
  have parsed : parse 1 {} (imageRead farSector) = some (.ok t) :=
    parse_of_no_container {} sector_farSector whole signed_farSector (no_container plain_farSector _) 1
  have same := always farSector length_farSector signed_farSector plain_farSector status_farSector t
    t.mbrSector parsed (serialize_scanned {} plain_farSector)
  have kept : slotBytes t.mbrSector 0 = keptSlot farSlot := by
    have filled : ∀ j ≤ 0, slotEmpty farSector j = false := by
      intro j below
      obtain rfl : j = 0 := by omega
      rw [slotEmpty_eq,slotBytes_farSector 0 (by decide)]
      decide
    have slot := slot_kept {} length_farSector (by decide) (status_farSector 0 (by decide)) filled
    rwa [slotBytes_farSector 0 (by decide),if_pos rfl] at slot
  rw [same,slotBytes_farSector 0 (by decide),if_pos rfl] at kept
  revert kept
  decide

end MbrPartitionTable

end SetecWizard.Core
