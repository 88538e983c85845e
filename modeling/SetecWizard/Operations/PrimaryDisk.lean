import SetecWizard.Core.OperationQueue
import SetecWizard.Operations.MbrDisk

/-! A disk with an MBR of primary partitions, and what one queued operation makes of it.
Whatever slots the entries were read from, writing the table puts them into the
first ones, so that after an operation an entry is numbered by its position.
-/
namespace SetecWizard.Core
open SetecWizard.Library

/-- What a table says of a partition, its number apart. -/
def PartitionEntry.seen (e : PartitionEntry) : UInt64 × UInt64 × UInt8 × Bool :=
  (e.startLba,e.sectorCount,e.mbrType,e.isActive)

namespace MbrPartitionTable

/-- A primary entry that a slot of the MBR holds as it is. -/
structure FitsSlot (e : PartitionEntry) : Prop where
  primary : e.isLogical = false
  plain : e.isExtended = false
  type : MbrTypes.isExtendedType e.mbrType = false
  low : e.startLba.toNat < 2 ^ 32
  short : e.sectorCount.toNat < 2 ^ 32
  occupies : Occupies e

theorem FitsSlot.moved {e : PartitionEntry} (fits : FitsSlot e) {newStart newSize : UInt64}
    (positive : newSize ≠ 0) (low : newStart ≤ 0xFFFFFFFF) (short : newSize ≤ 0xFFFFFFFF) :
    FitsSlot (e.movedTo newStart newSize) := by
  have lowBound : newStart.toNat ≤ 4294967295 := UInt64.le_iff_toNat_le.mp low
  have shortBound : newSize.toNat ≤ 4294967295 := UInt64.le_iff_toNat_le.mp short
  refine ⟨fits.primary,fits.plain,fits.type,by simp only [PartitionEntry.movedTo]; omega,
    by simp only [PartitionEntry.movedTo]; omega,?_⟩
  rintro ⟨_,_,zero⟩
  have none : newSize.toNat % 2 ^ 32 = 0 := by
    have word := congrArg UInt32.toNat zero
    rwa [UInt64.toNat_toUInt32] at word
  rw [Nat.mod_eq_of_lt (by omega)] at none
  exact positive (UInt64.toNat_inj.mp none)

theorem word_kept {v : UInt64} (bound : v.toNat < 2 ^ 32) : v.toUInt32.toUInt64 = v := by
  apply UInt64.toNat_inj.mp
  rw [UInt32.toNat_toUInt64,UInt64.toNat_toUInt32,Nat.mod_eq_of_lt bound]

theorem FitsSlot.rewritten_seen {e : PartitionEntry} (fits : FitsSlot e) (sectorSize : UInt32) (i : Nat) :
    (rewritten sectorSize i e).seen = e.seen := by
  simp only [PartitionEntry.seen,rewritten,word_kept fits.low,word_kept fits.short]

theorem occupies_primaryEntry {sectorSize : UInt32} {raw : List UInt8} {i : Nat}
    (occupied : i ∈ occupiedSlots raw) : Occupies (primaryEntry sectorSize raw i) := by
  have filled := (List.mem_filter.mp occupied).2
  simp only [Occupies,primaryEntry,UInt32.toUInt32_toUInt64]
  rintro ⟨type,start,count⟩
  rw [slotEmpty,type,start,count] at filled
  simp at filled

theorem fits_primaryEntries {sectorSize : UInt32} {raw : List UInt8}
    (primary : ∀ e ∈ primaryEntries sectorSize raw, e.isExtended = false) :
    ∀ e ∈ primaryEntries sectorSize raw, FitsSlot e := by
  intro e member
  have plain := primary e member
  obtain ⟨i,occupied,rfl⟩ := mem_primaryEntries member
  refine ⟨rfl,plain,plain,?_,?_,occupies_primaryEntry occupied⟩
  · simpa only [primaryEntry,UInt32.toNat_toUInt64] using UInt32.toNat_lt _
  · simpa only [primaryEntry,UInt32.toNat_toUInt64] using UInt32.toNat_lt _

theorem length_primaryEntries_le (sectorSize : UInt32) (raw : List UInt8) :
    (primaryEntries sectorSize raw).length ≤ 4 := by
  rw [primaryEntries,List.length_map]
  exact (List.length_filter_le _ _).trans (by simp [MBR_MAX_PRIMARY_PARTITIONS])

end MbrPartitionTable

/-- Zeros may have been written from the start of one of the entries on. -/
inductive Wiped (disk : Disk) (sectorSize : UInt32) (entries : List PartitionEntry) : Disk → Prop
  | untouched : Wiped disk sectorSize entries disk
  | zeroed (e : PartitionEntry) (member : e ∈ entries) (m : Nat) : Wiped disk sectorSize entries
      (disk.patched (e.startLba * sectorSize.toUInt64).toNat (List.replicate m 0))

theorem Wiped.size {disk middle : Disk} {sectorSize : UInt32} {entries : List PartitionEntry}
    (wiped : Wiped disk sectorSize entries middle) : middle.totalBytes = disk.totalBytes := by
  cases wiped <;> rfl

theorem Wiped.header {disk middle : Disk} {sectorSize : UInt32} {entries : List PartitionEntry}
    (low : ∀ e ∈ entries, e.startLba.toNat < 2 ^ 32) (wiped : Wiped disk sectorSize entries middle) :
    middle.byte sectorSize.toNat = 0 ∨
      ∀ i, sectorSize.toNat ≤ i → i < sectorSize.toNat + sectorSize.toNat → middle.byte i = disk.byte i := by
  cases wiped with
  | untouched => exact .inr (fun _ _ _ => rfl)
  | zeroed e member m =>
    have width := sectorSize.toNat_lt
    have bound := low e member
    have start : (e.startLba * sectorSize.toUInt64).toNat = e.startLba.toNat * sectorSize.toNat := by
      rw [UInt64.toNat_mul,UInt32.toNat_toUInt64,Nat.mod_eq_of_lt]
      calc e.startLba.toNat * sectorSize.toNat < 2 ^ 32 * 2 ^ 32 := Nat.mul_lt_mul'' bound width
        _ = 2 ^ 64 := by norm_num
    rw [start,Disk.patched_byte]
    rcases Nat.lt_or_ge 1 e.startLba.toNat with later | early
    · right
      intro i _ high
      have beyond : 2 * sectorSize.toNat ≤ e.startLba.toNat * sectorSize.toNat := Nat.mul_le_mul_right _ later
      exact patch_apart _ _ _ i (.inl (by omega))
    · have here : e.startLba.toNat * sectorSize.toNat ≤ 1 * sectorSize.toNat := Nat.mul_le_mul_right _ early
      rcases Nat.lt_or_ge sectorSize.toNat (e.startLba.toNat * sectorSize.toNat + m) with reached | short
      · left
        rw [patch,if_pos (by omega),List.getElem?_replicate,if_pos (by omega),Option.getD_some]
      · right
        intro i from_second _
        exact patch_apart _ _ _ i (.inr (by rw [List.length_replicate]; omega))

/-- The disk has an MBR with primary partitions only. -/
structure BearsMbr (disk : Disk) (sectorSize : UInt32) (raw : List UInt8) : Prop extends
    MbrRaw disk raw where
  primary : ∀ e ∈ primaryEntries sectorSize raw, e.isExtended = false
  noGpt : (∃ e ∈ primaryEntries sectorSize raw, e.mbrType = MbrTypes.GPT_Protective) → NoGpt disk sectorSize

namespace BearsMbr

variable {fuel : Nat} {os : Win32} {disk : Disk} {sectorSize : UInt32} {raw : List UInt8}

theorem search (bears : BearsMbr disk sectorSize raw) :
    (primaryEntries sectorSize raw).find? (·.isExtended) = none :=
  List.find?_eq_none.mpr (fun e member => by simp [bears.primary e member])

theorem read (bears : BearsMbr disk sectorSize raw) {table : PartitionTable}
    (read : OperationUtils.readPartitionTable fuel os disk sectorSize = some (.ok table)) :
    512 ≤ sectorSize.toNat ∧ table = .mbr
      (MbrPartitionTable.scanned { diskSizeBytes := disk.totalBytes,sectorSize } raw []) := by
  obtain ⟨sector0,first,long,kind⟩ := PartitionTable.parse_detected (OperationUtils.readPartitionTable_ok read)
  obtain ⟨_,_,map⟩ := OperationUtils.readFunc_first first long
  -- parsing sector 0 leaves no choice
  have only (t : MbrPartitionTable) (parsed : MbrPartitionTable.parse fuel
      { diskSizeBytes := disk.totalBytes,sectorSize } (OperationUtils.readFunc os disk sectorSize) = some (.ok t)) :
      512 ≤ sectorSize.toNat ∧
        t = MbrPartitionTable.scanned { diskSizeBytes := disk.totalBytes,sectorSize } raw [] := by
    obtain ⟨bound,chain,scan⟩ := OperationUtils.scan_first first long parsed
    rw [bears.first] at scan
    cases scan.onDisk with
    | absent => exact ⟨bound,scan.table⟩
    | walked ext chain found =>
      rw [bears.search] at found
      cases found
  cases kind with
  | apm t apple =>
    rw [map,bears.first] at apple
    exact absurd apple bears.noMap
  | mbr t _ _ parsed =>
    obtain ⟨bound,same⟩ := only t parsed
    exact ⟨bound,congrArg PartitionTable.mbr same⟩
  | gpt t backing _ _ parsed protective found =>
    obtain ⟨_,rfl⟩ := only t parsed
    rw [MbrPartitionTable.hasGptProtective,MbrPartitionTable.entries_scanned] at protective
    obtain ⟨e,member,type⟩ := List.any_eq_true.mp protective
    exact absurd found (bears.noGpt ⟨e,member,by simpa using type⟩ os backing)

/-- A snapshot without extended partitions, and without a GPT behind a protective entry. -/
theorem of_snapshot {t : MbrPartitionTable}
    (read : OperationUtils.readPartitionTable fuel os disk sectorSize = some (.ok (.mbr t)))
    (primary : ∀ e ∈ t.entries, e.isExtended = false)
    (unprotected : t.hasGptProtective = true → NoGpt disk sectorSize) :
    ∃ raw, BearsMbr disk sectorSize raw ∧ t.entries = primaryEntries sectorSize raw := by
  obtain ⟨raw,chain,mbr,_,scan⟩ := OperationUtils.read_mbr read
  have parts := congrArg MbrPartitionTable.entries scan.table
  have among : ∀ e ∈ primaryEntries sectorSize raw, e ∈ t.entries := by
    intro e member
    rw [parts]
    exact List.mem_append_left _ member
  have plain : ∀ e ∈ primaryEntries sectorSize raw, e.isExtended = false :=
    fun e member => primary e (among e member)
  refine ⟨raw,⟨mbr,plain,?_⟩,?_⟩
  · rintro ⟨e,member,type⟩
    refine unprotected (List.any_eq_true.mpr ⟨e,among e member,?_⟩)
    rw [type]
    rfl
  · cases scan.onDisk with
    | absent => rw [parts,MbrPartitionTable.entries_scanned]
    | walked ext chain found =>
      have extended : ext.isExtended = true := by simpa using List.find?_some found
      rw [plain ext (List.mem_of_find?_eq_some found)] at extended
      cases extended

theorem readable (bears : BearsMbr disk sectorSize raw) (bound : 512 ≤ sectorSize.toNat)
    (moderate : sectorSize.toNat < 2 ^ 31) (room : sectorSize.toNat ≤ disk.totalBytes.toNat) (fuel : Nat) :
    OperationUtils.readPartitionTable fuel .working disk sectorSize = some (.ok (.mbr
      (MbrPartitionTable.scanned { diskSizeBytes := disk.totalBytes,sectorSize } raw []))) := by
  have size : MBR_SIZE.toNat = 512 := rfl
  have origin : (0 : UInt64).toNat = 0 := rfl
  have first : OperationUtils.readFunc .working disk sectorSize 0 sectorSize =
      .ok (window disk.byte 0 sectorSize.toNat) :=
    readFunc_working_sector disk moderate (by rw [origin,Nat.zero_mul]) (by omega) (by omega) (Nat.le_refl _)
  have sector : OperationUtils.readFunc .working disk sectorSize 0 MBR_SIZE = .ok raw := by
    rw [← bears.first]
    exact readFunc_working_sector disk moderate (by rw [origin,Nat.zero_mul]) (by omega) (by omega) (by omega)
  have long : 512 ≤ (window disk.byte 0 sectorSize.toNat).length := by rwa [length_window]
  obtain ⟨_,signature,map⟩ := OperationUtils.readFunc_first first long
  rw [bears.first] at signature map
  have whole : MBR_SIZE.toNat ≤ raw.length := bears.size.ge
  rw [readPartitionTable_working]
  refine PartitionTable.parse_of_mbr first long (by rw [map]; exact bears.noMap)
    (by rw [signature]; exact bears.signed)
    (MbrPartitionTable.parse_of_no_container _ sector whole bears.signed bears.search fuel) ?_
  intro protective
  rw [MbrPartitionTable.hasGptProtective,MbrPartitionTable.entries_scanned] at protective
  obtain ⟨e,member,type⟩ := List.any_eq_true.mp protective
  have none := bears.noGpt ⟨e,member,by simpa using type⟩ .working
  cases outcome : GptPartitionTable.parse { diskSizeBytes := disk.totalBytes,sectorSize }
      (OperationUtils.readFunc .working disk sectorSize) with
  | error e => exact ⟨e,rfl⟩
  | ok t => exact absurd outcome (none t)

end BearsMbr

end SetecWizard.Core
