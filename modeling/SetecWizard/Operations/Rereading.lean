import SetecWizard.Operations.MbrDisk

/-! Reading a disk once more. Reads that deliver all the bytes there are depend on the
disk alone, so that the tables two operations find are told apart by the bytes
between them; what such a read takes for an MBR, and for a GPT behind one, is said
here without the fuel.
-/
namespace SetecWizard.Core
open SetecWizard.Library

/-- Reads that succeed and are not cut short. Writes, opens and locks may still fail. -/
def Win32.ReadsInFull (os : Win32) : Prop := ∀ off length, os.readFile off length = .ok length

theorem Win32.working_readsInFull : Win32.working.ReadsInFull := fun _ _ => rfl

section InFull

variable {os : Win32} (full : os.ReadsInFull) {disk : Disk} {sectorSize : UInt32}
include full

theorem readFunc_full (disk : Disk) (sectorSize : UInt32) :
    OperationUtils.readFunc os disk sectorSize = OperationUtils.readFunc .working disk sectorSize := by
  funext off n
  unfold OperationUtils.readFunc RawDiskHandle.readSectors
  simp only [full _ _,Win32.working]

theorem readPartitionTable_full {fuel : Nat} {table : PartitionTable}
    (read : OperationUtils.readPartitionTable fuel os disk sectorSize = some (.ok table)) :
    OperationUtils.readPartitionTable fuel .working disk sectorSize = some (.ok table) := by
  have parsed := OperationUtils.readPartitionTable_ok read
  rw [readFunc_full full] at parsed
  exact parsed

end InFull

section Sectors

variable (disk : Disk) {sectorSize : UInt32}

def Disk.reach (off n : Nat) : Nat := min n (disk.totalBytes.toNat - off)

theorem readSectors_counted (lba : UInt64) (count : UInt32) (below : count.toNat * sectorSize.toNat < 2 ^ 32) :
    RawDiskHandle.readSectors .working disk lba count.toUInt64 sectorSize = .ok (window disk.byte
      (lba * sectorSize.toUInt64).toNat
      (disk.reach (lba * sectorSize.toUInt64).toNat (count.toNat * sectorSize.toNat))) := by
  have limit : MAXDWORD.toNat = 2 ^ 32 - 1 := rfl
  unfold RawDiskHandle.readSectors
  generalize lba * sectorSize.toUInt64 = start
  have bytes : (count.toUInt64 * sectorSize.toUInt64).toNat = count.toNat * sectorSize.toNat := by
    rw [UInt64.toNat_mul,UInt32.toNat_toUInt64,UInt32.toNat_toUInt64,Nat.mod_eq_of_lt (by omega)]
  by_cases none : count.toUInt64 = 0
  · have zero : count.toNat = 0 := by
      have word := congrArg UInt64.toNat none
      rwa [UInt32.toNat_toUInt64] at word
    simp [none,zero,window,Disk.reach]
  · have allowed : ¬ MAXDWORD < count.toUInt64 * sectorSize.toUInt64 := by
      rw [UInt64.lt_iff_toNat_lt,limit,bytes]
      omega
    simp only [if_neg none,if_neg allowed,Win32.working,bytes,RawDiskHandle.available,Nat.min_self,Disk.reach]

theorem sectors_below (n sectorSize : UInt32) :
    ((n + sectorSize - 1) / sectorSize).toNat * sectorSize.toNat < 2 ^ 32 := by
  rw [UInt32.toNat_div]
  exact Nat.lt_of_le_of_lt (Nat.div_mul_le_self _ _) (UInt32.toNat_lt _)

/-- Sector counts are computed in 32 bits, so that no read is turned down. -/
theorem readFunc_counted (off : UInt64) (n : UInt32) :
    OperationUtils.readFunc .working disk sectorSize off n = .ok (window disk.byte
      (off / sectorSize.toUInt64 * sectorSize.toUInt64).toNat
      (min n.toNat (disk.reach (off / sectorSize.toUInt64 * sectorSize.toUInt64).toNat
        (((n + sectorSize - 1) / sectorSize).toNat * sectorSize.toNat)))) := by
  simp only [OperationUtils.readFunc,readSectors_counted disk _ _ (sectors_below n sectorSize),Except.map]
  generalize (off / sectorSize.toUInt64 * sectorSize.toUInt64).toNat = start
  rcases Nat.le_total n.toNat (disk.reach start (((n + sectorSize - 1) / sectorSize).toNat * sectorSize.toNat)) with
    cut | all
  · rw [Nat.min_eq_left cut]
    exact congrArg Except.ok (take_window _ _ _ _ cut)
  · rw [Nat.min_eq_right all]
    exact congrArg Except.ok (List.take_of_length_le (by rw [length_window]; exact all))

theorem readFunc_sector (moderate : sectorSize.toNat ≤ 2 ^ 31) (off : UInt64) {n : UInt32}
    (some_byte : 0 < n.toNat) (part : n.toNat ≤ sectorSize.toNat) :
    OperationUtils.readFunc .working disk sectorSize off n = .ok (window disk.byte
      (off / sectorSize.toUInt64 * sectorSize.toUInt64).toNat
      (disk.reach (off / sectorSize.toUInt64 * sectorSize.toUInt64).toNat n.toNat)) := by
  have one : (1 : UInt32).toNat = 1 := rfl
  have last : (n + sectorSize - 1).toNat = n.toNat + sectorSize.toNat - 1 := by
    rw [UInt32.toNat_sub,UInt32.toNat_add,one]
    omega
  have single : ((n + sectorSize - 1) / sectorSize).toNat = 1 := by
    rw [UInt32.toNat_div,last]
    exact Nat.div_eq_of_lt_le (by omega) (by omega)
  rw [readFunc_counted,single,Nat.one_mul]
  generalize (off / sectorSize.toUInt64 * sectorSize.toUInt64).toNat = start
  have length : min n.toNat (disk.reach start sectorSize.toNat) = disk.reach start n.toNat := by
    unfold Disk.reach
    omega
  rw [length]

theorem start_zero (sectorSize : UInt32) :
    ((0 : UInt64) / sectorSize.toUInt64 * sectorSize.toUInt64).toNat = 0 := by
  rw [UInt64.zero_div,UInt64.zero_mul]
  rfl

theorem start_sector {off : UInt64} {lba : Nat} (positive : 0 < sectorSize.toNat)
    (start : off.toNat = lba * sectorSize.toNat) :
    (off / sectorSize.toUInt64 * sectorSize.toUInt64).toNat = off.toNat := by
  have bound := off.toNat_lt
  rw [UInt64.toNat_mul,UInt64.toNat_div,UInt32.toNat_toUInt64,start,Nat.mul_div_cancel _ positive,← start,
    Nat.mod_eq_of_lt bound]

theorem sector_bounds {sector0 : List UInt8}
    (first : OperationUtils.readFunc .working disk sectorSize 0 sectorSize = .ok sector0)
    (long : 512 ≤ sector0.length) :
    512 ≤ sectorSize.toNat ∧ sectorSize.toNat ≤ 2 ^ 31 ∧ 512 ≤ disk.totalBytes.toNat := by
  have width := sectorSize.toNat_lt
  have one : (1 : UInt32).toNat = 1 := rfl
  rw [readFunc_counted,start_zero] at first
  cases first
  rw [length_window,Disk.reach,Nat.sub_zero] at long
  refine ⟨by omega,?_,by omega⟩
  refine Nat.le_of_not_lt (fun large => ?_)
  have wrapped : ((sectorSize + sectorSize - 1) / sectorSize).toNat = 0 := by
    rw [UInt32.toNat_div,UInt32.toNat_sub,UInt32.toNat_add,one]
    exact Nat.div_eq_of_lt (by omega)
  rw [wrapped] at long
  omega

end Sectors

def GptBehind (disk : Disk) (sectorSize : UInt32) : Prop :=
  ∃ t, GptPartitionTable.parse { diskSizeBytes := disk.totalBytes,sectorSize }
    (OperationUtils.readFunc .working disk sectorSize) = .ok t

section Behind

variable {disk disk' : Disk} {sectorSize : UInt32}

/-- Only the header decides. -/
theorem gptBehind_iff (positive : 0 < sectorSize.toNat) (moderate : sectorSize.toNat ≤ 2 ^ 31) :
    GptBehind disk sectorSize ↔ GptPartitionTable.Readable
      (window disk.byte sectorSize.toNat (disk.reach sectorSize.toNat sectorSize.toNat)) := by
  have header := readFunc_sector disk moderate sectorSize.toUInt64 positive (Nat.le_refl _)
  have second : sectorSize.toUInt64.toNat = 1 * sectorSize.toNat := by rw [UInt32.toNat_toUInt64,Nat.one_mul]
  rw [start_sector positive second,UInt32.toNat_toUInt64] at header
  rw [GptBehind,GptPartitionTable.parse_reads]
  constructor
  · rintro ⟨sector0,headerData,entryData,_,second,readable,_⟩
    rw [header] at second
    cases second
    exact readable
  · intro readable
    exact ⟨_,_,_,readFunc_counted disk 0 sectorSize,header,readable,readFunc_counted disk _ _⟩

/-- A disk whose second sector begins with a zero byte has no GPT, and one whose second
sector is as before has none that was not there. -/
theorem gptBehind_kept (positive : 0 < sectorSize.toNat) (moderate : sectorSize.toNat ≤ 2 ^ 31)
    (size : disk'.totalBytes = disk.totalBytes)
    (header : disk'.byte sectorSize.toNat = 0 ∨
      ∀ i, sectorSize.toNat ≤ i → i < sectorSize.toNat + sectorSize.toNat → disk'.byte i = disk.byte i)
    (found : GptBehind disk' sectorSize) : GptBehind disk sectorSize := by
  have readable := (gptBehind_iff positive moderate).mp found
  have reach : disk'.reach = disk.reach := by
    funext off n
    rw [Disk.reach,Disk.reach,size]
  rw [reach] at readable
  rcases header with wiped | kept
  · have byte := readable.first_byte
    have long := readable.long
    have bytes : GPT_HEADER_SIZE.toNat = 92 := rfl
    rw [length_window] at long
    rw [getD_window _ _ _ _ (by omega),Nat.add_zero,wiped] at byte
    exact absurd rfl byte
  · have same : window disk'.byte sectorSize.toNat (disk.reach sectorSize.toNat sectorSize.toNat) =
        window disk.byte sectorSize.toNat (disk.reach sectorSize.toNat sectorSize.toNat) :=
      window_congr _ _ _ _ (fun i low high => kept i low (by unfold Disk.reach at high; omega))
    rw [same] at readable
    exact (gptBehind_iff positive moderate).mpr readable

end Behind

/-- The first sector is signed and is no Apple map, and its size is one that can be read. -/
structure Legible (disk : Disk) (sectorSize : UInt32) : Prop where
  long : 512 ≤ sectorSize.toNat
  moderate : sectorSize.toNat ≤ 2 ^ 31
  room : 512 ≤ disk.totalBytes.toNat
  signed : readLE16 (window disk.byte 0 512) 510 = MBR_SIGNATURE
  noMap : readBE16 (window disk.byte 0 512) 0 ≠ APM_DDM_SIGNATURE

theorem Legible.positive {disk : Disk} {sectorSize : UInt32} (legible : Legible disk sectorSize) :
    0 < sectorSize.toNat := by
  have long := legible.long
  omega

theorem Legible.sector {disk : Disk} {sectorSize : UInt32} (legible : Legible disk sectorSize) :
    OperationUtils.readFunc .working disk sectorSize 0 MBR_SIZE = .ok (window disk.byte 0 512) := by
  have size : MBR_SIZE.toNat = 512 := rfl
  have long := legible.long
  have room := legible.room
  have read := readFunc_sector disk legible.moderate 0 (by decide : 0 < MBR_SIZE.toNat) long
  rw [start_zero,Disk.reach,Nat.sub_zero,size,Nat.min_eq_left room] at read
  exact read

/-- The MBR table of the disk, with the chain its logical partitions come from. -/
structure MbrAt (disk : Disk) (sectorSize : UInt32) (chain : List Ebr) (t : MbrPartitionTable) : Prop
    extends Legible disk sectorSize where
  onDisk : DiskChain sectorSize (OperationUtils.readFunc .working disk sectorSize)
    (window disk.byte 0 512) chain
  table : t = MbrPartitionTable.scanned { diskSizeBytes := disk.totalBytes,sectorSize }
    (window disk.byte 0 512) chain

section Kinds

variable {disk : Disk} {sectorSize : UInt32} {fuel : Nat}

theorem read_kind {table : PartitionTable}
    (read : OperationUtils.readPartitionTable fuel .working disk sectorSize = some (.ok table)) :
    (∃ t, table = .apm t) ∧ ¬ Legible disk sectorSize ∨
      ∃ chain t, MbrAt disk sectorSize chain t ∧
        (table = .mbr t ∧ (t.hasGptProtective = true → ¬ GptBehind disk sectorSize) ∨
          ∃ backing, table = .gpt backing ∧ t.hasGptProtective = true ∧
            GptPartitionTable.parse { diskSizeBytes := disk.totalBytes,sectorSize }
              (OperationUtils.readFunc .working disk sectorSize) = .ok backing) := by
  obtain ⟨sector0,first,long,kind⟩ := PartitionTable.parse_detected (OperationUtils.readPartitionTable_ok read)
  obtain ⟨wide,moderate,room⟩ := sector_bounds disk first long
  obtain ⟨_,signature,map⟩ := OperationUtils.readFunc_first first long
  have at_disk : ∀ t, readBE16 sector0 0 ≠ APM_DDM_SIGNATURE → readLE16 sector0 510 = MBR_SIGNATURE →
      MbrPartitionTable.parse fuel { diskSizeBytes := disk.totalBytes,sectorSize }
        (OperationUtils.readFunc .working disk sectorSize) = some (.ok t) →
      ∃ chain, MbrAt disk sectorSize chain t := by
    intro t noMap signed parsed
    obtain ⟨_,chain,scan⟩ := OperationUtils.scan_first first long parsed
    rw [signature] at signed
    rw [map] at noMap
    exact ⟨chain,⟨⟨wide,moderate,room,signed,noMap⟩,scan.onDisk,scan.table⟩⟩
  cases kind with
  | apm t apple =>
    rw [map] at apple
    exact .inl ⟨⟨t,rfl⟩,fun legible => legible.noMap apple⟩
  | mbr t noMap signed parsed backing =>
    obtain ⟨chain,held⟩ := at_disk t noMap signed parsed
    refine .inr ⟨chain,t,held,.inl ⟨rfl,?_⟩⟩
    rintro protective ⟨found,behind⟩
    obtain ⟨e,failed⟩ := backing protective
    rw [failed] at behind
    cases behind
  | gpt t backing noMap signed parsed protective behind =>
    obtain ⟨chain,held⟩ := at_disk t noMap signed parsed
    exact .inr ⟨chain,t,held,.inr ⟨backing,rfl,protective,behind⟩⟩

theorem MbrAt.of_read {t : MbrPartitionTable}
    (read : OperationUtils.readPartitionTable fuel .working disk sectorSize = some (.ok (.mbr t))) :
    ∃ chain, MbrAt disk sectorSize chain t ∧ (t.hasGptProtective = true → ¬ GptBehind disk sectorSize) := by
  rcases read_kind read with ⟨⟨_,same⟩,_⟩ | ⟨chain,u,held,⟨same,alone⟩ | ⟨_,same,_⟩⟩
  · cases same
  · cases same
    exact ⟨chain,held,alone⟩
  · cases same

theorem Legible.detect (legible : Legible disk sectorSize) : ∃ sector0,
    OperationUtils.readFunc .working disk sectorSize 0 sectorSize = .ok sector0 ∧ 512 ≤ sector0.length ∧
      readBE16 sector0 0 ≠ APM_DDM_SIGNATURE ∧ readLE16 sector0 510 = MBR_SIGNATURE := by
  have wide := legible.long
  have room := legible.room
  have first := readFunc_sector disk legible.moderate 0 legible.positive (Nat.le_refl _)
  have long : 512 ≤ (window disk.byte ((0 : UInt64) / sectorSize.toUInt64 * sectorSize.toUInt64).toNat
      (disk.reach ((0 : UInt64) / sectorSize.toUInt64 * sectorSize.toUInt64).toNat sectorSize.toNat)).length := by
    rw [length_window,start_zero,Disk.reach,Nat.sub_zero]
    omega
  obtain ⟨_,signature,map⟩ := OperationUtils.readFunc_first first long
  exact ⟨_,first,long,by rw [map]; exact legible.noMap,by rw [signature]; exact legible.signed⟩

theorem MbrAt.parse {chain : List Ebr} {t : MbrPartitionTable} (held : MbrAt disk sectorSize chain t) :
    MbrPartitionTable.parse (chain.length + 1) { diskSizeBytes := disk.totalBytes,sectorSize }
      (OperationUtils.readFunc .working disk sectorSize) = some (.ok t) := by
  have size : MBR_SIZE.toNat = 512 := rfl
  have whole : MBR_SIZE.toNat ≤ (window disk.byte 0 512).length := by rw [length_window,size]
  rw [MbrPartitionTable.parse_of_chain { diskSizeBytes := disk.totalBytes,sectorSize } held.sector whole
    held.signed held.onDisk (Nat.lt_succ_self _),held.table]

theorem MbrAt.read {chain : List Ebr} {t : MbrPartitionTable} (held : MbrAt disk sectorSize chain t)
    (alone : t.hasGptProtective = true → ¬ GptBehind disk sectorSize) :
    OperationUtils.readPartitionTable (chain.length + 1) .working disk sectorSize = some (.ok (.mbr t)) := by
  obtain ⟨sector0,first,long,noMap,signed⟩ := held.detect
  rw [readPartitionTable_working]
  refine PartitionTable.parse_of_mbr first long noMap signed held.parse (fun protective => ?_)
  have none := alone protective
  cases outcome : GptPartitionTable.parse { diskSizeBytes := disk.totalBytes,sectorSize }
      (OperationUtils.readFunc .working disk sectorSize) with
  | error e => exact ⟨e,rfl⟩
  | ok backing => exact absurd ⟨backing,outcome⟩ none

theorem MbrAt.read_gpt {chain : List Ebr} {t : MbrPartitionTable} (held : MbrAt disk sectorSize chain t)
    (protective : t.hasGptProtective = true) {backing : GptPartitionTable}
    (parsed : GptPartitionTable.parse { diskSizeBytes := disk.totalBytes,sectorSize }
      (OperationUtils.readFunc .working disk sectorSize) = .ok backing) :
    OperationUtils.readPartitionTable (chain.length + 1) .working disk sectorSize = some (.ok (.gpt backing)) := by
  obtain ⟨sector0,first,long,noMap,signed⟩ := held.detect
  have mbr := held.parse
  rw [readPartitionTable_working]
  unfold PartitionTable.parse
  simp only [first,if_neg (Nat.not_lt.mpr long),if_neg noMap,signed,ne_eq,not_true,if_false,mbr,protective,
    if_true,parsed]

theorem MbrAt.unique {chain chain' : List Ebr} {t t' : MbrPartitionTable}
    (one : MbrAt disk sectorSize chain t) (two : MbrAt disk sectorSize chain' t') : t = t' := by
  have same := one.onDisk.unique two.onDisk
  rw [one.table,two.table,same]

end Kinds

/-- The disk is read as a table of the same kind with the same partitions, in any order. -/
def ReadsSame {β : Type} (view : PartitionEntry → β) (disk : Disk) (sectorSize : UInt32)
    (before : PartitionTable) : Prop :=
  ∃ fuel after, OperationUtils.readPartitionTable fuel .working disk sectorSize = some (.ok after) ∧
    after.type = before.type ∧ (after.partitions.map view).Perm (before.partitions.map view)

theorem ReadsSame.mbr {β : Type} {view : PartitionEntry → β} {disk : Disk} {sectorSize : UInt32}
    {t : MbrPartitionTable} (same : ReadsSame view disk sectorSize (.mbr t)) :
    ∃ chain v, MbrAt disk sectorSize chain v ∧ (v.hasGptProtective = true → ¬ GptBehind disk sectorSize) ∧
      (v.entries.map view).Perm (t.entries.map view) := by
  obtain ⟨fuel,after,read,kind,perm⟩ := same
  cases after with
  | mbr v =>
    obtain ⟨chain,held,alone⟩ := MbrAt.of_read read
    exact ⟨chain,v,held,alone,perm⟩
  | gpt g => simp [PartitionTable.type] at kind
  | apm a => simp [PartitionTable.type] at kind

/-- The disk is read as a table of the same kind with partitions that look the same, one
after the other. -/
def ReadsEqual {β : Type} (view : PartitionEntry → β) (disk : Disk) (sectorSize : UInt32)
    (before : PartitionTable) : Prop :=
  ∃ fuel after, OperationUtils.readPartitionTable fuel .working disk sectorSize = some (.ok after) ∧
    after.type = before.type ∧ after.partitions.map view = before.partitions.map view

theorem ReadsEqual.same {β : Type} {view : PartitionEntry → β} {disk : Disk} {sectorSize : UInt32}
    {before : PartitionTable} (equal : ReadsEqual view disk sectorSize before) :
    ReadsSame view disk sectorSize before := by
  obtain ⟨fuel,after,read,kind,listed⟩ := equal
  exact ⟨fuel,after,read,kind,by rw [listed]⟩

theorem ReadsEqual.mbr {β : Type} {view : PartitionEntry → β} {disk : Disk} {sectorSize : UInt32}
    {t : MbrPartitionTable} (equal : ReadsEqual view disk sectorSize (.mbr t)) :
    ∃ chain v, MbrAt disk sectorSize chain v ∧ v.entries.map view = t.entries.map view := by
  obtain ⟨fuel,after,read,kind,listed⟩ := equal
  cases after with
  | mbr v =>
    obtain ⟨chain,held,_⟩ := MbrAt.of_read read
    exact ⟨chain,v,held,listed⟩
  | gpt g => simp [PartitionTable.type] at kind
  | apm a => simp [PartitionTable.type] at kind

end SetecWizard.Core
