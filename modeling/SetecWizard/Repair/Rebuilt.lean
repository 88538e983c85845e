import SetecWizard.Repair.Frame

/-! What a repaired copy of the GPT holds. The entries of a rebuilt primary are those found
right before the backup header, wherever that header says they are, and a header longer
than the structure it is copied as is summed together with what lies behind it in memory.
-/
namespace SetecWizard.Core.BootRepair
open SetecWizard.Library

def sectorAt (disk : Disk) (sectorSize : UInt32) (lba : UInt64) : List UInt8 :=
  window disk.byte (lba.toNat * sectorSize.toNat) sectorSize.toNat

def entryArray (disk : Disk) (sectorSize : UInt32) (header : List UInt8) : List UInt8 :=
  window disk.byte ((partitionEntryLba header).toNat * sectorSize.toNat) (entryBytes header).toNat

/-- A header and its entries, consistent with each other. -/
structure ConsistentCopy (disk : Disk) (sectorSize : UInt32) (lba : UInt64) : Prop where
  header : ValidHeader (sectorAt disk sectorSize lba)
  inside : (partitionEntryLba (sectorAt disk sectorSize lba)).toNat * sectorSize.toNat +
    (entryBytes (sectorAt disk sectorSize lba)).toNat ≤ disk.totalBytes.toNat
  crc : crc32 (entryArray disk sectorSize (sectorAt disk sectorSize lba)) =
    readLE32 (sectorAt disk sectorSize lba) 88

/-- One copy of the GPT is rebuilt from the other: it is valid, and describes the same entries. -/
structure Rebuilt (disk disk' : Disk) (sectorSize : UInt32) (source target : UInt64) : Prop where
  header : validateGptHeader (sectorAt disk' sectorSize target) = true
  crc : crc32 (entryArray disk' sectorSize (sectorAt disk' sectorSize target)) =
    readLE32 (sectorAt disk' sectorSize target) 88
  count : readLE32 (sectorAt disk' sectorSize target) 80 = readLE32 (sectorAt disk sectorSize source) 80
  size : readLE32 (sectorAt disk' sectorSize target) 84 = readLE32 (sectorAt disk sectorSize source) 84
  entries : entryArray disk' sectorSize (sectorAt disk' sectorSize target) =
    entryArray disk sectorSize (sectorAt disk sectorSize source)

section Landing

variable {env : RepairEnv} {disk : Disk} {sectorSize : UInt32} {fromBackup : Bool} {s' : RepairState}

theorem patched_both (disk : Disk) (first second : List UInt8) {off off' : Nat}
    (apart : off + first.length ≤ off' ∨ off' + second.length ≤ off) :
    window ((disk.patched off first).patched off' second).byte off first.length = first ∧
      window ((disk.patched off first).patched off' second).byte off' second.length = second := by
  constructor
  · rw [Disk.patched_byte,window_patch_apart _ _ _ _ _ apart,Disk.patched_byte,window_patch_whole _ _ rfl]
  · rw [Disk.patched_byte,window_patch_whole _ _ rfl]

/-- What a repair has left on the disk. -/
structure Landed (env : RepairEnv) (disk disk' : Disk) (sectorSize : UInt32) (fromBackup : Bool)
    (header : List UInt8) : Prop where
  front : sectorAt disk' sectorSize (targetLba disk sectorSize fromBackup) =
    rebuiltSector env disk sectorSize fromBackup header
  entries : window disk'.byte ((targetArrayLba disk sectorSize fromBackup header).toNat * sectorSize.toNat)
      (entryBytes header).toNat =
    window disk.byte (arrayLba disk sectorSize fromBackup header * sectorSize.toUInt64).toNat (entryBytes header).toNat

theorem landed_of_writes (wide : 512 ≤ sectorSize.toNat) (large : 34 ≤ disk.totalBytes / sectorSize.toUInt64)
    {header entryData : List UInt8} {between disk' : Disk} (valid : ValidHeader header)
    (array : entryData = window disk.byte (arrayLba disk sectorSize fromBackup header * sectorSize.toUInt64).toNat
      (roundUp (entryBytes header).toNat sectorSize.toNat))
    (first : RawDiskHandle.writeSectors env.device disk env.mode
      (firstWrite env disk sectorSize fromBackup header entryData).lba
      (firstWrite env disk sectorSize fromBackup header entryData).data
      (firstWrite env disk sectorSize fromBackup header entryData).count sectorSize = (.ok (),between))
    (second : RawDiskHandle.writeSectors env.device between env.mode
      (secondWrite env disk sectorSize fromBackup header entryData).lba
      (secondWrite env disk sectorSize fromBackup header entryData).data
      (secondWrite env disk sectorSize fromBackup header entryData).count sectorSize = (.ok (),disk')) :
    Landed env disk disk' sectorSize fromBackup header := by
  have positive : 0 < sectorSize.toNat := by omega
  have bytes := entrySectors_bytes positive header
  have enough := le_roundUp (n := (entryBytes header).toNat) positive
  have size : entryData.length = roundUp (entryBytes header).toNat sectorSize.toNat := by rw [array,length_window]
  have kept : (entryData ++ env.behindEntries).take (roundUp (entryBytes header).toNat sectorSize.toNat) =
      entryData := by rw [← size,List.take_left]
  have sector : (rebuiltSector env disk sectorSize fromBackup header).length = sectorSize.toNat :=
    length_movedSector env _ _ _ valid.long wide
  have all : (rebuiltSector env disk sectorSize fromBackup header).take sectorSize.toNat =
      rebuiltSector env disk sectorSize fromBackup header := List.take_of_length_le (Nat.le_of_eq sector)
  -- The entries that were moved are those that count, and what fills their last sector.
  have counted {final : Disk} {off : Nat} (landed : window final.byte off entryData.length = entryData) :
      window final.byte off (entryBytes header).toNat =
        window disk.byte (arrayLba disk sectorSize fromBackup header * sectorSize.toUInt64).toNat
          (entryBytes header).toNat := by
    have front := congrArg (List.take (entryBytes header).toNat) landed
    rw [size,take_window _ _ _ _ enough,array,take_window _ _ _ _ enough] at front
    exact front
  cases fromBackup with
  | true =>
    have width := sectorSize.toNat_lt
    have second_start : ((2 : UInt64) * sectorSize.toUInt64).toNat = 2 * sectorSize.toNat := by
      rw [UInt64.toNat_mul,UInt32.toNat_toUInt64]
      exact Nat.mod_eq_of_lt (by change 2 * sectorSize.toNat < 2 ^ 64; omega)
    obtain ⟨afterHeader,_⟩ := writeSectors_whole (sector_bytes_one sectorSize) (sector_bytes_one sectorSize) first
    obtain ⟨afterEntries,_⟩ := writeSectors_whole second_start bytes second
    have apart : sectorSize.toNat + (rebuiltSector env disk sectorSize true header).length ≤ 2 * sectorSize.toNat := by
      omega
    obtain ⟨headerLanded,entriesLanded⟩ := patched_both disk _ entryData (.inl apart)
    have final : disk' = (disk.patched sectorSize.toNat (rebuiltSector env disk sectorSize true header)).patched
        (2 * sectorSize.toNat) entryData := by
      rw [afterEntries,afterHeader]
      exact congrArg₂ (fun a b => (disk.patched _ a).patched _ b) all kept
    rw [sector] at headerLanded
    constructor
    · rw [final,sectorAt]
      exact (congrArg (fun off => window _ off _) (Nat.one_mul _)).trans headerLanded
    · rw [final]
      exact counted entriesLanded
  | false =>
    obtain ⟨start,_,_⟩ := backupLba_bytes large
    obtain ⟨afterEntries,room⟩ := writeSectors_whole rfl bytes first
    obtain ⟨place,ends⟩ := before_backup positive large room
    obtain ⟨afterHeader,_⟩ := writeSectors_whole start (sector_bytes_one sectorSize) second
    have apart : (backupLba disk sectorSize - entrySectors sectorSize header).toNat * sectorSize.toNat +
        entryData.length ≤ (backupLba disk sectorSize).toNat * sectorSize.toNat := by omega
    obtain ⟨entriesLanded,headerLanded⟩ :=
      patched_both disk _ (rebuiltSector env disk sectorSize false header) (.inl apart)
    have final : disk' = (disk.patched ((backupLba disk sectorSize - entrySectors sectorSize header).toNat *
        sectorSize.toNat) entryData).patched ((backupLba disk sectorSize).toNat * sectorSize.toNat)
          (rebuiltSector env disk sectorSize false header) := by
      rw [afterHeader,afterEntries,← place]
      exact congrArg₂ (fun a b => (disk.patched _ a).patched _ b) kept all
    rw [sector] at headerLanded
    constructor
    · rw [final]
      exact headerLanded
    · rw [final]
      exact counted entriesLanded

theorem sourceLba_inside (large : 34 ≤ disk.totalBytes / sectorSize.toUInt64) :
    ((sourceLba disk sectorSize fromBackup).toNat + 1) * sectorSize.toNat ≤ disk.totalBytes.toNat := by
  obtain ⟨_,inside,many⟩ := backupLba_bytes large
  cases fromBackup with
  | true => exact inside
  | false =>
    have one : (sourceLba disk sectorSize false).toNat = 1 := rfl
    have before : 2 * sectorSize.toNat ≤ ((backupLba disk sectorSize).toNat + 1) * sectorSize.toNat :=
      Nat.mul_le_mul_right _ (by omega)
    rw [one]
    omega

theorem source_whole (positive : 0 < sectorSize.toNat)
    (whole : ReadsWhole env.device disk sectorSize 0 disk.totalBytes.toNat)
    (large : 34 ≤ disk.totalBytes / sectorSize.toUInt64) {header : List UInt8}
    (read : RawDiskHandle.readSectors env.device disk (sourceLba disk sectorSize fromBackup) 1 sectorSize = .ok header) :
    sectorAt disk sectorSize (sourceLba disk sectorSize fromBackup) = header := by
  have inside := @sourceLba_inside disk sectorSize fromBackup large
  have bound := disk.totalBytes.toNat_lt
  have enough : disk.totalBytes.toNat ≤ roundUp disk.totalBytes.toNat sectorSize.toNat := le_roundUp positive
  rw [Nat.add_mul,Nat.one_mul] at inside
  have place : (sourceLba disk sectorSize fromBackup).toNat * sectorSize.toNat =
      (0 + (sourceLba disk sectorSize fromBackup).toNat * sectorSize.toNat) % 2 ^ 64 := by omega
  exact (readSectors_whole whole (sourceLba_start large) place (sector_bytes_one sectorSize) (by omega) read).1.symm

/-- Where the entries are read lies on the disk: in front of the backup header they have room, as they
are written behind the other one. -/
theorem array_inside (positive : 0 < sectorSize.toNat) (large : 34 ≤ disk.totalBytes / sectorSize.toUInt64)
    {header entryData : List UInt8} {between disk' : Disk} (same : between.totalBytes = disk.totalBytes)
    (named : fromBackup = false → (partitionEntryLba header).toNat * sectorSize.toNat + (entryBytes header).toNat ≤
      disk.totalBytes.toNat)
    (second : RawDiskHandle.writeSectors env.device between env.mode
      (secondWrite env disk sectorSize fromBackup header entryData).lba
      (secondWrite env disk sectorSize fromBackup header entryData).data
      (secondWrite env disk sectorSize fromBackup header entryData).count sectorSize = (.ok (),disk')) :
    ∃ low, (arrayLba disk sectorSize fromBackup header * sectorSize.toUInt64).toNat = (0 + low) % 2 ^ 64 ∧
      low + roundUp (entryBytes header).toNat sectorSize.toNat ≤ roundUp disk.totalBytes.toNat sectorSize.toNat := by
  have bound := disk.totalBytes.toNat_lt
  have enough : disk.totalBytes.toNat ≤ roundUp disk.totalBytes.toNat sectorSize.toNat := le_roundUp positive
  cases fromBackup with
  | true =>
    have width := sectorSize.toNat_lt
    have two : ((2 : UInt64) * sectorSize.toUInt64).toNat = 2 * sectorSize.toNat := by
      rw [UInt64.toNat_mul,UInt32.toNat_toUInt64]
      exact Nat.mod_eq_of_lt (by change 2 * sectorSize.toNat < 2 ^ 64; omega)
    have bytes := entrySectors_bytes positive header
    obtain ⟨_,room⟩ := writeSectors_whole two bytes second
    rw [same] at room
    obtain ⟨start,inside,many⟩ := backupLba_bytes large
    have last : disk.totalBytes.toNat < ((backupLba disk sectorSize).toNat + 2) * sectorSize.toNat := by
      have one : (1 : UInt64).toNat = 1 := rfl
      have above := Nat.lt_div_mul_add (a := disk.totalBytes.toNat) positive
      have next : disk.totalBytes.toNat / sectorSize.toNat = (backupLba disk sectorSize).toNat + 1 := by
        rw [backupLba,UInt64.toNat_sub_of_le _ _ (UInt64.le_trans (by decide) large),UInt64.toNat_div,
          UInt32.toNat_toUInt64,one] at many ⊢
        omega
      rwa [next,← Nat.succ_mul] at above
    have joined : (backupLba disk sectorSize - entrySectors sectorSize header) * sectorSize.toUInt64 +
        entrySectors sectorSize header * sectorSize.toUInt64 = backupLba disk sectorSize * sectorSize.toUInt64 := by
      rw [← UInt64.add_mul,UInt64.sub_add_cancel]
    have ends := congrArg UInt64.toNat joined
    have first := ((backupLba disk sectorSize - entrySectors sectorSize header) * sectorSize.toUInt64).toNat_lt
    rw [UInt64.toNat_add,bytes,start] at ends
    rw [Nat.add_mul] at last inside
    refine ⟨((backupLba disk sectorSize - entrySectors sectorSize header) * sectorSize.toUInt64).toNat,?_,?_⟩
    · rw [arrayLba,if_pos rfl,Nat.zero_add,Nat.mod_eq_of_lt first]
    · omega
  | false =>
    refine ⟨(partitionEntryLba header).toNat * sectorSize.toNat,?_,?_⟩
    · rw [arrayLba,if_neg (by decide),UInt64.toNat_mul,UInt32.toNat_toUInt64,Nat.zero_add]
    · have rounded := roundUp_add (n := (entryBytes header).toNat) positive
        (Nat.dvd_mul_left sectorSize.toNat (partitionEntryLba header).toNat)
      rw [← rounded]
      exact roundUp_le_of_dvd positive (by have := named rfl; omega) (dvd_roundUp _ _)

theorem repairGpt_landed (wide : 512 ≤ sectorSize.toNat)
    (whole : ReadsWhole env.device disk sectorSize 0 disk.totalBytes.toNat)
    (consistent : ConsistentCopy disk sectorSize (sourceLba disk sectorSize fromBackup))
    (done : repairGpt env sectorSize fromBackup ⟨disk,[]⟩ = (.ok (),s')) :
    34 ≤ disk.totalBytes / sectorSize.toUInt64 ∧
      ValidHeader (sectorAt disk sectorSize (sourceLba disk sectorSize fromBackup)) ∧
      Landed env disk s'.disk sectorSize fromBackup
        (sectorAt disk sectorSize (sourceLba disk sectorSize fromBackup)) := by
  obtain ⟨_,large,header,entryData,between,read,valid,found,first,second⟩ := repairGpt_ok done
  obtain rfl := source_whole (by omega) whole large read
  have valid := validateGptHeader_iff.mp valid
  have size := writeSectors_size env.device disk env.mode
    (firstWrite env disk sectorSize fromBackup (sectorAt disk sectorSize (sourceLba disk sectorSize fromBackup)) entryData).lba
    (firstWrite env disk sectorSize fromBackup (sectorAt disk sectorSize (sourceLba disk sectorSize fromBackup)) entryData).data
    (firstWrite env disk sectorSize fromBackup (sectorAt disk sectorSize (sourceLba disk sectorSize fromBackup)) entryData).count
    sectorSize
  rw [first] at size
  obtain ⟨low,place,within⟩ := array_inside (by omega) large size (fun _ => consistent.inside) second
  obtain ⟨array,_⟩ := readSectors_whole whole rfl place (entrySectors_bytes (by omega) _) within found
  exact ⟨large,valid,landed_of_writes wide large valid array first second⟩

end Landing

section Repair

variable {env : RepairEnv} {disk : Disk} {sectorSize : UInt32} {fromBackup : Bool}

/-- The sectors right before the backup header hold the entries its header names. -/
def EntriesBeforeHeader (disk : Disk) (sectorSize : UInt32) (header : List UInt8) : Prop :=
  window disk.byte ((backupLba disk sectorSize - entrySectors sectorSize header) * sectorSize.toUInt64).toNat
    (entryBytes header).toNat = entryArray disk sectorSize header

theorem ConsistentCopy.place {lba : UInt64} (consistent : ConsistentCopy disk sectorSize lba) :
    window disk.byte (partitionEntryLba (sectorAt disk sectorSize lba) * sectorSize.toUInt64).toNat
      (entryBytes (sectorAt disk sectorSize lba)).toNat = entryArray disk sectorSize (sectorAt disk sectorSize lba) := by
  have inside := consistent.inside
  have bound := disk.totalBytes.toNat_lt
  rw [entryArray,UInt64.toNat_mul,UInt32.toNat_toUInt64,Nat.mod_eq_of_lt (by omega)]

theorem rebuilt_iff (wide : 512 ≤ sectorSize.toNat) {disk' : Disk}
    (consistent : ConsistentCopy disk sectorSize (sourceLba disk sectorSize fromBackup))
    (landed : Landed env disk disk' sectorSize fromBackup
      (sectorAt disk sectorSize (sourceLba disk sectorSize fromBackup))) :
    Rebuilt disk disk' sectorSize (sourceLba disk sectorSize fromBackup) (targetLba disk sectorSize fromBackup) ↔
      ZeroBehind env (readLE32 (sectorAt disk sectorSize (sourceLba disk sectorSize fromBackup)) 12) ∧
        (fromBackup = true → EntriesBeforeHeader disk sectorSize
          (sectorAt disk sectorSize (sourceLba disk sectorSize fromBackup))) := by
  have long := consistent.header.long
  have valid := movedSector_valid_iff env (targetLba disk sectorSize fromBackup)
    (sourceLba disk sectorSize fromBackup) (targetArrayLba disk sectorSize fromBackup
      (sectorAt disk sectorSize (sourceLba disk sectorSize fromBackup))) long wide consistent.header.toProperHeader
  rw [← rebuiltSector,← landed.front] at valid
  have field (off : Nat) (low : 80 ≤ off) (high : off + 4 ≤ 92) :
      readLE32 (sectorAt disk' sectorSize (targetLba disk sectorSize fromBackup)) off =
        readLE32 (sectorAt disk sectorSize (sourceLba disk sectorSize fromBackup)) off := by
    rw [landed.front]
    exact entryField_movedSector env _ _ _ long low high
  have array : entryArray disk' sectorSize (sectorAt disk' sectorSize (targetLba disk sectorSize fromBackup)) =
      window disk.byte (arrayLba disk sectorSize fromBackup
        (sectorAt disk sectorSize (sourceLba disk sectorSize fromBackup)) * sectorSize.toUInt64).toNat
        (entryBytes (sectorAt disk sectorSize (sourceLba disk sectorSize fromBackup))).toNat := by
    rw [entryArray,landed.front,rebuiltSector,partitionEntryLba_movedSector env _ _ _ long,
      entryBytes_movedSector env _ _ _ long]
    exact landed.entries
  have found : entryArray disk' sectorSize (sectorAt disk' sectorSize (targetLba disk sectorSize fromBackup)) =
      entryArray disk sectorSize (sectorAt disk sectorSize (sourceLba disk sectorSize fromBackup)) ↔
        (fromBackup = true → EntriesBeforeHeader disk sectorSize
          (sectorAt disk sectorSize (sourceLba disk sectorSize fromBackup))) := by
    rw [array]
    cases fromBackup with
    | true => exact ⟨fun same _ => same,fun same => same rfl⟩
    | false => exact ⟨fun _ impossible => absurd impossible (by decide),fun _ => consistent.place⟩
  constructor
  · intro rebuilt
    exact ⟨valid.mp rebuilt.header,found.mp rebuilt.entries⟩
  · rintro ⟨zero,before⟩
    have same := found.mpr before
    exact ⟨valid.mpr zero,by rw [same,consistent.crc,field 88 (by decide) (by decide)],field 80 (by decide) (by decide),
      field 84 (by decide) (by decide),same⟩

/-- A repair that returns an error and has written nothing. -/
def Refuses (env : RepairEnv) (disk : Disk) (sectorSize : UInt32) (fromBackup : Bool) : Prop :=
  ∃ e s', repairGpt env sectorSize fromBackup ⟨disk,[]⟩ = (.error e,s') ∧
    ∀ access ∈ s'.accesses, Idle access

def Fruitless (env : RepairEnv) (disk : Disk) (sectorSize : UInt32) (w : SectorWrite) : Prop :=
  ¬ Writable env disk sectorSize w.lba w.count ∧ RepairState.reached env sectorSize disk w.lba w.count = 0

def StopsShort (env : RepairEnv) (disk : Disk) (sectorSize : UInt32) (first second : SectorWrite) : Prop :=
  Fruitless env disk sectorSize first ∨
    Writable env disk sectorSize first.lba first.count ∧
      RepairState.reached env sectorSize disk first.lba first.count = 0 ∧ Fruitless env disk sectorSize second

theorem unreadable {lba count : UInt64} (unread : ¬ Readable env disk sectorSize lba count) :
    ∃ e, RawDiskHandle.readSectors env.device disk lba count sectorSize = .error e := by
  cases read : RawDiskHandle.readSectors env.device disk lba count sectorSize with
  | error e => exact ⟨e,rfl⟩
  | ok data => exact absurd ⟨data,read⟩ unread

theorem error_iff {property : RepairState → Prop} (outcome : Mutation RepairState) :
    (∃ e s', outcome = (.error e,s') ∧ property s') ↔ ¬ succeeded outcome.1 = true ∧ property outcome.2 := by
  obtain ⟨result,s⟩ := outcome
  cases result with
  | error e =>
    constructor
    · rintro ⟨_,_,same,holds⟩
      cases same
      exact ⟨by simp [succeeded],holds⟩
    · rintro ⟨_,holds⟩
      exact ⟨e,s,rfl,holds⟩
  | ok =>
    constructor
    · rintro ⟨_,_,same,_⟩
      cases same
    · rintro ⟨failed,_⟩
      exact absurd rfl failed

/-- With a header and its entries at hand, a repair writes unless it is stopped short. -/
theorem refuses_read_iff (geometry : env.device.diskGeometry = none)
    (large : ¬ disk.totalBytes / sectorSize.toUInt64 < 34) {header entryData : List UInt8}
    (read : RawDiskHandle.readSectors env.device disk (sourceLba disk sectorSize fromBackup) 1 sectorSize = .ok header)
    (valid : validateGptHeader header = true)
    (found : RawDiskHandle.readSectors env.device disk (arrayLba disk sectorSize fromBackup header)
      (entrySectors sectorSize header) sectorSize = .ok entryData) :
    Refuses env disk sectorSize fromBackup ↔ StopsShort env disk sectorSize
      (firstWrite env disk sectorSize fromBackup header entryData)
      (secondWrite env disk sectorSize fromBackup header entryData) := by
  obtain ⟨firstMsg,secondMsg,run⟩ := repairGpt_read geometry large read valid found
  rw [Refuses,run,List.nil_append,error_iff,writeTwo_succeeded,writeTwo_idle_iff afterEntries_idle,StopsShort,
    Fruitless,Fruitless]
  by_cases worked : Writable env disk sectorSize (firstWrite env disk sectorSize fromBackup header entryData).lba
      (firstWrite env disk sectorSize fromBackup header entryData).count
  · simp only [worked,true_and,true_implies,not_true,false_and,false_or]
    exact and_left_comm
  · simp only [worked,false_and,not_false_iff,true_and,false_implies,and_true,or_false]

/-- What keeps a repair from writing, from a valid header on. -/
def Hindered (env : RepairEnv) (disk : Disk) (sectorSize : UInt32) (fromBackup : Bool) (header : List UInt8) : Prop :=
  env.device.diskGeometry ≠ none ∨ disk.totalBytes / sectorSize.toUInt64 < 34 ∨
    ¬ Readable env disk sectorSize (sourceLba disk sectorSize fromBackup) 1 ∨
    ¬ Readable env disk sectorSize (arrayLba disk sectorSize fromBackup header) (entrySectors sectorSize header) ∨
    StopsShort env disk sectorSize (firstWrite env disk sectorSize fromBackup header [])
      (secondWrite env disk sectorSize fromBackup header [])

theorem stopsShort_entries {header : List UInt8} (entryData : List UInt8) :
    StopsShort env disk sectorSize (firstWrite env disk sectorSize fromBackup header entryData)
        (secondWrite env disk sectorSize fromBackup header entryData) ↔
      StopsShort env disk sectorSize (firstWrite env disk sectorSize fromBackup header [])
        (secondWrite env disk sectorSize fromBackup header []) := by
  cases fromBackup with
  | true => exact Iff.rfl
  | false => exact Iff.rfl

theorem refuses_iff (positive : 0 < sectorSize.toNat)
    (whole : ReadsWhole env.device disk sectorSize 0 disk.totalBytes.toNat)
    (valid : ValidHeader (sectorAt disk sectorSize (sourceLba disk sectorSize fromBackup))) :
    Refuses env disk sectorSize fromBackup ↔
      Hindered env disk sectorSize fromBackup (sectorAt disk sectorSize (sourceLba disk sectorSize fromBackup)) := by
  by_cases geometry : env.device.diskGeometry = none
  · by_cases small : disk.totalBytes / sectorSize.toUInt64 < 34
    · have refuses : Refuses env disk sectorSize fromBackup :=
        ⟨_,_,repairGpt_small geometry small _ rfl,by simp⟩
      exact iff_of_true refuses (.inr (.inl small))
    · by_cases readable : Readable env disk sectorSize (sourceLba disk sectorSize fromBackup) 1
      · obtain ⟨header,read⟩ := readable
        obtain rfl := source_whole positive whole (UInt64.not_lt.mp small) read
        have accepted := validateGptHeader_iff.mpr valid
        by_cases found : Readable env disk sectorSize (arrayLba disk sectorSize fromBackup
            (sectorAt disk sectorSize (sourceLba disk sectorSize fromBackup)))
            (entrySectors sectorSize (sectorAt disk sectorSize (sourceLba disk sectorSize fromBackup)))
        · have readable : Readable env disk sectorSize (sourceLba disk sectorSize fromBackup) 1 := ⟨_,read⟩
          obtain ⟨entryData,entries⟩ := id found
          rw [refuses_read_iff geometry small read accepted entries,stopsShort_entries]
          simp [Hindered,geometry,small,readable,found]
        · obtain ⟨error,unread⟩ := unreadable found
          obtain ⟨e,run⟩ := repairGpt_unread geometry small read accepted unread
          have refuses : Refuses env disk sectorSize fromBackup :=
            ⟨_,_,run,beforeEntries_idle⟩
          exact iff_of_true refuses (.inr (.inr (.inr (.inl found))))
      · obtain ⟨error,unread⟩ := unreadable readable
        obtain ⟨e,run⟩ := repairGpt_headless geometry small unread
        have refuses : Refuses env disk sectorSize fromBackup := ⟨_,_,run,by simp [Idle]⟩
        exact iff_of_true refuses (.inr (.inr (.inl readable)))
  · have refuses : Refuses env disk sectorSize fromBackup := by
      obtain ⟨lastErr,failed⟩ := Option.ne_none_iff_exists'.mp geometry
      exact ⟨_,_,by simp only [repairGpt,RawDiskHandle.getGeometry,checked,failed,Except.map]; rfl,by simp⟩
    exact iff_of_true refuses (.inl geometry)

/-- What a repair makes of a consistent copy, and when it turns an inconsistent one down. -/
theorem repairGpt_rebuilds_iff (size : sectorSize = 512 ∨ sectorSize = 4096)
    (whole : ReadsWhole env.device disk sectorSize 0 disk.totalBytes.toNat) :
    (ConsistentCopy disk sectorSize (sourceLba disk sectorSize fromBackup) →
      ∀ s', repairGpt env sectorSize fromBackup ⟨disk,[]⟩ = (.ok (),s') →
        (Rebuilt disk s'.disk sectorSize (sourceLba disk sectorSize fromBackup)
            (targetLba disk sectorSize fromBackup) ↔
          ZeroBehind env (readLE32 (sectorAt disk sectorSize (sourceLba disk sectorSize fromBackup)) 12) ∧
            (fromBackup = true → EntriesBeforeHeader disk sectorSize
              (sectorAt disk sectorSize (sourceLba disk sectorSize fromBackup))))) ∧
    (ValidHeader (sectorAt disk sectorSize (sourceLba disk sectorSize fromBackup)) →
      ¬ ConsistentCopy disk sectorSize (sourceLba disk sectorSize fromBackup) →
        (Refuses env disk sectorSize fromBackup ↔ Hindered env disk sectorSize fromBackup
          (sectorAt disk sectorSize (sourceLba disk sectorSize fromBackup)))) := by
  have wide : 512 ≤ sectorSize.toNat := by rcases size with rfl | rfl <;> decide
  constructor
  · intro consistent s' done
    obtain ⟨_,_,landed⟩ := repairGpt_landed wide whole consistent done
    exact rebuilt_iff wide consistent landed
  · intro valid _
    exact refuses_iff (by omega) whole valid

end Repair

section Sample

variable {entryLba : UInt64} {entries : List UInt8}

theorem sample_header : sectorAt (sampleDisk entryLba 3 (crc32 entries) entries) 512 39 =
    sampleHeader entryLba 3 (crc32 entries) :=
  window_patch_whole _ (39 * 512) (length_sampleHeader entryLba 3 (crc32 entries))

theorem sample_window {lba : Nat} (before : lba < 39) :
    window (sampleDisk entryLba 3 (crc32 entries) entries).byte (lba * 512) 128 =
      window (patch (filled 20480 0).byte (entryLba.toNat * 512) entries) (lba * 512) 128 :=
  window_patch_apart _ _ _ _ _ (.inl (by omega))

theorem sample_array (size : entries.length = 128) (before : entryLba.toNat < 39) : entryArray (sampleDisk entryLba 3 (crc32 entries) entries) 512
    (sampleHeader entryLba 3 (crc32 entries)) = entries := by
  have long := (sampleTemplate_proper 3 (crc32 entries)).2.long
  have place : partitionEntryLba (sampleHeader entryLba 3 (crc32 entries)) = entryLba :=
    partitionEntryLba_movedSector {} 39 1 entryLba long
  obtain ⟨bytes,_⟩ := sampleHeader_entries entryLba 3 (crc32 entries)
  rw [entryArray,place,bytes]
  exact (sample_window before).trans (window_patch_whole _ _ size)

theorem sample_consistent (size : entries.length = 128) (before : entryLba.toNat < 39) :
    ConsistentCopy (sampleDisk entryLba 3 (crc32 entries) entries) 512 39 := by
  have crc : readLE32 (sampleHeader entryLba 3 (crc32 entries)) 88 = crc32 entries :=
    sampleHeader_kept entryLba 3 (crc32 entries) (by decide) (by decide) (by simp [sampleFields])
  have long := (sampleTemplate_proper 3 (crc32 entries)).2.long
  have place : partitionEntryLba (sampleHeader entryLba 3 (crc32 entries)) = entryLba :=
    partitionEntryLba_movedSector {} 39 1 entryLba long
  obtain ⟨bytes,_⟩ := sampleHeader_entries entryLba 3 (crc32 entries)
  constructor
  · rw [sample_header]
    exact validateGptHeader_iff.mp (sampleHeader_valid entryLba 3 (crc32 entries))
  · rw [sample_header,place,bytes]
    change entryLba.toNat * 512 + 128 ≤ 20480
    omega
  · rw [sample_header,sample_array size before,crc]

theorem sample_done : ∃ s', repairGpt sampleRepair 512 true ⟨sampleDisk entryLba 3 (crc32 entries) entries,[]⟩ =
    (.ok (),s') := by
  obtain ⟨_,one⟩ := sampleHeader_entries entryLba 3 (crc32 entries)
  have works : Faultless sampleRepair (sampleDisk entryLba 3 (crc32 entries) entries).totalBytes.toNat :=
    sampleRepair_works
  have inside (lba : UInt64) (below : (lba * 512).toNat + 512 ≤ 20480) :
      Inside (sampleDisk entryLba 3 (crc32 entries) entries).totalBytes.toNat 512 lba 1 :=
    .inr ⟨by decide,below⟩
  have place : arrayLba (sampleDisk entryLba 3 (crc32 entries) entries) 512 true
      (sampleHeader entryLba 3 (crc32 entries)) = 38 := by
    have total : (sampleDisk entryLba 3 (crc32 entries) entries).totalBytes = 20480 := rfl
    rw [arrayLba,if_pos rfl,one,backupLba,total]
    decide
  have found := readSectors_inside works (inside 38 (by decide))
  rw [← place] at found
  obtain ⟨firstMsg,secondMsg,run⟩ := repairGpt_read rfl (by change ¬ (20480 / 512 : UInt64) < 34; decide)
    (sampleHeader_read entryLba 3 (crc32 entries) entries) (sampleHeader_valid entryLba 3 (crc32 entries))
    (by rw [one]; exact found)
  rw [run]
  obtain ⟨accesses,done⟩ := @writeTwo_inside sampleRepair (sampleDisk entryLba 3 (crc32 entries) entries) 512
    (firstWrite sampleRepair (sampleDisk entryLba 3 (crc32 entries) entries) 512 true
      (sampleHeader entryLba 3 (crc32 entries)) _)
    (secondWrite sampleRepair (sampleDisk entryLba 3 (crc32 entries) entries) 512 true
      (sampleHeader entryLba 3 (crc32 entries)) _) firstMsg secondMsg works (inside 1 (by decide))
    (by change Inside _ 512 2 (entrySectors 512 _); rw [one]; exact inside 2 (by decide)) _
  exact ⟨_,done⟩

theorem sample_source : sourceLba (sampleDisk entryLba 3 (crc32 entries) entries) 512 true = 39 := by
  have total : (sampleDisk entryLba 3 (crc32 entries) entries).totalBytes = 20480 := rfl
  rw [sourceLba,if_pos rfl,backupLba,total]
  decide

theorem sample_before : EntriesBeforeHeader (sampleDisk entryLba 3 (crc32 entries) entries) 512
    (sampleHeader entryLba 3 (crc32 entries)) ↔
      window (patch (filled 20480 0).byte (entryLba.toNat * 512) entries) (38 * 512) 128 =
        entryArray (sampleDisk entryLba 3 (crc32 entries) entries) 512 (sampleHeader entryLba 3 (crc32 entries)) := by
  have total : (sampleDisk entryLba 3 (crc32 entries) entries).totalBytes = 20480 := rfl
  obtain ⟨bytes,one⟩ := sampleHeader_entries entryLba 3 (crc32 entries)
  have off : ((20480 / (512 : UInt32).toUInt64 - 1 - 1) * (512 : UInt32).toUInt64).toNat = 38 * 512 := by decide
  have count : (128 : UInt64).toNat = 128 := rfl
  rw [EntriesBeforeHeader,bytes,one,backupLba,total,off,count,sample_window (by decide)]

theorem sample_whole : ReadsWhole sampleRepair.device (sampleDisk entryLba 3 (crc32 entries) entries) 512 0 20480 :=
  @faultless_whole sampleRepair (sampleDisk entryLba 3 (crc32 entries) entries) sampleRepair_works 512 0 20480

/-- With its entries before the backup header, a copy is rebuilt. -/
theorem rebuilt_sample : ∃ s', repairGpt sampleRepair 512 true
    ⟨sampleDisk 38 3 (crc32 (List.replicate 128 1)) (List.replicate 128 1),[]⟩ = (.ok (),s') ∧
    Rebuilt (sampleDisk 38 3 (crc32 (List.replicate 128 1)) (List.replicate 128 1)) s'.disk 512 39 1 := by
  have size : (List.replicate 128 (1 : UInt8)).length = 128 := List.length_replicate
  have low : (38 : UInt64).toNat < 39 := by decide
  obtain ⟨s',done⟩ := @sample_done 38 (List.replicate 128 1)
  have rebuilds := (@repairGpt_rebuilds_iff sampleRepair
    (sampleDisk 38 3 (crc32 (List.replicate 128 1)) (List.replicate 128 1)) 512 true (.inl rfl) sample_whole).1
  rw [sample_source,sample_header] at rebuilds
  refine ⟨s',done,(rebuilds (sample_consistent size low) s' done).mpr ⟨?_,fun _ => ?_⟩⟩
  · rw [sampleHeader_size]
    exact zeroBehind_92 _
  · rw [sample_before,sample_array size low]
    exact window_patch_whole _ (38 * 512) size

/-- When the header names another place for the entries, something else is copied: what is
rebuilt has other entries than the copy it was rebuilt from. -/
theorem entries_elsewhere : ∃ s',
    ConsistentCopy (sampleDisk 30 3 (crc32 (List.replicate 128 1)) (List.replicate 128 1)) 512 39 ∧
    repairGpt sampleRepair 512 true
      ⟨sampleDisk 30 3 (crc32 (List.replicate 128 1)) (List.replicate 128 1),[]⟩ = (.ok (),s') ∧
    ¬ Rebuilt (sampleDisk 30 3 (crc32 (List.replicate 128 1)) (List.replicate 128 1)) s'.disk 512 39 1 := by
  have size : (List.replicate 128 (1 : UInt8)).length = 128 := List.length_replicate
  have low : (30 : UInt64).toNat < 39 := by decide
  have consistent := sample_consistent size low
  obtain ⟨s',done⟩ := @sample_done 30 (List.replicate 128 1)
  obtain ⟨_,_,landed⟩ := repairGpt_landed (by decide) sample_whole (by rw [sample_source]; exact consistent) done
  have rebuilds := @rebuilt_iff sampleRepair
    (sampleDisk 30 3 (crc32 (List.replicate 128 1)) (List.replicate 128 1)) 512 true (by decide) s'.disk
  rw [sample_source,sample_header] at rebuilds landed
  refine ⟨s',consistent,done,fun rebuilt => ?_⟩
  have before := ((rebuilds consistent landed).mp rebuilt).2 rfl
  have apart : (30 : UInt64).toNat * 512 + (List.replicate 128 (1 : UInt8)).length ≤ 38 * 512 := by
    rw [size]
    decide
  rw [sample_before,sample_array size low,window_patch_apart _ _ _ _ _ (.inr apart)] at before
  have first := congrArg List.head? before
  exact absurd first (by decide)

end Sample
end SetecWizard.Core.BootRepair
