import SetecWizard.Repair.Rebuilt

/-! The disk a repair leaves when every transfer that lies on it works. The entries go from
one range of sectors to another, the header to one sector; on a small disk the entries
may reach the other copy, or the MBR.
-/
namespace SetecWizard.Core.BootRepair
open SetecWizard.Library

def sectorNo (disk : Disk) (sectorSize : UInt32) (k : Nat) : List UInt8 :=
  window disk.byte (k * sectorSize.toNat) sectorSize.toNat

section Patched

variable {sectorSize : UInt32} {disk : Disk} {data : List UInt8} {p k : Nat}

theorem sectorNo_patched_apart (apart : k < p ∨ p * sectorSize.toNat + data.length ≤ k * sectorSize.toNat) :
    sectorNo (disk.patched (p * sectorSize.toNat) data) sectorSize k = sectorNo disk sectorSize k := by
  refine window_patch_apart _ _ _ _ _ (apart.imp_left (fun before => ?_))
  calc k * sectorSize.toNat + sectorSize.toNat = (k + 1) * sectorSize.toNat := by ring
    _ ≤ p * sectorSize.toNat := Nat.mul_le_mul_right _ before

theorem sectorNo_patched_inside (low : p ≤ k)
    (high : (k + 1) * sectorSize.toNat ≤ p * sectorSize.toNat + data.length) :
    sectorNo (disk.patched (p * sectorSize.toNat) data) sectorSize k =
      slice data ((k - p) * sectorSize.toNat) sectorSize.toNat := by
  have start : k * sectorSize.toNat = p * sectorSize.toNat + (k - p) * sectorSize.toNat := by
    rw [← Nat.add_mul,Nat.add_sub_cancel' low]
  rw [Nat.add_mul,Nat.one_mul,start] at high
  rw [sectorNo,start]
  exact window_patch_inside _ _ _ _ _ (by omega)

theorem sectorNo_patched_moved {disk' : Disk} {off n : Nat} (low : p ≤ k) (high : k < p + n) :
    sectorNo (disk.patched (p * sectorSize.toNat) (window disk'.byte off (n * sectorSize.toNat))) sectorSize k =
      window disk'.byte (off + (k - p) * sectorSize.toNat) sectorSize.toNat := by
  have within : (k - p + 1) * sectorSize.toNat ≤ n * sectorSize.toNat := Nat.mul_le_mul_right _ (by omega)
  have ends : (k + 1) * sectorSize.toNat ≤ (p + n) * sectorSize.toNat := Nat.mul_le_mul_right _ (by omega)
  rw [Nat.add_mul,Nat.one_mul] at within
  rw [sectorNo_patched_inside low (by rw [length_window,← Nat.add_mul]; exact ends),
    slice_window _ _ _ _ _ within]

theorem sectorNo_patched_one (size : data.length = sectorSize.toNat) :
    sectorNo (disk.patched (p * sectorSize.toNat) data) sectorSize p = data :=
  window_patch_whole _ _ size

end Patched

section Outcome

variable {env : RepairEnv} {disk : Disk} {sectorSize : UInt32} {header : List UInt8} {accesses : List RepairAccess}
  (works : Faultless env disk.totalBytes.toNat) (wide : 512 ≤ sectorSize.toNat)
  (large : 34 ≤ disk.totalBytes / sectorSize.toUInt64)

theorem behind_backup (positive : 0 < sectorSize.toNat) (large : 34 ≤ disk.totalBytes / sectorSize.toUInt64) :
    disk.totalBytes.toNat < ((backupLba disk sectorSize).toNat + 2) * sectorSize.toNat := by
  have one : (1 : UInt64).toNat = 1 := rfl
  have above := Nat.lt_div_mul_add (a := disk.totalBytes.toNat) positive
  have total : (disk.totalBytes / sectorSize.toUInt64).toNat = disk.totalBytes.toNat / sectorSize.toNat := by
    rw [UInt64.toNat_div,UInt32.toNat_toUInt64]
  obtain ⟨_,_,many⟩ := backupLba_bytes large
  have some_sector : (1 : UInt64) ≤ disk.totalBytes / sectorSize.toUInt64 := UInt64.le_trans (by decide) large
  have last : (backupLba disk sectorSize).toNat = disk.totalBytes.toNat / sectorSize.toNat - 1 := by
    rw [backupLba,UInt64.toNat_sub_of_le _ _ some_sector,total,one]
  have next : (backupLba disk sectorSize).toNat + 2 = disk.totalBytes.toNat / sectorSize.toNat + 1 := by omega
  rw [next,Nat.add_mul,Nat.one_mul]
  exact above

theorem inside_before_backup (positive : 0 < sectorSize.toNat) (large : 34 ≤ disk.totalBytes / sectorSize.toUInt64)
    (inside : Inside disk.totalBytes.toNat sectorSize (backupLba disk sectorSize - entrySectors sectorSize header)
      (entrySectors sectorSize header)) :
    (entrySectors sectorSize header).toNat ≤ (backupLba disk sectorSize).toNat ∧
      ((backupLba disk sectorSize - entrySectors sectorSize header) * sectorSize.toUInt64).toNat =
        ((backupLba disk sectorSize).toNat - (entrySectors sectorSize header).toNat) * sectorSize.toNat := by
  have bytes := entrySectors_bytes positive header
  have sectors := entrySectors_mul positive header
  have room : roundUp (entryBytes header).toNat sectorSize.toNat ≤ disk.totalBytes.toNat -
      ((backupLba disk sectorSize - entrySectors sectorSize header) * sectorSize.toUInt64).toNat := by
    rcases inside with none | ⟨_,room⟩
    · rw [none,UInt64.zero_mul] at bytes
      rw [← bytes]
      exact Nat.zero_le _
    · omega
  obtain ⟨place,ends⟩ := before_backup positive large room
  have fits : (entrySectors sectorSize header).toNat ≤ (backupLba disk sectorSize).toNat :=
    Nat.le_of_mul_le_mul_right (by omega) positive
  have start : (backupLba disk sectorSize - entrySectors sectorSize header).toNat =
      (backupLba disk sectorSize).toNat - (entrySectors sectorSize header).toNat :=
    UInt64.toNat_sub_of_le _ _ (UInt64.le_iff_toNat_le.mpr fits)
  exact ⟨fits,by rw [place,start]⟩

include works

theorem sector_read {lba : UInt64} (short : lba ≤ backupLba disk sectorSize)
    (large : 34 ≤ disk.totalBytes / sectorSize.toUInt64) :
    RawDiskHandle.readSectors env.device disk lba 1 sectorSize = .ok (sectorNo disk sectorSize lba.toNat) := by
  obtain ⟨inside,start⟩ := sector_inside short large
  rw [readSectors_inside works inside,start,sector_bytes_one,sectorNo]

omit works in
theorem sourceLba_le (fromBackup : Bool) (large : 34 ≤ disk.totalBytes / sectorSize.toUInt64) :
    sourceLba disk sectorSize fromBackup ≤ backupLba disk sectorSize := by
  obtain ⟨_,_,many⟩ := backupLba_bytes large
  cases fromBackup with
  | true => exact UInt64.le_refl _
  | false => exact UInt64.le_iff_toNat_le.mpr (by change 1 ≤ _; omega)

include wide

/-- Without its entries, or a place for them, a repair puts nothing on the disk. -/
theorem repairGpt_stuck {fromBackup : Bool} (large : 34 ≤ disk.totalBytes / sectorSize.toUInt64)
    (same : sectorNo disk sectorSize (sourceLba disk sectorSize fromBackup).toNat = header)
    (valid : validateGptHeader header = true)
    (stuck : ¬ (Inside disk.totalBytes.toNat sectorSize (arrayLba disk sectorSize fromBackup header)
        (entrySectors sectorSize header) ∧
      Inside disk.totalBytes.toNat sectorSize (backupLba disk sectorSize - entrySectors sectorSize header)
        (entrySectors sectorSize header))) :
    ∃ e more, repairGpt env sectorSize fromBackup ⟨disk,accesses⟩ = (.error e,⟨disk,accesses ++ more⟩) ∧
      ∀ access ∈ more, Idle access := by
  have read := sector_read works (sourceLba_le fromBackup large) large
  rw [same] at read
  by_cases found : Inside disk.totalBytes.toNat sectorSize (arrayLba disk sectorSize fromBackup header)
      (entrySectors sectorSize header)
  · obtain ⟨entryData,entries⟩ : ∃ entryData, RawDiskHandle.readSectors env.device disk
      (arrayLba disk sectorSize fromBackup header) (entrySectors sectorSize header) sectorSize = .ok entryData :=
      ⟨_,readSectors_inside works found⟩
    obtain ⟨firstMsg,secondMsg,run⟩ := @repairGpt_read env disk sectorSize fromBackup header entryData accesses
      works.geometry (UInt64.not_lt.mpr large) read valid entries
    cases fromBackup with
    | true => exact absurd ⟨found,found⟩ stuck
    | false =>
      have beyond := fun inside => stuck ⟨found,inside⟩
      obtain ⟨e,done⟩ := @writeTwo_beyond env disk sectorSize
        (firstWrite env disk sectorSize false header entryData) (secondWrite env disk sectorSize false header entryData)
        firstMsg secondMsg works (by omega) beyond (accesses ++ afterEntries disk sectorSize false header)
      rw [List.append_assoc] at done
      refine ⟨e,_,run.trans done,?_⟩
      rw [List.forall_mem_append]
      exact ⟨afterEntries_idle,by simp [Idle]⟩
  · obtain ⟨error,unread⟩ := readSectors_beyond works found
    obtain ⟨e,run⟩ := @repairGpt_unread env disk sectorSize fromBackup header accesses works.geometry
      (UInt64.not_lt.mpr large) read valid _ unread
    exact ⟨e,_,run,beforeEntries_idle⟩

omit works in
theorem headerWrite_on {fromBackup : Bool} (large : 34 ≤ disk.totalBytes / sectorSize.toUInt64)
    (valid : validateGptHeader header = true) (disk' : Disk) :
    (headerWrite env disk sectorSize fromBackup header).on sectorSize disk' =
      disk'.patched ((targetLba disk sectorSize fromBackup).toNat * sectorSize.toNat)
        (rebuiltSector env disk sectorSize fromBackup header) := by
  have size : (rebuiltSector env disk sectorSize fromBackup header).length = sectorSize.toNat :=
    length_movedSector env _ _ _ (validateGptHeader_iff.mp valid).long wide
  exact SectorWrite.on_eq (targetLba_start large) (sector_bytes_one sectorSize)
    (List.take_of_length_le (Nat.le_of_eq size))

omit works wide in
theorem entriesWrite_on {fromBackup : Bool} {off source target : Nat}
    (place : (targetArrayLba disk sectorSize fromBackup header * sectorSize.toUInt64).toNat = target)
    (length : (entrySectors sectorSize header * sectorSize.toUInt64).toNat = off) (disk' : Disk) :
    (entriesWrite env disk sectorSize fromBackup header (window disk.byte source off)).on sectorSize disk' =
      disk'.patched target (window disk.byte source off) :=
  SectorWrite.on_eq place length (List.take_left' (length_window _ _ _))

omit works in
/-- Entries right before the backup header have room behind the primary one, except when
they begin at the MBR. -/
theorem inside_after_primary (large : 34 ≤ disk.totalBytes / sectorSize.toUInt64)
    (found : Inside disk.totalBytes.toNat sectorSize (backupLba disk sectorSize - entrySectors sectorSize header)
      (entrySectors sectorSize header)) :
    Inside disk.totalBytes.toNat sectorSize 2 (entrySectors sectorSize header) ↔
      (entrySectors sectorSize header).toNat < (backupLba disk sectorSize).toNat := by
  have positive : 0 < sectorSize.toNat := by omega
  have width := sectorSize.toNat_lt
  have start : ((2 : UInt64) * sectorSize.toUInt64).toNat = 2 * sectorSize.toNat := by
    rw [UInt64.toNat_mul,UInt32.toNat_toUInt64]
    exact Nat.mod_eq_of_lt (by change 2 * sectorSize.toNat < 2 ^ 64; omega)
  have bytes := (entrySectors_bytes positive header).trans (entrySectors_mul positive header).symm
  obtain ⟨fits,_⟩ := inside_before_backup positive large found
  obtain ⟨_,inside,many⟩ := backupLba_bytes large
  have behind := behind_backup positive large
  rw [Inside,start,bytes,← Nat.add_mul]
  constructor
  · rintro (none | ⟨_,room⟩)
    · rw [none]
      exact Nat.lt_of_lt_of_le (by decide) many
    · by_contra all
      have full : (entrySectors sectorSize header).toNat = (backupLba disk sectorSize).toNat := by omega
      rw [full,Nat.add_comm] at room
      omega
  · intro fewer
    refine found.imp_right (fun some => ⟨by rw [← bytes]; exact some.1,Nat.le_trans (Nat.mul_le_mul_right _ ?_) inside⟩)
    omega

/-- The disk after the primary copy was written over. -/
structure PrimaryOutcome (env : RepairEnv) (sectorSize : UInt32) (disk disk' : Disk) (header : List UInt8)
    (result : Result Unit) : Prop where
  size : disk'.totalBytes = disk.totalBytes
  mbr : sectorNo disk' sectorSize 0 = sectorNo disk sectorSize 0
  primary : sectorNo disk' sectorSize 1 = rebuiltSector env disk sectorSize true header
  ends : succeeded result = true ↔
    (entrySectors sectorSize header).toNat < (backupLba disk sectorSize).toNat
  backup : sectorNo disk' sectorSize (backupLba disk sectorSize).toNat =
    sectorNo disk sectorSize (if (entrySectors sectorSize header).toNat + 1 = (backupLba disk sectorSize).toNat
      then (backupLba disk sectorSize).toNat - 1 else (backupLba disk sectorSize).toNat)

omit works in
theorem length_rebuiltSector {fromBackup : Bool} (valid : validateGptHeader header = true) :
    (rebuiltSector env disk sectorSize fromBackup header).length = sectorSize.toNat :=
  length_movedSector env _ _ _ (validateGptHeader_iff.mp valid).long wide

omit works in
theorem primary_half (large : 34 ≤ disk.totalBytes / sectorSize.toUInt64) (valid : validateGptHeader header = true)
    (full : (entrySectors sectorSize header).toNat = (backupLba disk sectorSize).toNat) (e : ErrorInfo) :
    PrimaryOutcome env sectorSize disk
      (disk.patched (1 * sectorSize.toNat) (rebuiltSector env disk sectorSize true header)) header (.error e) := by
  have size := @length_rebuiltSector env disk _ header wide true valid
  obtain ⟨_,_,many⟩ := backupLba_bytes large
  have behind : 1 * sectorSize.toNat + (rebuiltSector env disk sectorSize true header).length ≤
      (backupLba disk sectorSize).toNat * sectorSize.toNat := by
    rw [size,← Nat.succ_mul]
    exact Nat.mul_le_mul_right _ (by omega)
  refine ⟨rfl,sectorNo_patched_apart (.inl (by decide)),sectorNo_patched_one size,?_,?_⟩
  · exact ⟨fun ok => absurd ok (by simp [succeeded]),fun fewer => by omega⟩
  · rw [if_neg (by omega),sectorNo_patched_apart (.inr behind)]

omit works in
theorem primary_whole (large : 34 ≤ disk.totalBytes / sectorSize.toUInt64) (valid : validateGptHeader header = true)
    (fewer : (entrySectors sectorSize header).toNat < (backupLba disk sectorSize).toNat) :
    PrimaryOutcome env sectorSize disk
      ((disk.patched (1 * sectorSize.toNat) (rebuiltSector env disk sectorSize true header)).patched
        (2 * sectorSize.toNat) (window disk.byte
          (((backupLba disk sectorSize).toNat - (entrySectors sectorSize header).toNat) * sectorSize.toNat)
          ((entrySectors sectorSize header).toNat * sectorSize.toNat))) header (.ok ()) := by
  have size := @length_rebuiltSector env disk _ header wide true valid
  obtain ⟨_,_,many⟩ := backupLba_bytes large
  refine ⟨rfl,?_,?_,⟨fun _ => fewer,fun _ => rfl⟩,?_⟩
  rotate_left 2
  · generalize (backupLba disk sectorSize).toNat = last at fewer many ⊢
    generalize (entrySectors sectorSize header).toNat = count at fewer ⊢
    split
    next just =>
      have steps : last - count + (last - 2) = last - 1 := by omega
      have before : (last - count) * sectorSize.toNat + (last - 2) * sectorSize.toNat =
          (last - 1) * sectorSize.toNat := by rw [← Nat.add_mul,steps]
      exact (sectorNo_patched_moved (by omega) (by omega)).trans (by rw [before,sectorNo])
    next inner =>
      rw [sectorNo_patched_apart,sectorNo_patched_apart]
      · rw [size,← Nat.succ_mul]
        exact .inr (Nat.mul_le_mul_right _ (by omega))
      · rw [length_window,← Nat.add_mul]
        exact .inr (Nat.mul_le_mul_right _ (by omega))
  · rw [sectorNo_patched_apart (.inl (by decide)),sectorNo_patched_apart (.inl (by decide))]
  · rw [sectorNo_patched_apart (.inl (by decide)),sectorNo_patched_one size]

theorem repairGpt_primary (large : 34 ≤ disk.totalBytes / sectorSize.toUInt64)
    (same : sectorNo disk sectorSize (backupLba disk sectorSize).toNat = header)
    (valid : validateGptHeader header = true)
    (found : Inside disk.totalBytes.toNat sectorSize (backupLba disk sectorSize - entrySectors sectorSize header)
      (entrySectors sectorSize header)) :
    ∃ result disk' accesses', repairGpt env sectorSize true ⟨disk,accesses⟩ = (result,⟨disk',accesses'⟩) ∧
      (¬ ∀ access ∈ accesses', Idle access) ∧ PrimaryOutcome env sectorSize disk disk' header result := by
  have positive : 0 < sectorSize.toNat := by omega
  have width := sectorSize.toNat_lt
  have start : ((2 : UInt64) * sectorSize.toUInt64).toNat = 2 * sectorSize.toNat := by
    rw [UInt64.toNat_mul,UInt32.toNat_toUInt64]
    exact Nat.mod_eq_of_lt (by change 2 * sectorSize.toNat < 2 ^ 64; omega)
  have bytes := (entrySectors_bytes positive header).trans (entrySectors_mul positive header).symm
  have read := sector_read works (sourceLba_le true large) large
  rw [show sourceLba disk sectorSize true = backupLba disk sectorSize from rfl,same] at read
  have entries := readSectors_inside works found
  obtain ⟨fits,place⟩ := inside_before_backup positive large found
  rw [place,bytes] at entries
  obtain ⟨firstMsg,secondMsg,run⟩ := @repairGpt_read env disk sectorSize true header _ accesses works.geometry
    (UInt64.not_lt.mpr large) read valid entries
  obtain ⟨_,_,many⟩ := backupLba_bytes large
  have header_inside : Inside disk.totalBytes.toNat sectorSize 1 1 :=
    (sector_inside (UInt64.le_iff_toNat_le.mpr (by change 1 ≤ _; omega)) large).1
  have reached_header := reached_one works positive header_inside
  have on_header : (headerWrite env disk sectorSize true header).on sectorSize disk =
      disk.patched (1 * sectorSize.toNat) (rebuiltSector env disk sectorSize true header) :=
    headerWrite_on wide large valid disk
  have noisy (entryData : List UInt8) := @writeTwo_noisy env sectorSize (headerWrite env disk sectorSize true header)
    (entriesWrite env disk sectorSize true header entryData) firstMsg secondMsg
    ⟨disk,accesses ++ afterEntries disk sectorSize true header⟩
    (fun zero => absurd (reached_header.symm.trans zero) (by decide))
  have after := inside_after_primary wide large found
  by_cases fewer : (entrySectors sectorSize header).toNat < (backupLba disk sectorSize).toNat
  · obtain ⟨accesses',done⟩ := @writeTwo_inside env disk sectorSize (headerWrite env disk sectorSize true header)
      (entriesWrite env disk sectorSize true header _) firstMsg secondMsg works header_inside (after.mpr fewer)
      (accesses ++ afterEntries disk sectorSize true header)
    have quiet := noisy (window disk.byte
      (((backupLba disk sectorSize).toNat - (entrySectors sectorSize header).toNat) * sectorSize.toNat)
      ((entrySectors sectorSize header).toNat * sectorSize.toNat))
    rw [done] at quiet
    rw [on_header,@entriesWrite_on env disk sectorSize header true _ _ _ start bytes _] at done
    exact ⟨_,_,_,run.trans done,quiet,primary_whole wide large valid fewer⟩
  · have full : (entrySectors sectorSize header).toNat = (backupLba disk sectorSize).toNat := by omega
    obtain ⟨e,accesses',done⟩ := @writeTwo_half env disk sectorSize (headerWrite env disk sectorSize true header)
      (entriesWrite env disk sectorSize true header _) firstMsg secondMsg works header_inside
      (fun inside => fewer (after.mp inside)) (accesses ++ afterEntries disk sectorSize true header)
    have quiet := noisy (window disk.byte
      (((backupLba disk sectorSize).toNat - (entrySectors sectorSize header).toNat) * sectorSize.toNat)
      ((entrySectors sectorSize header).toNat * sectorSize.toNat))
    rw [done] at quiet
    rw [on_header] at done
    exact ⟨_,_,_,run.trans done,quiet,primary_half wide large valid full e⟩

/-- The disk after the backup copy was written over. -/
structure BackupOutcome (env : RepairEnv) (sectorSize : UInt32) (disk disk' : Disk) (header : List UInt8) : Prop where
  size : disk'.totalBytes = disk.totalBytes
  backup : sectorNo disk' sectorSize (backupLba disk sectorSize).toNat = rebuiltSector env disk sectorSize false header
  before : ∀ k < (backupLba disk sectorSize).toNat, sectorNo disk' sectorSize k =
    if (backupLba disk sectorSize).toNat ≤ k + (entrySectors sectorSize header).toNat then
      window disk.byte ((partitionEntryLba header * sectorSize.toUInt64).toNat +
        (k + (entrySectors sectorSize header).toNat - (backupLba disk sectorSize).toNat) * sectorSize.toNat)
        sectorSize.toNat
    else sectorNo disk sectorSize k

omit works in
theorem backup_whole (valid : validateGptHeader header = true)
    (fits : (entrySectors sectorSize header).toNat ≤ (backupLba disk sectorSize).toNat) :
    BackupOutcome env sectorSize disk
      ((disk.patched
        (((backupLba disk sectorSize).toNat - (entrySectors sectorSize header).toNat) * sectorSize.toNat)
        (window disk.byte (partitionEntryLba header * sectorSize.toUInt64).toNat
          ((entrySectors sectorSize header).toNat * sectorSize.toNat))).patched
        ((backupLba disk sectorSize).toNat * sectorSize.toNat) (rebuiltSector env disk sectorSize false header))
      header := by
  have size := @length_rebuiltSector env disk _ header wide false valid
  refine ⟨rfl,sectorNo_patched_one size,?_⟩
  generalize (backupLba disk sectorSize).toNat = last at fits ⊢
  generalize (entrySectors sectorSize header).toNat = count at fits ⊢
  generalize (partitionEntryLba header * sectorSize.toUInt64).toNat = start
  intro k before
  rw [sectorNo_patched_apart (.inl before)]
  split
  next inside =>
    have steps : k - (last - count) = k + count - last := by omega
    exact (sectorNo_patched_moved (by omega) (by omega)).trans (by rw [steps])
  next outside => rw [sectorNo_patched_apart (.inl (by omega))]

theorem repairGpt_backup (large : 34 ≤ disk.totalBytes / sectorSize.toUInt64)
    (same : sectorNo disk sectorSize 1 = header) (valid : validateGptHeader header = true)
    (found : Inside disk.totalBytes.toNat sectorSize (partitionEntryLba header) (entrySectors sectorSize header))
    (room : Inside disk.totalBytes.toNat sectorSize (backupLba disk sectorSize - entrySectors sectorSize header)
      (entrySectors sectorSize header)) :
    ∃ disk' more, repairGpt env sectorSize false ⟨disk,accesses⟩ = (.ok (),⟨disk',accesses ++ more⟩) ∧
      BackupOutcome env sectorSize disk disk' header := by
  have positive : 0 < sectorSize.toNat := by omega
  have bytes := (entrySectors_bytes positive header).trans (entrySectors_mul positive header).symm
  have read := sector_read works (sourceLba_le false large) large
  rw [show (sourceLba disk sectorSize false).toNat = 1 from rfl,same] at read
  have entries := readSectors_inside works found
  rw [bytes] at entries
  obtain ⟨fits,place⟩ := inside_before_backup positive large room
  obtain ⟨firstMsg,secondMsg,run⟩ := @repairGpt_read env disk sectorSize false header _ accesses works.geometry
    (UInt64.not_lt.mpr large) read valid entries
  have header_inside := (sector_inside (UInt64.le_refl (backupLba disk sectorSize)) large).1
  obtain ⟨more,done⟩ := @writeTwo_inside env disk sectorSize (entriesWrite env disk sectorSize false header _)
    (headerWrite env disk sectorSize false header) firstMsg secondMsg works room header_inside
    (accesses ++ afterEntries disk sectorSize false header)
  rw [headerWrite_on wide large valid,@entriesWrite_on env disk sectorSize header false _ _ _ place bytes _,
    List.append_assoc] at done
  exact ⟨_,_,run.trans done,backup_whole wide valid fits⟩

end Outcome
end SetecWizard.Core.BootRepair
