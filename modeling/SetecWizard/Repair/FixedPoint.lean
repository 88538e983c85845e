import SetecWizard.Repair.Auto

/-! When another automatic repair finds nothing left to do. A status byte that is wrong stays
wrong; a header of more than 92 bytes gets the CRC of what lies behind it in memory; and
entries that fill the disk come to lie over the other header, or over the MBR.
-/
namespace SetecWizard.Core.BootRepair
open SetecWizard.Library

section Settles

variable (env env' : RepairEnv) (sectorSize : UInt32) (disk : Disk)

/-- What a run promises: what it reports as repaired is in order, and the next run, in an
environment of its own, writes nothing. -/
def FixedPoint : Prop :=
  ∀ report s, autoRepair env sectorSize 0 0 ⟨disk,[]⟩ = (.ok report,s) →
    (report.mbrRepaired = true → validateMbr (mbrSector s.disk sectorSize) = true ∧
      SameTable (mbrSector disk sectorSize) (mbrSector s.disk sectorSize)) ∧
    (report.gptRepaired = true → validateGptHeader (sectorNo s.disk sectorSize 1) = true ∧
      validateGptHeader (sectorNo s.disk sectorSize (lastSector disk sectorSize)) = true) ∧
    Quiet env' sectorSize s.disk

def entryCount (header : List UInt8) : Nat := (entrySectors sectorSize header).toNat

def entrySector (header : List UInt8) (i : Nat) : List UInt8 :=
  window disk.byte ((partitionEntryLba header * sectorSize.toUInt64).toNat + i * sectorSize.toNat) sectorSize.toNat

def PrimarySettles : Prop :=
  ZeroBehind env (readLE32 (sectorNo disk sectorSize (lastSector disk sectorSize)) 12) ∧
    (entryCount sectorSize (sectorNo disk sectorSize (lastSector disk sectorSize)) + 1 = lastSector disk sectorSize →
      validateGptHeader (sectorNo disk sectorSize (lastSector disk sectorSize - 1)) = true)

/-- Entries that are put before the backup header begin at the primary one, or at the MBR,
when there are that many. -/
def BackupSettles : Prop :=
  ZeroBehind env (readLE32 (sectorNo disk sectorSize 1) 12) ∧
    (entryCount sectorSize (sectorNo disk sectorSize 1) + 1 = lastSector disk sectorSize →
      validateGptHeader (entrySector sectorSize (renewedDisk disk sectorSize) (sectorNo disk sectorSize 1) 0) = true) ∧
    (entryCount sectorSize (sectorNo disk sectorSize 1) = lastSector disk sectorSize →
      validateGptHeader (entrySector sectorSize (renewedDisk disk sectorSize) (sectorNo disk sectorSize 1) 1) = true ∧
      validateMbr (entrySector sectorSize (renewedDisk disk sectorSize) (sectorNo disk sectorSize 1) 0) = true ∧
      (validateMbr (mbrSector disk sectorSize) = false → SameTable (mbrSector disk sectorSize)
        (entrySector sectorSize (renewedDisk disk sectorSize) (sectorNo disk sectorSize 1) 0)))

def Settles : Prop :=
  sectorSize.toNat ≤ disk.totalBytes.toNat → StatusBytes (mbrSector disk sectorSize) ∧
    (isGpt (mbrSector disk sectorSize) = true →
      (RebuildsPrimary disk sectorSize → PrimarySettles env sectorSize disk) ∧
        (RebuildsBackup disk sectorSize → BackupSettles env sectorSize disk))

end Settles

section Renewed

variable {disk : Disk} {sectorSize : UInt32}

theorem statusBytes_of_table {mbr mbr' : List UInt8} (table : SameTable mbr mbr') (statuses : StatusBytes mbr') :
    StatusBytes mbr := by
  intro i bound
  have byte := congrArg (fun xs => xs.getD (i * 16) 0) table.2
  simp only [getD_slice _ _ _ _ (show i * 16 < 64 by omega)] at byte
  rw [← byte]
  exact statuses i bound

@[simp] theorem lastSector_renewed : lastSector (renewedDisk disk sectorSize) sectorSize = lastSector disk sectorSize := by
  rw [lastSector,lastSector,backupLba,backupLba,renewedDisk_totalBytes]

theorem last_positive (large : 34 ≤ disk.totalBytes / sectorSize.toUInt64) : 33 ≤ lastSector disk sectorSize :=
  (backupLba_bytes large).2.2

variable (wide : 512 ≤ sectorSize.toNat)
include wide

theorem sectors_renewed (large : 34 ≤ disk.totalBytes / sectorSize.toUInt64) :
    sectorNo (renewedDisk disk sectorSize) sectorSize 1 = sectorNo disk sectorSize 1 ∧
      sectorNo (renewedDisk disk sectorSize) sectorSize (lastSector disk sectorSize) =
        sectorNo disk sectorSize (lastSector disk sectorSize) ∧
      sectorNo (renewedDisk disk sectorSize) sectorSize (lastSector disk sectorSize - 1) =
        sectorNo disk sectorSize (lastSector disk sectorSize - 1) := by
  have last := last_positive large
  exact ⟨sectorNo_renewed wide (by decide),sectorNo_renewed wide (by omega),sectorNo_renewed wide (by omega)⟩

theorem rebuildsPrimary_renewed : RebuildsPrimary (renewedDisk disk sectorSize) sectorSize ↔
    RebuildsPrimary disk sectorSize := by
  have last : backupLba (renewedDisk disk sectorSize) sectorSize = backupLba disk sectorSize := by
    rw [backupLba,backupLba,renewedDisk_totalBytes]
  constructor
  · rintro ⟨large,damaged,valid,found⟩
    rw [renewedDisk_totalBytes] at large
    obtain ⟨first,behind,_⟩ := sectors_renewed wide large
    rw [first] at damaged
    rw [lastSector_renewed,behind] at valid found
    rw [renewedDisk_totalBytes,last] at found
    exact ⟨large,damaged,valid,found⟩
  · rintro ⟨large,damaged,valid,found⟩
    obtain ⟨first,behind,_⟩ := sectors_renewed wide large
    refine ⟨by rwa [renewedDisk_totalBytes],by rwa [first],by rwa [lastSector_renewed,behind],?_⟩
    rwa [lastSector_renewed,behind,renewedDisk_totalBytes,last]

theorem rebuildsBackup_renewed : RebuildsBackup (renewedDisk disk sectorSize) sectorSize ↔
    RebuildsBackup disk sectorSize := by
  have last : backupLba (renewedDisk disk sectorSize) sectorSize = backupLba disk sectorSize := by
    rw [backupLba,backupLba,renewedDisk_totalBytes]
  constructor
  · rintro ⟨large,valid,damaged,found,room⟩
    rw [renewedDisk_totalBytes] at large
    obtain ⟨first,behind,_⟩ := sectors_renewed wide large
    rw [first] at valid found room
    rw [lastSector_renewed,behind] at damaged
    rw [renewedDisk_totalBytes] at found room
    rw [last] at room
    exact ⟨large,valid,damaged,found,room⟩
  · rintro ⟨large,valid,damaged,found,room⟩
    obtain ⟨first,behind,_⟩ := sectors_renewed wide large
    refine ⟨by rwa [renewedDisk_totalBytes],by rwa [first],by rwa [lastSector_renewed,behind],?_,?_⟩
    · rwa [first,renewedDisk_totalBytes]
    · rwa [first,renewedDisk_totalBytes,last]

end Renewed

section Outcomes

variable {env env' : RepairEnv} {sectorSize : UInt32} {disk disk' : Disk} {result : Result Unit}
  (wide : 512 ≤ sectorSize.toNat)

theorem enough_of_large (large : 34 ≤ disk.totalBytes / sectorSize.toUInt64) :
    sectorSize.toNat ≤ disk.totalBytes.toNat := by
  obtain ⟨_,inside,_⟩ := backupLba_bytes large
  rw [Nat.add_mul,Nat.one_mul] at inside
  omega

theorem lastSector_of_size (size : disk'.totalBytes = disk.totalBytes) :
    lastSector disk' sectorSize = lastSector disk sectorSize := by
  rw [lastSector,lastSector,backupLba,backupLba,size]

theorem nothing_to_rebuild (size : disk'.totalBytes = disk.totalBytes)
    (primary : validateGptHeader (sectorNo disk' sectorSize 1) = true)
    (backup : validateGptHeader (sectorNo disk' sectorSize (lastSector disk sectorSize)) = true) :
    ¬ RebuildsPrimary disk' sectorSize ∧ ¬ RebuildsBackup disk' sectorSize := by
  constructor
  · intro rebuilds
    have damaged := rebuilds.damaged
    rw [primary] at damaged
    cases damaged
  · intro rebuilds
    have damaged := rebuilds.damaged
    rw [lastSector_of_size size,backup] at damaged
    cases damaged

include wide

theorem rebuilt_valid_iff {header : List UInt8} {fromBackup : Bool} (valid : validateGptHeader header = true) :
    validateGptHeader (rebuiltSector env disk sectorSize fromBackup header) = true ↔
      ZeroBehind env (readLE32 header 12) := by
  obtain ⟨proper,_⟩ := validateGptHeader_iff.mp valid
  exact movedSector_valid_iff env _ _ _ proper.long wide proper

/-- The primary header written over is valid, and so is the backup, unless entries that end
right before it were put over it. -/
theorem primary_settles_iff (works : Faultless env' disk.totalBytes.toNat)
    (gpt : isGpt (mbrSector disk sectorSize) = true) (rebuilds : RebuildsPrimary disk sectorSize)
    (outcome : PrimaryOutcome env sectorSize disk disk'
      (sectorNo disk sectorSize (lastSector disk sectorSize)) result) :
    ((succeeded result = true → validateGptHeader (sectorNo disk' sectorSize 1) = true ∧
        validateGptHeader (sectorNo disk' sectorSize (lastSector disk sectorSize)) = true) ∧
      Quiet env' sectorSize disk') ↔
      validateMbr (mbrSector disk sectorSize) = true ∧ PrimarySettles env sectorSize disk := by
  obtain ⟨large,damaged,valid,found⟩ := rebuilds
  obtain ⟨fits,_⟩ := inside_before_backup (by omega) large found
  have works' : Faultless env' disk'.totalBytes.toNat := by rwa [outcome.size]
  have enough : sectorSize.toNat ≤ disk'.totalBytes.toNat := by
    rw [outcome.size]
    exact enough_of_large large
  have mbr : mbrSector disk' sectorSize = mbrSector disk sectorSize := outcome.mbr
  have primary := outcome.primary
  have backup : sectorNo disk' sectorSize (lastSector disk sectorSize) = _ := outcome.backup
  have rebuilt := @rebuilt_valid_iff env sectorSize disk wide _ true valid
  have ends := outcome.ends
  rw [← primary] at rebuilt
  constructor
  · rintro ⟨repaired,quiet⟩
    obtain ⟨valid_mbr,none⟩ := quiet_found works' wide enough quiet
    rw [mbr] at valid_mbr
    have same : renewedDisk disk' sectorSize = disk' := by
      rw [renewedDisk,mbr,if_pos valid_mbr]
    rw [mbr,same] at none
    refine ⟨valid_mbr,?_,?_⟩
    · by_cases fewer : succeeded result = true
      · exact rebuilt.mp (repaired fewer).1
      · -- the header is in its place, but the next run finds it invalid and the backup unchanged
        by_contra behind
        have full : (entrySectors sectorSize (sectorNo disk sectorSize (lastSector disk sectorSize))).toNat =
          (backupLba disk sectorSize).toNat := by
          have := mt ends.mpr fewer
          omega
        rw [if_neg (by omega)] at backup
        have again : RebuildsPrimary disk' sectorSize := by
          refine ⟨by rwa [outcome.size],?_,?_,?_⟩
          · exact Bool.eq_false_iff.mpr (mt rebuilt.mp behind)
          · rw [lastSector_of_size outcome.size,backup]
            exact valid
          · rw [lastSector_of_size outcome.size,backup,outcome.size,backupLba,outcome.size]
            exact found
        exact none gpt again
    · intro just
      have last : (entrySectors sectorSize (sectorNo disk sectorSize (lastSector disk sectorSize))).toNat + 1 =
        (backupLba disk sectorSize).toNat := just
      have both := (repaired (ends.mpr (by omega))).2
      rwa [backup,if_pos last] at both
  · rintro ⟨valid_mbr,zero,last⟩
    have valid_backup : validateGptHeader (sectorNo disk' sectorSize (lastSector disk sectorSize)) = true := by
      rw [backup]
      split
      next laid => exact last laid
      next => exact valid
    have valid_primary := rebuilt.mpr zero
    have none := nothing_to_rebuild outcome.size valid_primary valid_backup
    exact ⟨fun _ => ⟨valid_primary,valid_backup⟩,quiet_of_valid works' wide (by rwa [mbr]) (fun _ => none)⟩

theorem backup_first_sectors (many : 33 ≤ lastSector disk sectorSize)
    (outcome : BackupOutcome env sectorSize (renewedDisk disk sectorSize) disk' (sectorNo disk sectorSize 1))
    (fits : entryCount sectorSize (sectorNo disk sectorSize 1) ≤ lastSector disk sectorSize) :
    mbrSector disk' sectorSize =
        (if entryCount sectorSize (sectorNo disk sectorSize 1) = lastSector disk sectorSize then
          entrySector sectorSize (renewedDisk disk sectorSize) (sectorNo disk sectorSize 1) 0
        else mbrSector (renewedDisk disk sectorSize) sectorSize) ∧
      sectorNo disk' sectorSize 1 =
        (if entryCount sectorSize (sectorNo disk sectorSize 1) = lastSector disk sectorSize then
          entrySector sectorSize (renewedDisk disk sectorSize) (sectorNo disk sectorSize 1) 1
        else if entryCount sectorSize (sectorNo disk sectorSize 1) + 1 = lastSector disk sectorSize then
          entrySector sectorSize (renewedDisk disk sectorSize) (sectorNo disk sectorSize 1) 0
        else sectorNo disk sectorSize 1) := by
  have last : (backupLba (renewedDisk disk sectorSize) sectorSize).toNat = lastSector disk sectorSize :=
    lastSector_renewed
  have before := outcome.before
  have count : (entrySectors sectorSize (sectorNo disk sectorSize 1)).toNat =
    entryCount sectorSize (sectorNo disk sectorSize 1) := rfl
  rw [last,count] at before
  constructor
  · have mbr := before 0 (by omega)
    rw [← mbrSector] at mbr
    split
    next full => rw [mbr,if_pos (by omega),full,Nat.zero_add,Nat.sub_self,entrySector]
    next fewer => rw [mbr,if_neg (by omega),← mbrSector]
  · have primary := before 1 (by omega)
    split
    next full => rw [primary,if_pos (by omega),full,Nat.add_sub_cancel,entrySector]
    next fewer =>
      split
      next just =>
        rw [primary,if_pos (by omega),Nat.add_comm 1,just,Nat.sub_self,entrySector]
      next apart => rw [primary,if_neg (by omega),sectorNo_renewed wide (Nat.le_refl _)]

/-- The backup written over is in order, and so are the primary header and the MBR, unless
its entries were put over them. -/
theorem backup_settles_iff (works : Faultless env' disk.totalBytes.toNat)
    (rebuilds : RebuildsBackup disk sectorSize)
    (outcome : BackupOutcome env sectorSize (renewedDisk disk sectorSize) disk' (sectorNo disk sectorSize 1)) :
    ((validateMbr (mbrSector disk sectorSize) = false → validateMbr (mbrSector disk' sectorSize) = true ∧
        SameTable (mbrSector disk sectorSize) (mbrSector disk' sectorSize)) ∧
      (validateGptHeader (sectorNo disk' sectorSize 1) = true ∧
        validateGptHeader (sectorNo disk' sectorSize (lastSector disk sectorSize)) = true) ∧
      Quiet env' sectorSize disk') ↔
      StatusBytes (mbrSector disk sectorSize) ∧ BackupSettles env sectorSize disk := by
  obtain ⟨large,valid,damaged,found,room⟩ := rebuilds
  obtain ⟨fits,_⟩ := inside_before_backup (by omega) large room
  have size : disk'.totalBytes = disk.totalBytes := by rw [outcome.size,renewedDisk_totalBytes]
  have works' : Faultless env' disk'.totalBytes.toNat := by rwa [size]
  have enough : sectorSize.toNat ≤ disk'.totalBytes.toNat := by
    rw [size]
    exact enough_of_large large
  have many := last_positive large
  have last : (backupLba (renewedDisk disk sectorSize) sectorSize).toNat = lastSector disk sectorSize :=
    lastSector_renewed
  have backup := outcome.backup
  have rebuilt := @rebuilt_valid_iff env sectorSize (renewedDisk disk sectorSize) wide _ false valid
  rw [last] at backup
  rw [← backup] at rebuilt
  obtain ⟨mbr,primary⟩ := backup_first_sectors wide many outcome fits
  have renewed := @validateMbr_renewed disk sectorSize wide
  constructor
  · rintro ⟨repaired,⟨valid_primary,valid_backup⟩,quiet⟩
    obtain ⟨valid_mbr,_⟩ := quiet_found works' wide enough quiet
    refine ⟨?_,rebuilt.mp valid_backup,fun just => ?_,fun full => ⟨?_,?_,fun invalid => ?_⟩⟩
    · cases before : validateMbr (mbrSector disk sectorSize) with
      | true => exact (validateMbr_iff.mp before).2.2
      | false => exact statusBytes_of_table (repaired before).2 (validateMbr_iff.mp valid_mbr).2.2
    · rwa [primary,if_neg (by omega),if_pos just] at valid_primary
    · rwa [primary,if_pos full] at valid_primary
    · rwa [mbr,if_pos full] at valid_mbr
    · have table := (repaired invalid).2
      rwa [mbr,if_pos full] at table
  · rintro ⟨statuses,zero,just,full⟩
    have valid_primary : validateGptHeader (sectorNo disk' sectorSize 1) = true := by
      rw [primary]
      split
      next laid => exact (full laid).1
      next =>
        split
        next laid => exact just laid
        next => exact valid
    have valid_mbr : validateMbr (mbrSector disk' sectorSize) = true := by
      rw [mbr]
      split
      next laid => exact (full laid).2.1
      next => exact renewed.mpr statuses
    have valid_backup := rebuilt.mpr zero
    have none := nothing_to_rebuild size valid_primary valid_backup
    refine ⟨fun invalid => ⟨valid_mbr,?_⟩,⟨valid_primary,valid_backup⟩,
      quiet_of_valid works' wide valid_mbr (fun _ => none)⟩
    rw [mbr]
    split
    next laid => exact (full laid).2.2 invalid
    next => exact sameTable_renewed wide

/-- Without a copy to rebuild, the repair of the MBR is all there is. -/
theorem renewed_settles_iff (works : Faultless env' disk.totalBytes.toNat)
    (enough : sectorSize.toNat ≤ disk.totalBytes.toNat)
    (none : isGpt (mbrSector disk sectorSize) = true →
      ¬ RebuildsPrimary (renewedDisk disk sectorSize) sectorSize ∧
        ¬ RebuildsBackup (renewedDisk disk sectorSize) sectorSize) :
    ((validateMbr (mbrSector disk sectorSize) = false →
        validateMbr (mbrSector (renewedDisk disk sectorSize) sectorSize) = true ∧
          SameTable (mbrSector disk sectorSize) (mbrSector (renewedDisk disk sectorSize) sectorSize)) ∧
      Quiet env' sectorSize (renewedDisk disk sectorSize)) ↔ StatusBytes (mbrSector disk sectorSize) := by
  have works' : Faultless env' (renewedDisk disk sectorSize).totalBytes.toNat := by rwa [renewedDisk_totalBytes]
  have renewed := @validateMbr_renewed disk sectorSize wide
  constructor
  · rintro ⟨_,quiet⟩
    exact renewed.mp (quiet_found works' wide (by rwa [renewedDisk_totalBytes]) quiet).1
  · intro statuses
    have valid := renewed.mpr statuses
    refine ⟨fun _ => ⟨valid,sameTable_renewed wide⟩,quiet_of_valid works' wide valid ?_⟩
    rwa [isGpt_renewed wide]

theorem primarySettles_renewed (large : 34 ≤ disk.totalBytes / sectorSize.toUInt64) :
    PrimarySettles env sectorSize (renewedDisk disk sectorSize) ↔ PrimarySettles env sectorSize disk := by
  obtain ⟨_,last,before⟩ := sectors_renewed wide large
  rw [PrimarySettles,PrimarySettles,lastSector_renewed,last,before]

theorem primary_settles_renewed (works : Faultless env' disk.totalBytes.toNat)
    (gpt : isGpt (mbrSector disk sectorSize) = true)
    (rebuilds : RebuildsPrimary (renewedDisk disk sectorSize) sectorSize)
    (outcome : PrimaryOutcome env sectorSize (renewedDisk disk sectorSize) disk' (sectorNo (renewedDisk disk sectorSize)
      sectorSize (lastSector (renewedDisk disk sectorSize) sectorSize)) result) :
    ((validateMbr (mbrSector disk sectorSize) = false → validateMbr (mbrSector disk' sectorSize) = true ∧
        SameTable (mbrSector disk sectorSize) (mbrSector disk' sectorSize)) ∧
      (succeeded result = true → validateGptHeader (sectorNo disk' sectorSize 1) = true ∧
        validateGptHeader (sectorNo disk' sectorSize (lastSector disk sectorSize)) = true) ∧
      Quiet env' sectorSize disk') ↔
      StatusBytes (mbrSector disk sectorSize) ∧ PrimarySettles env sectorSize disk := by
  have works' : Faultless env' (renewedDisk disk sectorSize).totalBytes.toNat := by rwa [renewedDisk_totalBytes]
  have gpt' : isGpt (mbrSector (renewedDisk disk sectorSize) sectorSize) = true := by rwa [isGpt_renewed wide]
  have large := ((rebuildsPrimary_renewed wide).mp rebuilds).large
  have mbr : mbrSector disk' sectorSize = mbrSector (renewedDisk disk sectorSize) sectorSize := outcome.mbr
  have settled := primary_settles_iff wide works' gpt' rebuilds outcome
  rw [lastSector_renewed,validateMbr_renewed wide,primarySettles_renewed wide large] at settled
  rw [← settled,mbr]
  constructor
  · rintro ⟨_,rest⟩
    exact rest
  · intro rest
    exact ⟨fun _ => ⟨(validateMbr_renewed wide).mpr (settled.mp rest).1,sameTable_renewed wide⟩,rest⟩

/-- When an automatic repair leaves everything in order, and nothing to do for another one. -/
theorem autoRepair_fixedPoint_iff (works : Faultless env disk.totalBytes.toNat)
    (works' : Faultless env' disk.totalBytes.toNat) :
    FixedPoint env env' sectorSize disk ↔ Settles env sectorSize disk := by
  by_cases enough : sectorSize.toNat ≤ disk.totalBytes.toNat
  · obtain ⟨report,before,after,accesses,run,reported,_,alone,step⟩ := autoRepair_run works wide enough
    have outcome : FixedPoint env env' sectorSize disk ↔
        (validateMbr (mbrSector disk sectorSize) = false → validateMbr (mbrSector after sectorSize) = true ∧
          SameTable (mbrSector disk sectorSize) (mbrSector after sectorSize)) ∧
        (report.gptRepaired = true → validateGptHeader (sectorNo after sectorSize 1) = true ∧
          validateGptHeader (sectorNo after sectorSize (lastSector disk sectorSize)) = true) ∧
        Quiet env' sectorSize after := by
      rw [← reported]
      constructor
      · intro fixed
        exact fixed _ _ run
      · intro fixed report' s run'
        cases run.symm.trans run'
        exact fixed
    have settles : Settles env sectorSize disk ↔ StatusBytes (mbrSector disk sectorSize) ∧
        (isGpt (mbrSector disk sectorSize) = true →
          (RebuildsPrimary disk sectorSize → PrimarySettles env sectorSize disk) ∧
            (RebuildsBackup disk sectorSize → BackupSettles env sectorSize disk)) :=
      ⟨fun settles => settles enough,fun settles _ => settles⟩
    rw [outcome,settles]
    cases gpt : isGpt (mbrSector disk sectorSize) with
    | false =>
      obtain ⟨rfl,unrepaired,_⟩ := alone gpt
      have mbr := renewed_settles_iff wide works' enough (fun some => absurd (gpt.symm.trans some) (by decide))
      simpa [unrepaired] using mbr
    | true =>
      have found := step gpt
      generalize report.gptRepaired = repaired at found ⊢
      cases found with
      | idle none none' _ =>
        have mbr := renewed_settles_iff wide works' enough (fun _ => ⟨none,none'⟩)
        rw [rebuildsPrimary_renewed wide] at none
        rw [rebuildsBackup_renewed wide] at none'
        simpa [none,none'] using mbr
      | primary rebuilds _ primary =>
        have rebuilds' := (rebuildsPrimary_renewed wide).mp rebuilds
        have other : ¬ RebuildsBackup disk sectorSize := fun backup => by
          have damaged := backup.damaged
          rw [rebuilds'.valid] at damaged
          cases damaged
        have settled := primary_settles_renewed wide works' gpt rebuilds primary
        simpa [rebuilds',other] using settled
      | backup rebuilds backup =>
        have rebuilds' := (rebuildsBackup_renewed wide).mp rebuilds
        have other : ¬ RebuildsPrimary disk sectorSize := fun primary => by
          have damaged := primary.damaged
          rw [rebuilds'.valid] at damaged
          cases damaged
        rw [(sectors_renewed wide rebuilds'.large).1] at backup
        have settled := backup_settles_iff wide works' rebuilds' backup
        simpa [rebuilds',other] using settled
  · constructor
    · intro _ some
      exact absurd some enough
    · intro _ report s run
      rw [autoRepair_short works enough] at run
      cases run
      exact ⟨fun repaired => absurd repaired (by decide),fun repaired => absurd repaired (by decide),
        quiet_short works' enough⟩

end Outcomes

section Sample

theorem mbrSector_filled (value : UInt8) : mbrSector (filled 20480 value) 512 = List.replicate 512 value := by
  rw [mbrSector,sectorNo,window]
  exact List.map_const'.trans (by rw [List.length_range]; rfl)

/-- An empty disk gets its MBR, and the next repair finds it in order. -/
theorem fixedPoint_sample : FixedPoint sampleRepair sampleRepair 512 (filled 20480 0) := by
  refine (autoRepair_fixedPoint_iff (by decide) sampleRepair_works sampleRepair_works).mpr (fun _ => ?_)
  rw [mbrSector_filled]
  exact ⟨by decide +kernel,fun gpt => absurd gpt (by decide +kernel)⟩

/-- A status byte that is neither 0x00 nor 0x80 is kept, and is found again by the next repair. -/
theorem status_kept : ¬ ∀ (env env' : RepairEnv) (sectorSize : UInt32) (disk : Disk), 512 ≤ sectorSize.toNat →
    Faultless env disk.totalBytes.toNat → Faultless env' disk.totalBytes.toNat →
    FixedPoint env env' sectorSize disk := by
  intro fixed
  have works : Faultless sampleRepair (filled 20480 1).totalBytes.toNat := sampleRepair_works
  have settled := fixed sampleRepair sampleRepair 512 (filled 20480 1) (by decide) works works
  have no_gpt : isGpt (mbrSector (filled 20480 1) 512) = false := by
    rw [mbrSector_filled]
    decide +kernel
  have invalid : validateMbr (mbrSector (filled 20480 1) 512) = false := by
    rw [mbrSector_filled]
    decide +kernel
  obtain ⟨report,_,disk',accesses,run,reported,_,alone,_⟩ :=
    autoRepair_run works (by decide : 512 ≤ (512 : UInt32).toNat) (by decide)
  obtain ⟨same,_,_⟩ := alone no_gpt
  have valid : validateMbr (mbrSector disk' 512) = true := ((settled _ _ run).1 (reported.mpr invalid)).1
  rw [same] at valid
  have statuses := (validateMbr_renewed (by decide)).mp valid
  rw [mbrSector_filled] at statuses
  exact absurd (statuses 0 (by decide)) (by decide)

end Sample
end SetecWizard.Core.BootRepair
