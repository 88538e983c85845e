import SetecWizard.Repair.Outcome
import SetecWizard.Repair.Rebuilt

/-! The MBR that a repair writes. It has new boot code and a signature, and the partition
entries as they were: a status byte that the validation refuses is still there afterwards.
-/
namespace SetecWizard.Core.BootRepair
open SetecWizard.Library

/-- The status of every entry is one of the two that the validation accepts. -/
def StatusBytes (mbr : List UInt8) : Prop :=
  ∀ i < 4, mbr.getD (446 + i * 16) 0 = 0x00 ∨ mbr.getD (446 + i * 16) 0 = 0x80

instance (mbr : List UInt8) : Decidable (StatusBytes mbr) :=
  inferInstanceAs (Decidable (∀ i < 4, mbr.getD (446 + i * 16) 0 = 0x00 ∨ mbr.getD (446 + i * 16) 0 = 0x80))

theorem validateMbr_iff {mbr : List UInt8} : validateMbr mbr = true ↔
    512 ≤ mbr.length ∧ readLE16 mbr 510 = MBR_SIGNATURE ∧ StatusBytes mbr := by
  simp only [validateMbr,StatusBytes,Bool.and_eq_true,decide_eq_true_eq,List.all_eq_true,List.mem_range,
    Bool.or_eq_true,beq_iff_eq,and_assoc]

def repairedMbr (mbr : List UInt8) : List UInt8 :=
  splice (splice mbr 0 (getStandardMbrBootCode.take 440)) 510 [0x55,0xAA]

/-- The disk signature and the partition entries are the same. -/
def SameTable (mbr mbr' : List UInt8) : Prop :=
  slice mbr' 440 4 = slice mbr 440 4 ∧ slice mbr' 446 64 = slice mbr 446 64

theorem bootCode_fits : (getStandardMbrBootCode.take 440).length = 440 := by
  have size : bootCode.length = 240 := rfl
  rw [getStandardMbrBootCode,List.length_take,List.length_append,List.length_replicate,size]
  rfl

section Repaired

variable {mbr : List UInt8} (long : 512 ≤ mbr.length)
include long

theorem length_coded : (splice mbr 0 (getStandardMbrBootCode.take 440)).length = mbr.length :=
  length_splice _ _ _ (by rw [bootCode_fits]; omega)

theorem length_repairedMbr : (repairedMbr mbr).length = mbr.length := by
  have coded := length_coded long
  have two : ([0x55,0xAA] : List UInt8).length = 2 := rfl
  rw [repairedMbr,length_splice _ _ _ (by rw [coded,two]; omega),coded]

theorem repairedMbr_kept {off n : Nat} (low : 440 ≤ off) (high : off + n ≤ 510) :
    slice (repairedMbr mbr) off n = slice mbr off n := by
  have coded := length_coded long
  have two : ([0x55,0xAA] : List UInt8).length = 2 := rfl
  rw [repairedMbr,slice_splice_apart _ _ _ _ _ (by rw [coded,two]; omega) (.inl high),
    slice_splice_apart _ _ _ _ _ (by rw [bootCode_fits]; omega) (.inr (by rw [bootCode_fits]; omega))]

theorem repairedMbr_byte {off : Nat} (low : 440 ≤ off) (high : off < 510) :
    (repairedMbr mbr).getD off 0 = mbr.getD off 0 := by
  have byte := congrArg (fun xs => xs.getD 0 0) (repairedMbr_kept long (n := 1) low (by omega))
  simpa only [getD_slice _ _ _ _ Nat.one_pos,Nat.add_zero] using byte

theorem repairedMbr_table : SameTable mbr (repairedMbr mbr) :=
  ⟨repairedMbr_kept long (by decide) (by decide),repairedMbr_kept long (by decide) (by decide)⟩

theorem isGpt_repairedMbr : isGpt (repairedMbr mbr) = isGpt mbr := by
  rw [Bool.eq_iff_iff]
  simp only [isGpt,List.any_eq_true,List.mem_range]
  have same (i : Nat) (bound : i < 4) :
      (repairedMbr mbr).getD (446 + i * 16 + 4) 0 = mbr.getD (446 + i * 16 + 4) 0 :=
    repairedMbr_byte long (by omega) (by omega)
  constructor
  · rintro ⟨i,bound,protective⟩
    rw [same i bound] at protective
    exact ⟨i,bound,protective⟩
  · rintro ⟨i,bound,protective⟩
    rw [← same i bound] at protective
    exact ⟨i,bound,protective⟩

theorem statusBytes_repairedMbr : StatusBytes (repairedMbr mbr) ↔ StatusBytes mbr := by
  have same (i : Nat) (bound : i < 4) : (repairedMbr mbr).getD (446 + i * 16) 0 = mbr.getD (446 + i * 16) 0 :=
    repairedMbr_byte long (by omega) (by omega)
  constructor
  · intro statuses i bound
    rw [← same i bound]
    exact statuses i bound
  · intro statuses i bound
    rw [same i bound]
    exact statuses i bound

theorem validateMbr_repairedMbr : validateMbr (repairedMbr mbr) = true ↔ StatusBytes mbr := by
  have coded := length_coded long
  have two : ([0x55,0xAA] : List UInt8).length = 2 := rfl
  have signature : readLE16 (repairedMbr mbr) 510 = MBR_SIGNATURE :=
    readLE16_of_slice (slice_splice_same _ _ _ (by rw [coded,two]; omega))
  rw [validateMbr_iff,length_repairedMbr long,statusBytes_repairedMbr long]
  exact ⟨fun valid => valid.2.2,fun statuses => ⟨long,signature,statuses⟩⟩

end Repaired

/-! The automatic repair, and whether another one finds anything left to do. The MBR is
repaired first and the GPT is looked at afterwards, whatever became of the MBR; the
entries of a copy that is rebuilt can come to lie over what was found in order.
-/

section Steps

variable {env : RepairEnv} {disk : Disk} {sectorSize : UInt32} {accesses : List RepairAccess}

def mbrSector (disk : Disk) (sectorSize : UInt32) : List UInt8 := sectorNo disk sectorSize 0

def renewedDisk (disk : Disk) (sectorSize : UInt32) : Disk :=
  if validateMbr (mbrSector disk sectorSize) then disk
  else disk.patched 0 (repairedMbr (mbrSector disk sectorSize))

theorem length_sectorNo (k : Nat) : (sectorNo disk sectorSize k).length = sectorSize.toNat := length_window _ _ _

@[simp] theorem renewedDisk_totalBytes : (renewedDisk disk sectorSize).totalBytes = disk.totalBytes := by
  unfold renewedDisk
  split <;> rfl

section Renewed

variable (wide : 512 ≤ sectorSize.toNat)
include wide

theorem mbr_long : 512 ≤ (mbrSector disk sectorSize).length := by rwa [mbrSector,length_sectorNo]

theorem sectorNo_renewed {k : Nat} (behind : 1 ≤ k) :
    sectorNo (renewedDisk disk sectorSize) sectorSize k = sectorNo disk sectorSize k := by
  unfold renewedDisk
  split
  next => rfl
  next =>
    have size : (repairedMbr (mbrSector disk sectorSize)).length = sectorSize.toNat := by
      rw [length_repairedMbr (mbr_long wide),mbrSector,length_sectorNo]
    have apart : 0 * sectorSize.toNat + (repairedMbr (mbrSector disk sectorSize)).length ≤ k * sectorSize.toNat := by
      have one := Nat.mul_le_mul_right sectorSize.toNat behind
      omega
    have kept := @sectorNo_patched_apart _ disk _ 0 k (.inr apart)
    rwa [Nat.zero_mul] at kept

theorem mbrSector_renewed : mbrSector (renewedDisk disk sectorSize) sectorSize =
    if validateMbr (mbrSector disk sectorSize) then mbrSector disk sectorSize
    else repairedMbr (mbrSector disk sectorSize) := by
  unfold renewedDisk
  split
  next => rfl
  next =>
    have size : (repairedMbr (mbrSector disk sectorSize)).length = sectorSize.toNat := by
      rw [length_repairedMbr (mbr_long wide),mbrSector,length_sectorNo]
    have written := @sectorNo_patched_one _ disk _ 0 size
    rwa [Nat.zero_mul] at written

theorem validateMbr_renewed : validateMbr (mbrSector (renewedDisk disk sectorSize) sectorSize) = true ↔
    StatusBytes (mbrSector disk sectorSize) := by
  rw [mbrSector_renewed wide]
  split
  next valid => exact ⟨fun _ => (validateMbr_iff.mp valid).2.2,fun _ => valid⟩
  next => exact validateMbr_repairedMbr (mbr_long wide)

theorem isGpt_renewed :
    isGpt (mbrSector (renewedDisk disk sectorSize) sectorSize) = isGpt (mbrSector disk sectorSize) := by
  rw [mbrSector_renewed wide]
  split
  next => rfl
  next => exact isGpt_repairedMbr (mbr_long wide)

theorem sameTable_renewed :
    SameTable (mbrSector disk sectorSize) (mbrSector (renewedDisk disk sectorSize) sectorSize) := by
  rw [mbrSector_renewed wide]
  split
  next => exact ⟨rfl,rfl⟩
  next => exact repairedMbr_table (mbr_long wide)

end Renewed

def lastSector (disk : Disk) (sectorSize : UInt32) : Nat := (backupLba disk sectorSize).toNat

/-- The primary copy is the damaged one, and the entries of the other one can be read. -/
structure RebuildsPrimary (disk : Disk) (sectorSize : UInt32) : Prop where
  large : 34 ≤ disk.totalBytes / sectorSize.toUInt64
  damaged : validateGptHeader (sectorNo disk sectorSize 1) = false
  valid : validateGptHeader (sectorNo disk sectorSize (lastSector disk sectorSize)) = true
  found : Inside disk.totalBytes.toNat sectorSize
    (backupLba disk sectorSize - entrySectors sectorSize (sectorNo disk sectorSize (lastSector disk sectorSize)))
    (entrySectors sectorSize (sectorNo disk sectorSize (lastSector disk sectorSize)))

/-- The backup copy is, and the entries of the other one can be read and have a place. -/
structure RebuildsBackup (disk : Disk) (sectorSize : UInt32) : Prop where
  large : 34 ≤ disk.totalBytes / sectorSize.toUInt64
  valid : validateGptHeader (sectorNo disk sectorSize 1) = true
  damaged : validateGptHeader (sectorNo disk sectorSize (lastSector disk sectorSize)) = false
  found : Inside disk.totalBytes.toNat sectorSize (partitionEntryLba (sectorNo disk sectorSize 1))
    (entrySectors sectorSize (sectorNo disk sectorSize 1))
  room : Inside disk.totalBytes.toNat sectorSize
    (backupLba disk sectorSize - entrySectors sectorSize (sectorNo disk sectorSize 1))
    (entrySectors sectorSize (sectorNo disk sectorSize 1))

/-- What the step for the GPT can do: nothing, or one of the two repairs. -/
inductive GptStep (env : RepairEnv) (sectorSize : UInt32) (disk : Disk) (accesses : List RepairAccess) :
    Disk → Bool → List RepairAccess → Prop where
  | idle {more} (primary : ¬ RebuildsPrimary disk sectorSize) (backup : ¬ RebuildsBackup disk sectorSize)
      (quiet : ∀ access ∈ more, Idle access) : GptStep env sectorSize disk accesses disk false (accesses ++ more)
  | primary {disk' result accesses'} (rebuilds : RebuildsPrimary disk sectorSize)
      (noisy : ¬ ∀ access ∈ accesses', Idle access)
      (outcome : PrimaryOutcome env sectorSize disk disk'
        (sectorNo disk sectorSize (lastSector disk sectorSize)) result) :
      GptStep env sectorSize disk accesses disk' (succeeded result) accesses'
  | backup {disk' more} (rebuilds : RebuildsBackup disk sectorSize)
      (outcome : BackupOutcome env sectorSize disk disk' (sectorNo disk sectorSize 1)) :
      GptStep env sectorSize disk accesses disk' true (accesses ++ more)

section Run

variable {env : RepairEnv} (works : Faultless env disk.totalBytes.toNat) (wide : 512 ≤ sectorSize.toNat)
include works wide

omit works wide in
theorem headerValid_run (lba : UInt64) : ∃ valid, headerValid env sectorSize lba ⟨disk,accesses⟩ =
    (valid,⟨disk,accesses ++ [.read lba 1]⟩) := by
  cases read : RawDiskHandle.readSectors env.device disk lba 1 sectorSize with
  | error e => exact ⟨false,by simp only [headerValid,RepairState.readSectors,RepairState.note,read]⟩
  | ok header => exact ⟨validateGptHeader header,by simp only [headerValid,RepairState.readSectors,RepairState.note,read]⟩

omit wide in
theorem headerValid_sector {lba : UInt64} (short : lba ≤ backupLba disk sectorSize)
    (large : 34 ≤ disk.totalBytes / sectorSize.toUInt64) :
    headerValid env sectorSize lba ⟨disk,accesses⟩ =
      (validateGptHeader (sectorNo disk sectorSize lba.toNat),⟨disk,accesses ++ [.read lba 1]⟩) := by
  simp only [headerValid,RepairState.readSectors,RepairState.note,sector_read works short large]

omit works wide in
theorem first_inside (enough : sectorSize.toNat ≤ disk.totalBytes.toNat) :
    Inside disk.totalBytes.toNat sectorSize 0 1 := by
  have width := sectorSize.toNat_lt
  refine .inr ?_
  rw [sector_bytes_one,UInt64.zero_mul]
  exact ⟨width,by simpa using enough⟩

omit wide in
theorem mbr_read (enough : sectorSize.toNat ≤ disk.totalBytes.toNat) :
    RawDiskHandle.readSectors env.device disk 0 1 sectorSize = .ok (mbrSector disk sectorSize) := by
  rw [readSectors_inside works (first_inside enough),sector_bytes_one,UInt64.zero_mul,mbrSector,sectorNo,
    Nat.zero_mul]
  rfl

theorem repairMbr_run (enough : sectorSize.toNat ≤ disk.totalBytes.toNat) :
    repairMbr env sectorSize ⟨disk,accesses⟩ = (.ok (),
      ⟨disk.patched 0 (repairedMbr (mbrSector disk sectorSize)),accesses ++ [.read 0 1,.write 0 1 1]⟩) := by
  have inside := first_inside enough
  have long : ¬ (mbrSector disk sectorSize).length < 512 := Nat.not_lt.mpr (mbr_long wide)
  have size : (repairedMbr (mbrSector disk sectorSize)).length = sectorSize.toNat := by
    rw [length_repairedMbr (mbr_long wide),mbrSector,length_sectorNo]
  have written := writeSectors_inside works (repairedMbr (mbrSector disk sectorSize)) inside
  rw [sector_bytes_one,UInt64.zero_mul,List.take_of_length_le (Nat.le_of_eq size)] at written
  rw [repairedMbr] at written ⊢
  simp only [repairMbr,RawDiskHandle.getGeometry,checked,works.geometry,Except.map,RepairState.readSectors,
    RepairState.note,mbr_read works enough,if_neg long,RepairState.writeSectors,written,
    reached_one works (by omega) inside,List.append_assoc]
  rfl

theorem checkMbr_run (enough : sectorSize.toNat ≤ disk.totalBytes.toNat) (report : BootRepairReport) :
    ∃ report' more, checkMbr env sectorSize (mbrSector disk sectorSize) report ⟨disk,accesses⟩ =
        (report',⟨renewedDisk disk sectorSize,accesses ++ more⟩) ∧
      report'.gptRepaired = report.gptRepaired ∧
      (validateMbr (mbrSector disk sectorSize) = true → report'.mbrRepaired = report.mbrRepaired ∧ more = []) ∧
      (validateMbr (mbrSector disk sectorSize) = false →
        report'.mbrRepaired = true ∧ ¬ ∀ access ∈ more, Idle access) := by
  unfold checkMbr renewedDisk
  cases valid : validateMbr (mbrSector disk sectorSize) with
  | true =>
    refine ⟨{ report with details := report.details ++ "MBR is valid.\n" },[],?_,rfl,fun _ => ⟨rfl,rfl⟩,
      fun invalid => absurd invalid (by decide)⟩
    rw [List.append_nil]
    rfl
  | false =>
    rw [repairMbr_run works wide enough]
    exact ⟨_,[.read 0 1,.write 0 1 1],rfl,rfl,fun valid => absurd valid (by decide),
      fun _ => ⟨rfl,by simp [Idle]⟩⟩

theorem repairGpt_step (fromBackup : Bool) (more : List RepairAccess) (looked : ∀ access ∈ more, Idle access)
    (asked : 34 ≤ disk.totalBytes / sectorSize.toUInt64 →
      validateGptHeader (sectorNo disk sectorSize 1) = !fromBackup ∧
        validateGptHeader (sectorNo disk sectorSize (lastSector disk sectorSize)) = fromBackup) :
    ∃ result disk' accesses', repairGpt env sectorSize fromBackup ⟨disk,accesses ++ more⟩ =
        (result,⟨disk',accesses'⟩) ∧
      GptStep env sectorSize disk accesses disk' (succeeded result) accesses' := by
  by_cases large : 34 ≤ disk.totalBytes / sectorSize.toUInt64
  · obtain ⟨primary,backup⟩ := asked large
    cases fromBackup with
    | true =>
      have damaged : ¬ RebuildsBackup disk sectorSize := fun rebuilds => by
        rw [rebuilds.valid] at primary
        cases primary
      by_cases found : Inside disk.totalBytes.toNat sectorSize
        (backupLba disk sectorSize - entrySectors sectorSize (sectorNo disk sectorSize (lastSector disk sectorSize)))
        (entrySectors sectorSize (sectorNo disk sectorSize (lastSector disk sectorSize)))
      · obtain ⟨result,disk',accesses',run,noisy,outcome⟩ := repairGpt_primary works wide large rfl backup found
        exact ⟨result,disk',accesses',run,.primary ⟨large,primary,backup,found⟩ noisy outcome⟩
      · obtain ⟨e,rest,run,idle⟩ := @repairGpt_stuck env disk sectorSize
          (sectorNo disk sectorSize (lastSector disk sectorSize)) (accesses ++ more) works wide true large rfl backup
          (fun both => found both.1)
        refine ⟨_,_,_,run,?_⟩
        rw [List.append_assoc]
        exact .idle (fun rebuilds => found rebuilds.found) damaged (List.forall_mem_append.mpr ⟨looked,idle⟩)
    | false =>
      have damaged : ¬ RebuildsPrimary disk sectorSize := fun rebuilds => by
        rw [rebuilds.valid] at backup
        cases backup
      by_cases found : Inside disk.totalBytes.toNat sectorSize (partitionEntryLba (sectorNo disk sectorSize 1))
          (entrySectors sectorSize (sectorNo disk sectorSize 1)) ∧
        Inside disk.totalBytes.toNat sectorSize
          (backupLba disk sectorSize - entrySectors sectorSize (sectorNo disk sectorSize 1))
          (entrySectors sectorSize (sectorNo disk sectorSize 1))
      · obtain ⟨disk',rest,run,outcome⟩ := repairGpt_backup works wide large rfl primary found.1 found.2
        refine ⟨_,disk',_,run,?_⟩
        rw [List.append_assoc]
        exact .backup ⟨large,primary,backup,found.1,found.2⟩ outcome
      · obtain ⟨e,rest,run,idle⟩ := @repairGpt_stuck env disk sectorSize
          (sectorNo disk sectorSize 1) (accesses ++ more) works wide false large rfl primary found
        refine ⟨_,_,_,run,?_⟩
        rw [List.append_assoc]
        exact .idle damaged (fun rebuilds => found ⟨rebuilds.found,rebuilds.room⟩)
          (List.forall_mem_append.mpr ⟨looked,idle⟩)
  · have run := @repairGpt_small env disk sectorSize fromBackup works.geometry (UInt64.not_le.mp large)
      ⟨disk,accesses ++ more⟩ rfl
    exact ⟨_,_,_,run,.idle (fun rebuilds => large rebuilds.large) (fun rebuilds => large rebuilds.large) looked⟩

theorem checkGpt_run (report : BootRepairReport) (before : report.gptRepaired = false) :
    ∃ report' disk' accesses', checkGpt env sectorSize disk.totalBytes report ⟨disk,accesses⟩ =
        (report',⟨disk',accesses'⟩) ∧ report'.mbrRepaired = report.mbrRepaired ∧
      GptStep env sectorSize disk accesses disk' report'.gptRepaired accesses' := by
  obtain ⟨looked,same⟩ : ∃ looked, looked = [RepairAccess.read GPT_HEADER_LBA 1,
    .difference (disk.totalBytes / sectorSize.toUInt64) 1,.read (backupLba disk sectorSize) 1] := ⟨_,rfl⟩
  have idle : ∀ access ∈ looked, Idle access := by simp [same,Idle]
  obtain ⟨primaryValid,first⟩ := @headerValid_run disk sectorSize accesses env GPT_HEADER_LBA
  obtain ⟨backupValid,second⟩ := @headerValid_run disk sectorSize
    (accesses ++ [.read GPT_HEADER_LBA 1] ++ [.difference (disk.totalBytes / sectorSize.toUInt64) 1]) env
    (disk.totalBytes / sectorSize.toUInt64 - 1)
  have seen (large : 34 ≤ disk.totalBytes / sectorSize.toUInt64) :
      validateGptHeader (sectorNo disk sectorSize 1) = primaryValid ∧
        validateGptHeader (sectorNo disk sectorSize (lastSector disk sectorSize)) = backupValid := by
    have primary := @headerValid_sector disk sectorSize accesses env works _ (sourceLba_le false large) large
    have backup := @headerValid_sector disk sectorSize
      (accesses ++ [.read GPT_HEADER_LBA 1] ++ [.difference (disk.totalBytes / sectorSize.toUInt64) 1]) env works _
      (UInt64.le_refl _) large
    exact ⟨congrArg Prod.fst (primary.symm.trans first),congrArg Prod.fst (backup.symm.trans second)⟩
  have after : accesses ++ [.read GPT_HEADER_LBA 1] ++ [.difference (disk.totalBytes / sectorSize.toUInt64) 1] ++
      [.read (disk.totalBytes / sectorSize.toUInt64 - 1) 1] = accesses ++ looked := by
    rw [same,List.append_assoc,List.append_assoc]
    rfl
  unfold checkGpt
  simp only [first,RepairState.subtract,RepairState.note,second,after]
  have neither (alike : primaryValid = backupValid) :
      GptStep env sectorSize disk accesses disk false (accesses ++ looked) := by
    refine .idle (fun rebuilds => ?_) (fun rebuilds => ?_) idle
    · obtain ⟨primary,backup⟩ := seen rebuilds.large
      rw [rebuilds.damaged] at primary
      rw [rebuilds.valid] at backup
      rw [← primary,← backup] at alike
      cases alike
    · obtain ⟨primary,backup⟩ := seen rebuilds.large
      rw [rebuilds.valid] at primary
      rw [rebuilds.damaged] at backup
      rw [← primary,← backup] at alike
      cases alike
  cases primaryValid with
  | true =>
    cases backupValid with
    | true => exact ⟨_,_,_,rfl,rfl,by simpa only [before] using neither rfl⟩
    | false =>
      obtain ⟨result,disk',accesses',run,step⟩ := repairGpt_step works wide false looked idle seen
      rw [run]
      exact ⟨_,_,_,rfl,rfl,step⟩
  | false =>
    cases backupValid with
    | true =>
      obtain ⟨result,disk',accesses',run,step⟩ := repairGpt_step works wide true looked idle seen
      rw [run]
      exact ⟨_,_,_,rfl,rfl,step⟩
    | false => exact ⟨_,_,_,rfl,rfl,by simpa only [before] using neither rfl⟩

omit wide in
theorem autoRepair_eq (enough : sectorSize.toNat ≤ disk.totalBytes.toNat) {report : BootRepairReport} {s : RepairState}
    (first : checkMbr env sectorSize (mbrSector disk sectorSize) {} ⟨disk,[.read 0 1]⟩ = (report,s)) :
    autoRepair env sectorSize 0 0 ⟨disk,[]⟩ =
      if isGpt (mbrSector disk sectorSize) then
        (.ok (checkGpt env sectorSize disk.totalBytes report s).1,(checkGpt env sectorSize disk.totalBytes report s).2)
      else (.ok report,s) := by
  have run : checkDisk env sectorSize disk.totalBytes {} ⟨disk,[]⟩ =
      if isGpt (mbrSector disk sectorSize) then checkGpt env sectorSize disk.totalBytes report s else (report,s) := by
    simp only [checkDisk,RepairState.readSectors,RepairState.note,mbr_read works enough,List.nil_append,first]
  simp only [autoRepair,RawDiskHandle.getGeometry,checked,works.geometry,Except.map,run,checkBcd,checkBootloader,
    true_or,if_true]
  split
  next => rfl
  next => rfl

/-- What the automatic repair without volumes does on a disk that has a first sector. -/
theorem autoRepair_run (enough : sectorSize.toNat ≤ disk.totalBytes.toNat) :
    ∃ report before disk' accesses', autoRepair env sectorSize 0 0 ⟨disk,[]⟩ = (.ok report,⟨disk',accesses'⟩) ∧
      (report.mbrRepaired = true ↔ validateMbr (mbrSector disk sectorSize) = false) ∧
      ((∀ access ∈ before, Idle access) ↔ validateMbr (mbrSector disk sectorSize) = true) ∧
      (isGpt (mbrSector disk sectorSize) = false →
        disk' = renewedDisk disk sectorSize ∧ report.gptRepaired = false ∧ accesses' = before) ∧
      (isGpt (mbrSector disk sectorSize) = true →
        GptStep env sectorSize (renewedDisk disk sectorSize) before disk' report.gptRepaired accesses') := by
  obtain ⟨first,more,checked,unrepaired,kept,repaired⟩ :=
    @checkMbr_run disk sectorSize [.read 0 1] env works wide enough {}
  have run := autoRepair_eq works enough checked
  have reported : first.mbrRepaired = true ↔ validateMbr (mbrSector disk sectorSize) = false := by
    cases valid : validateMbr (mbrSector disk sectorSize) with
    | true => simp [kept valid]
    | false => simp [repaired valid]
  have quiet : (∀ access ∈ [RepairAccess.read 0 1] ++ more, Idle access) ↔
      validateMbr (mbrSector disk sectorSize) = true := by
    rw [List.forall_mem_append,and_iff_right (by simp [Idle])]
    cases valid : validateMbr (mbrSector disk sectorSize) with
    | true => simp [kept valid]
    | false => simpa using (repaired valid).2
  cases gpt : isGpt (mbrSector disk sectorSize) with
  | false =>
    rw [gpt] at run
    exact ⟨first,_,_,_,run,reported,quiet,fun _ => ⟨rfl,unrepaired,rfl⟩,fun some => absurd some (by decide)⟩
  | true =>
    have works' : Faultless env (renewedDisk disk sectorSize).totalBytes.toNat := by rwa [renewedDisk_totalBytes]
    obtain ⟨second,disk',accesses',later,same,step⟩ :=
      @checkGpt_run (renewedDisk disk sectorSize) sectorSize ([.read 0 1] ++ more) env works' wide first unrepaired
    rw [renewedDisk_totalBytes] at later
    rw [gpt,if_pos rfl,later] at run
    exact ⟨second,_,disk',accesses',run,by rw [same]; exact reported,quiet,fun none => absurd none (by decide),
      fun _ => step⟩

omit wide in
theorem autoRepair_short (short : ¬ sectorSize.toNat ≤ disk.totalBytes.toNat) :
    autoRepair env sectorSize 0 0 ⟨disk,[]⟩ = (.ok {},⟨disk,[.read 0 1]⟩) := by
  have beyond : ¬ Inside disk.totalBytes.toNat sectorSize 0 1 := by
    rintro (none | ⟨_,room⟩)
    · cases none
    · rw [sector_bytes_one,UInt64.zero_mul] at room
      exact short (by simpa using room)
  obtain ⟨e,refused⟩ := readSectors_beyond works beyond
  simp only [autoRepair,RawDiskHandle.getGeometry,checked,works.geometry,Except.map,checkDisk,
    RepairState.readSectors,RepairState.note,refused,checkBcd,checkBootloader,true_or,if_true,List.nil_append]

end Run

def Quiet (env : RepairEnv) (sectorSize : UInt32) (disk : Disk) : Prop :=
  ∀ access ∈ (autoRepair env sectorSize 0 0 ⟨disk,[]⟩).2.accesses, Idle access

section Quiet

variable {env : RepairEnv} (works : Faultless env disk.totalBytes.toNat) (wide : 512 ≤ sectorSize.toNat)
include works wide

omit wide in
theorem quiet_short (short : ¬ sectorSize.toNat ≤ disk.totalBytes.toNat) : Quiet env sectorSize disk := by
  rw [Quiet,autoRepair_short works short]
  simp [Idle]

theorem quiet_found (enough : sectorSize.toNat ≤ disk.totalBytes.toNat) (quiet : Quiet env sectorSize disk) :
    validateMbr (mbrSector disk sectorSize) = true ∧
      (isGpt (mbrSector disk sectorSize) = true → ¬ RebuildsPrimary (renewedDisk disk sectorSize) sectorSize) := by
  obtain ⟨report,before,disk',accesses',run,_,idle,alone,step⟩ := autoRepair_run works wide enough
  rw [Quiet,run] at quiet
  cases gpt : isGpt (mbrSector disk sectorSize) with
  | false =>
    obtain ⟨_,_,same⟩ := alone gpt
    exact ⟨idle.mp (by rw [← same]; exact quiet),fun some => absurd some (by decide)⟩
  | true =>
    have found := step gpt
    generalize report.gptRepaired = repaired at found
    cases found with
    | idle none _ _ => exact ⟨idle.mp (List.forall_mem_append.mp quiet).1,fun _ => none⟩
    | primary _ noisy _ => exact absurd quiet noisy
    | backup rebuilds _ =>
      refine ⟨idle.mp (List.forall_mem_append.mp quiet).1,fun _ primary => ?_⟩
      have damaged := primary.damaged
      rw [rebuilds.valid] at damaged
      cases damaged

theorem quiet_of_valid (valid : validateMbr (mbrSector disk sectorSize) = true)
    (none : isGpt (mbrSector disk sectorSize) = true →
      ¬ RebuildsPrimary disk sectorSize ∧ ¬ RebuildsBackup disk sectorSize) : Quiet env sectorSize disk := by
  by_cases enough : sectorSize.toNat ≤ disk.totalBytes.toNat
  · obtain ⟨report,before,disk',accesses',run,_,idle,alone,step⟩ := autoRepair_run works wide enough
    have same : renewedDisk disk sectorSize = disk := by rw [renewedDisk,if_pos valid]
    rw [same] at step
    rw [Quiet,run]
    cases gpt : isGpt (mbrSector disk sectorSize) with
    | false =>
      obtain ⟨_,_,only⟩ := alone gpt
      rw [only]
      exact idle.mpr valid
    | true =>
      have found := step gpt
      generalize report.gptRepaired = repaired at found
      cases found with
      | idle _ _ quiet => exact List.forall_mem_append.mpr ⟨idle.mpr valid,quiet⟩
      | primary rebuilds _ _ => exact absurd rebuilds (none gpt).1
      | backup rebuilds _ => exact absurd rebuilds (none gpt).2
  · exact quiet_short works enough

end Quiet

end Steps

end SetecWizard.Core.BootRepair
