import SetecWizard.Repair.Faultless
import SetecWizard.Repair.Outcome

/-! The repair of a boot sector from a copy in its partition. Whether the copy is looked for at
the end or at sector 6 is decided by the sector that is to be repaired.
-/
namespace SetecWizard.Core.BootRepair
open SetecWizard.Library

def Signed (boot : List UInt8) : Prop := readLE16 boot 510 = 0xAA55

def IsNtfs (boot : List UInt8) : Prop := slice boot 3 8 = ntfsOemId

def Jumps (boot : List UInt8) : Prop := boot.getD 0 0 = 0xEB ∨ boot.getD 0 0 = 0xE9

instance : DecidablePred Signed := fun _ => inferInstanceAs (Decidable (_ = _))

instance : DecidablePred IsNtfs := fun _ => inferInstanceAs (Decidable (_ = _))

instance : DecidablePred Jumps := fun _ => inferInstanceAs (Decidable (_ ∨ _))

/-- The place of a partition whose boot sector is to be repaired, in sectors of its disk. -/
structure BootPlace (disk : Disk) (sectorSize : UInt32) (start count : UInt64) : Prop where
  sector : 512 ≤ sectorSize.toNat
  several : 2 ≤ count.toNat
  inside : (start.toNat + count.toNat) * sectorSize.toNat ≤ disk.totalBytes.toNat

section Place

variable {disk : Disk} {sectorSize : UInt32} {start count : UInt64} (place : BootPlace disk sectorSize start count)
include place

/-- The numbers of its sectors do not wrap. -/
theorem BootPlace.small : (start.toNat + count.toNat) * 512 < 2 ^ 64 := by
  have bound := disk.totalBytes.toNat_lt
  have wide := Nat.mul_le_mul_left (start.toNat + count.toNat) place.sector
  have within := place.inside
  omega

theorem BootPlace.last : (start + count - 1).toNat = start.toNat + count.toNat - 1 := by
  have small := place.small
  have several := place.several
  have one : (1 : UInt64).toNat = 1 := rfl
  rw [UInt64.toNat_sub,UInt64.toNat_add,one]
  omega

theorem BootPlace.sixth : (start + 6).toNat = start.toNat + 6 := by
  have small := place.small
  have six : (6 : UInt64).toNat = 6 := rfl
  rw [UInt64.toNat_add,six]
  omega

theorem BootPlace.sector_inside {lba : UInt64} (within : lba.toNat < start.toNat + count.toNat) :
    Inside disk.totalBytes.toNat sectorSize lba 1 ∧
      (lba * sectorSize.toUInt64).toNat = lba.toNat * sectorSize.toNat := by
  have bound := disk.totalBytes.toNat_lt
  have width := sectorSize.toNat_lt
  have ends := Nat.mul_le_mul_right sectorSize.toNat (show lba.toNat + 1 ≤ start.toNat + count.toNat from within)
  have room := place.inside
  have next : (lba.toNat + 1) * sectorSize.toNat = lba.toNat * sectorSize.toNat + sectorSize.toNat := Nat.succ_mul _ _
  have at_lba : (lba * sectorSize.toUInt64).toNat = lba.toNat * sectorSize.toNat := by
    rw [UInt64.toNat_mul,UInt32.toNat_toUInt64]
    exact Nat.mod_eq_of_lt (by omega)
  refine ⟨.inr ⟨?_,?_⟩,at_lba⟩
  · rw [sector_bytes_one]
    exact width
  · rw [sector_bytes_one,at_lba]
    omega

end Place

/-- What the repair takes for a backup. -/
def Acceptable (boot : List UInt8) : Prop := Signed boot ∧ (IsNtfs boot ∨ Jumps boot)

instance : DecidablePred Acceptable := fun _ => inferInstanceAs (Decidable (_ ∧ _))

def backupOf (disk : Disk) (sectorSize : UInt32) (start count : UInt64) : UInt64 :=
  if IsNtfs (sectorNo disk sectorSize start.toNat) then start + count - 1 else start + 6

section Run

variable {env : RepairEnv} {disk : Disk} {sectorSize : UInt32} {start count : UInt64}
  (works : Faultless env disk.totalBytes.toNat) (place : BootPlace disk sectorSize start count)
include works place

theorem readSectors_sector {lba : UInt64} (within : lba.toNat < start.toNat + count.toNat)
    (accesses : List RepairAccess) :
    RepairState.readSectors env sectorSize ⟨disk,accesses⟩ lba 1 =
      (.ok (sectorNo disk sectorSize lba.toNat),⟨disk,accesses ++ [.read lba 1]⟩) := by
  obtain ⟨inside,at_lba⟩ := place.sector_inside within
  rw [RepairState.readSectors,readSectors_inside works inside,at_lba,sector_bytes_one]
  rfl

theorem repairBootSector_run (within : (backupOf disk sectorSize start count).toNat < start.toNat + count.toNat) :
    let backup := backupOf disk sectorSize start count
    let boot := sectorNo disk sectorSize backup.toNat
    if Acceptable boot then
      repairBootSector env sectorSize start count ⟨disk,[]⟩ =
        (.ok (),⟨disk.patched (start.toNat * sectorSize.toNat) boot,[.read start 1,.read backup 1,.write start 1 1]⟩)
    else ∃ msg, repairBootSector env sectorSize start count ⟨disk,[]⟩ =
      (failed msg,⟨disk,[.read start 1,.read backup 1]⟩) := by
  have several := place.several
  have width := place.sector
  have geometry : RawDiskHandle.getGeometry env.device disk = .ok disk.totalBytes := by
    rw [RawDiskHandle.getGeometry,works.geometry]
    rfl
  have enough : ¬ count < 2 := by
    rw [UInt64.lt_iff_toNat_lt]
    exact Nat.not_lt.mpr several
  have first_within : start.toNat < start.toNat + count.toNat := by omega
  have long (k : Nat) : (sectorNo disk sectorSize k).length = sectorSize.toNat := length_window _ _ _
  have first := readSectors_sector works place first_within []
  have second := readSectors_sector works place within [.read start 1]
  have sixth : ¬ (¬ IsNtfs (sectorNo disk sectorSize start.toNat) ∧
      backupOf disk sectorSize start count ≠ start + 6) := by
    rintro ⟨other,apart⟩
    exact apart (if_neg other)
  obtain ⟨boot,named⟩ : ∃ boot, boot = sectorNo disk sectorSize (backupOf disk sectorSize start count).toNat := ⟨_,rfl⟩
  have eleven : 11 ≤ (sectorNo disk sectorSize start.toNat).length := by rw [long]; omega
  have whole : ¬ boot.length < 512 := by rw [named,long]; omega
  have run : repairBootSector env sectorSize start count ⟨disk,[]⟩ =
      if ¬ Signed boot then
        (failed "Backup boot sector has no AA55 signature",⟨disk,[.read start 1,.read (backupOf disk sectorSize start count) 1]⟩)
      else if ¬ IsNtfs boot ∧ ¬ Jumps boot then
        (failed "Backup boot sector does not contain valid NTFS or FAT code",
          ⟨disk,[.read start 1,.read (backupOf disk sectorSize start count) 1]⟩)
      else
        let written := RepairState.writeSectors env sectorSize
          ⟨disk,[.read start 1,.read (backupOf disk sectorSize start count) 1]⟩ start boot 1
        (written.1.mapError fun _ => .fromCode .bootRepairFailed "Failed to write restored boot sector",written.2) := by
    have target : (if slice (sectorNo disk sectorSize start.toNat) 3 8 = ntfsOemId then start + count - 1 else start + 6) =
        backupOf disk sectorSize start count := rfl
    unfold repairBootSector
    simp only [geometry,if_neg enough,first,eleven,true_and,List.nil_append]
    simp only [target,second,← named,if_neg whole,List.cons_append,List.nil_append]
    by_cases signed : Signed boot
    · rw [if_neg (not_not_intro signed)]
      refine (if_neg (not_not_intro signed)).trans ?_
      by_cases known : ¬ IsNtfs boot ∧ ¬ Jumps boot
      · rw [if_pos known]
        exact (if_pos known).trans (if_neg sixth)
      · rw [if_neg known]
        refine (if_neg known).trans ?_
        generalize RepairState.writeSectors env sectorSize _ start boot 1 = written
        obtain ⟨result,s⟩ := written
        cases result <;> rfl
    · rw [if_pos signed]
      exact if_pos signed
  simp only [← named]
  split
  next accepted =>
    obtain ⟨inside,at_start⟩ := place.sector_inside first_within
    have full : boot.take ((1 : UInt64) * sectorSize.toUInt64).toNat = boot := by
      rw [sector_bytes_one,List.take_of_length_le (by rw [named,long])]
    have known : ¬ (¬ IsNtfs boot ∧ ¬ Jumps boot) := fun neither => accepted.2.elim neither.1 neither.2
    have reached := reached_one works (by omega) inside
    rw [run,if_neg (not_not_intro accepted.1),if_neg known]
    simp only [RepairState.writeSectors,writeSectors_inside works boot inside,reached,at_start,full]
    rfl
  next refused =>
    by_cases signed : Signed boot
    · have unknown : ¬ IsNtfs boot ∧ ¬ Jumps boot :=
        not_or.mp (fun either => refused ⟨signed,either⟩)
      rw [run,if_neg (not_not_intro signed),if_pos unknown]
      exact ⟨_,rfl⟩
    · rw [run,if_pos signed]
      exact ⟨_,rfl⟩

/-- Sector 6 is asked for even where the partition has none. -/
theorem repairBootSector_beyond (other : ¬ IsNtfs (sectorNo disk sectorSize start.toNat)) :
    .read (start + 6) 1 ∈ (repairBootSector env sectorSize start count ⟨disk,[]⟩).2.accesses := by
  have several := place.several
  have width := place.sector
  have geometry : RawDiskHandle.getGeometry env.device disk = .ok disk.totalBytes := by
    rw [RawDiskHandle.getGeometry,works.geometry]
    rfl
  have enough : ¬ count < 2 := by
    rw [UInt64.lt_iff_toNat_lt]
    exact Nat.not_lt.mpr several
  have first := readSectors_sector works place (by omega : start.toNat < start.toNat + count.toNat) []
  have eleven : 11 ≤ (sectorNo disk sectorSize start.toNat).length := by
    rw [sectorNo,length_window]
    omega
  have name : ¬ slice (sectorNo disk sectorSize start.toNat) 3 8 = ntfsOemId := other
  have asked : RepairAccess.read (start + 6) 1 ∈ ([] ++ [RepairAccess.read start 1]) ++ [.read (start + 6) 1] :=
    List.mem_append_right _ List.mem_cons_self
  unfold repairBootSector
  simp only [geometry,if_neg enough,first,eleven,true_and,if_neg name]
  rw [RepairState.readSectors]
  cases read : RawDiskHandle.readSectors env.device disk (start + 6) 1 sectorSize with
  | error e => exact asked
  | ok boot =>
    simp only [ne_eq,not_true_eq_false,and_false,if_false]
    split
    next => exact asked
    next =>
      split
      next => exact asked
      next =>
        split
        next => exact asked
        next =>
          rw [RepairState.writeSectors]
          simp only []
          split
          next state same =>
            have kept := (Prod.mk.inj same).2
            rw [← kept]
            exact List.mem_append_left _ asked
          next state same =>
            have kept := (Prod.mk.inj same).2
            rw [← kept]
            exact List.mem_append_left _ asked

end Run

def IsFat (boot : List UInt8) : Prop := Jumps boot ∧ ¬ IsNtfs boot

section Claim

variable (env : RepairEnv) (disk : Disk) (sectorSize : UInt32) (start count : UInt64)

def NtfsBackup : Prop :=
  Signed (sectorNo disk sectorSize (start.toNat + count.toNat - 1)) ∧
    IsNtfs (sectorNo disk sectorSize (start.toNat + count.toNat - 1))

def FatBackup : Prop :=
  7 ≤ count.toNat ∧ Signed (sectorNo disk sectorSize (start.toNat + 6)) ∧ IsFat (sectorNo disk sectorSize (start.toNat + 6))

instance : Decidable (NtfsBackup disk sectorSize start count) := inferInstanceAs (Decidable (_ ∧ _))

instance : Decidable (FatBackup disk sectorSize start count) := inferInstanceAs (Decidable (_ ∧ _ ∧ _ ∧ _))

def RestoredFrom (lba : Nat) (outcome : Mutation RepairState) : Prop :=
  outcome.1 = .ok () ∧
    outcome.2.disk = disk.patched (start.toNat * sectorSize.toNat) (sectorNo disk sectorSize lba)

def InPartition : RepairAccess → Prop
  | .read lba n => start.toNat ≤ lba.toNat ∧ lba.toNat + n.toNat ≤ start.toNat + count.toNat
  | .write lba n _ => start.toNat ≤ lba.toNat ∧ lba.toNat + n.toNat ≤ start.toNat + count.toNat
  | .difference _ _ => True

def IsWrite : RepairAccess → Prop
  | .write _ _ _ => True
  | _ => False

/-- The one backup there is gets restored, without one or with both kinds nothing is written,
and no sector outside the partition is touched. -/
structure UsesBackup (outcome : Mutation RepairState) : Prop where
  ntfs : NtfsBackup disk sectorSize start count → ¬ FatBackup disk sectorSize start count →
    RestoredFrom disk sectorSize start (start.toNat + count.toNat - 1) outcome
  fat : FatBackup disk sectorSize start count → ¬ NtfsBackup disk sectorSize start count →
    RestoredFrom disk sectorSize start (start.toNat + 6) outcome
  none : (NtfsBackup disk sectorSize start count ↔ FatBackup disk sectorSize start count) →
    (∃ e, outcome.1 = .error e) ∧ ∀ access ∈ outcome.2.accesses, ¬ IsWrite access
  frame : ∀ access ∈ outcome.2.accesses, InPartition start count access

/-- The contents that the repair is right about. There are not both kinds of backup. Where
the boot sector says NTFS, a lone FAT backup equals the last sector, and without a backup
the last sector is not one that starts with a jump. Where it does not, there are seven
sectors, a lone NTFS backup equals sector 6, and without a backup sector 6 does not say NTFS. -/
def BackupFound : Prop :=
  let last := sectorNo disk sectorSize (start.toNat + count.toNat - 1)
  let six := sectorNo disk sectorSize (start.toNat + 6)
  ¬ (NtfsBackup disk sectorSize start count ∧ FatBackup disk sectorSize start count) ∧
    if IsNtfs (sectorNo disk sectorSize start.toNat) then
      ¬ NtfsBackup disk sectorSize start count →
        if FatBackup disk sectorSize start count then last = six else ¬ (Signed last ∧ Jumps last)
    else 7 ≤ count.toNat ∧ (¬ FatBackup disk sectorSize start count →
      if NtfsBackup disk sectorSize start count then last = six else ¬ (Signed six ∧ IsNtfs six))

end Claim

section Exactness

variable {env : RepairEnv} {disk : Disk} {sectorSize : UInt32} {start count : UInt64}

theorem patched_sector_iff {k i j : Nat} :
    disk.patched k (sectorNo disk sectorSize i) = disk.patched k (sectorNo disk sectorSize j) ↔
      sectorNo disk sectorSize i = sectorNo disk sectorSize j := by
  constructor
  · intro same
    have written := congrArg (fun d : Disk => window d.byte k sectorSize.toNat) same
    have long (m : Nat) : (sectorNo disk sectorSize m).length = sectorSize.toNat := length_window _ _ _
    simp only [Disk.patched] at written
    rwa [window_patch_whole _ _ (long i),window_patch_whole _ _ (long j)] at written
  · exact fun same => congrArg _ same

theorem acceptable_ntfs (ntfs : NtfsBackup disk sectorSize start count) :
    Acceptable (sectorNo disk sectorSize (start.toNat + count.toNat - 1)) :=
  ⟨ntfs.1,.inl ntfs.2⟩

theorem acceptable_fat (fat : FatBackup disk sectorSize start count) :
    Acceptable (sectorNo disk sectorSize (start.toNat + 6)) :=
  ⟨fat.2.1,.inr fat.2.2.1⟩

variable (works : Faultless env disk.totalBytes.toNat) (place : BootPlace disk sectorSize start count)
include works place

theorem usesBackup_within {k : Nat} (at_k : (backupOf disk sectorSize start count).toNat = k)
    (behind : start.toNat ≤ k) (within : k < start.toNat + count.toNat) :
    UsesBackup disk sectorSize start count (repairBootSector env sectorSize start count ⟨disk,[]⟩) ↔
      (NtfsBackup disk sectorSize start count → ¬ FatBackup disk sectorSize start count →
        Acceptable (sectorNo disk sectorSize k) ∧
          sectorNo disk sectorSize k = sectorNo disk sectorSize (start.toNat + count.toNat - 1)) ∧
      (FatBackup disk sectorSize start count → ¬ NtfsBackup disk sectorSize start count →
        Acceptable (sectorNo disk sectorSize k) ∧
          sectorNo disk sectorSize k = sectorNo disk sectorSize (start.toNat + 6)) ∧
      ((NtfsBackup disk sectorSize start count ↔ FatBackup disk sectorSize start count) →
        ¬ Acceptable (sectorNo disk sectorSize k)) := by
  have several := place.several
  have one : (1 : UInt64).toNat = 1 := rfl
  have run := repairBootSector_run works place (by rw [at_k]; exact within)
  simp only [at_k] at run
  have first_read : InPartition start count (.read start 1) := ⟨le_rfl,by omega⟩
  have second_read : InPartition start count (.read (backupOf disk sectorSize start count) 1) :=
    ⟨by rw [at_k]; exact behind,by rw [at_k]; omega⟩
  have write : InPartition start count (.write start 1 1) := ⟨le_rfl,by omega⟩
  split at run
  next accepted =>
    rw [run]
    constructor
    · rintro ⟨ntfs,fat,none,_⟩
      refine ⟨fun there absent => ⟨accepted,patched_sector_iff.mp (ntfs there absent).2⟩,
        fun there absent => ⟨accepted,patched_sector_iff.mp (fat there absent).2⟩,fun same => ?_⟩
      obtain ⟨e,impossible⟩ := (none same).1
      cases impossible
    · rintro ⟨ntfs,fat,none⟩
      refine ⟨fun there absent => ⟨rfl,patched_sector_iff.mpr (ntfs there absent).2⟩,
        fun there absent => ⟨rfl,patched_sector_iff.mpr (fat there absent).2⟩,
        fun same => absurd accepted (none same),?_⟩
      intro access member
      simp only [List.mem_cons,List.not_mem_nil,or_false] at member
      rcases member with rfl | rfl | rfl
      · exact first_read
      · exact second_read
      · exact write
  next refused =>
    obtain ⟨msg,ran⟩ := run
    rw [ran]
    constructor
    · rintro ⟨ntfs,fat,_,_⟩
      refine ⟨fun there absent => ?_,fun there absent => ?_,fun _ => refused⟩
      · cases (ntfs there absent).1
      · cases (fat there absent).1
    · rintro ⟨ntfs,fat,_⟩
      refine ⟨fun there absent => absurd (ntfs there absent).1 refused,
        fun there absent => absurd (fat there absent).1 refused,fun _ => ⟨⟨_,rfl⟩,?_⟩,?_⟩
      · intro access member
        simp only [List.mem_cons,List.not_mem_nil,or_false] at member
        rcases member with rfl | rfl <;> exact id
      · intro access member
        simp only [List.mem_cons,List.not_mem_nil,or_false] at member
        rcases member with rfl | rfl
        · exact first_read
        · exact second_read

/-- Without its name a boot sector is not restored from the end of the partition. -/
theorem unnamed_unrestored (other : ¬ IsNtfs (sectorNo disk sectorSize start.toNat)) (seven : 7 ≤ count.toNat)
    (ntfs : NtfsBackup disk sectorSize start count) (lone : ¬ FatBackup disk sectorSize start count)
    (unknown : ¬ Acceptable (sectorNo disk sectorSize (start.toNat + 6))) :
    ¬ UsesBackup disk sectorSize start count (repairBootSector env sectorSize start count ⟨disk,[]⟩) := by
  have at_six : (backupOf disk sectorSize start count).toNat = start.toNat + 6 := by
    rw [backupOf,if_neg other,place.sixth]
  rw [usesBackup_within works place at_six (by omega) (by omega)]
  exact fun right => unknown (right.1 ntfs lone).1

omit works place in
theorem backupFound_named (name : IsNtfs (sectorNo disk sectorSize start.toNat))
    (ntfs : NtfsBackup disk sectorSize start count) (lone : ¬ FatBackup disk sectorSize start count) :
    BackupFound disk sectorSize start count := by
  refine ⟨fun both => lone both.2,?_⟩
  rw [if_pos name]
  exact fun absent => absurd ntfs absent

/-- The real backup is used exactly where the sector to be repaired leads to it. -/
theorem repairBootSector_iff :
    UsesBackup disk sectorSize start count (repairBootSector env sectorSize start count ⟨disk,[]⟩) ↔
      BackupFound disk sectorSize start count := by
  have several := place.several
  by_cases named : IsNtfs (sectorNo disk sectorSize start.toNat)
  · have at_last : (backupOf disk sectorSize start count).toNat = start.toNat + count.toNat - 1 := by
      rw [backupOf,if_pos named,place.last]
    rw [usesBackup_within works place at_last (by omega) (by omega),BackupFound]
    simp only [if_pos named]
    constructor
    · rintro ⟨_,fat,none⟩
      refine ⟨fun ⟨ntfs,there⟩ => none (iff_of_true ntfs there) (acceptable_ntfs ntfs),fun absent => ?_⟩
      split
      next there => exact (fat there absent).2
      next nothing =>
        rintro ⟨signed,jumps⟩
        exact none (iff_of_false absent nothing) ⟨signed,.inr jumps⟩
    · rintro ⟨single,otherwise⟩
      refine ⟨fun ntfs _ => ⟨acceptable_ntfs ntfs,trivial⟩,fun there absent => ?_,fun same accepted => ?_⟩
      · have equal := otherwise absent
        rw [if_pos there] at equal
        exact ⟨by rw [equal]; exact acceptable_fat there,equal⟩
      · have absent : ¬ NtfsBackup disk sectorSize start count := fun ntfs => single ⟨ntfs,same.mp ntfs⟩
        have refused := otherwise absent
        rw [if_neg (fun fat => absent (same.mpr fat))] at refused
        exact accepted.2.elim (fun name => absent ⟨accepted.1,name⟩) (fun jumps => refused ⟨accepted.1,jumps⟩)
  · by_cases seven : 7 ≤ count.toNat
    · have at_six : (backupOf disk sectorSize start count).toNat = start.toNat + 6 := by
        rw [backupOf,if_neg named,place.sixth]
      rw [usesBackup_within works place at_six (by omega) (by omega),BackupFound]
      simp only [if_neg named]
      constructor
      · rintro ⟨ntfs,_,none⟩
        refine ⟨fun ⟨there,fat⟩ => none (iff_of_true there fat) (acceptable_fat fat),seven,fun absent => ?_⟩
        split
        next there => exact (ntfs there absent).2.symm
        next nothing =>
          rintro ⟨signed,name⟩
          exact none (iff_of_false nothing absent) ⟨signed,.inl name⟩
      · rintro ⟨single,_,otherwise⟩
        refine ⟨fun there absent => ?_,fun fat _ => ⟨acceptable_fat fat,trivial⟩,fun same accepted => ?_⟩
        · have equal := otherwise absent
          rw [if_pos there] at equal
          exact ⟨by rw [← equal]; exact acceptable_ntfs there,equal.symm⟩
        · have absent : ¬ FatBackup disk sectorSize start count := fun fat => single ⟨same.mpr fat,fat⟩
          have refused := otherwise absent
          rw [if_neg (fun ntfs => absent (same.mp ntfs))] at refused
          by_cases name : IsNtfs (sectorNo disk sectorSize (start.toNat + 6))
          · exact refused ⟨accepted.1,name⟩
          · exact absent ⟨seven,accepted.1,accepted.2.resolve_left name,name⟩
    · constructor
      · intro uses
        have asked := uses.frame _ (repairBootSector_beyond works place named)
        have one : (1 : UInt64).toNat = 1 := rfl
        rw [InPartition,place.sixth,one] at asked
        omega
      · intro found
        have enough := found.2
        rw [if_neg named] at enough
        exact absurd enough.1 seven

end Exactness

section Samples

/-- A partition of sixteen sectors from sector 8 on, the last of them a boot sector of NTFS;
the first says so too, or is destroyed. -/
def ntfsVolume (destroyed : Bool) : Disk :=
  ⟨20480,fun i =>
    if i < 11776 ∧ (destroyed = true ∨ ¬ (4096 ≤ i ∧ i < 4608)) then 0
    else ([0xEB,0x52,0x90] ++ ntfsOemId).getD (i % 512) (if i % 512 = 510 then 0x55 else if i % 512 = 511 then 0xAA else 0)⟩

theorem ntfsVolume_place (destroyed : Bool) : BootPlace (ntfsVolume destroyed) 512 8 16 :=
  ⟨by decide,by decide,(by decide : 24 * 512 ≤ 20480)⟩

example : IsNtfs (sectorNo (ntfsVolume false) 512 8) := by decide +kernel

theorem ntfsVolume_last (destroyed : Bool) : NtfsBackup (ntfsVolume destroyed) 512 8 16 := by
  cases destroyed <;> decide +kernel

theorem ntfsVolume_six (destroyed : Bool) : ¬ FatBackup (ntfsVolume destroyed) 512 8 16 := by
  cases destroyed <;> decide +kernel

example : ¬ IsNtfs (sectorNo (ntfsVolume true) 512 8) := by decide +kernel

theorem ntfsVolume_named : IsNtfs (sectorNo (ntfsVolume false) 512 (8 : UInt64).toNat) := by decide +kernel

theorem ntfsVolume_destroyed : ¬ IsNtfs (sectorNo (ntfsVolume true) 512 (8 : UInt64).toNat) := by decide +kernel

/-- A boot sector that still says NTFS is restored. -/
theorem named_restored : UsesBackup (ntfsVolume false) 512 8 16
    (repairBootSector { device := faultless 20480 } 512 8 16 ⟨ntfsVolume false,[]⟩) :=
  (repairBootSector_iff (faultless_ok (.zero 420) 20480) (ntfsVolume_place false)).mpr
    (backupFound_named ntfsVolume_named (ntfsVolume_last false) (ntfsVolume_six false))

theorem unsigned_six : ¬ Acceptable (sectorNo (ntfsVolume true) 512 ((8 : UInt64).toNat + 6)) := by decide +kernel

/-- One that is destroyed is not. -/
theorem destroyed_lost : ¬ UsesBackup (ntfsVolume true) 512 8 16
    (repairBootSector { device := faultless 20480 } 512 8 16 ⟨ntfsVolume true,[]⟩) :=
  unnamed_unrestored (faultless_ok (.zero 420) 20480) (ntfsVolume_place true) ntfsVolume_destroyed (by decide)
    (ntfsVolume_last true) (ntfsVolume_six true) unsigned_six

end Samples
end SetecWizard.Core.BootRepair
