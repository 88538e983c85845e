import SetecWizard.Core.FilesystemDetector
import SetecWizard.Recovery.FatFile

/-! The type of a FAT volume by its number of clusters, as the detector reports it and as the scan
for deleted files takes it. The detector counts with 32 bits what the parameter block may let grow
larger; the scan does not count but asks for the size of the root directory.
-/
namespace SetecWizard.Core.FilesystemDetector
open SetecWizard.Library Traced FileRecovery

/-- The number of clusters that the sectors behind the reserved ones, the FATs and the root
directory make. -/
def clusterCount (bpb : FatBpb) : Nat := (bpb.totalSectors.toNat - bpb.dataSector) / bpb.sectorsPerCluster.toNat

def typeFor (clusters : Nat) : FilesystemType :=
  if clusters < 4085 then .fat12 else if clusters < 65525 then .fat16 else .fat32

/-- The parameter block as the detector takes it. -/
def layoutOf (boot : List UInt8) : FatLayout where
  bytesPerSector := readLE16 boot 0x0B
  sectorsPerCluster := boot.getD 0x0D 0
  reservedSectors := readLE16 boot 0x0E
  numFats := boot.getD 0x10 0
  rootEntryCount := readLE16 boot 0x11
  fatSize := if readLE16 boot 0x16 = 0 then readLE32 boot 0x24 else (readLE16 boot 0x16).toUInt32
  totalSectors := if readLE16 boot 0x13 ≠ 0 then (readLE16 boot 0x13).toUInt32 else readLE32 boot 0x20

/-- The detector reports the type that belongs to the number of clusters, and the scan starts its
data area at the same sector and takes the way of FAT32 exactly for the volumes reported so. -/
structure Classified (boot : List UInt8) (detection : FilesystemDetection) : Prop where
  type : detection.type = typeFor (clusterCount (fatBpb boot))
  dataStart : (fatBpb boot).firstDataSector = (layoutOf boot).dataStartSector
  branch : (fatBpb boot).isFat32 = true ↔ detection.type = .fat32

/-- The sectors before the data are counted in 32 bits without a carry, or what is left of the
count makes less clusters than FAT16 has; and the root directory has no fixed place exactly in
volumes with as many clusters as FAT32 has. -/
def Countable (boot : List UInt8) : Prop :=
  let bpb := fatBpb boot
  (bpb.dataSector < 2 ^ 32 ∨
    (bpb.totalSectors.toNat - bpb.dataSector % 2 ^ 32) / bpb.sectorsPerCluster.toNat < 4085) ∧
  (bpb.rootEntryCount = 0 ↔ 65525 ≤ clusterCount bpb)

/-- What the detector has checked before it reports a FAT volume. -/
structure Accepted (boot : List UInt8) : Prop where
  bytes : (layoutOf boot).bytesPerSector ≠ 0
  clusters : (layoutOf boot).sectorsPerCluster ≠ 0
  inside : (layoutOf boot).dataStartSector < (layoutOf boot).totalSectors

section Report

variable {readFunc : DiskReadCallback} {detection : FilesystemDetection}

theorem value_refused {α : Type} (c : Prop) [Decidable c] (run : Probe (Option α)) (a : α) :
    (if c then pure none else run).value = some a ↔ ¬ c ∧ run.value = some a := by
  split
  next refused => exact ⟨fun none => (nomatch none),fun both => absurd refused both.1⟩
  next passed => exact ⟨fun found => ⟨passed,found⟩,fun both => both.2⟩

theorem reportFat_some {data : List UInt8} {isFat32Bpb : Bool} {layout : FatLayout}
    (reported : (reportFat data isFat32Bpb layout).value = some detection) :
    layout.dataStartSector < layout.totalSectors ∧ detection.type = (fatType layout.totalClusters).1 := by
  simp only [reportFat,value_refused,value_bind,value_pure,Option.some.injEq] at reported
  obtain ⟨_,inside,rfl⟩ := reported
  exact ⟨UInt32.not_le.mp inside,rfl⟩

theorem detectFat_some (accepted : (detectFat readFunc).value = some detection) :
    Accepted (safeRead readFunc 0 512) ∧
      detection.type = (fatType (layoutOf (safeRead readFunc 0 512)).totalClusters).1 := by
  simp only [detectFat,probeAt,value_refused,value_bind] at accepted
  generalize safeRead readFunc 0 512 = boot at accepted ⊢
  obtain ⟨_,_,_,bytes,_,clusters,_,_,_,reported⟩ := accepted
  rw [value_ite] at reported
  have whole : (reportFat boot (readLE16 boot 0x16 == 0) (layoutOf boot)).value = some detection := by
    by_cases zero : (le16At boot 0x16).value = 0
    · rw [if_pos zero] at reported
      rw [layoutOf,if_pos (show readLE16 boot 0x16 = 0 from zero)]
      exact reported
    · rw [if_neg zero] at reported
      rw [layoutOf,if_neg (show ¬ readLE16 boot 0x16 = 0 from zero)]
      exact reported
  obtain ⟨inside,type⟩ := reportFat_some whole
  exact ⟨⟨fun zero => bytes (.inl zero),fun zero => clusters (.inl zero),inside⟩,type⟩

end Report

section Counting

variable {boot : List UInt8}

theorem dataStart_eq (boot : List UInt8) : (fatBpb boot).firstDataSector = (layoutOf boot).dataStartSector := by
  have size : (fatBpb boot).fatSize = (layoutOf boot).fatSize := ite_not _ _ _
  rw [FatBpb.firstDataSector,size]
  rfl

theorem totalSectors_eq (boot : List UInt8) : (layoutOf boot).totalSectors.toNat = (fatBpb boot).totalSectors.toNat := by
  rw [layoutOf,FatBpb.totalSectors]
  dsimp only
  by_cases short : readLE16 boot 0x13 ≠ 0
  · rw [if_pos short,if_pos (show (fatBpb boot).totalSectors16 ≠ 0 from short),UInt16.toNat_toUInt32,
      UInt16.toNat_toUInt64]
    rfl
  · rw [if_neg short,if_neg (show ¬ (fatBpb boot).totalSectors16 ≠ 0 from short),UInt32.toNat_toUInt64]
    rfl

theorem dataStartSector_toNat (accepted : Accepted boot) :
    (layoutOf boot).dataStartSector.toNat = (fatBpb boot).dataSector % 2 ^ 32 := by
  have root := @rootDirSectors_toNat (fatBpb boot) accepted.bytes
  rw [← dataStart_eq,FatBpb.firstDataSector,UInt32.toNat_add,UInt32.toNat_add,UInt32.toNat_mul,
    UInt16.toNat_toUInt32,UInt8.toNat_toUInt32,root,FatBpb.dataSector,Nat.add_mod_mod,Nat.mod_add_mod]

theorem totalClusters_toNat (accepted : Accepted boot) : (layoutOf boot).totalClusters.toNat =
    ((fatBpb boot).totalSectors.toNat - (fatBpb boot).dataSector % 2 ^ 32) / (fatBpb boot).sectorsPerCluster.toNat := by
  have inside := UInt32.le_of_lt accepted.inside
  rw [FatLayout.totalClusters,UInt32.toNat_div,UInt32.toNat_sub_of_le _ _ inside,dataStartSector_toNat accepted,
    totalSectors_eq,UInt8.toNat_toUInt32]
  rfl

theorem fatType_eq (clusters : UInt32) : (fatType clusters).1 = typeFor clusters.toNat := by
  have few : clusters < 4085 ↔ clusters.toNat < 4085 := UInt32.lt_iff_toNat_lt
  have more : clusters < 65525 ↔ clusters.toNat < 65525 := UInt32.lt_iff_toNat_lt
  rw [fatType,apply_ite Prod.fst,apply_ite Prod.fst,typeFor]
  simp only [few,more]

theorem typeFor_fat12 {clusters : Nat} : typeFor clusters = .fat12 ↔ clusters < 4085 := by
  rw [typeFor]
  split
  next few => exact iff_of_true rfl few
  next many =>
    refine iff_of_false ?_ many
    split
    · exact fun same => nomatch same
    · exact fun same => nomatch same

theorem typeFor_fat32 {clusters : Nat} : typeFor clusters = .fat32 ↔ 65525 ≤ clusters := by
  rw [typeFor]
  split
  next few => exact iff_of_false (fun same => nomatch same) (by omega)
  next =>
    split
    next fewer => exact iff_of_false (fun same => nomatch same) (by omega)
    next many => exact iff_of_true rfl (by omega)

theorem counted_iff (accepted : Accepted boot) :
    typeFor (layoutOf boot).totalClusters.toNat = typeFor (clusterCount (fatBpb boot)) ↔
      (fatBpb boot).dataSector < 2 ^ 32 ∨ (layoutOf boot).totalClusters.toNat < 4085 := by
  have total := totalSectors_lt (fatBpb boot)
  by_cases whole : (fatBpb boot).dataSector < 2 ^ 32
  · refine iff_of_true ?_ (.inl whole)
    rw [totalClusters_toNat accepted,Nat.mod_eq_of_lt whole]
    rfl
  · have none : clusterCount (fatBpb boot) = 0 := by
      rw [clusterCount,Nat.sub_eq_zero_of_le (by omega),Nat.zero_div]
    rw [none,show typeFor 0 = .fat12 from rfl,typeFor_fat12]
    exact ⟨.inr,fun either => either.resolve_left whole⟩

end Counting

/-- What the detector reports is right and what the scan does agrees with it exactly for the
parameter blocks that can be counted. -/
theorem detectFat_classified_iff {readFunc : DiskReadCallback} {detection : FilesystemDetection}
    (accepted : (detectFat readFunc).value = some detection) :
    Classified (safeRead readFunc 0 512) detection ↔ Countable (safeRead readFunc 0 512) := by
  obtain ⟨checked,type⟩ := detectFat_some accepted
  generalize safeRead readFunc 0 512 = boot at checked type ⊢
  rw [fatType_eq] at type
  have counted := counted_iff checked
  have zero : (fatBpb boot).isFat32 = true ↔ (fatBpb boot).rootEntryCount = 0 := beq_iff_eq
  rw [Countable,← totalClusters_toNat checked,← counted,← typeFor_fat32,← zero]
  constructor
  · intro classified
    have right := type.symm.trans classified.type
    refine ⟨right,?_⟩
    rw [← right,← type]
    exact classified.branch
  · rintro ⟨right,branch⟩
    refine ⟨type.trans right,dataStart_eq boot,?_⟩
    rw [type,right]
    exact branch

section Samples

/-- A boot sector with a jump and a signature, one reserved sector, one FAT of one sector, and
sectors of 512 bytes that are clusters of their own. -/
def sampleBoot (rootEntryCount totalSectors fatSize16 : UInt16) : List UInt8 :=
  [0xEB,0x3C,0x90] ++ List.replicate 8 0x20 ++ le16 512 ++ [1] ++ le16 1 ++ [1] ++ le16 rootEntryCount ++
    le16 totalSectors ++ [0xF8] ++ le16 fatSize16 ++ List.replicate 12 0 ++ [1,0,0,0] ++ List.replicate 470 0 ++ [0x55,0xAA]

def sampleRead (boot : List UInt8) : DiskReadCallback := fun _ _ => .ok boot

/-- A floppy disk of 2880 sectors. -/
theorem floppy_classified : ∃ detection, (detectFat (sampleRead (sampleBoot 224 2880 9))).value = some detection ∧
    Classified (sampleBoot 224 2880 9) detection := by
  have accepted : (detectFat (sampleRead (sampleBoot 224 2880 9))).value.isSome = true := by decide +kernel
  obtain ⟨detection,reported⟩ := Option.isSome_iff_exists.mp accepted
  exact ⟨detection,reported,(detectFat_classified_iff reported).mpr (by
    unfold Countable
    decide)⟩

/-- The parameter block of FAT32 in a volume with less clusters than that. -/
theorem small_fat32_misread : ∃ detection, (detectFat (sampleRead (sampleBoot 0 5000 0))).value = some detection ∧
    ¬ Classified (sampleBoot 0 5000 0) detection := by
  have accepted : (detectFat (sampleRead (sampleBoot 0 5000 0))).value.map FilesystemDetection.type = some .fat16 := by
    decide +kernel
  obtain ⟨detection,reported,type⟩ := Option.map_eq_some_iff.mp accepted
  refine ⟨detection,reported,fun classified => ?_⟩
  have branch : detection.type = .fat32 := classified.branch.mp (by decide)
  rw [type] at branch
  cases branch

end Samples

end SetecWizard.Core.FilesystemDetector
