import SetecWizard.Filesystem.Fat32
import SetecWizard.Filesystem.FormatRuns

/-! Where the writes of a FAT32 format lie. The last of them is the cluster of the root
directory, behind two FATs, and no other ends after it.
-/
namespace SetecWizard.Core.FormatEngine
open SetecWizard.Library

section Layout

def clusterSizeOf (partSize : UInt64) (options : FormatOptions) : UInt32 :=
  if options.clusterSize = 0 then recommendedClusterSize .fat32 partSize else options.clusterSize

def sectorsPerClusterOf (partSize : UInt64) (options : FormatOptions) : UInt8 :=
  (clusterSizeOf partSize options / SECTOR_SIZE_512).toUInt8

variable {partSize : UInt64} {options : FormatOptions} {volumeSerial : UInt32} {bpb : Fat32Bpb}
  {fsInfo : Fat32FsInfo}

theorem layoutFat32_ok (layout : layoutFat32 partSize options volumeSerial = .ok (bpb,fsInfo)) :
    (partSize / 512).toNat < 2 ^ 32 ∧ sectorsPerClusterOf partSize options ∈ clusterSectors ∧
      65525 ≤ (fatClusters (partSize / 512) (sectorsPerClusterOf partSize options)).toNat ∧
      bpb = { sectorsPerCluster := sectorsPerClusterOf partSize options
              totalSectors32 := (partSize / 512).toUInt32
              fatSize32 := fatSize32 (partSize / 512) (sectorsPerClusterOf partSize options)
              volumeSerial := volumeSerial
              volumeLabel := fatLabel options.volumeLabel } := by
  unfold layoutFat32 at layout
  simp only [bind_unit_ok,refuse_ok] at layout
  obtain ⟨sectors,accepted,clusters,both⟩ := layout
  have limit : (0xFFFFFFFF : UInt64).toNat = 2 ^ 32 - 1 := rfl
  have least : (65525 : UInt32).toNat = 65525 := rfl
  rw [UInt64.lt_iff_toNat_lt,limit] at sectors
  rw [UInt32.lt_iff_toNat_lt,least] at clusters
  refine ⟨?_,(clusterSectors_accepted _).mp accepted,Nat.not_lt.mp clusters,(congrArg Prod.fst (Except.ok.inj both)).symm⟩
  have bound : (partSize / 512).toNat ≤ 2 ^ 32 - 1 := Nat.not_lt.mp sectors
  omega

theorem layoutFat32_accepts (volumeSerial : UInt32) (small : (partSize / 512).toNat < 2 ^ 32)
    (accepted : sectorsPerClusterOf partSize options ∈ clusterSectors)
    (many : 65525 ≤ (fatClusters (partSize / 512) (sectorsPerClusterOf partSize options)).toNat) :
    ∃ bpb fsInfo, layoutFat32 partSize options volumeSerial = .ok (bpb,fsInfo) := by
  have limit : (0xFFFFFFFF : UInt64).toNat = 2 ^ 32 - 1 := rfl
  have least : (65525 : UInt32).toNat = 65525 := rfl
  have sectors : ¬ 0xFFFFFFFF < partSize / 512 := by
    rw [UInt64.lt_iff_toNat_lt,limit]
    omega
  have clusters : ¬ fatClusters (partSize / 512) (sectorsPerClusterOf partSize options) < 65525 := by
    rw [UInt32.lt_iff_toNat_lt,least]
    exact Nat.not_lt.mpr many
  exact ⟨_,_,bind_unit_ok.mpr ⟨refuse_ok.mpr sectors,bind_unit_ok.mpr
    ⟨refuse_ok.mpr ((clusterSectors_accepted _).mpr accepted),bind_unit_ok.mpr ⟨refuse_ok.mpr clusters,rfl⟩⟩⟩⟩

theorem fatSize32_word {totalSectors : UInt64} {sectorsPerCluster : UInt8} (accepted : sectorsPerCluster ∈ clusterSectors)
    (small : totalSectors.toNat < 2 ^ 32) : (fatSize32 totalSectors sectorsPerCluster).toNat < 2 ^ 26 := by
  by_cases large : 34 ≤ totalSectors.toNat
  · have few := @fatSize32_small _ sectorsPerCluster large small
    omega
  · have tiny := fatSize32_tiny _ (Nat.not_le.mp large) _ accepted
    rw [UInt64.ofNat_toNat] at tiny
    split at tiny <;> omega

end Layout

section Lengths

theorem fatChunk_length {chunkBytes : UInt32} (room : 12 ≤ chunkBytes.toNat) (firstChunk : Bool) :
    (fatChunk chunkBytes firstChunk).length = chunkBytes.toNat := by
  unfold fatChunk
  split
  · refine length_overwrite ?_ List.length_replicate
    simp only [List.mem_cons,List.not_mem_nil,or_false,forall_eq_or_imp,forall_eq,length_le32]
    omega
  · exact List.length_replicate

theorem fatLabel_length (volumeLabel : List UInt8) : (fatLabel volumeLabel).length = 11 := by
  unfold fatLabel
  split
  · rfl
  · simp only [List.length_append,List.length_take,List.length_replicate]
    omega

theorem bootSector_length {bpb : Fat32Bpb} (jmpBoot : bpb.jmpBoot.length = 3) (oemName : bpb.oemName = "MSWIN4.1")
    (fsType : bpb.fsType = "FAT32   ") (volumeLabel : bpb.volumeLabel.length = 11) :
    (bootSector bpb).length = 512 := by
  have names : (asciiBytes "MSWIN4.1").length = 8 ∧ (asciiBytes "FAT32   ").length = 8 := by decide
  refine length_overwrite ?_ List.length_replicate
  simp only [bpbFields,List.mem_cons,List.not_mem_nil,or_false,forall_eq_or_imp,forall_eq,length_le32,length_le16,
    jmpBoot,oemName,fsType,volumeLabel,names.1,names.2,List.length_cons,List.length_nil]
  omega

theorem fsInfoSector_length (fsInfo : Fat32FsInfo) : (fsInfoSector fsInfo).length = 512 := by
  refine length_overwrite ?_ List.length_replicate
  simp only [List.mem_cons,List.not_mem_nil,or_false,forall_eq_or_imp,forall_eq,length_le32]
  omega

theorem rootCluster_length {sectorsPerCluster : UInt8} (positive : 0 < sectorsPerCluster.toNat)
    (volumeLabel : List UInt8) :
    (rootCluster sectorsPerCluster volumeLabel).length = sectorsPerCluster.toNat * 512 := by
  have size : SECTOR_SIZE_512.toNat = 512 := rfl
  unfold rootCluster
  simp only [size]
  split
  · exact List.length_replicate
  · refine length_overwrite ?_ List.length_replicate
    simp only [List.mem_cons,List.not_mem_nil,or_false,forall_eq_or_imp,forall_eq,List.length_replicate,
      List.length_take,List.length_cons,List.length_nil]
    omega

end Lengths

section Chunks

theorem fatChunks_extents (base_ pos : UInt64) (remaining : UInt32) (firstChunk : Bool) (whole : 512 ∣ remaining.toNat)
    (room : base_.toNat + pos.toNat + remaining.toNat < 2 ^ 64) :
    ∀ w ∈ fatChunks base_ pos remaining firstChunk, 512 ∣ w.2.length ∧ w.2.length ≤ 2 ^ 20 ∧
      base_.toNat + pos.toNat ≤ w.1.toNat ∧ w.1.toNat + w.2.length ≤ base_.toNat + pos.toNat + remaining.toNat ∧
      512 ∣ w.1.toNat - (base_.toNat + pos.toNat) := by
  induction pos, remaining, firstChunk using fatChunks.induct with
  | case1 pos firstChunk =>
    intro w member
    rw [fatChunks] at member
    simp at member
  | case2 pos remaining firstChunk left chunkBytes ih =>
    intro w member
    have least : chunkBytes.toNat = min remaining.toNat 1048576 := UInt32.toNat_min _ _
    have positive : 0 < remaining.toNat := Nat.pos_of_ne_zero (fun zero => left (UInt32.toNat_inj.mp zero))
    have start : (base_ + pos).toNat = base_.toNat + pos.toNat := by
      rw [UInt64.toNat_add,Nat.mod_eq_of_lt (by omega)]
    have next : (pos + chunkBytes.toUInt64).toNat = pos.toNat + chunkBytes.toNat := by
      rw [UInt64.toNat_add,UInt32.toNat_toUInt64,Nat.mod_eq_of_lt (by omega)]
    have rest : (remaining - chunkBytes).toNat = remaining.toNat - chunkBytes.toNat :=
      UInt32.toNat_sub_of_le _ _ (UInt32.le_iff_toNat_le.mpr (by omega))
    rw [fatChunks,if_neg left] at member
    rcases List.mem_cons.mp member with rfl | later
    · simp only
      have length := @fatChunk_length chunkBytes (by omega) firstChunk
      rw [start]
      change 512 ∣ (fatChunk chunkBytes firstChunk).length ∧ (fatChunk chunkBytes firstChunk).length ≤ _ ∧ _ ∧
        _ + (fatChunk chunkBytes firstChunk).length ≤ _ ∧ _
      omega
    · have bounds := ih (by omega) (by omega) w later
      rw [next,rest] at bounds
      omega

theorem fatBytes_toNat (fatSize : UInt32) : (fatSize * SECTOR_SIZE_512).toNat = fatSize.toNat * 512 % 2 ^ 32 :=
  UInt32.toNat_mul _ _

theorem fatBaseOffset_toNat {fatSize : UInt32} (small : fatSize.toNat < 2 ^ 26) :
    (fatBaseOffset fatSize 0).toNat = 32 * 512 ∧ (fatBaseOffset fatSize 1).toNat = (32 + fatSize.toNat) * 512 := by
  have reserved : reservedSectors.toUInt32.toNat = 32 := rfl
  have size : SECTOR_SIZE_512.toUInt64.toNat = 512 := rfl
  unfold fatBaseOffset
  rw [UInt32.zero_mul,UInt32.one_mul,UInt32.add_zero]
  constructor
  · rfl
  · rw [UInt64.toNat_mul,UInt32.toNat_toUInt64,UInt32.toNat_add,reserved,size]
    omega

theorem rootOffset_toNat {fatSize : UInt32} (small : fatSize.toNat < 2 ^ 26) :
    (dataStartSector fatSize * SECTOR_SIZE_512.toUInt64).toNat = (32 + 2 * fatSize.toNat) * 512 := by
  have reserved : reservedSectors.toUInt64.toNat = 32 := rfl
  have fats : numFats.toUInt64.toNat = 2 := rfl
  have size : SECTOR_SIZE_512.toUInt64.toNat = 512 := rfl
  rw [dataStartSector,UInt64.toNat_mul,UInt64.toNat_add,UInt64.toNat_mul,UInt32.toNat_toUInt64,reserved,fats,size]
  omega

theorem fatWrites_extents {fatSize fatCopy : UInt32} {first : Nat} (small : fatSize.toNat < 2 ^ 26)
    (start : (fatBaseOffset fatSize fatCopy).toNat = first * 512) (low : first < 2 ^ 27) :
    ∀ w ∈ fatWrites fatSize fatCopy, 512 ∣ w.1.toNat ∧ 512 ∣ w.2.length ∧ w.2.length ≤ 2 ^ 20 ∧
      first * 512 ≤ w.1.toNat ∧ w.1.toNat + w.2.length ≤ (first + fatSize.toNat) * 512 := by
  intro w member
  have bytes := fatBytes_toNat fatSize
  have zero : (0 : UInt64).toNat = 0 := rfl
  have bounds := fatChunks_extents (fatBaseOffset fatSize fatCopy) 0 (fatSize * SECTOR_SIZE_512) true (by omega)
    (by omega) w member
  omega

end Chunks

section Writes

variable {bpb : Fat32Bpb} {fsInfo : Fat32FsInfo} {volumeLabel : List UInt8} (boot : (bootSector bpb).length = 512)
  (small : bpb.fatSize32.toNat < 2 ^ 26) (positive : 0 < bpb.sectorsPerCluster.toNat)
include boot small positive

theorem fat32Writes_extents : ∀ w ∈ fat32Writes bpb fsInfo volumeLabel, 512 ∣ w.1.toNat ∧ 512 ∣ w.2.length ∧
    w.2.length ≤ 2 ^ 20 ∧
    (extent w).stop ≤ (32 + 2 * bpb.fatSize32.toNat + bpb.sectorsPerCluster.toNat) * 512 := by
  intro w member
  have info := fsInfoSector_length fsInfo
  have root := rootCluster_length positive volumeLabel
  have narrow := bpb.sectorsPerCluster.toNat_lt
  obtain ⟨first,second⟩ := fatBaseOffset_toNat small
  have place := rootOffset_toNat small
  have offsets : (0 : UInt64).toNat = 0 ∧ (512 : UInt64).toNat = 512 ∧ (6 * 512 : UInt64).toNat = 3072 ∧
    (7 * 512 : UInt64).toNat = 3584 := ⟨rfl,rfl,rfl,rfl⟩
  change _ ∧ _ ∧ _ ∧ w.1.toNat + w.2.length ≤ _
  simp only [fat32Writes,List.mem_append,List.mem_cons,List.not_mem_nil,or_false] at member
  rcases member with (rfl | rfl | rfl | rfl) | member | member | rfl
  · simp only [offsets,boot]
    omega
  · simp only [offsets,info]
    omega
  · simp only [offsets,boot]
    omega
  · simp only [offsets,info]
    omega
  · have bounds := fatWrites_extents small first (by decide) w member
    omega
  · have bounds := fatWrites_extents small second (by omega) w member
    omega
  · simp only [place,root]
    omega

theorem fat32Writes_inside (size : Nat) : (∀ w ∈ fat32Writes bpb fsInfo volumeLabel, (extent w).stop ≤ size) ↔
    (32 + 2 * bpb.fatSize32.toNat + bpb.sectorsPerCluster.toNat) * 512 ≤ size := by
  constructor
  · intro inside
    have last := inside (dataStartSector bpb.fatSize32 * SECTOR_SIZE_512.toUInt64,
      rootCluster bpb.sectorsPerCluster volumeLabel) (by simp [fat32Writes])
    change (dataStartSector bpb.fatSize32 * SECTOR_SIZE_512.toUInt64).toNat +
      (rootCluster bpb.sectorsPerCluster volumeLabel).length ≤ size at last
    rwa [rootOffset_toNat small,rootCluster_length positive,← Nat.add_mul] at last
  · intro room w member
    exact (fat32Writes_extents boot small positive w member).2.2.2.trans room

end Writes

section Runs

variable {os : Win32} {target : FormatTarget} {options : FormatOptions} {volumeSerial : UInt32} {disk : Disk}

/-- What is done before the structures are written. -/
def zeroedFirst (os : Win32) (target : FormatTarget) (options : FormatOptions) (disk : Disk) : FormatRun :=
  if options.quickFormat then { result := .ok (),disk := disk } else zeroRaw os target target.partitionSizeBytes disk

theorem formatFat32Large_eq {bpb : Fat32Bpb} {fsInfo : Fat32FsInfo}
    (layout : layoutFat32 target.partitionSizeBytes options volumeSerial = .ok (bpb,fsInfo))
    (raw : target.hasRawTarget = true) (opened : RawDiskHandle.openPath os .readWrite = .ok ()) :
    formatFat32Large os target options volumeSerial disk = (zeroedFirst os target options disk).next
      (writeAll os target (fat32Writes bpb fsInfo options.volumeLabel)) := by
  unfold formatFat32Large
  rw [layout]
  refine (if_pos raw).trans ?_
  rw [opened,writeAllFat32_eq]
  rfl

theorem formatFat32Large_ok (ok : (formatFat32Large os target options volumeSerial disk).result = .ok ()) :
    ∃ bpb fsInfo, layoutFat32 target.partitionSizeBytes options volumeSerial = .ok (bpb,fsInfo) ∧
      ∀ other, formatFat32Large os target options volumeSerial other = (zeroedFirst os target options other).next
        (writeAll os target (fat32Writes bpb fsInfo options.volumeLabel)) := by
  unfold formatFat32Large at ok
  cases layout : layoutFat32 target.partitionSizeBytes options volumeSerial with
  | error e =>
    rw [layout] at ok
    cases ok
  | ok both =>
    rw [layout] at ok
    by_cases raw : target.hasRawTarget = true
    · cases opened : RawDiskHandle.openPath os .readWrite with
      | error e =>
        simp only [if_pos raw,opened] at ok
        cases ok
      | ok _ => exact ⟨both.1,both.2,rfl,fun other => formatFat32Large_eq layout raw opened⟩
    · simp only [if_neg raw] at ok
      cases ok

/-- On a disk that works and has room for the writes, in the partition or not, a quick format
succeeds. -/
theorem formatFat32Large_working {bpb : Fat32Bpb} {fsInfo : Fat32FsInfo} (quick : options.quickFormat = true)
    (raw : target.hasRawTarget = true) (size : target.sectorSize = 512)
    (aligned : 512 ∣ target.partitionOffsetBytes.toNat)
    (layout : layoutFat32 target.partitionSizeBytes options volumeSerial = .ok (bpb,fsInfo))
    (room : target.partitionOffsetBytes.toNat +
      (32 + 2 * bpb.fatSize32.toNat + bpb.sectorsPerCluster.toNat) * 512 ≤ disk.totalBytes.toNat) :
    (formatFat32Large .working target options volumeSerial disk).result = .ok () := by
  obtain ⟨small,accepted,_,boot⟩ := layoutFat32_ok layout
  have positive : 0 < bpb.sectorsPerCluster.toNat := by
    rw [boot]
    exact (clusterSectors_bounds _ accepted).1
  have word : bpb.fatSize32.toNat < 2 ^ 26 := by
    rw [boot]
    exact fatSize32_word accepted small
  have extents := @fat32Writes_extents bpb fsInfo options.volumeLabel
    (bootSector_length (by rw [boot]; rfl) (by rw [boot]) (by rw [boot]) (by rw [boot]; exact fatLabel_length _))
    word positive
  have width := disk.totalBytes.toNat_lt
  -- The writes look at the start of the partition only, so that its size can be taken to be what they need.
  have words : ∀ n < 2 ^ 64, ∃ word : UInt64, word.toNat = n := fun n below =>
    ⟨UInt64.ofNat n,by rw [UInt64.toNat_ofNat',Nat.mod_eq_of_lt below]⟩
  obtain ⟨enough,needed⟩ := words ((32 + 2 * bpb.fatSize32.toNat + bpb.sectorsPerCluster.toNat) * 512) (by omega)
  have on : OnSectors { target with partitionSizeBytes := enough } disk := ⟨size,aligned,by rw [needed]; exact room⟩
  have written := (writeAll_working on (fun w member => by
    obtain ⟨start,whole,length,stop⟩ := extents w member
    have below : target.partitionOffsetBytes.toNat + w.1.toNat < 2 ^ 64 := by
      change w.1.toNat + w.2.length ≤ _ at stop
      omega
    exact .inl ⟨start,whole,by omega,below⟩) (fun e member => by
    obtain ⟨w,inside,rfl⟩ := writeAll_issued member
    rw [needed]
    exact (extents w inside).2.2.2)).1
  rw [writeAll_sized] at written
  rw [formatFat32Large_eq layout raw rfl,zeroedFirst,if_pos quick,FormatRun.next_ok rfl]
  exact written

end Runs

section Sample

def partitionOf (partSize : UInt64) : FormatTarget :=
  { diskIndex := 1,partitionOffsetBytes := 0x100000,partitionSizeBytes := partSize }

theorem partitionOf_formatted {partSize : UInt64} {options : FormatOptions} {disk : Disk}
    (quick : options.quickFormat = true) (raw : (partitionOf partSize).hasRawTarget = true)
    (small : (partSize / 512).toNat < 2 ^ 32) (accepted : sectorsPerClusterOf partSize options ∈ clusterSectors)
    (many : 65525 ≤ (fatClusters (partSize / 512) (sectorsPerClusterOf partSize options)).toNat)
    (room : 2 ^ 20 + (32 + 2 * (fatSize32 (partSize / 512) (sectorsPerClusterOf partSize options)).toNat +
      (sectorsPerClusterOf partSize options).toNat) * 512 ≤ disk.totalBytes.toNat) :
    ∃ bpb fsInfo, layoutFat32 partSize options 0x1234 = .ok (bpb,fsInfo) ∧
      bpb.sectorsPerCluster = sectorsPerClusterOf partSize options ∧
      (formatFat32Large .working (partitionOf partSize) options 0x1234 disk).result = .ok () := by
  obtain ⟨bpb,fsInfo,layout⟩ := layoutFat32_accepts 0x1234 small accepted many
  obtain ⟨_,_,_,boot⟩ := layoutFat32_ok layout
  have start : (partitionOf partSize).partitionOffsetBytes.toNat = 2 ^ 20 := rfl
  refine ⟨bpb,fsInfo,layout,by rw [boot],formatFat32Large_working quick raw rfl ?_ layout ?_⟩
  · rw [start]
    decide
  · rw [start,boot]
    exact room

end Sample

/-! What a FAT32 format that succeeds has accepted. A size of clusters is kept as a number of
sectors in eight bits, nothing bounds the clusters from above, and on the smallest
partitions the differences that the checks look at wrap around.
-/

/-- The clusters are of the size that is used, there are as many as FAT32 can have, and what was
written lies in the partition. -/
structure WellHeld (target : FormatTarget) (options : FormatOptions) (bpb : Fat32Bpb) (run : FormatRun) : Prop where
  cluster : (clusterSizeOf target.partitionSizeBytes options).toNat = 512 * bpb.sectorsPerCluster.toNat
  fewest : 65525 ≤ (fatClusters (target.partitionSizeBytes / 512) bpb.sectorsPerCluster).toNat
  most : (fatClusters (target.partitionSizeBytes / 512) bpb.sectorsPerCluster).toNat ≤ 0x0FFFFFF4
  inside : ∀ e ∈ run.issued, Inside target e

/-- A number of sectors is the size of a cluster and fits in a byte, the partition has room for two
FATs and is not too large for its clusters, and what is zeroed are whole sectors. -/
structure Holdable (target : FormatTarget) (options : FormatOptions) : Prop where
  whole : 512 ∣ (clusterSizeOf target.partitionSizeBytes options).toNat
  narrow : (clusterSizeOf target.partitionSizeBytes options).toNat < 256 * 512
  room : 34 ≤ target.partitionSizeBytes.toNat / 512
  addressed : target.partitionSizeBytes.toNat / 512 <
    4194336 + 268435445 * ((clusterSizeOf target.partitionSizeBytes options).toNat / 512)
  zeroed : options.quickFormat = true ∨ target.sectorSize.toNat ∣ target.partitionSizeBytes.toNat

section Parts

variable {os : Win32} {target : FormatTarget} {options : FormatOptions} {disk : Disk}

theorem zeroedFirst_inside (sector : target.sectorSize ∈ [512,1024,2048,4096])
    (ok : (zeroedFirst os target options disk).result = .ok ()) :
    (∀ e ∈ (zeroedFirst os target options disk).issued, Inside target e) ↔
      options.quickFormat = true ∨ target.sectorSize.toNat ∣ target.partitionSizeBytes.toNat := by
  unfold zeroedFirst at ok ⊢
  by_cases quick : options.quickFormat = true
  · rw [if_pos quick]
    simp [quick]
  · rw [if_neg quick] at ok ⊢
    have start : target.sectorSize.toNat ∣ (0 : UInt64).toNat := Nat.dvd_zero _
    constructor
    · intro inside
      exact .inr (zeroLoop_whole os sector _ start (Nat.zero_le _) ok inside)
    · rintro (is_quick | whole) e member
      · exact absurd is_quick quick
      · exact zeroLoop_inside os sector whole _ start member

theorem sectorsPerClusterOf_toNat (partSize : UInt64) (options : FormatOptions) :
    (sectorsPerClusterOf partSize options).toNat = (clusterSizeOf partSize options).toNat / 512 % 256 := by
  have size : SECTOR_SIZE_512.toNat = 512 := rfl
  rw [sectorsPerClusterOf,UInt32.toNat_toUInt8,UInt32.toNat_div,size]

/-- The root directory lies in the partition when there is room for two FATs, and not otherwise. -/
theorem root_inside_iff {totalSectors : UInt64} {sectorsPerCluster : UInt8} (accepted : sectorsPerCluster ∈ clusterSectors)
    (small : totalSectors.toNat < 2 ^ 32) (many : 65525 ≤ (fatClusters totalSectors sectorsPerCluster).toNat) :
    32 + 2 * (fatSize32 totalSectors sectorsPerCluster).toNat + sectorsPerCluster.toNat ≤ totalSectors.toNat ↔
      34 ≤ totalSectors.toNat := by
  obtain ⟨positive,most⟩ := clusterSectors_bounds _ accepted
  by_cases large : 34 ≤ totalSectors.toNat
  · have reach : 65525 * sectorsPerCluster.toNat ≤ _ := (Nat.le_div_iff_mul_le positive).mp
      (many.trans_eq (fatClusters_toNat large small))
    omega
  · have tiny := fatSize32_tiny _ (Nat.not_le.mp large) _ accepted
    rw [UInt64.ofNat_toNat] at tiny
    split at tiny <;> omega

end Parts

/-- A format that succeeds has accepted what it can hold exactly when that is so of the partition and
of the options. -/
theorem formatFat32Large_held_iff (os : Win32) (target : FormatTarget) (options : FormatOptions) (volumeSerial : UInt32)
    (disk : Disk) (sector : target.sectorSize ∈ [512,1024,2048,4096])
    (ok : (formatFat32Large os target options volumeSerial disk).result = .ok ()) :
    ∃ bpb fsInfo, layoutFat32 target.partitionSizeBytes options volumeSerial = .ok (bpb,fsInfo) ∧
      (WellHeld target options bpb (formatFat32Large os target options volumeSerial disk) ↔ Holdable target options) := by
  obtain ⟨bpb,fsInfo,layout,same⟩ := formatFat32Large_ok ok
  refine ⟨bpb,fsInfo,layout,?_⟩
  obtain ⟨small,accepted,many,boot⟩ := layoutFat32_ok layout
  have total : (target.partitionSizeBytes / 512).toNat = target.partitionSizeBytes.toNat / 512 := UInt64.toNat_div _ _
  have sectors := sectorsPerClusterOf_toNat target.partitionSizeBytes options
  have positive := (clusterSectors_bounds _ accepted).1
  have word := fatSize32_word accepted small
  have root := root_inside_iff accepted small many
  rw [same disk] at ok ⊢
  obtain ⟨zeroed,written,_⟩ := FormatRun.next_result ok
  have inside : (∀ e ∈ ((zeroedFirst os target options disk).next
        (writeAll os target (fat32Writes bpb fsInfo options.volumeLabel))).issued, Inside target e) ↔
      (options.quickFormat = true ∨ target.sectorSize.toNat ∣ target.partitionSizeBytes.toNat) ∧
        34 ≤ target.partitionSizeBytes.toNat / 512 := by
    have bounds := @fat32Writes_inside bpb fsInfo options.volumeLabel
      (bootSector_length (by rw [boot]; rfl) (by rw [boot]) (by rw [boot]) (by rw [boot]; exact fatLabel_length _))
      (by rw [boot]; exact word) (by rw [boot]; exact positive) target.partitionSizeBytes.toNat
    rw [FormatRun.next_ok zeroed,writeAll_ok written,← zeroedFirst_inside sector zeroed]
    simp only [List.mem_append,List.mem_map,or_imp,forall_and,forall_exists_index,and_imp,forall_apply_eq_imp_iff₂]
    refine and_congr Iff.rfl (bounds.trans ?_)
    rw [boot,← total,← root,total]
    simp only
    omega
  have most (large : 34 ≤ target.partitionSizeBytes.toNat / 512) := clusters_le_iff accepted (by omega) small
  have count (large : 34 ≤ target.partitionSizeBytes.toNat / 512) :=
    @fatClusters_toNat _ (sectorsPerClusterOf target.partitionSizeBytes options) (by rw [total]; exact large) small
  have recorded : bpb.sectorsPerCluster = sectorsPerClusterOf target.partitionSizeBytes options := by rw [boot]
  constructor
  · rintro ⟨cluster,_,few,within⟩
    obtain ⟨zero,room⟩ := inside.mp within
    rw [recorded,count room,most room,total] at few
    rw [recorded] at cluster
    exact ⟨by omega,by omega,room,by omega,zero⟩
  · rintro ⟨whole,narrow,room,addressed,zero⟩
    refine ⟨?_,by rw [recorded]; exact many,?_,inside.mpr ⟨zero,room⟩⟩
    · rw [recorded]
      omega
    · rw [recorded,count room,most room,total]
      omega

section Sample

/-- A volume of 64 MB. -/
theorem held_sample : ∃ bpb fsInfo, layoutFat32 (partitionOf 0x4000000).partitionSizeBytes {} 0x1234 = .ok (bpb,fsInfo) ∧
    (WellHeld (partitionOf 0x4000000) {} bpb
      (formatFat32Large .working (partitionOf 0x4000000) {} 0x1234 (filled 0x8000000 0xFF)) ↔
        Holdable (partitionOf 0x4000000) {}) := by
  obtain ⟨_,_,_,_,ok⟩ := @partitionOf_formatted 0x4000000 {} (filled 0x8000000 0xFF) rfl rfl (by decide)
    (by decide) (by decide) (by decide)
  exact formatFat32Large_held_iff .working (partitionOf 0x4000000) {} 0x1234 (filled 0x8000000 0xFF) (by decide) ok

/-- A partition of 16 sectors is taken for one with more clusters than FAT32 has numbers for. -/
theorem tiny_accepted : (formatFat32Large .working (partitionOf 0x2000) {} 0x1234 (filled 0x8000000 0xFF)).result = .ok () ∧
    ∃ bpb fsInfo, layoutFat32 (partitionOf 0x2000).partitionSizeBytes {} 0x1234 = .ok (bpb,fsInfo) ∧
      ¬ WellHeld (partitionOf 0x2000) {} bpb
        (formatFat32Large .working (partitionOf 0x2000) {} 0x1234 (filled 0x8000000 0xFF)) := by
  obtain ⟨bpb,fsInfo,layout,recorded,ok⟩ := @partitionOf_formatted 0x2000 {} (filled 0x8000000 0xFF) rfl rfl (by decide)
    (by decide) (by decide) (by decide)
  refine ⟨ok,bpb,fsInfo,layout,fun held => ?_⟩
  have few := held.most
  rw [recorded] at few
  revert few
  decide

end Sample

end SetecWizard.Core.FormatEngine
