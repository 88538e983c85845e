import SetecWizard.Core.FatRecovery
import SetecWizard.Recovery.NtfsFile
import SetecWizard.Recovery.ByteReaders

/-! A deleted file of FAT whose clusters follow one another. The scan turns its size into a
number of clusters, with 32-bit numbers, and the recovery turns these into bytes again.
-/
namespace SetecWizard.Core.FileRecovery
open SetecWizard.Library

variable {env : RecoveryEnv} {r : FileRecovery} {disk : Disk} {fsType : FilesystemType} {bpb : FatBpb}

section Scanned

def FromEntry (r : FileRecovery) (fsType : FilesystemType) (bpb : FatBpb) (file : RecoverableFile) : Prop :=
  ∃ entry, deletedEntry entry = true ∧ file = entryFile r fsType bpb entry

theorem scanEntries_from {dirByteOffset : UInt64} {dirData : List UInt8} {left : List Nat} :
    ∀ file ∈ scanEntries env r fsType bpb dirByteOffset dirData left, FromEntry r fsType bpb file := by
  induction left with
  | nil => exact fun _ member => absurd member List.not_mem_nil
  | cons i rest ih =>
    intro file member
    rw [scanEntries] at member
    split at member
    next => exact absurd member List.not_mem_nil
    next =>
      simp only at member
      split at member
      next => exact absurd member List.not_mem_nil
      next =>
        split at member
        next deleted =>
          rcases List.mem_cons.mp member with rfl | later
          · exact ⟨_,deleted,rfl⟩
          · exact ih file later
        next => exact ih file member

theorem scanDirEntries_from {dirByteOffset : UInt64} {dirByteSize : UInt32} :
    ∀ file ∈ scanDirEntries env r disk fsType bpb dirByteOffset dirByteSize, FromEntry r fsType bpb file := by
  intro file member
  rw [scanDirEntries] at member
  split at member
  next => exact absurd member List.not_mem_nil
  next => exact scanEntries_from file member

theorem walkRoot_from {left : Nat} {currentCluster : UInt32} :
    ∀ file ∈ walkRoot env r disk fsType bpb left currentCluster, FromEntry r fsType bpb file := by
  induction left generalizing currentCluster with
  | zero => exact fun _ member => absurd member List.not_mem_nil
  | succ left ih =>
    intro file member
    rw [walkRoot] at member
    split at member
    next =>
      rcases List.mem_append.mp member with here | later
      · exact scanDirEntries_from file here
      · split at later
        next => exact absurd later List.not_mem_nil
        next => exact ih file later
    next => exact absurd member List.not_mem_nil

theorem scanClusters_from {left : List Nat} :
    ∀ file ∈ scanClusters env r disk fsType bpb left, FromEntry r fsType bpb file := by
  induction left with
  | nil => exact fun _ member => absurd member List.not_mem_nil
  | cons cluster rest ih =>
    intro file member
    rw [scanClusters] at member
    split at member
    next => exact absurd member List.not_mem_nil
    next =>
      split at member
      next => exact ih file member
      next =>
        split at member
        next => exact ih file member
        next =>
          rcases List.mem_append.mp member with here | later
          · exact scanDirEntries_from file here
          · exact ih file later

theorem scanFat_from {files : List RecoverableFile} (scanned : scanFat env r disk fsType = .ok files) :
    ∃ boot, readPartitionBytes env r disk 0 512 = .ok boot ∧ (fatBpb boot).bytesPerSector ≠ 0 ∧
      (fatBpb boot).sectorsPerCluster ≠ 0 ∧ ∀ file ∈ files, FromEntry r fsType (fatBpb boot) file := by
  unfold scanFat at scanned
  split at scanned
  next => cases scanned
  next boot read =>
    split at scanned
    next => cases scanned
    next =>
      simp only at scanned
      split at scanned
      next => cases scanned
      next valid =>
        cases scanned
        rw [not_or,not_or] at valid
        refine ⟨boot,read,valid.1,valid.2.1,fun file member => ?_⟩
        rcases List.mem_append.mp member with root | cluster
        · rw [scanRoot] at root
          split at root
          · exact walkRoot_from file root
          · exact scanDirEntries_from file root
        · exact scanClusters_from file cluster

theorem scanEntries_lists (never : ∀ pos, env.canceled pos = false) {dirByteOffset : UInt64} {dirData : List UInt8}
    {before after : List Nat} {i : Nat}
    (used : ∀ j ∈ before, (slice dirData (j * 32) 32).getD 0 0 ≠ 0x00)
    (deleted : deletedEntry (slice dirData (i * 32) 32) = true) :
    entryFile r fsType bpb (slice dirData (i * 32) 32) ∈
      scanEntries env r fsType bpb dirByteOffset dirData (before ++ i :: after) := by
  induction before with
  | nil =>
    have marked : (slice dirData (i * 32) 32).getD 0 0 ≠ 0x00 := by
      have parts := deleted
      simp only [deletedEntry,Bool.and_eq_true,beq_iff_eq] at parts
      rw [parts.2]
      decide
    rw [List.nil_append,scanEntries,never,if_neg Bool.false_ne_true]
    simp only [if_neg marked,if_pos deleted]
    exact List.mem_cons_self
  | cons j rest ih =>
    obtain ⟨here,there⟩ := List.forall_mem_cons.mp used
    rw [List.cons_append,scanEntries,never,if_neg Bool.false_ne_true]
    simp only [if_neg here]
    split
    next => exact List.mem_cons_of_mem _ (ih there)
    next => exact ih there

end Scanned

section Geometry

/-- The sectors before the first cluster, and the bytes of a cluster, as numbers that do not wrap. -/
def FatBpb.dataSector (bpb : FatBpb) : Nat :=
  bpb.reservedSectors.toNat + bpb.numberOfFats.toNat * bpb.fatSize.toNat +
    (bpb.rootEntryCount.toNat * 32 + (bpb.bytesPerSector.toNat - 1)) / bpb.bytesPerSector.toNat

def FatBpb.clusterBytes (bpb : FatBpb) : Nat := bpb.sectorsPerCluster.toNat * bpb.bytesPerSector.toNat

/-- Where the data of a cluster lies in the partition. -/
def FatBpb.dataOffset (bpb : FatBpb) (cluster : Nat) : Nat :=
  bpb.dataSector * bpb.bytesPerSector.toNat + (cluster - 2) * bpb.clusterBytes

theorem clusterSize_toNat (bpb : FatBpb) : bpb.clusterSize.toNat = bpb.clusterBytes ∧ bpb.clusterBytes < 2 ^ 24 := by
  have first := bpb.sectorsPerCluster.toNat_lt
  have second := bpb.bytesPerSector.toNat_lt
  have small : bpb.clusterBytes < 2 ^ 24 :=
    Nat.lt_of_lt_of_le (Nat.mul_lt_mul_of_lt_of_lt first second) (by decide)
  refine ⟨?_,small⟩
  rw [FatBpb.clusterSize,UInt32.toNat_mul,UInt8.toNat_toUInt32,UInt16.toNat_toUInt32]
  exact Nat.mod_eq_of_lt (Nat.lt_trans small (by decide))

variable (sectors : bpb.bytesPerSector ≠ 0) (data : bpb.dataSector ≤ bpb.totalSectors.toNat)

include sectors in
theorem sector_positive : 0 < bpb.bytesPerSector.toNat := by
  rw [ne_eq,← UInt16.toNat_inj] at sectors
  exact Nat.pos_of_ne_zero sectors

include sectors in
theorem rootDirSectors_toNat : bpb.rootDirSectors.toNat =
    (bpb.rootEntryCount.toNat * 32 + (bpb.bytesPerSector.toNat - 1)) / bpb.bytesPerSector.toNat := by
  have some_byte := sector_positive sectors
  have root := bpb.rootEntryCount.toNat_lt
  have bytes := bpb.bytesPerSector.toNat_lt
  have one : (1 : UInt32).toNat = 1 := rfl
  have unit : (32 : UInt32).toNat = 32 := rfl
  have less : (bpb.bytesPerSector.toUInt32 - 1).toNat = bpb.bytesPerSector.toNat - 1 := by
    rw [UInt32.toNat_sub,one,UInt16.toNat_toUInt32]
    omega
  rw [FatBpb.rootDirSectors,UInt32.toNat_div,UInt32.toNat_add,UInt32.toNat_mul,less,unit,UInt16.toNat_toUInt32,
    UInt16.toNat_toUInt32,Nat.mod_eq_of_lt (by omega : bpb.rootEntryCount.toNat * 32 < 2 ^ 32),
    Nat.mod_eq_of_lt (by omega)]

theorem totalSectors_lt (bpb : FatBpb) : bpb.totalSectors.toNat < 2 ^ 32 := by
  have short := bpb.totalSectors16.toNat_lt
  have long := bpb.totalSectors32.toNat_lt
  rw [FatBpb.totalSectors]
  split
  next => rw [UInt16.toNat_toUInt64]; omega
  next => rw [UInt32.toNat_toUInt64]; omega

include sectors data

theorem firstDataSector_toNat : bpb.firstDataSector.toNat = bpb.dataSector := by
  have limit := totalSectors_lt bpb
  have root := rootDirSectors_toNat sectors
  have whole : bpb.dataSector < 2 ^ 32 := by omega
  rw [FatBpb.dataSector,← root] at whole ⊢
  rw [FatBpb.firstDataSector,UInt32.toNat_add,UInt32.toNat_add,UInt32.toNat_mul,UInt16.toNat_toUInt32,
    UInt8.toNat_toUInt32,Nat.mod_eq_of_lt (by omega : bpb.numberOfFats.toNat * bpb.fatSize.toNat < 2 ^ 32),
    Nat.mod_eq_of_lt (by omega : bpb.reservedSectors.toNat + bpb.numberOfFats.toNat * bpb.fatSize.toNat < 2 ^ 32),
    Nat.mod_eq_of_lt whole]

theorem clusterByteOffset_toNat {cluster : UInt32} (behind : 2 ≤ cluster.toNat) :
    (bpb.clusterByteOffset cluster.toUInt64).toNat = bpb.dataOffset cluster.toNat := by
  have limit := totalSectors_lt bpb
  have bytes := bpb.bytesPerSector.toNat_lt
  have number := cluster.toNat_lt
  obtain ⟨size,small⟩ := clusterSize_toNat bpb
  have two : (2 : UInt64).toNat = 2 := rfl
  have first : bpb.dataSector * bpb.bytesPerSector.toNat < 2 ^ 48 :=
    Nat.lt_of_lt_of_le (Nat.mul_lt_mul_of_lt_of_lt (by omega : bpb.dataSector < 2 ^ 32) bytes) (by decide)
  have second : (cluster.toNat - 2) * bpb.clusterBytes < 2 ^ 56 :=
    Nat.lt_of_lt_of_le (Nat.mul_lt_mul_of_lt_of_lt (by omega : cluster.toNat - 2 < 2 ^ 32) small) (by decide)
  have less : (cluster.toUInt64 - 2).toNat = cluster.toNat - 2 := by
    rw [UInt64.toNat_sub,two,UInt32.toNat_toUInt64]
    omega
  rw [FatBpb.clusterByteOffset,UInt64.toNat_add,UInt64.toNat_mul,UInt64.toNat_mul,less,UInt32.toNat_toUInt64,
    UInt32.toNat_toUInt64,UInt16.toNat_toUInt64,firstDataSector_toNat sectors data,size,
    Nat.mod_eq_of_lt (by omega : bpb.dataSector * bpb.bytesPerSector.toNat < 2 ^ 64),
    Nat.mod_eq_of_lt (by omega : (cluster.toNat - 2) * bpb.clusterBytes < 2 ^ 64),FatBpb.dataOffset]
  exact Nat.mod_eq_of_lt (by omega)

end Geometry

theorem run_bytes {size : UInt32} (some_byte : 0 < bpb.clusterBytes) :
    ((clustersNeeded bpb size).toUInt64 * bpb.clusterSize.toUInt64).toNat =
      if size.toNat + bpb.clusterBytes ≤ 2 ^ 32 then roundUp size.toNat bpb.clusterBytes else 0 := by
  obtain ⟨cluster,_⟩ := clusterSize_toNat bpb
  have counted := PartitionRecovery.rounded (cluster ▸ some_byte) size
  have below := sectors_below size bpb.clusterSize
  rw [cluster] at counted below
  rw [UInt64.toNat_mul,UInt32.toNat_toUInt64,UInt32.toNat_toUInt64,cluster,clustersNeeded,
    Nat.mod_eq_of_lt (by omega),counted]

section Recovered

variable (vol : Readable env r disk) (room : 512 ≤ partBytes r)

def bootBpb (r : FileRecovery) (disk : Disk) : FatBpb := fatBpb (window disk.byte (partBase r) 512)

include vol room

theorem boot_read : readPartitionBytes env r disk 0 512 = .ok (window disk.byte (partBase r) 512) :=
  @readPartitionBytes_inside env r disk vol 0 512 (by decide) (by decide) room

variable (sectors : (bootBpb r disk).bytesPerSector ≠ 0) (clusters : (bootBpb r disk).sectorsPerCluster ≠ 0)
  (data : (bootBpb r disk).dataSector ≤ (bootBpb r disk).totalSectors.toNat)
include sectors clusters data

theorem recoverFatFile_run {entry : List UInt8} {outputPath : String} (creates : env.creates outputPath = true)
    (behind : 2 ≤ (firstCluster (bootBpb r disk) entry).toNat)
    (inside : (bootBpb r disk).dataOffset (firstCluster (bootBpb r disk) entry).toNat +
      roundUp (readLE32 entry 28).toNat (bootBpb r disk).clusterBytes ≤ partBytes r)
    {fuel : Nat} (enough : partBytes r ≤ fuel * 2 ^ 20) :
    recoverFatFile env r disk (entryFile r fsType (bootBpb r disk) entry) outputPath (fuel + 1) =
      some (.ok (),some (window disk.byte
        (partBase r + (bootBpb r disk).dataOffset (firstCluster (bootBpb r disk) entry).toNat)
        (if (readLE32 entry 28).toNat + (bootBpb r disk).clusterBytes ≤ 2 ^ 32 then (readLE32 entry 28).toNat else 0))) := by
  have boot := boot_read vol room
  obtain ⟨bpb,named⟩ : ∃ bpb, bpb = bootBpb r disk := ⟨_,rfl⟩
  obtain ⟨size,known⟩ : ∃ size, size = readLE32 entry 28 := ⟨_,rfl⟩
  obtain ⟨first,at_first⟩ : ∃ first, first = firstCluster bpb entry := ⟨_,rfl⟩
  rw [← named] at sectors clusters data behind inside ⊢
  rw [← known,← at_first] at inside
  rw [← at_first] at behind
  rw [← known,← at_first]
  have valid : ¬ (bpb.bytesPerSector = 0 ∨ bpb.sectorsPerCluster = 0) := not_or_intro sectors clusters
  obtain ⟨cluster,narrow⟩ := clusterSize_toNat bpb
  have some_sector := sector_positive sectors
  have some_cluster : 0 < bpb.sectorsPerCluster.toNat := by
    rw [ne_eq,← UInt8.toNat_inj] at clusters
    exact Nat.pos_of_ne_zero clusters
  have some_byte : 0 < bpb.clusterBytes := Nat.mul_pos some_cluster some_sector
  have place := clusterByteOffset_toNat sectors data behind
  have bytes := @run_bytes bpb size some_byte
  have listed : 2 ≤ first := UInt32.le_iff_toNat_le.mpr behind
  have wide : (size.toUInt64).toNat = size.toNat := UInt32.toNat_toUInt64 _
  have zero : (0 : UInt64).toNat = 0 := rfl
  have folded : fatBpb (window disk.byte (partBase r) 512) = bpb := named.symm
  unfold recoverFatFile
  simp only [boot,folded,if_neg valid,creates,Bool.true_eq_false,if_false]
  by_cases some_size : 0 < size
  · have positive : 0 < size.toNat := UInt32.lt_iff_toNat_lt.mp some_size
    have runs : (entryFile r fsType bpb entry).dataRuns =
        [{ clusterOffset := first.toUInt64,clusterCount := (clustersNeeded bpb size).toUInt64 }] := by
      rw [at_first] at listed ⊢
      rw [known] at some_size ⊢
      exact if_pos ⟨listed,some_size⟩
    have total : (entryFile r fsType bpb entry).sizeBytes = size.toUInt64 := by rw [known]; rfl
    have up : size.toNat ≤ roundUp size.toNat bpb.clusterBytes := le_roundUp some_byte
    have copied := @copyRun_eq env r disk vol size.toUInt64 (bpb.clusterByteOffset first.toUInt64)
      ((clustersNeeded bpb size).toUInt64 * bpb.clusterSize.toUInt64)
      (by rw [place,bytes]; split <;> omega) fuel 0 [] (limited_nil _) (by rw [zero]; decide)
      (by rw [bytes,zero]; split <;> omega)
    -- the rounding ends behind the file, or it has wrapped to no clusters
    have kept (off : Nat) : limited size.toNat (window disk.byte off
        (if size.toNat + bpb.clusterBytes ≤ 2 ^ 32 then roundUp size.toNat bpb.clusterBytes else 0)) =
        window disk.byte off (if size.toNat + bpb.clusterBytes ≤ 2 ^ 32 then size.toNat else 0) := by
      rw [limited,if_neg (Nat.ne_of_gt positive)]
      split
      next fits => exact take_window _ _ _ _ up
      next wrapped => exact List.take_nil
    rw [runs,total,copyEach,copied,place,bytes,wide,zero,Nat.add_zero,Nat.sub_zero,List.nil_append,kept]
    rfl
  · have none : size.toNat = 0 := Nat.eq_zero_of_not_pos (fun more => some_size (UInt32.lt_iff_toNat_lt.mpr more))
    have runs : (entryFile r fsType bpb entry).dataRuns = [] := by
      rw [known] at some_size
      exact if_neg (fun both => some_size both.2)
    rw [runs,copyEach,none,ite_self,window_zero]
    rfl

end Recovered

section Exact

variable (vol : Readable env r disk) (room : 512 ≤ partBytes r)
include vol room

/-- A file that the scan reports comes back as its bytes exactly where its size, rounded up to
whole clusters, is counted in 32 bits. -/
theorem recoverFatFile_exact_iff {files : List RecoverableFile} (scanned : scanFat env r disk fsType = .ok files)
    {file : RecoverableFile} (reported : file ∈ files)
    (data : (bootBpb r disk).dataSector ≤ (bootBpb r disk).totalSectors.toNat) (behind : 2 ≤ file.firstCluster.toNat)
    (inside : (bootBpb r disk).dataOffset file.firstCluster.toNat +
      roundUp file.sizeBytes.toNat (bootBpb r disk).clusterBytes ≤ partBytes r)
    {outputPath : String} (creates : env.creates outputPath = true)
    {fuel : Nat} (enough : partBytes r ≤ fuel * 2 ^ 20) :
    recoverFatFile env r disk file outputPath (fuel + 1) =
        some (.ok (),some (window disk.byte
          (partBase r + (bootBpb r disk).dataOffset file.firstCluster.toNat) file.sizeBytes.toNat)) ↔
      file.sizeBytes.toNat + (bootBpb r disk).clusterBytes ≤ 2 ^ 32 := by
  obtain ⟨boot,read,sectors,clusters,entries⟩ := scanFat_from scanned
  obtain ⟨entry,_,of_entry⟩ := entries file reported
  have same : boot = window disk.byte (partBase r) 512 := Except.ok.inj (read.symm.trans (boot_read vol room))
  have volume : fatBpb boot = bootBpb r disk := by rw [same]; rfl
  rw [volume] at sectors clusters of_entry
  have first : file.firstCluster = firstCluster (bootBpb r disk) entry := by rw [of_entry]; rfl
  have size : file.sizeBytes.toNat = (readLE32 entry 28).toNat := by
    rw [of_entry]
    exact UInt32.toNat_toUInt64 _
  rw [first] at behind inside ⊢
  rw [size] at inside ⊢
  rw [of_entry,recoverFatFile_run vol room sectors clusters data creates behind inside enough]
  obtain ⟨_,narrow⟩ := clusterSize_toNat (bootBpb r disk)
  constructor
  · intro written
    by_contra large
    rw [if_neg large] at written
    have lengths := congrArg List.length (Option.some.inj (Prod.mk.inj (Option.some.inj written)).2)
    rw [length_window,length_window] at lengths
    omega
  · intro counted
    rw [if_pos counted]

end Exact

section Sample

/-- A partition with clusters of one sector, the root directory in cluster 2 and one FAT. -/
def fatPartition : FileRecovery := { partStart := 0,partSectors := 9437184 }

def fatBoot : List UInt8 :=
  overwrite (List.replicate 512 0) [(0x0B,le16 512),(0x0D,[1]),(0x0E,le16 32),(0x10,[1]),(0x20,le32 9437184),
    (0x24,le32 73728),(0x2C,le32 2)]

theorem length_fatBoot : fatBoot.length = 512 := length_overwrite (by decide) List.length_replicate

def deletedAt3 (size : UInt32) : List UInt8 :=
  overwrite (List.replicate 32 0x20) [(0,[FAT_DELETED_MARKER]),(20,le16 0),(26,le16 3),(28,le32 size)]

def fatRoot (size : UInt32) : List UInt8 := deletedAt3 size ++ List.replicate 480 0

def fatVolume (size : UInt32) : Disk :=
  ((filled 4831838208 0x41).patched 0 fatBoot).patched 37765120 (fatRoot size)

def sampleFile (size : UInt32) : RecoverableFile := entryFile fatPartition .fat32 (fatBpb fatBoot) (deletedAt3 size)

variable (size : UInt32)

theorem fatVolume_readable : Readable {} fatPartition (fatVolume size) where
  positive := by decide
  moderate := by decide
  signed := by change 4831838208 < 2 ^ 63; decide
  inside := by change 0 * 512 + 9437184 * 512 ≤ 4831838208; decide
  reads _ _ _ := rfl

theorem fatVolume_boot : window (fatVolume size).byte (partBase fatPartition) 512 = fatBoot := by
  have start : partBase fatPartition = 0 := rfl
  rw [start,fatVolume,Disk.patched_byte,window_patch_apart _ _ _ _ _ (.inl (by decide)),Disk.patched_byte,
    window_patch_whole _ _ length_fatBoot]

theorem length_fatRoot : (fatRoot size).length = 512 := by
  rw [fatRoot,deletedAt3,List.length_append,List.length_replicate]
  rfl

theorem fatVolume_root : readPartitionBytes {} fatPartition (fatVolume size) 37765120 512 = .ok (fatRoot size) := by
  have read := @readPartitionBytes_inside {} fatPartition _ (fatVolume_readable size) 37765120 512 (by decide)
    (by decide) (by decide)
  have start : partBase fatPartition + (37765120 : UInt64).toNat = 37765120 := rfl
  rw [start,fatVolume,Disk.patched_byte] at read
  rw [fatVolume,read]
  exact congrArg Except.ok (window_patch_whole _ _ (length_fatRoot size))

theorem fatRoot_deleted : deletedEntry (slice (fatRoot size) (0 * 32) 32) = true := by
  have attributes : (slice (fatRoot size) (0 * 32) 32).getD 11 0 = 0x20 := rfl
  have marker : (slice (fatRoot size) (0 * 32) 32).getD 0 0 = FAT_DELETED_MARKER := rfl
  rw [deletedEntry,attributes,marker]
  decide

theorem fatVolume_scanned : ∃ files, scanFat {} fatPartition (fatVolume size) .fat32 = .ok files ∧ sampleFile size ∈ files := by
  have boot := boot_read (fatVolume_readable size) (by decide)
  rw [fatVolume_boot] at boot
  have valid : ¬ ((fatBpb fatBoot).bytesPerSector = 0 ∨ (fatBpb fatBoot).sectorsPerCluster = 0 ∨
      (fatBpb fatBoot).numberOfFats = 0) := by decide
  have place : (fatBpb fatBoot).clusterByteOffset (fatBpb fatBoot).rootCluster.toUInt64 = 37765120 ∧
      (fatBpb fatBoot).clusterSize = 512 := by decide
  have listed : 2 ≤ (fatBpb fatBoot).rootCluster ∧ (fatBpb fatBoot).rootCluster < 0x0FFFFFF8 := by decide
  have count : (fatRoot size).length / 32 = 16 := by rw [length_fatRoot]
  have entries : List.range 16 = [] ++ 0 :: List.range' 1 15 := rfl
  have fat32 : (fatBpb fatBoot).isFat32 = true := by decide
  have root : sampleFile size ∈ scanRoot {} fatPartition (fatVolume size) .fat32 (fatBpb fatBoot) := by
    rw [scanRoot,if_pos fat32,maxClusters,walkRoot,if_pos listed,place.1,place.2]
    refine List.mem_append_left _ ?_
    unfold scanDirEntries
    simp only [fatVolume_root,count,entries]
    exact @scanEntries_lists {} fatPartition .fat32 (fatBpb fatBoot) (fun _ => rfl) _ (fatRoot size) [] _ 0
      (fun _ member => absurd member List.not_mem_nil) (fatRoot_deleted size)
  have long : ¬ fatBoot.length < 512 := by decide +kernel
  have scanned : scanFat {} fatPartition (fatVolume size) .fat32 =
      .ok (scanRoot {} fatPartition (fatVolume size) .fat32 (fatBpb fatBoot) ++
        scanClusters {} fatPartition (fatVolume size) .fat32 (fatBpb fatBoot)
          (List.range' 2 (fatBpb fatBoot).clustersToScan.toNat)) := by
    unfold scanFat
    simp only [boot,if_neg long,if_neg valid]
  exact ⟨_,scanned,List.mem_append_left _ root⟩

theorem fatVolume_bpb : bootBpb fatPartition (fatVolume size) = fatBpb fatBoot := by
  rw [bootBpb,fatVolume_boot]

/-- A file of the largest size is on the volume and is reported, and nothing of it comes back. -/
theorem largest_empty : ∃ files file, scanFat {} fatPartition (fatVolume 0xFFFFFFFF) .fat32 = .ok files ∧
    file ∈ files ∧ 2 ≤ file.firstCluster.toNat ∧ file.sizeBytes = 0xFFFFFFFF ∧
    (bootBpb fatPartition (fatVolume 0xFFFFFFFF)).dataOffset file.firstCluster.toNat +
      roundUp file.sizeBytes.toNat (bootBpb fatPartition (fatVolume 0xFFFFFFFF)).clusterBytes ≤ partBytes fatPartition ∧
    recoverFatFile {} fatPartition (fatVolume 0xFFFFFFFF) file "out" 4609 = some (.ok (),some []) := by
  obtain ⟨files,scanned,reported⟩ := fatVolume_scanned 0xFFFFFFFF
  have recovered := @recoverFatFile_run {} fatPartition (fatVolume 0xFFFFFFFF) .fat32 (fatVolume_readable _) (by decide)
    (by rw [fatVolume_bpb]; decide) (by rw [fatVolume_bpb]; decide)
    (by rw [fatVolume_bpb]; decide) (deletedAt3 0xFFFFFFFF) "out" rfl (by rw [fatVolume_bpb]; decide)
    (by rw [fatVolume_bpb]; decide) 4608 (by decide)
  have large : ¬ (readLE32 (deletedAt3 0xFFFFFFFF) 28).toNat + (fatBpb fatBoot).clusterBytes ≤ 2 ^ 32 := by
    decide
  rw [fatVolume_bpb,if_neg large,window_zero] at recovered
  refine ⟨files,_,scanned,reported,by decide,by decide,?_,recovered⟩
  rw [fatVolume_bpb]
  decide

example : (sampleFile 700).sizeBytes = 700 := by decide

/-- A file of two clusters comes back. -/
theorem small_recovered : ∃ files, scanFat {} fatPartition (fatVolume 700) .fat32 = .ok files ∧
    sampleFile 700 ∈ files ∧
    recoverFatFile {} fatPartition (fatVolume 700) (sampleFile 700) "out" 4609 =
      some (.ok (),some (window (fatVolume 700).byte (partBase fatPartition +
        (bootBpb fatPartition (fatVolume 700)).dataOffset (sampleFile 700).firstCluster.toNat)
        (sampleFile 700).sizeBytes.toNat)) := by
  obtain ⟨files,scanned,reported⟩ := fatVolume_scanned 700
  refine ⟨files,scanned,reported,?_⟩
  refine (recoverFatFile_exact_iff (fatVolume_readable 700) (by decide) scanned reported
    (by rw [fatVolume_bpb]; decide) (by decide) (by rw [fatVolume_bpb]; decide) rfl
    (by decide)).mpr ?_
  rw [fatVolume_bpb]
  decide

end Sample
end SetecWizard.Core.FileRecovery
