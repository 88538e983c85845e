import SetecWizard.Core.FileRecovery

/-! Recovery of deleted files from FAT: the entries marked as deleted in the root directory and
in clusters that look like directories, and the copy of a file from the clusters that follow
its first one.
-/
namespace SetecWizard.Core.FileRecovery
open SetecWizard.Library

def FAT_DELETED_MARKER : UInt8 := 0xE5
def FAT_ATTR_LONG_NAME : UInt8 := 0x0F
def FAT_ATTR_VOLUME_ID : UInt8 := 0x08

structure FatBpb where
  bytesPerSector : UInt16
  sectorsPerCluster : UInt8
  reservedSectors : UInt16
  numberOfFats : UInt8
  rootEntryCount : UInt16
  totalSectors16 : UInt16
  totalSectors32 : UInt32
  fatSize16 : UInt16
  fatSize32 : UInt32
  rootCluster : UInt32

def fatBpb (boot : List UInt8) : FatBpb where
  bytesPerSector := readLE16 boot 0x0B
  sectorsPerCluster := boot.getD 0x0D 0
  reservedSectors := readLE16 boot 0x0E
  numberOfFats := boot.getD 0x10 0
  rootEntryCount := readLE16 boot 0x11
  totalSectors16 := readLE16 boot 0x13
  totalSectors32 := readLE32 boot 0x20
  fatSize16 := readLE16 boot 0x16
  fatSize32 := readLE32 boot 0x24
  rootCluster := readLE32 boot 0x2C

namespace FatBpb

variable (bpb : FatBpb)

def fatSize : UInt32 := if bpb.fatSize16 ≠ 0 then bpb.fatSize16.toUInt32 else bpb.fatSize32

def rootDirSectors : UInt32 :=
  (bpb.rootEntryCount.toUInt32 * 32 + (bpb.bytesPerSector.toUInt32 - 1)) / bpb.bytesPerSector.toUInt32

def firstDataSector : UInt32 :=
  bpb.reservedSectors.toUInt32 + bpb.numberOfFats.toUInt32 * bpb.fatSize + bpb.rootDirSectors

def clusterSize : UInt32 := bpb.sectorsPerCluster.toUInt32 * bpb.bytesPerSector.toUInt32

def isFat32 : Bool := bpb.rootEntryCount == 0

def totalSectors : UInt64 :=
  if bpb.totalSectors16 ≠ 0 then bpb.totalSectors16.toUInt64 else bpb.totalSectors32.toUInt64

def clusterByteOffset (cluster : UInt64) : UInt64 :=
  bpb.firstDataSector.toUInt64 * bpb.bytesPerSector.toUInt64 + (cluster - 2) * bpb.clusterSize.toUInt64

/-- The bytes before the first cluster are counted in 32 bits here. -/
def totalClusters : UInt64 :=
  (bpb.totalSectors * bpb.bytesPerSector.toUInt64 - (bpb.firstDataSector * bpb.bytesPerSector.toUInt32).toUInt64) /
    bpb.clusterSize.toUInt64

def clustersToScan : UInt64 := min bpb.totalClusters 8192

end FatBpb

/-- Part of a name in 8.3 format, without the spaces it is padded with. -/
def unpadded (field : List UInt8) : List Char :=
  (field.filter (· ≠ 0x20)).map (fun b => Char.ofNat b.toNat)

/-- The name of a deleted file. Its first character is not known any more. -/
def deletedName (name ext : List Char) : List Char :=
  match name ++ (if ext = [] then [] else '.' :: ext) with
  | [] => []
  | _ :: rest => '_' :: rest

section Entries

variable (env : RecoveryEnv) (r : FileRecovery) (disk : Disk) (fsType : FilesystemType) (bpb : FatBpb)

def firstCluster (entry : List UInt8) : UInt32 :=
  let low := (readLE16 entry 26).toUInt32
  if bpb.isFat32 then low ||| ((readLE16 entry 20).toUInt32 <<< 16) else low

def clustersNeeded (fileSize : UInt32) : UInt32 := (fileSize + bpb.clusterSize - 1) / bpb.clusterSize

def entryFile (entry : List UInt8) : RecoverableFile :=
  let ext := unpadded (slice entry 8 3)
  let fileSize := readLE32 entry 28
  let first := firstCluster bpb entry
  let known := 2 ≤ first ∧ 0 < fileSize
  { filename := deletedName (unpadded (entry.take 8)) ext
    sizeBytes := fileSize.toUInt64
    sourceFs := fsType
    extension := ext
    confidence := if known then (if clustersNeeded bpb fileSize = 1 then 85 else 55) else 60
    partitionStartLba := r.partStart
    sectorSize := r.sectorSize
    firstCluster := first
    dataRuns :=
      if known then [{ clusterOffset := first.toUInt64,clusterCount := (clustersNeeded bpb fileSize).toUInt64 }] else [] }

def deletedEntry (entry : List UInt8) : Bool :=
  entry.getD 11 0 != FAT_ATTR_LONG_NAME && entry.getD 11 0 &&& FAT_ATTR_VOLUME_ID == 0 &&
    entry.getD 0 0 == FAT_DELETED_MARKER

/-- The entries of a directory that are left. The first unused one ends it. -/
def scanEntries (dirByteOffset : UInt64) (dirData : List UInt8) : List Nat → List RecoverableFile
  | [] => []
  | i :: rest =>
    if env.canceled (dirByteOffset + .ofNat (i * 32)) then []
    else
      let entry := slice dirData (i * 32) 32
      if entry.getD 0 0 = 0x00 then []
      else if deletedEntry entry then entryFile r fsType bpb entry :: scanEntries dirByteOffset dirData rest
      else scanEntries dirByteOffset dirData rest

def scanDirEntries (dirByteOffset : UInt64) (dirByteSize : UInt32) : List RecoverableFile :=
  match readPartitionBytes env r disk dirByteOffset dirByteSize with
  | .error _ => []
  | .ok dirData => scanEntries env r fsType bpb dirByteOffset dirData (List.range (dirData.length / 32))

def walkRoot : Nat → UInt32 → List RecoverableFile
  | 0, _ => []
  | left + 1, currentCluster =>
    if 2 ≤ currentCluster ∧ currentCluster < 0x0FFFFFF8 then
      scanDirEntries env r disk fsType bpb (bpb.clusterByteOffset currentCluster.toUInt64) bpb.clusterSize ++
        match readPartitionBytes env r disk
          (bpb.reservedSectors.toUInt64 * bpb.bytesPerSector.toUInt64 + (currentCluster * 4).toUInt64) 4 with
        | .error _ => []
        | .ok fatData => walkRoot left (readLE32 fatData 0 &&& 0x0FFFFFFF)
    else []

def maxClusters : Nat := 4096

def scanRoot : List RecoverableFile :=
  if bpb.isFat32 then walkRoot env r disk fsType bpb maxClusters bpb.rootCluster
  else
    scanDirEntries env r disk fsType bpb
      ((bpb.reservedSectors.toUInt32 + bpb.numberOfFats.toUInt32 * bpb.fatSize).toUInt64 * bpb.bytesPerSector.toUInt64)
      (bpb.rootEntryCount.toUInt32 * 32)

/-- The clusters that are left to look at. One that starts like a directory is taken for one. -/
def scanClusters : List Nat → List RecoverableFile
  | [] => []
  | cluster :: rest =>
    let clusterOffset := bpb.clusterByteOffset (.ofNat cluster)
    if env.canceled clusterOffset then []
    else match readPartitionBytes env r disk clusterOffset 32 with
      | .error _ => scanClusters rest
      | .ok peek =>
        if peek.getD 0 0 ≠ 0x2E ∧ peek.getD 0 0 ≠ FAT_DELETED_MARKER then scanClusters rest
        else scanDirEntries env r disk fsType bpb clusterOffset bpb.clusterSize ++ scanClusters rest

end Entries

section Files

variable (env : RecoveryEnv) (r : FileRecovery) (disk : Disk)

def scanFat (fsType : FilesystemType) : Result (List RecoverableFile) :=
  match readPartitionBytes env r disk 0 512 with
  | .error e => .error e
  | .ok boot =>
    if boot.length < 512 then .error (.fromCode .filesystemCorrupt "FAT boot sector too small")
    else
      let bpb := fatBpb boot
      if bpb.bytesPerSector = 0 ∨ bpb.sectorsPerCluster = 0 ∨ bpb.numberOfFats = 0 then
        .error (.fromCode .filesystemCorrupt "Invalid FAT BPB")
      else .ok (scanRoot env r disk fsType bpb ++
        scanClusters env r disk fsType bpb (List.range' 2 bpb.clustersToScan.toNat))

def recoverFatFile (file : RecoverableFile) (outputPath : String) (fuel : Nat) :
    Option (Result Unit × Option (List UInt8)) :=
  match readPartitionBytes env r disk 0 512 with
  | .error e => some (.error e,none)
  | .ok boot =>
    let bpb := fatBpb boot
    if bpb.bytesPerSector = 0 ∨ bpb.sectorsPerCluster = 0 then
      some (.error (.fromCode .filesystemCorrupt "Invalid FAT BPB"),none)
    else if env.creates outputPath = false then
      some (.error (.fromCode .fileCreateFailed ("Cannot create output file: " ++ outputPath)),none)
    else
      (copyEach env r disk (fun run => bpb.clusterByteOffset run.clusterOffset) bpb.clusterSize file.sizeBytes fuel
        file.dataRuns []).map (fun outcome => (outcome.1,some outcome.2))

end Files
end SetecWizard.Core.FileRecovery
