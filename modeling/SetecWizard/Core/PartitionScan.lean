import SetecWizard.Core.DiskCloner
import SetecWizard.Library.Footprint
import SetecWizard.Core.PartitionOperations

/-! Writing a partition that was found by a scan back into the table of its disk. The
scan leaves the geometry of the disk behind; whoever asks for the recovery has opened
the disk. Where it lies in memory the buffer has some bytes behind it.
-/
namespace SetecWizard.Core
open SetecWizard.Library

namespace MbrTypes

def FAT12 : UInt8 := 0x01
def FAT32_LBA : UInt8 := 0x0C
def FAT16_LBA : UInt8 := 0x0E
def LinuxNative : UInt8 := 0x83

end MbrTypes

def GptTypes.linuxFilesystem : Guid :=
  ⟨[0xAF,0x3D,0xC6,0x0F,0x83,0x84,0x72,0x47,0x8E,0x79,0x3D,0x69,0xD8,0x47,0x7D,0xE4],rfl⟩

structure DiskGeometryInfo where
  totalBytes : UInt64 := 0
  bytesPerSector : UInt32 := 0

structure PartitionRecovery where
  mode : DiskAccessMode := .readWrite
  geometry : DiskGeometryInfo := {}

namespace PartitionRecovery

/-- The filesystems that decide the type of the new entry; all others are alike. -/
inductive FilesystemType where
  | ntfs | exFat | fat32 | fat16 | fat12 | ext2 | ext3 | ext4 | btrfs | xfs | other
deriving DecidableEq

/-- What a recovery looks at of a partition that was found. -/
structure RecoveredPartition where
  startLba : UInt64 := 0
  sectorCount : UInt64 := 0
  fsType : FilesystemType := .other
  label : List UInt8 := []

/-- Whole sectors are read, and all of them returned. -/
def readFunc (os : Win32) (disk : Disk) (sectorSize : UInt32) : DiskReadCallback := fun offset size =>
  let startSector := offset / sectorSize.toUInt64
  let aligned := (size + sectorSize - 1) / sectorSize * sectorSize
  RawDiskHandle.readSectors os disk startSector (aligned / sectorSize).toUInt64 sectorSize

def mbrType : FilesystemType → UInt8
  | .ntfs | .exFat => MbrTypes.NTFS_HPFS
  | .fat32 => MbrTypes.FAT32_LBA
  | .fat16 => MbrTypes.FAT16_LBA
  | .fat12 => MbrTypes.FAT12
  | .ext2 | .ext3 | .ext4 | .btrfs | .xfs => MbrTypes.LinuxNative
  | .other => MbrTypes.NTFS_HPFS

def typeGuid : FilesystemType → Guid
  | .ext2 | .ext3 | .ext4 | .btrfs | .xfs => GptTypes.linuxFilesystem
  | _ => GptTypes.microsoftBasicData

/-- "Recovered Partition" -/
def recoveredName : List UInt8 :=
  [0x52,0x65,0x63,0x6F,0x76,0x65,0x72,0x65,0x64,0x20,0x50,0x61,0x72,0x74,0x69,0x74,0x69,0x6F,0x6E]

/-- The new entry is described in the terms of the table it goes into. -/
def params (partition : RecoveredPartition) : PartitionTableType → PartitionParams
  | .mbr =>
    { startLba := partition.startLba
      sectorCount := partition.sectorCount
      mbrType := mbrType partition.fsType }
  | .gpt =>
    { startLba := partition.startLba
      sectorCount := partition.sectorCount
      typeGuid := typeGuid partition.fsType
      gptName := if partition.label.isEmpty then recoveredName else partition.label }
  | _ => { startLba := partition.startLba,sectorCount := partition.sectorCount }

/-- What a write of whole sectors takes from the start of a buffer on: the buffer, and
where it does not fill the last sector what lies behind it in memory. -/
def taken (memory : Nat → UInt8) (sectorSize : UInt32) (tableBytes : List UInt8) : List UInt8 :=
  let bytes := OperationUtils.sectorsToWrite sectorSize tableBytes * sectorSize.toUInt64
  tableBytes ++ window memory 0 (bytes.toNat - tableBytes.length)

def recover (fuel : Nat) (os : Win32) (memory : Nat → UInt8) (random : Bytes 16) (disk : Disk)
    (self : PartitionRecovery) (partition : RecoveredPartition) : Option (Mutation Disk) :=
  if partition.sectorCount = 0 then
    some (.error (.fromCode .invalidArgument "Cannot recover partition with unknown size"),disk)
  else
    let sectorSize := self.geometry.bytesPerSector
    match PartitionTable.parse fuel (readFunc os disk sectorSize) self.geometry.totalBytes sectorSize with
    | none => none
    | some (.error e) => some (.error e,disk)
    | some (.ok table) =>
      match table.addPartition (params partition table.type) random with
      | (.error e,_) => some (.error e,disk)
      | (.ok _,table) =>
        match table.serialize with
        | .error e => some (.error e,disk)
        | .ok tableBytes =>
          -- sector 0, and whatever else the table was serialized to
          let tableSectors := OperationUtils.sectorsToWrite sectorSize tableBytes
          some (RawDiskHandle.writeSectors os disk self.mode 0 (taken memory sectorSize tableBytes) tableSectors
            sectorSize)

end PartitionRecovery

/-! The scan of a disk for filesystems that no table entry leads to. Every position of a
pass is probed; what is found there gets a size from its superblock and is compared with
the partitions that exist. What the detector makes of the bytes it asks for is part of the
environment.
-/

def DEFAULT_ALIGNMENT_BYTES : UInt64 := 1048576

inductive PartitionScanMode where
  | quick | deep
deriving DecidableEq

namespace PartitionRecovery

structure FoundPartition extends RecoveredPartition where
  sectorSize : UInt32 := SECTOR_SIZE_512
  confidence : Nat := 0
  overlapsExisting : Bool := false

/-- The device, the size of its sectors, the layout it reports, the detector, and the user
who may cancel after so many positions were probed. -/
structure ScanEnv where
  device : Win32 := .working
  bytesPerSector : UInt32 := SECTOR_SIZE_512
  driveLayout : Option (List DriveLayoutPartition) := none
  detect : DiskReadCallback → Option (FilesystemType × List UInt8) := fun _ => none
  canceled : Nat → Bool := fun _ => false

section Readers

variable (os : Win32) (disk : Disk) (sectorSize : UInt32)

/-- The callback of the detector. The size is rounded up without the offset in the sector. -/
def probeReadFunc (lba : UInt64) : DiskReadCallback := fun offset size =>
  let absOffset := lba * sectorSize.toUInt64 + offset
  let startSector := absOffset / sectorSize.toUInt64
  let alignedSize := (size + sectorSize - 1) / sectorSize * sectorSize
  let sectorsToRead := (alignedSize / sectorSize).toUInt64
  match RawDiskHandle.readSectors os disk startSector sectorsToRead sectorSize with
  | .error e => .error e
  | .ok data =>
    let inSectorOffset := (absOffset % sectorSize.toUInt64).toUInt32
    if data.length < (inSectorOffset + size).toNat then .error (.fromCode .diskReadError "Read underflow")
    else .ok (slice data inSectorOffset.toNat size.toNat)

def readAbsolute (absOffset : UInt64) (size : UInt32) : List UInt8 :=
  let startSector := absOffset / sectorSize.toUInt64
  let alignedSize := (size + sectorSize - 1) / sectorSize * sectorSize
  let sectorsToRead := (alignedSize / sectorSize).toUInt64
  match RawDiskHandle.readSectors os disk startSector sectorsToRead sectorSize with
  | .error _ => []
  | .ok data =>
    let inOffset := (absOffset % sectorSize.toUInt64).toUInt32
    if data.length < (inOffset + size).toNat then []
    else slice data inOffset.toNat size.toNat

end Readers

/-- A size with what was done for it: the accesses to the buffers that were read, and the
amounts by which 64-bit numbers were shifted. -/
structure Estimate where
  bytes : UInt64
  accesses : List Access := []
  shifts : List UInt32 := []

def readBE64 (p : List UInt8) (off : Nat) : UInt64 :=
  ((readBE32 p off).toUInt64 <<< 32) ||| (readBE32 p (off + 4)).toUInt64

section Superblocks

variable (sectorSize : UInt32)

def ntfsSize (bpb : List UInt8) : Estimate :=
  if bpb.length < 0x30 then { bytes := 0 }
  else
    { bytes := readLE64 bpb 0x28 * sectorSize.toUInt64
      accesses := [⟨bpb.length,0x28,8⟩] }

def fatSize (bpb : List UInt8) : Estimate :=
  if bpb.length < 0x24 then { bytes := 0 }
  else
    let totalSectors16 := readLE16 bpb 0x13
    let totalSectors := if totalSectors16 ≠ 0 then totalSectors16.toUInt64 else (readLE32 bpb 0x20).toUInt64
    let bps := if readLE16 bpb 0x0B = 0 then sectorSize.toUInt16 else readLE16 bpb 0x0B
    { bytes := totalSectors * bps.toUInt64
      accesses := [⟨bpb.length,0x13,2⟩,⟨bpb.length,0x20,4⟩,⟨bpb.length,0x0B,2⟩] }

def exFatSize (boot : List UInt8) : Estimate :=
  if boot.length < 0x50 then { bytes := 0 }
  else
    let bpsShift := boot.getD 0x6C 0
    let exfatSectorSize : UInt32 := if 0 < bpsShift ∧ bpsShift ≤ 12 then 1 <<< bpsShift.toUInt32 else sectorSize
    { bytes := readLE64 boot 0x48 * exfatSectorSize.toUInt64
      accesses := [⟨boot.length,0x48,8⟩,⟨boot.length,0x6C,1⟩] }

def btrfsSize (sb : List UInt8) : Estimate :=
  if sb.length < 0x78 then { bytes := 0 }
  else { bytes := readLE64 sb 0x70,accesses := [⟨sb.length,0x70,8⟩] }

/-- The fields are big-endian. -/
def xfsSize (sb : List UInt8) : Estimate :=
  if sb.length < 20 then { bytes := 0 }
  else
    { bytes := readBE64 sb 8 * (readBE32 sb 4).toUInt64
      accesses := [⟨sb.length,4,4⟩,⟨sb.length,8,8⟩] }

/-- The first index into the whole superblock is `0x150 - 1024 + 1024 - 1024`, a negative
number as it is converted to an unsigned one; what is read there is overwritten by the next. -/
def strayIndex : Nat := 2 ^ 64 - 688

def INCOMPAT_64BIT : UInt32 := 0x80

/-- `sbFull` is only looked at where the feature flag is set. -/
def extSize (sb sbFull : List UInt8) : Estimate :=
  if sb.length < 256 then { bytes := 0 }
  else
    let logBlockSize := readLE32 sb 24
    let blockSize : UInt64 := 1024 <<< logBlockSize.toUInt64
    let fields : List Access := [⟨sb.length,4,4⟩,⟨sb.length,24,4⟩]
    let narrow := (readLE32 sb 4).toUInt64
    if 0x154 ≤ sb.length then
      let fields := fields ++ [⟨sb.length,0x60,4⟩]
      if readLE32 sb 0x60 &&& INCOMPAT_64BIT ≠ 0 then
        let fields := fields ++ [⟨sb.length,0x150,4⟩]
        if 0x154 ≤ sbFull.length then
          let totalBlocks := narrow ||| ((readLE32 sbFull 0x150).toUInt64 <<< 32)
          { bytes := totalBlocks * blockSize
            accesses := fields ++ [⟨sbFull.length,strayIndex,4⟩,⟨sbFull.length,0x150,4⟩]
            shifts := [logBlockSize] }
        else { bytes := narrow * blockSize,accesses := fields,shifts := [logBlockSize] }
      else { bytes := narrow * blockSize,accesses := fields,shifts := [logBlockSize] }
    else { bytes := narrow * blockSize,accesses := fields,shifts := [logBlockSize] }

end Superblocks

def estimatePartitionSize (os : Win32) (disk : Disk) (sectorSize : UInt32) (lba : UInt64) :
    FilesystemType → Estimate :=
  let byteOffset := lba * sectorSize.toUInt64
  let read := readAbsolute os disk sectorSize
  fun
  | .ntfs => ntfsSize sectorSize (read byteOffset 512)
  | .fat32 | .fat16 | .fat12 => fatSize sectorSize (read byteOffset 512)
  | .exFat => exFatSize sectorSize (read byteOffset 512)
  | .ext2 | .ext3 | .ext4 => extSize (read (byteOffset + 1024) 512) (read (byteOffset + 1024) 1024)
  | .btrfs => btrfsSize (read (byteOffset + 0x10000) 256)
  | .xfs => xfsSize (read byteOffset 512)
  | .other => { bytes := 0 }

def isModernFs : FilesystemType → Bool
  | .fat12 | .other => false
  | _ => true

def confidenceOf (sectorSize : UInt32) (lba : UInt64) (type : FilesystemType) : Nat :=
  let onMibBoundary := lba * sectorSize.toUInt64 % DEFAULT_ALIGNMENT_BYTES = 0 ∧ lba ≠ 0
  let onCylBoundary := lba % 63 = 0 ∧ lba ≠ 0
  if isModernFs type ∧ onMibBoundary then 95
  else if isModernFs type ∧ onCylBoundary then 85
  else if isModernFs type then 70
  else if lba = 0 then 30
  else 50

/-- A size of 0 is that of a filesystem without a known size. -/
def probeOffset (env : ScanEnv) (disk : Disk) (lba : UInt64) : Option FoundPartition :=
  let sectorSize := env.bytesPerSector
  match env.detect (probeReadFunc env.device disk sectorSize lba) with
  | none => none
  | some (type,label) =>
    let estimatedBytes := (estimatePartitionSize env.device disk sectorSize lba type).bytes
    some {
      startLba := lba
      fsType := type
      label := label
      sectorCount := if 0 < estimatedBytes then estimatedBytes / sectorSize.toUInt64 else 0
      confidence := confidenceOf sectorSize lba type }

section Overlaps

variable (bytesPerSector : UInt32)

def existStart (existing : DriveLayoutPartition) : UInt64 := existing.startingOffset / bytesPerSector.toUInt64

def existEnd (existing : DriveLayoutPartition) : UInt64 :=
  existStart bytesPerSector existing + existing.partitionLength / bytesPerSector.toUInt64

def FoundPartition.foundEnd (found : FoundPartition) : UInt64 := found.startLba + found.sectorCount

def markAgainst (found : FoundPartition) : List DriveLayoutPartition → FoundPartition
  | [] => found
  | existing :: rest =>
    if found.startLba < existEnd bytesPerSector existing ∧ existStart bytesPerSector existing < found.foundEnd then
      { found with
        overlapsExisting := true
        confidence :=
          if found.startLba = existStart bytesPerSector existing ∧ found.foundEnd = existEnd bytesPerSector existing
          then 10
          else found.confidence }
    else markAgainst found rest

def markOverlaps (layout : List DriveLayoutPartition) (results : List FoundPartition) : List FoundPartition :=
  results.map (fun found => if found.sectorCount = 0 then found else markAgainst bytesPerSector found layout)

end Overlaps

/-- The positions that were probed, and what was found. -/
structure ScanState where
  probed : List UInt64 := []
  results : List FoundPartition := []

section Scan

variable (env : ScanEnv) (disk : Disk)

def candidateAt (lba : UInt64) : Option FoundPartition :=
  (probeOffset env disk lba).map (fun candidate => { candidate with sectorSize := env.bytesPerSector })

def ScanState.probe (lba : UInt64) (s : ScanState) : ScanState where
  probed := s.probed ++ [lba]
  results := s.results ++ (candidateAt env disk lba).toList

/-- The pass of a mode from a position on, `none` while it has not ended. -/
def scanSteps (stepSectors totalSectors : UInt64) : Nat → UInt64 → ScanState → Option (Result Unit × ScanState)
  | 0, _, _ => none
  | fuel + 1, lba, s =>
    if ¬ lba < totalSectors then some (.ok (),s)
    else if env.canceled s.probed.length then
      some (.error (.fromCode .operationCanceled "Partition scan canceled"),s)
    else scanSteps stepSectors totalSectors fuel (lba + stepSectors) (s.probe env disk lba)

def LEGACY_CHS_STEP : UInt64 := 63

/-- The pass over the cylinder boundaries that the first pass has left out. Here a
cancellation keeps what was found. -/
def scanLegacy (totalSectors : UInt64) : Nat → UInt64 → ScanState → Option ScanState
  | 0, _, _ => none
  | fuel + 1, lba, s =>
    if ¬ lba < totalSectors then some s
    else if lba * env.bytesPerSector.toUInt64 % DEFAULT_ALIGNMENT_BYTES = 0 then
      scanLegacy totalSectors fuel (lba + LEGACY_CHS_STEP) s
    else if env.canceled s.probed.length then some s
    else scanLegacy totalSectors fuel (lba + LEGACY_CHS_STEP) (s.probe env disk lba)

def stepSectors (sectorSize : UInt32) : PartitionScanMode → UInt64
  | .quick => DEFAULT_ALIGNMENT_BYTES / sectorSize.toUInt64
  | .deep => 1

def scanPasses (mode : PartitionScanMode) (totalSectors : UInt64) (fuel : Nat) :
    Option (Result Unit × ScanState) :=
  match scanSteps env disk (stepSectors env.bytesPerSector mode) totalSectors fuel 0 {} with
  | some (.ok _,s) =>
    match mode with
    | .deep => some (.ok (),s)
    | .quick => (scanLegacy env disk totalSectors fuel LEGACY_CHS_STEP s).map (fun s => (.ok (),s))
  | other => other

/-- The positions a scan has probed, and its outcome. A layout that cannot be read marks
no overlaps. -/
def scan (mode : PartitionScanMode) (fuel : Nat) : Option (List UInt64 × Result (List FoundPartition)) :=
  match RawDiskHandle.getGeometry env.device disk with
  | .error e => some ([],.error e)
  | .ok totalBytes =>
    let layout := env.driveLayout.getD []
    let sectorSize := env.bytesPerSector
    let totalSectors := totalBytes / sectorSize.toUInt64
    if sectorSize = 0 then some ([],.error (.fromCode .invalidArgument "Disk reports 0 bytes/sector"))
    else if totalSectors = 0 then some ([],.error (.fromCode .invalidArgument "Disk reports 0 total sectors"))
    else
      match scanPasses env disk mode totalSectors fuel with
      | none => none
      | some (.error e,s) => some (s.probed,.error e)
      | some (.ok _,s) =>
        let results := markOverlaps sectorSize layout s.results
        if results = [] then some (s.probed,.error (.fromCode .noPartitionsFound "No lost partitions found"))
        else some (s.probed,.ok results)

end Scan
end PartitionRecovery

end SetecWizard.Core
