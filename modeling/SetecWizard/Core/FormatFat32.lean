import SetecWizard.Core.ByteOrder
import SetecWizard.Core.FormatEngine

/-! The layout of a FAT32 volume of more than 32 GB: the size of a FAT, found by
iteration, and the boot sector and FSInfo sector that record it; and the formatter, which writes the two
sectors and their backups, the FATs and the cluster of the root directory.
-/
namespace SetecWizard.Core

structure Fat32Bpb where
  jmpBoot : List UInt8 := [0xEB,0x58,0x90]
  oemName : String := "MSWIN4.1"
  bytesPerSector : UInt16 := 512
  sectorsPerCluster : UInt8
  reservedSectors : UInt16 := 32
  numFats : UInt8 := 2
  rootEntryCount : UInt16 := 0
  totalSectors16 : UInt16 := 0
  mediaType : UInt8 := 0xF8
  fatSize16 : UInt16 := 0
  sectorsPerTrack : UInt16 := 63
  numHeads : UInt16 := 255
  hiddenSectors : UInt32 := 0
  totalSectors32 : UInt32
  fatSize32 : UInt32
  extFlags : UInt16 := 0
  fsVersion : UInt16 := 0
  rootCluster : UInt32 := 2
  fsInfoSector : UInt16 := 1
  backupBootSector : UInt16 := 6
  driveNumber : UInt8 := 0x80
  bootSig : UInt8 := 0x29
  volumeSerial : UInt32
  volumeLabel : List UInt8
  fsType : String := "FAT32   "
deriving DecidableEq

structure Fat32FsInfo where
  leadSig : UInt32 := 0x41615252
  structSig : UInt32 := 0x61417272
  freeCount : UInt32
  nextFree : UInt32 := 3
  trailSig : UInt32 := 0xAA550000
deriving DecidableEq

namespace FormatEngine

def reservedSectors : UInt16 := 32

def numFats : UInt8 := 2

def fatSectors (totalClusters : UInt64) : UInt32 :=
  (((totalClusters + 2) * 4 + SECTOR_SIZE_512.toUInt64 - 1) / SECTOR_SIZE_512.toUInt64).toUInt32

def clustersBehind (totalSectors : UInt64) (sectorsPerCluster : UInt8) (fatSize : UInt32) : UInt64 :=
  (totalSectors - reservedSectors.toUInt64 - numFats.toUInt64 * fatSize.toUInt64) / sectorsPerCluster.toUInt64

def refineFatSize (totalSectors : UInt64) (sectorsPerCluster : UInt8) : Nat → UInt32 → UInt32
  | 0,fatSize => fatSize
  | rounds + 1,fatSize =>
    let newFatSize := fatSectors (clustersBehind totalSectors sectorsPerCluster fatSize)
    if newFatSize = fatSize then fatSize else refineFatSize totalSectors sectorsPerCluster rounds newFatSize

def fatSize32 (totalSectors : UInt64) (sectorsPerCluster : UInt8) : UInt32 :=
  refineFatSize totalSectors sectorsPerCluster 10
    (fatSectors ((totalSectors - reservedSectors.toUInt64) / sectorsPerCluster.toUInt64))

def fatClusters (totalSectors : UInt64) (sectorsPerCluster : UInt8) : UInt32 :=
  let dataStartSector := reservedSectors.toUInt64 +
    numFats.toUInt64 * (fatSize32 totalSectors sectorsPerCluster).toUInt64
  ((totalSectors - dataStartSector) / sectorsPerCluster.toUInt64).toUInt32

/-- Eleven characters, filled up with blanks. -/
def fatLabel (volumeLabel : List UInt8) : List UInt8 :=
  if volumeLabel = [] then [0x4E,0x4F,0x20,0x4E,0x41,0x4D,0x45,0x20,0x20,0x20,0x20]
  else volumeLabel.take 11 ++ List.replicate (11 - volumeLabel.length) 0x20

def layoutFat32 (partSize : UInt64) (options : FormatOptions) (volumeSerial : UInt32) :
    Result (Fat32Bpb × Fat32FsInfo) := do
  let totalSectors := partSize / SECTOR_SIZE_512.toUInt64
  refuse (0xFFFFFFFF < totalSectors) .partitionTooLarge "Volume too large for FAT32 (max ~2TB)"
  let clusterSize := if options.clusterSize = 0 then recommendedClusterSize .fat32 partSize else options.clusterSize
  let sectorsPerCluster := (clusterSize / SECTOR_SIZE_512).toUInt8
  refuse (sectorsPerCluster = 0 ∨ sectorsPerCluster &&& (sectorsPerCluster - 1) ≠ 0) .invalidArgument
    "Cluster size must be a power-of-2 multiple of sector size"
  let totalClusters := fatClusters totalSectors sectorsPerCluster
  refuse (totalClusters < 65525) .partitionTooSmall "Volume too small for FAT32 (need >= 65525 clusters)"
  let bpb : Fat32Bpb :=
    { sectorsPerCluster := sectorsPerCluster,totalSectors32 := totalSectors.toUInt32,
      fatSize32 := fatSize32 totalSectors sectorsPerCluster,volumeSerial := volumeSerial,
      volumeLabel := fatLabel options.volumeLabel }
  return (bpb,{ freeCount := totalClusters - 1 })

end FormatEngine

open SetecWizard.Library

namespace FormatEngine

section Structures

def asciiBytes (s : String) : List UInt8 := s.toList.map (fun c => UInt8.ofNat c.toNat)

def bpbFields (bpb : Fat32Bpb) : List (Nat × List UInt8) :=
  [(0x00,bpb.jmpBoot),(0x03,asciiBytes bpb.oemName),(0x0B,le16 bpb.bytesPerSector),(0x0D,[bpb.sectorsPerCluster]),
    (0x0E,le16 bpb.reservedSectors),(0x10,[bpb.numFats]),(0x11,le16 bpb.rootEntryCount),
    (0x13,le16 bpb.totalSectors16),(0x15,[bpb.mediaType]),(0x16,le16 bpb.fatSize16),(0x18,le16 bpb.sectorsPerTrack),
    (0x1A,le16 bpb.numHeads),(0x1C,le32 bpb.hiddenSectors),(0x20,le32 bpb.totalSectors32),(0x24,le32 bpb.fatSize32),
    (0x28,le16 bpb.extFlags),(0x2A,le16 bpb.fsVersion),(0x2C,le32 bpb.rootCluster),(0x30,le16 bpb.fsInfoSector),
    (0x32,le16 bpb.backupBootSector),(0x40,[bpb.driveNumber]),(0x42,[bpb.bootSig]),(0x43,le32 bpb.volumeSerial),
    (0x47,bpb.volumeLabel),(0x52,asciiBytes bpb.fsType),(510,[0x55,0xAA])]

def bootSector (bpb : Fat32Bpb) : List UInt8 := overwrite (List.replicate 512 0) (bpbFields bpb)

def fsInfoSector (fsInfo : Fat32FsInfo) : List UInt8 :=
  overwrite (List.replicate 512 0)
    [(0,le32 fsInfo.leadSig),(484,le32 fsInfo.structSig),(488,le32 fsInfo.freeCount),(492,le32 fsInfo.nextFree),
      (508,le32 fsInfo.trailSig)]

def fatChunkSize : UInt32 := 1024 * 1024

/-- The special entries are at the start of the first chunk. -/
def fatChunk (chunkBytes : UInt32) (firstChunk : Bool) : List UInt8 :=
  if firstChunk then
    overwrite (List.replicate chunkBytes.toNat 0) [(0,le32 0x0FFFFFF8),(4,le32 0x0FFFFFFF),(8,le32 0x0FFFFFF8)]
  else List.replicate chunkBytes.toNat 0

def rootCluster (sectorsPerCluster : UInt8) (volumeLabel : List UInt8) : List UInt8 :=
  let zeros := List.replicate (sectorsPerCluster.toNat * SECTOR_SIZE_512.toNat) 0
  if volumeLabel = [] then zeros
  else overwrite zeros [(0,List.replicate 11 0x20),(0,volumeLabel.take 11),(11,[0x08])]

end Structures

section Writes

/-- A buffer and where it goes, in bytes from the start of the partition. -/
abbrev Fat32Write := UInt64 × List UInt8

def fatChunks (fatBaseOffset pos : UInt64) (remaining : UInt32) (firstChunk : Bool) : List Fat32Write :=
  if remaining = 0 then []
  else
    let chunkBytes := min remaining fatChunkSize
    (fatBaseOffset + pos,fatChunk chunkBytes firstChunk) ::
      fatChunks fatBaseOffset (pos + chunkBytes.toUInt64) (remaining - chunkBytes) false
termination_by remaining.toNat
decreasing_by
  have positive : 0 < remaining.toNat := by
    rename_i nonzero
    exact Nat.pos_of_ne_zero (fun zero => nonzero (UInt32.toNat_inj.mp zero))
  have size : fatChunkSize.toNat = 1048576 := rfl
  have least : (min remaining fatChunkSize).toNat = min remaining.toNat fatChunkSize.toNat := UInt32.toNat_min _ _
  rw [UInt32.toNat_sub_of_le _ _ (UInt32.le_iff_toNat_le.mpr (by omega))]
  omega

def fatBaseOffset (fatSize fatCopy : UInt32) : UInt64 :=
  (reservedSectors.toUInt32 + fatCopy * fatSize).toUInt64 * SECTOR_SIZE_512.toUInt64

def fatWrites (fatSize fatCopy : UInt32) : List Fat32Write :=
  fatChunks (fatBaseOffset fatSize fatCopy) 0 (fatSize * SECTOR_SIZE_512) true

def dataStartSector (fatSize : UInt32) : UInt64 := reservedSectors.toUInt64 + numFats.toUInt64 * fatSize.toUInt64

def fat32Writes (bpb : Fat32Bpb) (fsInfo : Fat32FsInfo) (volumeLabel : List UInt8) : List Fat32Write :=
  [(0,bootSector bpb),(512,fsInfoSector fsInfo),(6 * 512,bootSector bpb),(7 * 512,fsInfoSector fsInfo)] ++
    (fatWrites bpb.fatSize32 0 ++ (fatWrites bpb.fatSize32 1 ++
      [(dataStartSector bpb.fatSize32 * SECTOR_SIZE_512.toUInt64,rootCluster bpb.sectorsPerCluster volumeLabel)]))

variable (os : Win32) (target : FormatTarget)

/-- The formatter has a helper of its own, which looks at the alignment first. -/
def writeAtFat32 (offsetFromPartStart : UInt64) (data : List UInt8) (disk : Disk) : FormatRun :=
  let size := UInt32.ofNat data.length
  let absOffset := target.partitionOffsetBytes + offsetFromPartStart
  let lba := absOffset / target.sectorSize.toUInt64
  let sectors := ((size + target.sectorSize - 1) / target.sectorSize).toUInt64
  let issued : List Extent := [⟨offsetFromPartStart.toNat,data.length⟩]
  if absOffset % target.sectorSize.toUInt64 = 0 ∧ size % target.sectorSize = 0 then
    let written := RawDiskHandle.writeSectors os disk .readWrite lba data sectors target.sectorSize
    { result := written.1,disk := written.2,issued := issued }
  else
    match RawDiskHandle.readSectors os disk lba sectors target.sectorSize with
    | .error e => { result := .error e,disk := disk }
    | .ok buf =>
      let off := (absOffset % target.sectorSize.toUInt64).toUInt32.toNat
      if buf.length < off + data.length ∨ buf.length < sectors.toNat * target.sectorSize.toNat then
        { result := .error noOutcome,disk := disk }
      else
        let written :=
          RawDiskHandle.writeSectors os disk .readWrite lba (splice buf off data) sectors target.sectorSize
        { result := written.1,disk := written.2,issued := issued }

def writeAllFat32 : List Fat32Write → Disk → FormatRun
  | [],disk => { result := .ok (),disk := disk }
  | (offset,data) :: rest,disk => (writeAtFat32 os target offset data disk).next (writeAllFat32 rest)

/-- What the flush at the end returns is not looked at. -/
def formatFat32Large (options : FormatOptions) (volumeSerial : UInt32) (disk : Disk) : FormatRun :=
  match layoutFat32 target.partitionSizeBytes options volumeSerial with
  | .error e => { result := .error e,disk := disk }
  | .ok (bpb,fsInfo) =>
    if target.hasRawTarget then
      match RawDiskHandle.openPath os .readWrite with
      | .error e => { result := .error e,disk := disk }
      | .ok _ =>
        let zeroed : FormatRun :=
          if options.quickFormat then { result := .ok (),disk := disk }
          else zeroRaw os target target.partitionSizeBytes disk
        zeroed.next (writeAllFat32 os target (fat32Writes bpb fsInfo options.volumeLabel))
    else { result := .error (.fromCode .diskWriteError "No valid write handle"),disk := disk }

end Writes
end FormatEngine
end SetecWizard.Core
