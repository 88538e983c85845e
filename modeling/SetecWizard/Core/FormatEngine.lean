import SetecWizard.Core.Common
import SetecWizard.Core.RawDiskHandle
import SetecWizard.Library.Extent

/-! What the formatters share: the kinds of filesystems that have a cluster size of their
own, the options, and the cluster size that is chosen when none is asked for.
-/
namespace SetecWizard.Core

/-- The filesystems the engine tells apart; all others are alike to it. -/
inductive FilesystemType where
  | ntfs | fat32 | exFat | ext2 | ext3 | ext4 | fat16 | fat12 | other
deriving DecidableEq

structure FormatOptions where
  volumeLabel : List UInt8 := []
  quickFormat : Bool := true
  clusterSize : UInt32 := 0

namespace FormatEngine

def recommendedClusterSize (fs : FilesystemType) (volumeSizeBytes : UInt64) : UInt32 :=
  let MB : UInt64 := 1024 * 1024
  let GB : UInt64 := 1024 * MB
  let TB : UInt64 := 1024 * GB
  match fs with
  | .ntfs =>
    if volumeSizeBytes ≤ 512 * MB then 4096
    else if volumeSizeBytes ≤ 1 * TB then 4096
    else if volumeSizeBytes ≤ 2 * TB then 8192
    else 8192
  | .fat32 =>
    if volumeSizeBytes ≤ 64 * MB then 512
    else if volumeSizeBytes ≤ 128 * MB then 1024
    else if volumeSizeBytes ≤ 256 * MB then 4096
    else if volumeSizeBytes ≤ 8 * GB then 8192
    else if volumeSizeBytes ≤ 16 * GB then 16384
    else 32768
  | .exFat =>
    if volumeSizeBytes ≤ 256 * MB then 4096
    else if volumeSizeBytes ≤ 32 * GB then 32768
    else 131072
  | .ext2 | .ext3 | .ext4 => if volumeSizeBytes ≤ 512 * MB then 1024 else 4096
  | .fat16 =>
    if volumeSizeBytes ≤ 16 * MB then 2048
    else if volumeSizeBytes ≤ 128 * MB then 4096
    else 16384
  | .fat12 => 512
  | .other => 4096

def isPowerOf (base groupNum : UInt32) : Nat → UInt32 → Bool
  | 0,_ => false
  | rounds + 1,val =>
    if groupNum < val then false
    else if val = groupNum then true
    else if 0xFFFFFFFF / base < val then false
    else isPowerOf base groupNum rounds (val * base)

def hasSuperblockBackup (groupNum : UInt32) : Bool :=
  groupNum = 0 || groupNum = 1 || [3,5,7].any (fun base => isPowerOf base groupNum 32 base)

end FormatEngine

/-! What the formatters that write structures themselves write to: a partition of a raw
disk. A format keeps account of the ranges it asks to be written, counted in bytes from
the start of the partition. The targets with a drive letter, which go through the handle
of a volume, are left out.
-/
open SetecWizard.Library

structure FormatTarget where
  diskIndex : Int := -1
  partitionOffsetBytes : UInt64 := 0
  partitionSizeBytes : UInt64 := 0
  sectorSize : UInt32 := SECTOR_SIZE_512

def FormatTarget.hasRawTarget (target : FormatTarget) : Bool :=
  0 ≤ target.diskIndex && 0 < target.partitionSizeBytes

structure FormatRun where
  result : Result Unit
  disk : Disk
  issued : List Extent := []

/-- A buffer and where it goes, in bytes from the start of the partition. -/
abbrev FormatWrite := UInt64 × List UInt8

/-- A run that goes past the end of a buffer, or never ends, has no outcome of its own.
It is taken for one that fails. -/
def noOutcome : ErrorInfo := .fromCode .unknown ""

namespace FormatRun

/-- What follows a run that succeeds. -/
def next (run : FormatRun) (rest : Disk → FormatRun) : FormatRun :=
  match run.result with
  | .error _ => run
  | .ok _ =>
    let later := rest run.disk
    { later with issued := run.issued ++ later.issued }

end FormatRun

namespace FormatEngine

variable (os : Win32) (target : FormatTarget)

def writeAt (offsetFromPartStart : UInt64) (data : List UInt8) (disk : Disk) : FormatRun :=
  let size := UInt32.ofNat data.length
  let absOffset := target.partitionOffsetBytes + offsetFromPartStart
  let sectorSize := target.sectorSize
  let lba := absOffset / sectorSize.toUInt64
  let sectors := ((size + sectorSize - 1) / sectorSize).toUInt64
  let issued : List Extent := [⟨offsetFromPartStart.toNat,data.length⟩]
  if absOffset % sectorSize.toUInt64 ≠ 0 ∨ size % sectorSize ≠ 0 then
    match RawDiskHandle.readSectors os disk lba sectors sectorSize with
    | .error e => { result := .error e,disk := disk }
    | .ok buf =>
      let offsetInSector := (absOffset % sectorSize.toUInt64).toUInt32.toNat
      if buf.length < offsetInSector + data.length ∨ buf.length < sectors.toNat * sectorSize.toNat then
        { result := .error noOutcome,disk := disk }
      else
        let written :=
          RawDiskHandle.writeSectors os disk .readWrite lba (splice buf offsetInSector data) sectors sectorSize
        { result := written.1,disk := written.2,issued := issued }
  else
    let written := RawDiskHandle.writeSectors os disk .readWrite lba data sectors sectorSize
    { result := written.1,disk := written.2,issued := issued }

def writeAll : List FormatWrite → Disk → FormatRun
  | [],disk => { result := .ok (),disk := disk }
  | (offset,data) :: rest,disk => (writeAt os target offset data disk).next (writeAll rest)

def chunkSectors : UInt32 := 8192

def zeroLoop (totalBytes : UInt64) : Nat → UInt64 → Disk → FormatRun
  | 0,bytesWritten,disk =>
    { result := if totalBytes ≤ bytesWritten then .ok () else .error noOutcome,disk := disk }
  | rounds + 1,bytesWritten,disk =>
    if totalBytes ≤ bytesWritten then { result := .ok (),disk := disk }
    else
      let sectorSize := target.sectorSize
      let chunkBytes := chunkSectors * sectorSize
      let writeBytes := (min chunkBytes.toUInt64 (totalBytes - bytesWritten)).toUInt32
      let sectors := ((writeBytes + sectorSize - 1) / sectorSize).toUInt64
      let lba := (target.partitionOffsetBytes + bytesWritten) / sectorSize.toUInt64
      let bytes := sectors.toNat * sectorSize.toNat
      if chunkBytes.toNat < bytes then { result := .error noOutcome,disk := disk }
      else
        let written :=
          RawDiskHandle.writeSectors os disk .readWrite lba (List.replicate bytes 0) sectors sectorSize
        FormatRun.next { result := written.1,disk := written.2,issued := [⟨bytesWritten.toNat,bytes⟩] }
          (zeroLoop totalBytes rounds (bytesWritten + sectors * sectorSize.toUInt64))

/-- Each round that does anything zeroes a byte at least. -/
def zeroRaw (totalBytes : UInt64) (disk : Disk) : FormatRun :=
  zeroLoop os target totalBytes totalBytes.toNat 0 disk

end FormatEngine

end SetecWizard.Core
