import SetecWizard.Core.RawDiskHandle

/-! Cloning a range of one disk to another: the checks on the range, the copy of every
sector, and the copy that leaves out the clusters an NTFS volume marks as free. The
loops take a bound on their rounds, and a loop that has not ended by then gives nothing.
-/
namespace SetecWizard.Core
open SetecWizard.Library

/-- The fields of a configuration the range and the copy depend on. -/
structure CloneConfig where
  sourceOffsetBytes : UInt64 := 0
  sourceLengthBytes : UInt64 := 0
  destOffsetBytes : UInt64 := 0
  bufferSize : UInt32 := 4 * 1024 * 1024
  allowTruncation : Bool := false

structure DriveLayoutPartition where
  startingOffset : UInt64
  partitionLength : UInt64

/-- What the outside world answers during one clone. A cancellation is asked for at a
position of the target with so many bytes left; a buffer is followed by `pastEnd` in
memory. The last four fields say what is known of the volumes by their letters. -/
structure CloneEnv where
  source : Win32 := .working
  target : Win32 := .working
  cancelRequested : UInt64 → UInt64 → Bool := fun _ _ => false
  progressCb : UInt64 → UInt64 → Bool := fun _ _ => true
  pastEnd : Nat → UInt8 := fun _ => 0
  driveLayout : Option (List DriveLayoutPartition) := none
  volumeExtents : UInt16 → Option (List (UInt32 × UInt64)) := fun _ => none
  ntfsVolumeData : UInt16 → Option (UInt32 × Nat) := fun _ => none
  volumeBitmap : UInt16 → Option (List UInt8) := fun _ => none

/-- What is left of a loop after a step that may have failed. -/
def Mutation.andThen {σ : Type} (step : Option (Mutation σ)) (rest : σ → Option (Mutation σ)) :
    Option (Mutation σ) :=
  match step with
  | some (.ok _,state) => rest state
  | other => other

namespace DiskCloner

def cloneRange (config : CloneConfig) (srcTotalBytes dstTotalBytes : UInt64)
    (srcSectorSize dstSectorSize : UInt32) : Result UInt64 := do
  let srcOffset := config.sourceOffsetBytes
  let dstOffset := config.destOffsetBytes
  refuse (config.sourceLengthBytes = 0 ∧ srcTotalBytes < srcOffset) .invalidArgument
    "Source offset exceeds disk size"
  let asked := if config.sourceLengthBytes = 0 then srcTotalBytes - srcOffset else config.sourceLengthBytes
  refuse (srcTotalBytes < srcOffset + asked) .invalidArgument "Source range exceeds source disk size"
  refuse (dstTotalBytes < dstOffset + asked ∧ config.allowTruncation = false) .insufficientDiskSpace
    "Destination disk is too small for the clone operation"
  let cloneLength := if dstTotalBytes < dstOffset + asked then dstTotalBytes - dstOffset else asked
  let alignmentSize := (max srcSectorSize dstSectorSize).toUInt64
  refuse (srcOffset % alignmentSize ≠ 0 ∨ dstOffset % alignmentSize ≠ 0) .alignmentError
    "Source and destination offsets must be sector-aligned"
  return cloneLength

/-- The I/O buffer holds whole sectors of both disks. -/
def alignedBufSize (srcSectorSize dstSectorSize bufferSize : UInt32) : UInt32 :=
  bufferSize / max srcSectorSize dstSectorSize * max srcSectorSize dstSectorSize

def canceled : ErrorInfo := .fromCode .operationCanceled "Clone canceled by user"

def bufferTooSmall : ErrorInfo := .fromCode .invalidArgument "Buffer size too small for sector alignment"

variable (env : CloneEnv) (src : Disk) (srcSectorSize dstSectorSize : UInt32)

/-- One chunk from the source to the target, and how many of its bytes were read. The
last sector is filled up with zeros where the read does not fill it. -/
def copyChunk (chunkBytes srcPos dstPos : UInt64) (dst : Disk) : Result UInt64 × Disk :=
  let srcLba := srcPos / srcSectorSize.toUInt64
  let srcSectors := (chunkBytes + srcSectorSize.toUInt64 - 1) / srcSectorSize.toUInt64
  match RawDiskHandle.readSectors env.source src srcLba srcSectors srcSectorSize with
  | .error e => (.error e,dst)
  | .ok readData =>
    let bytesToWrite := min (UInt64.ofNat readData.length) chunkBytes
    let dstSectors := (bytesToWrite + dstSectorSize.toUInt64 - 1) / dstSectorSize.toUInt64
    let alignedWriteSize := dstSectors * dstSectorSize.toUInt64
    let buffer := readData ++ List.replicate (alignedWriteSize.toNat - readData.length) 0
    let dstLba := dstPos / dstSectorSize.toUInt64
    match RawDiskHandle.writeSectors env.target dst .readWrite dstLba buffer dstSectors dstSectorSize with
    | (.error e,dst) => (.error e,dst)
    | (.ok _,dst) => (.ok bytesToWrite,dst)

def cloneRawLoop (bufSize : UInt32) (lengthBytes : UInt64) :
    Nat → UInt64 → UInt64 → UInt64 → UInt64 → Disk → Option (Mutation Disk)
  | 0,_,_,_,_,_ => none
  | fuel + 1,bytesRemaining,bytesTransferred,srcPos,dstPos,dst =>
    if bytesRemaining = 0 then some (.ok (),dst)
    else if env.cancelRequested dstPos bytesRemaining then some (.error canceled,dst)
    else
      let chunkBytes := min bufSize.toUInt64 bytesRemaining
      match copyChunk env src srcSectorSize dstSectorSize chunkBytes srcPos dstPos dst with
      | (.error e,dst) => some (.error e,dst)
      | (.ok bytesToWrite,dst) =>
        if env.progressCb (bytesTransferred + bytesToWrite) lengthBytes = false then
          some (.error canceled,dst)
        else cloneRawLoop bufSize lengthBytes fuel (bytesRemaining - bytesToWrite)
          (bytesTransferred + bytesToWrite) (srcPos + bytesToWrite) (dstPos + bytesToWrite) dst

def cloneRaw (fuel : Nat) (srcOffsetBytes lengthBytes dstOffsetBytes : UInt64) (bufferSize : UInt32)
    (dst : Disk) : Option (Mutation Disk) :=
  let bufSize := alignedBufSize srcSectorSize dstSectorSize bufferSize
  if bufSize = 0 then some (.error bufferTooSmall,dst)
  else cloneRawLoop env src srcSectorSize dstSectorSize bufSize lengthBytes fuel lengthBytes 0
    srcOffsetBytes dstOffsetBytes dst

/-- What is known of an NTFS volume: bit `i % 8` of byte `i / 8` of the bitmap is set
when cluster `i` is allocated. -/
structure NtfsVolume where
  bytesPerCluster : UInt32
  totalClusters : Nat
  bitmap : List UInt8
deriving DecidableEq

namespace NtfsVolume

def isAllocated (volume : NtfsVolume) (cluster : Nat) : Bool :=
  volume.bitmap.getD (cluster / 8) 0 &&& (1 <<< UInt8.ofNat (cluster % 8)) != 0

def runLength (volume : NtfsVolume) (allocated : Bool) : Nat → Nat → Nat
  | 0,_ => 0
  | room + 1,cluster =>
    if cluster < volume.totalClusters ∧ volume.isAllocated cluster = allocated then
      runLength volume allocated room (cluster + 1) + 1
    else 0

def clusterOffset (volume : NtfsVolume) (origin : UInt64) (cluster : Nat) : UInt64 :=
  origin + UInt64.ofNat cluster * volume.bytesPerCluster.toUInt64

end NtfsVolume

def driveLetters : List UInt16 := (List.range 26).map (fun i => UInt16.ofNat (65 + i))

/-- The letter of the volume whose first extent starts the range, where the range is a
partition of the source. -/
def findVolume (diskId : UInt32) (srcOffsetBytes lengthBytes : UInt64) : Option UInt16 := do
  let partitions ← env.driveLayout
  if partitions.any (fun part => part.startingOffset == srcOffsetBytes && part.partitionLength == lengthBytes) then
    driveLetters.find? fun letter =>
      match env.volumeExtents letter with
      | some (extent :: _) => extent == (diskId,srcOffsetBytes)
      | _ => false
  else none

/-- The volume and its bitmap. Whatever of it cannot be had, the clone is raw. -/
def ntfsVolume (diskId : UInt32) (srcOffsetBytes lengthBytes : UInt64) : Option NtfsVolume := do
  let volumeLetter ← findVolume env diskId srcOffsetBytes lengthBytes
  let (bytesPerCluster,totalClusters) ← env.ntfsVolumeData volumeLetter
  let bitmap ← env.volumeBitmap volumeLetter
  return { bytesPerCluster := bytesPerCluster, totalClusters := totalClusters, bitmap := bitmap }

/-- Zeros over a run of free clusters. -/
def zeroLoop (bufSize : UInt32) : Nat → UInt64 → UInt64 → Disk → Option (Mutation Disk)
  | 0,_,_,_ => none
  | fuel + 1,zeroRemaining,zeroPos,dst =>
    if zeroRemaining = 0 then some (.ok (),dst)
    else
      let writeChunk := min bufSize.toUInt64 zeroRemaining
      match RawDiskHandle.writeSectors env.target dst .readWrite (zeroPos / dstSectorSize.toUInt64)
          (List.replicate bufSize.toNat 0) (writeChunk / dstSectorSize.toUInt64) dstSectorSize with
      | (.error e,dst) => some (.error e,dst)
      | (.ok _,dst) => zeroLoop bufSize fuel (zeroRemaining - writeChunk) (zeroPos + writeChunk) dst

/-- A run of allocated clusters. What was read is written in whole sectors, whatever
lies in memory behind it. -/
def runLoop (bufSize : UInt32) (totalBytesToCopy : UInt64) :
    Nat → UInt64 → UInt64 → UInt64 → UInt64 → Disk → Option (Mutation Disk)
  | 0,_,_,_,_,_ => none
  | fuel + 1,runRemaining,bytesTransferred,srcRunPos,dstRunPos,dst =>
    if runRemaining = 0 then some (.ok (),dst)
    else if env.cancelRequested dstRunPos runRemaining then some (.error canceled,dst)
    else
      let chunkBytes := min bufSize.toUInt64 runRemaining
      match RawDiskHandle.readSectors env.source src (srcRunPos / srcSectorSize.toUInt64)
          (chunkBytes / srcSectorSize.toUInt64) srcSectorSize with
      | .error e => some (.error e,dst)
      | .ok data =>
        let writeSectors := (UInt64.ofNat data.length + dstSectorSize.toUInt64 - 1) / dstSectorSize.toUInt64
        let excess := (writeSectors * dstSectorSize.toUInt64).toNat - data.length
        match RawDiskHandle.writeSectors env.target dst .readWrite (dstRunPos / dstSectorSize.toUInt64)
            (data ++ (List.range excess).map env.pastEnd) writeSectors dstSectorSize with
        | (.error e,dst) => some (.error e,dst)
        | (.ok _,dst) =>
          if env.progressCb (bytesTransferred + chunkBytes) totalBytesToCopy = false then
            some (.error canceled,dst)
          else runLoop bufSize totalBytesToCopy fuel (runRemaining - chunkBytes)
            (bytesTransferred + chunkBytes) (srcRunPos + chunkBytes) (dstRunPos + chunkBytes) dst

def cloneSmartLoop (volume : NtfsVolume) (bufSize : UInt32) (totalBytesToCopy srcOffsetBytes dstOffsetBytes : UInt64) :
    Nat → Nat → UInt64 → Disk → Option (Mutation Disk)
  | 0,_,_,_ => none
  | fuel + 1,cluster,bytesTransferred,dst =>
    if volume.totalClusters ≤ cluster then some (.ok (),dst)
    else
      let srcClusterOffset := volume.clusterOffset srcOffsetBytes cluster
      let dstClusterOffset := volume.clusterOffset dstOffsetBytes cluster
      if env.cancelRequested dstClusterOffset 0 then some (.error canceled,dst)
      else
        let clustersPerChunk := bufSize / volume.bytesPerCluster
        let allocated := volume.isAllocated cluster
        let runLen := volume.runLength allocated clustersPerChunk.toNat cluster
        let runBytes := UInt64.ofNat runLen * volume.bytesPerCluster.toUInt64
        if allocated = false then
          Mutation.andThen (zeroLoop env dstSectorSize bufSize fuel runBytes dstClusterOffset dst)
            (cloneSmartLoop volume bufSize totalBytesToCopy srcOffsetBytes dstOffsetBytes fuel
              (cluster + runLen) bytesTransferred)
        else
          Mutation.andThen (runLoop env src srcSectorSize dstSectorSize bufSize totalBytesToCopy fuel runBytes
              bytesTransferred srcClusterOffset dstClusterOffset dst)
            (cloneSmartLoop volume bufSize totalBytesToCopy srcOffsetBytes dstOffsetBytes fuel
              (cluster + runLen) (bytesTransferred + runBytes))

def cloneSmart (fuel : Nat) (diskId : UInt32) (srcOffsetBytes lengthBytes dstOffsetBytes : UInt64)
    (bufferSize : UInt32) (dst : Disk) : Option (Mutation Disk) :=
  match ntfsVolume env diskId srcOffsetBytes lengthBytes with
  | none =>
    cloneRaw env src srcSectorSize dstSectorSize fuel srcOffsetBytes lengthBytes dstOffsetBytes bufferSize dst
  | some volume =>
    let allocatedClusters := (List.range volume.totalClusters).countP (volume.isAllocated ·)
    let totalBytesToCopy := UInt64.ofNat allocatedClusters * volume.bytesPerCluster.toUInt64
    let bufSize := alignedBufSize srcSectorSize dstSectorSize bufferSize
    if bufSize = 0 then some (.error bufferTooSmall,dst)
    else cloneSmartLoop env src srcSectorSize dstSectorSize volume bufSize totalBytesToCopy srcOffsetBytes
      dstOffsetBytes fuel 0 0 dst

inductive CloneMode where
  | raw | smart
deriving DecidableEq

def clonePhase (mode : CloneMode) (fuel : Nat) (diskId : UInt32) (srcOffsetBytes lengthBytes dstOffsetBytes : UInt64)
    (bufferSize : UInt32) (dst : Disk) : Option (Mutation Disk) :=
  if mode = .smart then
    cloneSmart env src srcSectorSize dstSectorSize fuel diskId srcOffsetBytes lengthBytes dstOffsetBytes bufferSize dst
  else cloneRaw env src srcSectorSize dstSectorSize fuel srcOffsetBytes lengthBytes dstOffsetBytes bufferSize dst

def verificationCanceled : ErrorInfo := .fromCode .operationCanceled "Verification canceled by user"

def verifyChunk (dst : Disk) (chunkBytes srcPos dstPos : UInt64) : Result Unit := do
  let srcRead ← RawDiskHandle.readSectors env.source src (srcPos / srcSectorSize.toUInt64)
    ((chunkBytes + srcSectorSize.toUInt64 - 1) / srcSectorSize.toUInt64) srcSectorSize
  let dstRead ← RawDiskHandle.readSectors env.target dst (dstPos / dstSectorSize.toUInt64)
    ((chunkBytes + dstSectorSize.toUInt64 - 1) / dstSectorSize.toUInt64) dstSectorSize
  refuse (srcRead.length < chunkBytes.toNat ∨ dstRead.length < chunkBytes.toNat) .imageChecksumMismatch
    "Verification read returned fewer bytes than expected"
  refuse (srcRead.take chunkBytes.toNat ≠ dstRead.take chunkBytes.toNat) .imageChecksumMismatch
    ("Verification mismatch at offset " ++ toString srcPos.toNat ++ " (chunk size " ++
      toString chunkBytes.toNat ++ " bytes)")

def verifyLoop (dst : Disk) (bufSize : UInt32) (lengthBytes : UInt64) :
    Nat → UInt64 → UInt64 → UInt64 → UInt64 → Option (Result Unit)
  | 0,_,_,_,_ => none
  | fuel + 1,bytesRemaining,bytesVerified,srcPos,dstPos =>
    if bytesRemaining = 0 then some (.ok ())
    else if env.cancelRequested dstPos bytesRemaining then some (.error verificationCanceled)
    else
      let chunkBytes := min bufSize.toUInt64 bytesRemaining
      match verifyChunk env src srcSectorSize dstSectorSize dst chunkBytes srcPos dstPos with
      | .error e => some (.error e)
      | .ok _ =>
        if env.progressCb (bytesVerified + chunkBytes) lengthBytes = false then some (.error verificationCanceled)
        else verifyLoop dst bufSize lengthBytes fuel (bytesRemaining - chunkBytes) (bytesVerified + chunkBytes)
          (srcPos + chunkBytes) (dstPos + chunkBytes)

def verifyClone (fuel : Nat) (srcOffsetBytes lengthBytes dstOffsetBytes : UInt64) (bufferSize : UInt32)
    (dst : Disk) : Option (Result Unit) :=
  let bufSize := alignedBufSize srcSectorSize dstSectorSize bufferSize
  if bufSize = 0 then some (.error bufferTooSmall)
  else verifyLoop env src srcSectorSize dstSectorSize dst bufSize lengthBytes fuel lengthBytes 0 srcOffsetBytes
    dstOffsetBytes

end DiskCloner
end SetecWizard.Core
