import SetecWizard.Core.ByteOrder
import SetecWizard.Core.RawDiskHandle

/-! Writing an image file to a disk, and comparing the two afterwards. The file is a store
of bytes of a declared size; how many bytes a call of `ReadFile` gives at a position, and
whether it fails, is the outside world, and differs from one pass over the file to the
next. Speed and remaining time are left out.
-/
namespace SetecWizard.Core
open SetecWizard.Library

structure FlashEnv where
  target : Win32 := .working
  readFile : Nat → Nat → Except UInt32 Nat := fun _ length => .ok length
  verifyFile : Nat → Nat → Except UInt32 Nat := fun _ length => .ok length
  cancelRequested : Nat → Bool := fun _ => false
  progressCb : Nat → UInt64 → Bool := fun _ _ => true

namespace IsoFlasher

variable (env : FlashEnv) (file : Nat → UInt8) (fileSize : UInt64) (dstSectorSize : UInt32)

def alignedBufSize (bufferSize : UInt32) : UInt32 := bufferSize / dstSectorSize * dstSectorSize

def bufferTooSmall : ErrorInfo := .fromCode .invalidArgument "Buffer size too small"

def canceled : ErrorInfo := .fromCode .operationCanceled "Flash canceled"

def writeChunk (data : List UInt8) (dstPos : Nat) (dst : Disk) : Mutation Disk :=
  let alignedWriteSize := (data.length + dstSectorSize.toNat - 1) / dstSectorSize.toNat * dstSectorSize.toNat
  let readBuffer := data ++ List.replicate (alignedWriteSize - data.length) 0
  RawDiskHandle.writeSectors env.target dst .readWrite (.ofNat (dstPos / dstSectorSize.toNat)) readBuffer
    (.ofNat (alignedWriteSize / dstSectorSize.toNat)) dstSectorSize

/-- The part of the MBR that is put over the first chunk that is long enough, if any. -/
def overlay (mbr : Option (List UInt8)) (data : List UInt8) : List UInt8 × Option (List UInt8) :=
  match mbr with
  | some table => if 512 ≤ data.length then (splice data 446 table,none) else (data,some table)
  | none => (data,none)

/-- The copy loop of both ways to flash, which differ in what they do about a read that
fails and in whether an MBR is put over the image. `dstPos` is always `bytesWritten`. -/
def copyLoop (failed : UInt32 → Result Unit) (bufSize : UInt32) (mbr : Option (List UInt8)) (bytesWritten : Nat)
    (dst : Disk) : Mutation Disk :=
  if fileSize.toNat ≤ bytesWritten then (.ok (),dst)
  else if env.cancelRequested bytesWritten then (.error canceled,dst)
  else
    let readSize := min bufSize.toNat (fileSize.toNat - bytesWritten)
    match env.readFile bytesWritten readSize with
    | .error lastErr => (failed lastErr,dst)
    | .ok moved =>
      let bytesRead := min moved readSize
      if bytesRead = 0 then (.ok (),dst)
      else
        let (data,later) := overlay mbr (window file bytesWritten bytesRead)
        match writeChunk env dstSectorSize data bytesWritten dst with
        | (.error e,after) => (.error e,after)
        | (.ok (),after) =>
          if env.progressCb (bytesWritten + bytesRead) fileSize then
            copyLoop failed bufSize later (bytesWritten + bytesRead) after
          else (.error canceled,after)
termination_by fileSize.toNat - bytesWritten

def verifyChunk (data : List UInt8) (dstPos : Nat) (dst : Disk) : Result Unit :=
  let dstSectors := (data.length + dstSectorSize.toNat - 1) / dstSectorSize.toNat
  match RawDiskHandle.readSectors env.target dst (.ofNat (dstPos / dstSectorSize.toNat)) (.ofNat dstSectors)
      dstSectorSize with
  | .error e => .error e
  | .ok diskRead =>
    if diskRead.length < data.length then
      .error (.fromCode .imageChecksumMismatch "Disk read returned fewer bytes than expected during verification")
    else if data ≠ diskRead.take data.length then
      .error (.fromCode .imageChecksumMismatch ("Verification mismatch at byte offset " ++ toString dstPos))
    else .ok ()

def verifyCanceled : ErrorInfo := .fromCode .operationCanceled "Verification canceled"

/-- `dstPos` is always `bytesVerified`. -/
def verifyLoop (bufSize : UInt32) (dst : Disk) (bytesVerified : Nat) : Result Unit :=
  if fileSize.toNat ≤ bytesVerified then .ok ()
  else if env.cancelRequested bytesVerified then .error verifyCanceled
  else
    let readSize := min bufSize.toNat (fileSize.toNat - bytesVerified)
    match env.verifyFile bytesVerified readSize with
    | .error _ => .ok ()
    | .ok moved =>
      let fileBytesRead := min moved readSize
      if fileBytesRead = 0 then .ok ()
      else
        match verifyChunk env dstSectorSize (window file bytesVerified fileBytesRead) bytesVerified dst with
        | .error e => .error e
        | .ok () =>
          if env.progressCb (bytesVerified + fileBytesRead) fileSize then
            verifyLoop bufSize dst (bytesVerified + fileBytesRead)
          else .error verifyCanceled
termination_by fileSize.toNat - bytesVerified

def verifyFlash (bufferSize : UInt32) (dst : Disk) : Result Unit :=
  if alignedBufSize dstSectorSize bufferSize = 0 then .error bufferTooSmall
  else verifyLoop env file fileSize dstSectorSize (alignedBufSize dstSectorSize bufferSize) dst 0

/-- The outcome of the flush is not looked at. -/
def flashRawImage (bufferSize : UInt32) (verify : Bool) (dst : Disk) : Mutation Disk :=
  if alignedBufSize dstSectorSize bufferSize = 0 then (.error bufferTooSmall,dst)
  else
    match copyLoop env file fileSize dstSectorSize
        (fun lastErr => .error (makeWin32Error .imageReadError "Failed to read from input file" lastErr))
        (alignedBufSize dstSectorSize bufferSize) none 0 dst with
    | (.error e,after) => (.error e,after)
    | (.ok (),after) =>
      if verify then (verifyFlash env file fileSize dstSectorSize bufferSize after,after)
      else (.ok (),after)

/-- The bytes from 446 on of the generated MBR: one partition over the whole disk, three
empty ones and the signature. -/
def mbrTable (diskBytes : UInt64) : List UInt8 :=
  let totalSectors512 := (min (diskBytes / 512) 0xFFFFFFFF).toUInt32
  [0x80,0x00,0x01,0x00,0xEF,0xFE,0xFF,0xFF,0x00,0x00,0x00,0x00] ++ le32 totalSectors512
    ++ List.replicate 48 0 ++ [0x55,0xAA]

def mbr (diskBytes : UInt64) : List UInt8 := List.replicate 446 0 ++ mbrTable diskBytes

/-- A read that fails ends the copy as the end of the file does. -/
def flashNonHybridIso (bufferSize : UInt32) (dst : Disk) : Mutation Disk :=
  match RawDiskHandle.getGeometry env.target dst with
  | .error e => (.error e,dst)
  | .ok diskBytes =>
    let mbrBuf := mbr diskBytes ++ List.replicate (max 512 dstSectorSize.toNat - 512) 0
    match RawDiskHandle.writeSectors env.target dst .readWrite 0 mbrBuf 1 dstSectorSize with
    | (.error e,after) => (.error e,after)
    | (.ok (),after) =>
      if alignedBufSize dstSectorSize bufferSize = 0 then (.error bufferTooSmall,after)
      else
        copyLoop env file fileSize dstSectorSize (fun _ => .ok ()) (alignedBufSize dstSectorSize bufferSize)
          (some (mbrTable diskBytes)) 0 after

end IsoFlasher

end SetecWizard.Core
