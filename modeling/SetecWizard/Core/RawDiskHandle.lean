import SetecWizard.Core.Common
import SetecWizard.Library.Block

/-! Raw access to one disk. The disk is a store of bytes; what Windows makes of a call
is a parameter, and may be an error or a transfer that stops early. Handles are not
kept as values: opening one hands it to the methods called on it.
-/
namespace SetecWizard.Core
open SetecWizard.Library

structure Disk where
  totalBytes : UInt64
  byte : Nat → UInt8

inductive DiskAccessMode where
  | readOnly | readWrite
deriving DecidableEq

/-- The outcomes of the calls one operation makes: the error code of a call that fails,
`none` for one that succeeds, and for a transfer the number of bytes it moves, given
the offset and the length asked for. By default everything works. -/
structure Win32 where
  createFile : DiskAccessMode → Option UInt32 := fun _ => none
  diskGeometry : Option UInt32 := none
  readFile : Nat → Nat → Except UInt32 Nat := fun _ length => .ok length
  writeFile : Nat → Nat → Option UInt32 × Nat := fun _ length => (none,length)
  flushFileBuffers : Option UInt32 := none
  openVolume : UInt16 → Option UInt32 := fun _ => none
  lockVolume : UInt16 → Option UInt32 := fun _ => none
  dismountVolume : UInt16 → Option UInt32 := fun _ => none

def Win32.working : Win32 := {}

def ERROR_FILE_NOT_FOUND : UInt32 := 2
def ERROR_PATH_NOT_FOUND : UInt32 := 3
def ERROR_ACCESS_DENIED : UInt32 := 5
def MAXDWORD : UInt64 := 0xFFFFFFFF

def ErrorInfo.fromWin32 (code : ErrorCode) (win32Err : UInt32) (msg : String) : ErrorInfo :=
  { code := code, message := msg, win32Error := win32Err }

def makeWin32Error (code : ErrorCode) (context : String) (lastErr : UInt32) : ErrorInfo :=
  .fromWin32 code lastErr (context ++ " (Win32 error " ++ toString lastErr.toNat ++ ")")

/-- A call without a result of its own, checked by its caller. -/
def checked (outcome : Option UInt32) (code : ErrorCode) (context : String) : Result Unit :=
  match outcome with
  | none => .ok ()
  | some lastErr => .error (makeWin32Error code context lastErr)

namespace RawDiskHandle

variable (os : Win32) (disk : Disk)

def openPath (mode : DiskAccessMode) : Result Unit :=
  match os.createFile mode with
  | none => .ok ()
  | some lastErr =>
    if lastErr = ERROR_ACCESS_DENIED then
      .error (.fromWin32 .diskAccessDenied lastErr "Access denied opening disk. Run as Administrator.")
    else if lastErr = ERROR_FILE_NOT_FOUND ∨ lastErr = ERROR_PATH_NOT_FOUND then
      .error (.fromWin32 .diskNotFound lastErr "Physical disk not found")
    else .error (makeWin32Error .diskReadError "Failed to open disk handle" lastErr)

def available (off length moved : Nat) : Nat := min (min moved length) (disk.totalBytes.toNat - off)

def readSectors (lba count : UInt64) (sectorSize : UInt32) : Result (List UInt8) :=
  if count = 0 then .ok []
  else
    let byteOffset := lba * sectorSize.toUInt64
    let totalBytes := count * sectorSize.toUInt64
    if MAXDWORD < totalBytes then
      .error (.fromCode .invalidArgument "Read request exceeds maximum single ReadFile size")
    else match os.readFile byteOffset.toNat totalBytes.toNat with
      | .error lastErr => .error (makeWin32Error .diskReadError "ReadFile failed on physical disk" lastErr)
      | .ok bytesRead =>
        .ok (window disk.byte byteOffset.toNat (available disk byteOffset.toNat totalBytes.toNat bytesRead))

def writeSectors (mode : DiskAccessMode) (lba : UInt64) (data : List UInt8) (count : UInt64)
    (sectorSize : UInt32) : Mutation Disk :=
  if mode ≠ .readWrite then
    (.error (.fromCode .diskAccessDenied "Handle opened read-only, cannot write"),disk)
  else if count = 0 then (.ok (),disk)
  else
    let byteOffset := lba * sectorSize.toUInt64
    let totalBytes := count * sectorSize.toUInt64
    if MAXDWORD < totalBytes then
      (.error (.fromCode .invalidArgument "Write request exceeds maximum single WriteFile size"),disk)
    else
      let outcome := os.writeFile byteOffset.toNat totalBytes.toNat
      let written := available disk byteOffset.toNat totalBytes.toNat outcome.2
      let after := { disk with byte := patch disk.byte byteOffset.toNat (data.take written) }
      match outcome.1 with
      | some lastErr => (.error (makeWin32Error .diskWriteError "WriteFile failed on physical disk" lastErr),after)
      | none =>
        if written ≠ totalBytes.toNat then
          (.error (.fromCode .diskWriteError "Partial write: not all sectors were written"),after)
        else (.ok (),after)

/-- Only the size is used by the callers modelled here. -/
def getGeometry : Result UInt64 :=
  (checked os.diskGeometry .diskReadError "IOCTL_DISK_GET_DRIVE_GEOMETRY_EX failed").map
    (fun _ => disk.totalBytes)

def flushBuffers : Result Unit :=
  checked os.flushFileBuffers .diskWriteError "FlushFileBuffers failed"

end RawDiskHandle

namespace VolumeHandle

variable (os : Win32) (driveLetter : UInt16)

def openByLetter : Result Unit :=
  match os.openVolume driveLetter with
  | none => .ok ()
  | some lastErr =>
    if lastErr = ERROR_ACCESS_DENIED then
      .error (.fromWin32 .diskAccessDenied lastErr "Access denied opening volume. Run as Administrator.")
    else .error (makeWin32Error .diskNotFound "Failed to open volume" lastErr)

def lock : Result Unit :=
  checked (os.lockVolume driveLetter) .diskLockFailed
    "FSCTL_LOCK_VOLUME failed — volume may be in use"

def dismount : Result Unit :=
  checked (os.dismountVolume driveLetter) .diskDismountFailed "FSCTL_DISMOUNT_VOLUME failed"

end VolumeHandle
end SetecWizard.Core
