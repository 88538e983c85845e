import SetecWizard.Core.RawDiskHandle

/-! Images of whole disks: capturing a disk to a file or a virtual disk, and flashing an
image to a disk. All of them share one loop, which reads a chunk, writes it with
retries, and goes on behind it.
-/
namespace SetecWizard.Core
open SetecWizard.Library

inductive VirtualDiskFormat where
  | vhd | vhdx | vmdk | qcow2 | raw
deriving DecidableEq

/-- What a file or a disk holds, and where it ends. -/
structure FileContent where
  byte : Nat → UInt8
  length : Nat

def FileContent.empty : FileContent := { byte := fun _ => 0, length := 0 }

/-- A handle that writes: every write starts at the position and moves it. -/
structure FileHandle extends FileContent where
  pos : Nat := 0

namespace FileHandle

/-- At most `outcome.2` bytes are transferred, whether or not the call succeeds, and a
file grows by those behind its end. -/
def write (handle : FileHandle) (buf : List UInt8) (outcome : Bool × Nat) : (Bool × Nat) × FileHandle :=
  let moved := buf.take outcome.2
  ((outcome.1,moved.length),
    { byte := patch handle.byte handle.pos moved
      length := if moved = [] then handle.length else max handle.length (handle.pos + moved.length)
      pos := handle.pos + moved.length })

/-- A position is signed, and a negative one is refused. -/
def seek (handle : FileHandle) (offset : UInt64) : FileHandle :=
  if offset.toNat < 2 ^ 63 then { handle with pos := offset.toNat } else handle

end FileHandle

/-- What becomes of the calls of one copy. A read at a position fails or moves a number
of bytes; so does every attempt to write the chunk that starts at a position. -/
structure CopyEnv where
  createContainer : Result Unit := .ok ()
  mount : Result Unit := .ok ()
  openSource : Option UInt32 := none
  openTarget : Option UInt32 := none
  allocates : Bool := true
  readFile : Nat → Option Nat := fun _ => some (2 ^ 25)
  writeFile : Nat → Nat → Bool × Nat := fun _ _ => (true,2 ^ 25)

namespace VirtualDisk

def kChunk : Nat := 32 * 1024 * 1024

/-- How a copy loop ended, and what it left on the target. -/
structure CopyEnd where
  totalCopied : UInt64
  writeError : Bool
  target : FileHandle

variable (env : CopyEnv) (source : Disk)

/-- The attempts to write a chunk: after one that fails the target is put back to where
the chunk starts. -/
def writeAttempts (buf : List UInt8) (totalCopied : UInt64) : Nat → Nat → FileHandle → Bool × FileHandle
  | 0,_,target => (false,target)
  | left + 1,attempt,target =>
    let ((success,written),target) := target.write buf (env.writeFile totalCopied.toNat attempt)
    if success = true ∧ written = buf.length then (true,target)
    else writeAttempts buf totalCopied left (attempt + 1) (target.seek totalCopied)

/-- The bytes a read at a position delivers, at most `toRead`; none when it fails. -/
def delivered (pos toRead : Nat) : Nat :=
  match env.readFile pos with
  | none => 0
  | some moved => RawDiskHandle.available source pos toRead moved

/-- The loop. `toRead` says how much to read next, and zero ends it. A read that fails or
delivers nothing ends it as well. -/
def copyLoop (toRead : UInt64 → Nat) : Nat → UInt64 → Nat → FileHandle → Option CopyEnd
  | 0,_,_,_ => none
  | fuel + 1,totalCopied,sourcePos,target =>
    if toRead totalCopied = 0 then some ⟨totalCopied,false,target⟩
    else
      let n := delivered env source sourcePos (toRead totalCopied)
      if n = 0 then some ⟨totalCopied,false,target⟩
      else
        match writeAttempts env (window source.byte sourcePos n) totalCopied 3 0 target with
        | (false,target) => some ⟨totalCopied,true,target⟩
        | (true,target) => copyLoop toRead fuel (totalCopied + UInt64.ofNat n) (sourcePos + n) target

def openBoth (sourceMsg : String) (targetCode : ErrorCode) (targetMsg : String) : Result Unit := do
  match env.openSource with
  | some lastErr => throw (.fromWin32 .diskAccessDenied lastErr sourceMsg)
  | none => pure ()
  match env.openTarget with
  | some lastErr => throw (.fromWin32 targetCode lastErr targetMsg)
  | none => pure ()
  refuse (env.allocates = false) .diskReadError "Failed to allocate 32 MB I/O buffer"

def captureChunk (diskSize totalCopied : UInt64) : Nat :=
  if totalCopied < diskSize then min kChunk (diskSize - totalCopied).toNat else 0

/-- The chunks of a flash end with the image, where its size is known. -/
def flashChunk (totalBytes totalWritten : UInt64) : Nat :=
  if 0 < totalBytes then min kChunk (totalBytes - totalWritten).toNat else kChunk

/-- The result of a copy whose loop has ended, and the target then. -/
abbrev CopyResult := Option (Result Unit × FileContent)

def runCopy (fuel : Nat) (setup : Result UInt64) (toRead : UInt64 → UInt64 → Nat)
    (verdict : UInt64 → CopyEnd → Result Unit) (target : FileContent) : CopyResult :=
  match setup with
  | .error e => some (.error e,target)
  | .ok size =>
    (copyLoop env source (toRead size) fuel 0 0 { target with pos := 0 }).map
      (fun last => (verdict size last,last.target.toFileContent))

def captureFailed : ErrorInfo :=
  .fromCode .diskWriteError "Capture failed — write error after 3 retry attempts"

def virtualSetup (diskInfo : Result UInt64) : Result UInt64 := do
  let diskSize ← diskInfo
  env.createContainer
  env.mount
  openBoth env "Cannot open source disk" .diskAccessDenied "Cannot open virtual disk for writing"
  return diskSize

def virtualVerdict (diskSize : UInt64) (last : CopyEnd) : Result Unit :=
  if last.writeError = true then .error captureFailed
  else if last.totalCopied < diskSize then
    .error (.fromCode .diskReadError "Capture incomplete — read error on source disk")
  else .ok ()

def rawSetup (diskInfo : Result UInt64) : Result UInt64 := do
  let diskSize ← diskInfo
  openBoth env "Cannot open source disk" .fileCreateFailed "Cannot create output file"
  return diskSize

/-- `CREATE_ALWAYS`: once the output file is open nothing of what it held is left, even
where the capture fails after that. -/
def createdOutput (diskInfo : Result UInt64) (target : FileContent) : FileContent :=
  if diskInfo.isOk = true ∧ env.openSource = none ∧ env.openTarget = none then .empty else target

def rawVerdict (_diskSize : UInt64) (last : CopyEnd) : Result Unit :=
  if last.writeError = true then .error captureFailed else .ok ()

/-- Every format but the two virtual ones is captured as it stands on the disk. -/
def captureFromDisk (fuel : Nat) (diskInfo : Result UInt64) (format : VirtualDiskFormat)
    (target : FileContent) : CopyResult :=
  if format = .vhd ∨ format = .vhdx then
    runCopy env source fuel (virtualSetup env diskInfo) captureChunk virtualVerdict target
  else runCopy env source fuel (rawSetup env diskInfo) captureChunk rawVerdict (createdOutput env diskInfo target)

/-- The size of the source as a file; a mounted image has none, and its length as a disk
is asked for. -/
def flashSetup (format : VirtualDiskFormat) (fileSize diskLength : UInt64) : Result UInt64 := do
  if format = VirtualDiskFormat.vhd ∨ format = VirtualDiskFormat.vhdx then env.mount else pure ()
  openBoth env "Cannot open image for reading" .diskAccessDenied "Cannot open target disk"
  return if fileSize = 0 then diskLength else fileSize

def flashVerdict (_totalBytes : UInt64) (last : CopyEnd) : Result Unit :=
  if last.writeError = true then .error (.fromCode .diskWriteError "Write failed after 3 retry attempts")
  else .ok ()

def flashToDisk (fuel : Nat) (format : VirtualDiskFormat) (fileSize diskLength : UInt64)
    (target : FileContent) : CopyResult :=
  runCopy env source fuel (flashSetup env format fileSize diskLength) flashChunk flashVerdict target

end VirtualDisk
end SetecWizard.Core
