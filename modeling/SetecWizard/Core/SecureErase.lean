import SetecWizard.Core.RawDiskHandle

/-! Erasing a disk or a range of its sectors: the passes of each method, a pass with its
fallback to single sectors, and the verification of the last pass. The loops take a
bound on their rounds, and a loop that has not ended by then gives nothing.
-/
namespace SetecWizard.Core

inductive EraseMethod where
  | zeroFill | doD3Pass | doD7Pass | gutmann | randomFill | customPattern
deriving DecidableEq

structure EraseConfig where
  method : EraseMethod := .zeroFill
  passCount : Int := 1
  verify : Bool := true
  customPattern : List UInt8 := []
  customPatternPasses : Int := 1

/-- What the outside world answers during one erasure. The calls of a pass are answered
by its number, those for a whole chunk apart from the retries of its sectors, and the
buffers of random data by the pass and how many there were before. -/
structure EraseEnv where
  device : Win32 := .working
  lockAllVolumes : Result Unit := .ok ()
  chunk : Nat → Win32 := fun _ => .working
  retry : Nat → Win32 := fun _ => .working
  random : Nat → Nat → Option (List UInt8) := fun _ _ => none
  verification : Win32 := .working
  cancelPass : Nat → Bool := fun _ => false
  cancelWrite : Nat → UInt64 → Bool := fun _ _ => false
  cancelVerify : UInt64 → Bool := fun _ => false

namespace SecureErase

/-- The patterns of Gutmann's passes; an empty one stands for random data. -/
def GUTMANN_PASSES : List (List UInt8) :=
  [[],[],[],[],
    [0x55,0x55,0x55],[0xAA,0xAA,0xAA],[0x92,0x49,0x24],[0x49,0x24,0x92],[0x24,0x92,0x49],
    [0x00,0x00,0x00],[0x11,0x11,0x11],[0x22,0x22,0x22],[0x33,0x33,0x33],[0x44,0x44,0x44],
    [0x55,0x55,0x55],[0x66,0x66,0x66],[0x77,0x77,0x77],[0x88,0x88,0x88],[0x99,0x99,0x99],
    [0xAA,0xAA,0xAA],[0xBB,0xBB,0xBB],[0xCC,0xCC,0xCC],[0xDD,0xDD,0xDD],[0xEE,0xEE,0xEE],
    [0xFF,0xFF,0xFF],[0x92,0x49,0x24],[0x49,0x24,0x92],[0x24,0x92,0x49],[0x6D,0xB6,0xDB],
    [0xB6,0xDB,0x6D],[0xDB,0x6D,0xB6],
    [],[],[],[]]

def buildPassList (config : EraseConfig) : List (List UInt8) :=
  match config.method with
  | .zeroFill => [[0x00]]
  | .doD3Pass => [[0x00],[0xFF],[]]
  | .doD7Pass => [[0x00],[0xFF],[],[0x00],[0x00],[0xFF],[]]
  | .gutmann => GUTMANN_PASSES
  | .randomFill => List.replicate (max config.passCount 1).toNat []
  | .customPattern => List.replicate (max config.customPatternPasses 1).toNat config.customPattern

def BUFFER_SIZE : UInt32 := 64 * 1024

def RANDOM_REFRESH_INTERVAL : UInt32 := 256

def fillPattern (bufferSize : Nat) (pattern : List UInt8) : List UInt8 :=
  match pattern with
  | [] => List.replicate bufferSize 0
  | [b] => List.replicate bufferSize b
  | pattern => (List.range bufferSize).map (fun i => pattern.getD (i % pattern.length) 0)

def fillRandom (answer : Option (List UInt8)) : Result (List UInt8) :=
  match answer with
  | some buffer => .ok buffer
  | none => .error (.fromCode .unknown "BCryptGenRandom failed")

def bufferSectors (sectorSize : UInt32) : UInt64 := (BUFFER_SIZE / sectorSize).toUInt64

variable (env : EraseEnv) (mode : DiskAccessMode) (sectorSize : UInt32)

/-- One chunk. When it fails its sectors are written one by one, each with the start of
the buffer, and a sector that fails as well is passed over. -/
def writeChunk (pass : Nat) (buffer : List UInt8) (currentLba thisChunk : UInt64) (disk : Disk) : Disk :=
  match RawDiskHandle.writeSectors (env.chunk pass) disk mode currentLba buffer thisChunk sectorSize with
  | (.ok _,disk) => disk
  | (.error _,disk) =>
    (List.range thisChunk.toNat).foldl (fun disk s =>
      (RawDiskHandle.writeSectors (env.retry pass) disk mode (currentLba + UInt64.ofNat s) buffer 1 sectorSize).2) disk

/-- The loop of a pass. `refreshes` counts the buffers of random data it had so far. -/
def writeLoop (pass : Nat) (isRandom : Bool) (endLba : UInt64) :
    Nat → UInt64 → UInt32 → Nat → List UInt8 → Disk → Option (Mutation Disk)
  | 0,_,_,_,_,_ => none
  | fuel + 1,currentLba,counter,refreshes,buffer,disk =>
    if endLba ≤ currentLba then some (.ok (),disk)
    else if env.cancelWrite pass currentLba then some (.error (.fromCode .operationCanceled "Erase canceled"),disk)
    else
      let remaining := endLba - currentLba
      let thisChunk := min (bufferSectors sectorSize) remaining
      let counter := if isRandom then counter + 1 else counter
      if isRandom ∧ RANDOM_REFRESH_INTERVAL ≤ counter then
        match fillRandom (env.random pass refreshes) with
        | .error e => some (.error e,disk)
        | .ok buffer =>
          writeLoop pass isRandom endLba fuel (currentLba + thisChunk) 0 (refreshes + 1) buffer
            (writeChunk env mode sectorSize pass buffer currentLba thisChunk disk)
      else writeLoop pass isRandom endLba fuel (currentLba + thisChunk) counter refreshes buffer
        (writeChunk env mode sectorSize pass buffer currentLba thisChunk disk)

def writePass (fuel : Nat) (startLba sectorCount : UInt64) (pass : Nat) (pattern : List UInt8) (disk : Disk) :
    Option (Mutation Disk) :=
  let filled := if pattern = [] then fillRandom (env.random pass 0) else .ok (fillPattern BUFFER_SIZE.toNat pattern)
  match filled with
  | .error e => some (.error e,disk)
  | .ok buffer =>
    writeLoop env mode sectorSize pass (pattern = []) (startLba + sectorCount) fuel startLba 0 1 buffer disk

/-- The loop of the verification. A chunk that cannot be read is passed over, and of one
that falls short what was read is compared. -/
def verifyLoop (pattern : List UInt8) (endLba : UInt64) (disk : Disk) : Nat → UInt64 → Option (Result Unit)
  | 0,_ => none
  | fuel + 1,currentLba =>
    if endLba ≤ currentLba then some (.ok ())
    else if env.cancelVerify currentLba then some (.error (.fromCode .operationCanceled "Verify canceled"))
    else
      let remaining := endLba - currentLba
      let thisChunk := min (bufferSectors sectorSize) remaining
      match RawDiskHandle.readSectors env.verification disk currentLba thisChunk sectorSize with
      | .error _ => verifyLoop pattern endLba disk fuel (currentLba + thisChunk)
      | .ok readData =>
        let compareSize := min (thisChunk.toUInt32 * sectorSize).toNat readData.length
        if pattern ≠ [] ∧ readData.take compareSize ≠ (fillPattern BUFFER_SIZE.toNat pattern).take compareSize then
          some (.error (.fromCode .diskWriteError "Verification failed: data mismatch after erase"))
        else verifyLoop pattern endLba disk fuel (currentLba + thisChunk)

def verifyPass (fuel : Nat) (startLba sectorCount : UInt64) (pattern : List UInt8) (disk : Disk) :
    Option (Result Unit) :=
  verifyLoop env sectorSize pattern (startLba + sectorCount) disk fuel startLba

/-- The passes in order; the outcome of the flush behind each is not looked at. -/
def passLoop (fuel : Nat) (startLba sectorCount : UInt64) : List (List UInt8) → Nat → Disk → Option (Mutation Disk)
  | [],_,disk => some (.ok (),disk)
  | pattern :: rest,pass,disk =>
    if env.cancelPass pass then some (.error (.fromCode .operationCanceled ""),disk)
    else
      match writePass env mode sectorSize fuel startLba sectorCount pass pattern disk with
      | some (.ok _,disk) => passLoop fuel startLba sectorCount rest (pass + 1) disk
      | other => other

def eraseSectors (fuel : Nat) (range : UInt64 → UInt64 × UInt64) (config : EraseConfig) (disk : Disk) :
    Option (Mutation Disk) :=
  match RawDiskHandle.getGeometry env.device disk with
  | .error e => some (.error e,disk)
  | .ok totalBytes =>
    if sectorSize = 0 then some (.error (.fromCode .invalidArgument "Disk reports 0 bytes/sector"),disk)
    else
      let (startLba,sectorCount) := range totalBytes
      match env.lockAllVolumes with
      | .error e => some (.error e,disk)
      | .ok _ =>
        let passes := buildPassList config
        match passLoop env mode sectorSize fuel startLba sectorCount passes 0 disk with
        | some (.ok _,disk) =>
          if config.verify ∧ passes ≠ [] then
            (verifyPass env sectorSize fuel startLba sectorCount (passes.getLastD []) disk).map (·,disk)
          else some (.ok (),disk)
        | other => other

def eraseDisk (fuel : Nat) (config : EraseConfig) (disk : Disk) : Option (Mutation Disk) :=
  eraseSectors env mode sectorSize fuel (fun totalBytes => (0,totalBytes / sectorSize.toUInt64)) config disk

def eraseRange (fuel : Nat) (startLba sectorCount : UInt64) (config : EraseConfig) (disk : Disk) :
    Option (Mutation Disk) :=
  eraseSectors env mode sectorSize fuel (fun _ => (startLba,sectorCount)) config disk

end SecureErase
end SetecWizard.Core
