import SetecWizard.Core.RawDiskHandle

/-! The surface scan of a range of a disk, by reading alone or by writing a pattern and reading
it back. A chunk in which anything goes wrong is tested again sector by sector. The disk is a
device with a state of its own; times and progress are left out.
-/
namespace SetecWizard.Core

/-- `RawDiskHandle` as the scan uses it: sectors are read, and written, by their number and
their count. -/
structure SectorDevice (σ : Type) where
  sectorSize : UInt32
  readSectors : σ → UInt64 → UInt64 → Result (List UInt8)
  writeSectors : σ → UInt64 → List UInt8 → UInt64 → Mutation σ

/-- The device behind a handle. -/
def RawDiskHandle.device (os : Win32) (mode : DiskAccessMode) (sectorSize : UInt32) : SectorDevice Disk where
  sectorSize := sectorSize
  readSectors disk lba count := RawDiskHandle.readSectors os disk lba count sectorSize
  writeSectors disk lba data count := RawDiskHandle.writeSectors os disk mode lba data count sectorSize

structure BadSector where
  lba : UInt64
  readError : Bool := false
  writeError : Bool := false
  verifyError : Bool := false
deriving DecidableEq

structure SurfaceScanResults where
  totalSectorsTested : UInt64 := 0
  badSectorCount : UInt64 := 0
  badSectors : List BadSector := []
deriving DecidableEq

inductive SurfaceScanMode where
  | readOnly
  | writeVerify
deriving DecidableEq

namespace SurfaceScan

variable {σ : Type} (device : SectorDevice σ)

def chunkSectors : UInt64 := 256

def checkerboard (size : Nat) : List UInt8 :=
  (List.range size).map (fun i => if i % 2 = 0 then 0xAA else 0x55)

def writePattern : List UInt8 := checkerboard (chunkSectors.toUInt32 * device.sectorSize).toNat

/-- What a test of some sectors finds. -/
inductive Finding where
  | good
  | writeError
  | readError
  | verifyError
deriving DecidableEq

/-- The pattern is written and read back. Bytes that are missing count as a mismatch. -/
def writeVerify (lba count : UInt64) (state : σ) : Finding × σ :=
  let patternSize := (count.toUInt32 * device.sectorSize).toNat
  match device.writeSectors state lba ((writePattern device).take patternSize) count with
  | (.error _,after) => (.writeError,after)
  | (.ok _,after) =>
    match device.readSectors after lba count with
    | .error _ => (.readError,after)
    | .ok readData =>
      if readData.length < patternSize ∨ readData.take patternSize ≠ (writePattern device).take patternSize then
        (.verifyError,after)
      else (.good,after)

/-- How many bytes a read returned is not looked at. -/
def readOnly (lba count : UInt64) (state : σ) : Finding :=
  match device.readSectors state lba count with
  | .error _ => .readError
  | .ok _ => .good

def test (mode : SurfaceScanMode) (lba count : UInt64) (state : σ) : Finding × σ :=
  match mode with
  | .readOnly => (readOnly device lba count state,state)
  | .writeVerify => writeVerify device lba count state

def badSector (lba : UInt64) : Finding → Option BadSector
  | .good => none
  | .writeError => some { lba := lba,writeError := true }
  | .readError => some { lba := lba,readError := true }
  | .verifyError => some { lba := lba,verifyError := true }

def record (results : SurfaceScanResults) : Option BadSector → SurfaceScanResults
  | none => results
  | some bad => { results with
      badSectors := results.badSectors ++ [bad]
      badSectorCount := results.badSectorCount + 1 }

/-- The sectors of a chunk, one at a time. -/
def testSectors (mode : SurfaceScanMode) (currentLba : UInt64) :
    List Nat → SurfaceScanResults × σ → SurfaceScanResults × σ
  | [],before => before
  | s :: rest,(results,state) =>
    let testLba := currentLba + .ofNat s
    let (finding,after) := test device mode testLba 1 state
    testSectors mode currentLba rest (record results (badSector testLba finding),after)

def scanChunk (mode : SurfaceScanMode) (currentLba thisChunk : UInt64) (before : SurfaceScanResults × σ) :
    SurfaceScanResults × σ :=
  let (finding,state) := test device mode currentLba thisChunk before.2
  let (results,after) :=
    if finding = .good then (before.1,state)
    else testSectors device mode currentLba (List.range thisChunk.toNat) (before.1,state)
  ({ results with totalSectorsTested := results.totalSectorsTested + thisChunk },after)

theorem chunk_toNat {endLba currentLba : UInt64} (before : currentLba < endLba) :
    (min chunkSectors (endLba - currentLba)).toNat = min 256 (endLba.toNat - currentLba.toNat) ∧
      (currentLba + min chunkSectors (endLba - currentLba)).toNat =
        currentLba.toNat + min 256 (endLba.toNat - currentLba.toNat) := by
  have below := UInt64.lt_iff_toNat_lt.mp before
  have width := endLba.toNat_lt
  have chunk : (min chunkSectors (endLba - currentLba)).toNat = min 256 (endLba.toNat - currentLba.toNat) := by
    rw [UInt64.toNat_min,UInt64.toNat_sub_of_le _ _ (UInt64.le_of_lt before)]
    rfl
  refine ⟨chunk,?_⟩
  rw [UInt64.toNat_add,chunk]
  exact Nat.mod_eq_of_lt (by omega)

def scanLoop (mode : SurfaceScanMode) (canceled : UInt64 → Bool) (endLba currentLba : UInt64)
    (before : SurfaceScanResults × σ) : Result SurfaceScanResults × σ :=
  if ¬ currentLba < endLba then (.ok before.1,before.2)
  else if canceled currentLba then
    (.error (.fromCode .operationCanceled "Surface scan canceled"),before.2)
  else
    let thisChunk := min chunkSectors (endLba - currentLba)
    scanLoop mode canceled endLba (currentLba + thisChunk) (scanChunk device mode currentLba thisChunk before)
termination_by endLba.toNat - currentLba.toNat
decreasing_by
  rename_i before _
  have below := UInt64.lt_iff_toNat_lt.mp (not_not.mp before)
  rw [(chunk_toNat (not_not.mp before)).2]
  omega

def scanImpl (mode : SurfaceScanMode) (canceled : UInt64 → Bool) (startLba sectorCount : UInt64) (state : σ) :
    Result SurfaceScanResults × σ :=
  if sectorCount = 0 then (.error (.fromCode .invalidArgument "Sector count is 0"),state)
  else scanLoop device mode canceled (startLba + sectorCount) startLba ({},state)

end SurfaceScan

end SetecWizard.Core
