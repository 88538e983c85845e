import SetecWizard.Core.ByteOrder
import Mathlib.Data.List.Sort
import Mathlib.Data.List.Dedup
import Mathlib.Data.Rat.Defs
import Mathlib.Algebra.Order.Ring.Rat
import SetecWizard.Core.RawDiskHandle

/-! The counterfeit check of SdCardAnalyzer. A card maps the sectors it reports to
physical cells; what Windows answers to each request is the host. Fractions are exact
rationals. Progress, volume locking and the text of the summary are left out.
-/
namespace SetecWizard.Core
open SetecWizard.Library

structure SdCardIdentity where
  vendorId : String
  manufacturerId : UInt8 := 0
  cidValid : Bool := false
deriving DecidableEq

inductive CounterfeitVerdict where
  | genuine
  | likelySpoofed
  | suspicious
  | testFailed
  | untested
deriving DecidableEq

structure CounterfeitResult where
  verdict : CounterfeitVerdict := .untested
  reportedCapacityBytes : Nat := 0
  verifiedCapacityBytes : Nat := 0
  firstBadOffsetBytes : Nat := 0
  probeCount : Nat := 0
  failCount : Nat := 0
  failPercent : Rat := 0
  manufacturerName : String := ""
  unknownManufacturer : Bool := false
  suspiciousVendorString : Bool := false
deriving DecidableEq

/-- A sector with no cell behind it forgets what is written and reads as filler. -/
structure SdCard where
  cell : Nat → Option Nat
  content : Nat → List UInt8
  filler : Nat → List UInt8

/-- Which requests fail, by the offset they are for. -/
structure SdHost where
  getDiskInfo : Result (Nat × Nat)
  queryIdentity : Option SdCardIdentity := none
  isWriteProtected : Bool := false
  opens : Bool := true
  reopens : Bool := true
  saveFails : Nat → Bool := fun _ => false
  signFails : Nat → Bool := fun _ => false
  verifyFails : Nat → Bool := fun _ => false
  restoreFails : Nat → Bool := fun _ => false

namespace SdCard

def read (card : SdCard) (sector : Nat) : List UInt8 :=
  match card.cell sector with
  | some c => card.content c
  | none => card.filler sector

def write (card : SdCard) (sector : Nat) (data : List UInt8) : SdCard :=
  match card.cell sector with
  | some c => { card with content := Function.update card.content c data }
  | none => card

end SdCard

namespace SdCardAnalyzer

def kManufacturers : List (UInt8 × String) :=
  [(0x01,"Panasonic"),(0x02,"Toshiba / Kingston"),(0x03,"SanDisk"),(0x06,"Ritek"),
    (0x09,"ATP Electronics"),(0x11,"Verbatim"),(0x12,"Dana Technology"),(0x13,"Apricorn"),
    (0x1B,"Samsung"),(0x1D,"AData"),(0x27,"Phison"),(0x28,"Lexar Media"),(0x30,"Silicon Power"),
    (0x31,"Silicon Power"),(0x33,"STMicroelectronics"),(0x37,"Kingston"),(0x38,"ISSI"),
    (0x39,"Intenso"),(0x3E,"Netlist"),(0x41,"Kingston"),(0x43,"Micron/Crucial"),
    (0x45,"Team Group"),(0x46,"Sony"),(0x48,"Hynix"),(0x49,"Lexar"),(0x4E,"Transcend"),
    (0x51,"Qimonda"),(0x52,"Hynix"),(0x56,"Unknown (likely clone)"),(0x64,"Transcend"),
    (0x65,"Kingston"),(0x6F,"GreenHouse"),(0x70,"Pny Technologies"),(0x73,"GS Nanotech"),
    (0x74,"Transcend"),(0x76,"Patriot"),(0x7F,"Unknown (likely clone)"),(0x82,"Sony"),
    (0x89,"Unknown (likely clone)"),(0xAD,"Hynix"),(0xCE,"Samsung")]

def manufacturerName (mid : UInt8) : String := (kManufacturers.lookup mid).getD "Unknown"

/-- "SPWS" and the bytes FA 4B DE AD. -/
def signatureMagic : List UInt8 := [0x53,0x50,0x57,0x53,0xFA,0x4B,0xDE,0xAD]

def pattern : Nat → UInt64 → List UInt8
  | 0,_ => []
  | count + 1,seed =>
    let next := seed * 6364136223846793005 + 1442695040888963407
    (next >>> 56).toUInt8 :: pattern count next

def makeSignature (sectorSize : Nat) (offsetBytes diskSerial : UInt64) : List UInt8 :=
  signatureMagic ++ le64 offsetBytes ++ le64 diskSerial
    ++ pattern (sectorSize - 24) (offsetBytes ^^^ (diskSerial <<< 13) ^^^ 0xDEADBEEFCAFEBABE)

/-- In thousandths. -/
def nearEndFracs : List Nat := [990,980,970,950,930,900,850,800]

def midFracs : List Nat := [750,500,625,875,250,125]

/-- The offset for one fraction of the sectors, unless it is 0 or too near the end. The fraction is exact here, and a
`double` in the source: from about 2^46 sectors on the two may differ. -/
def fracOffset (reportedCapacityBytes sectorSize frac : Nat) : Option Nat :=
  let totalSectors := reportedCapacityBytes / sectorSize
  let off := totalSectors * frac / 1000 * sectorSize
  let aligned := off / sectorSize * sectorSize
  if 0 < aligned ∧ aligned + sectorSize ≤ reportedCapacityBytes then some aligned else none

def probeOffsets (reportedCapacityBytes sectorSize : Nat) : List Nat :=
  (((nearEndFracs ++ midFracs).filterMap (fracOffset reportedCapacityBytes sectorSize)).insertionSort
    (· ≤ ·)).dedup

def probeOffset (host : SdHost) (card : SdCard) (offsetBytes sectorSize : Nat) (diskSerial : UInt64) : Bool :=
  let aligned := offsetBytes / sectorSize * sectorSize
  let expected := makeSignature sectorSize (UInt64.ofNat aligned) diskSerial
  !host.verifyFails aligned && expected == card.read (aligned / sectorSize)

/-- What is kept of a probe between the phases. -/
structure Probe where
  offset : Nat
  originalData : List UInt8
  writeOk : Bool
deriving DecidableEq

/-- A failed read leaves the zeros of the fresh buffer. -/
def saveAndSign (host : SdHost) (sectorSize : Nat) (diskSerial : UInt64) (before : SdCard × List Probe)
    (offset : Nat) : SdCard × List Probe :=
  let original :=
    if host.saveFails offset then List.replicate sectorSize 0 else before.1.read (offset / sectorSize)
  let sig := makeSignature sectorSize (UInt64.ofNat offset) diskSerial
  (if host.signFails offset then before.1 else before.1.write (offset / sectorSize) sig,
    before.2 ++ [{ offset := offset, originalData := original, writeOk := !host.signFails offset }])

def verify (host : SdHost) (card : SdCard) (sectorSize : Nat) (diskSerial : UInt64)
    (result : CounterfeitResult) (probe : Probe) : CounterfeitResult :=
  if probe.writeOk && probeOffset host card probe.offset sectorSize diskSerial then result
  else
    { result with
      failCount := result.failCount + 1,
      firstBadOffsetBytes :=
        if result.firstBadOffsetBytes = 0 then probe.offset else result.firstBadOffsetBytes,
      verifiedCapacityBytes :=
        if probe.offset < result.verifiedCapacityBytes then probe.offset else result.verifiedCapacityBytes }

def restore (host : SdHost) (sectorSize : Nat) (card : SdCard) (probe : Probe) : SdCard :=
  if host.restoreFails probe.offset then card else card.write (probe.offset / sectorSize) probe.originalData

def identified (result : CounterfeitResult) (id : SdCardIdentity) : CounterfeitResult :=
  let name := manufacturerName id.manufacturerId
  let vendorLow := id.vendorId.map Char.toLower
  { result with
    manufacturerName := name,
    unknownManufacturer := id.manufacturerId = 0 ∨ ¬ id.cidValid ∨ name = "Unknown",
    suspiciousVendorString := vendorLow = "generic" ∨ vendorLow = "storage device" ∨ vendorLow = "sd" }

def judged (result : CounterfeitResult) : CounterfeitResult :=
  let failPercent : Rat :=
    if 0 < result.probeCount then (result.failCount : Rat) / result.probeCount * 100 else 0
  { result with
    failPercent := failPercent,
    verdict := if result.failCount = 0 then .genuine
      else if 25 ≤ failPercent then .likelySpoofed else .suspicious }

/-- Probing of an opened card: all signatures are written, all are read back, and all
saved sectors are written back. -/
def probed (host : SdHost) (diskId : UInt64) (card : SdCard) (sectorSize : Nat) (result : CounterfeitResult) :
    CounterfeitResult × SdCard :=
  let offsets := probeOffsets result.reportedCapacityBytes sectorSize
  let diskSerial := diskId ^^^ 0xABCD1234EF567890
  let counted := { result with
    probeCount := offsets.length, verifiedCapacityBytes := result.reportedCapacityBytes }
  let (signed,probes) := offsets.foldl (saveAndSign host sectorSize diskSerial) (card,[])
  if ¬ host.reopens then ({ counted with verdict := .testFailed },signed)
  else
    (judged (probes.foldl (verify host signed sectorSize diskSerial) counted),
      probes.foldl (restore host sectorSize) signed)

def checkCounterfeit (host : SdHost) (diskId : UInt64) (card : SdCard) : Result CounterfeitResult × SdCard :=
  match host.getDiskInfo with
  | .error e => (.error e,card)
  | .ok (sizeBytes,diSectorSize) =>
    let result : CounterfeitResult := { reportedCapacityBytes := sizeBytes }
    if sizeBytes = 0 then (.ok { result with verdict := .testFailed },card)
    else
      let known := match host.queryIdentity with
        | some id => identified result id
        | none => result
      if host.isWriteProtected then (.ok { known with verdict := .testFailed },card)
      else if ¬ host.opens then (.ok { known with verdict := .testFailed },card)
      else
        let sectorSize := if 0 < diSectorSize then diSectorSize else 512
        let (finished,after) := probed host diskId card sectorSize known
        (.ok finished,after)

end SdCardAnalyzer

/-! The surface scan of SdCardAnalyzer. All reads go through one handle, whose position moves
on by the bytes that were transferred. What a call of `ReadFile` does, how long it takes and
when the user cancels is the outside world. Progress is left out.
-/

/-- A call of `ReadFile` is known by its number, the position of the handle and the bytes asked
for. It fails or transfers some of them. -/
structure SurfaceHost where
  getDiskInfo : Result (Nat × Nat)
  createFile : Option UInt32 := none
  readFile : Nat → Nat → Nat → Option Nat := fun _ _ length => some length
  slow : Nat → Bool := fun _ => false
  canceled : Nat → Bool := fun _ => false

structure SdHealthResult where
  totalSectors : Nat := 0
  sectorsScanned : Nat := 0
  badSectors : Nat := 0
  slowSectors : Nat := 0
  complete : Bool := false
  summary : String := ""
deriving DecidableEq

/-- One call of `ReadFile`: the sector and the number of sectors it is meant for, the position
the handle had, the bytes asked for, and whether all of them came. -/
structure SurfaceRead where
  sec : Nat
  toRead : Nat
  position : Nat
  readBytes : Nat
  ok : Bool
deriving DecidableEq

structure SurfaceRun where
  position : Nat := 0
  reads : List SurfaceRead := []
  result : SdHealthResult := {}
deriving DecidableEq

namespace SdCardAnalyzer

def kSectorsPerRead : Nat := 64

def bufSize : Nat := kSectorsPerRead * 512

variable (host : SurfaceHost)

def transferred (call position readBytes : Nat) : Nat :=
  min ((host.readFile call position readBytes).getD 0) readBytes

def readOk (call position readBytes : Nat) : Bool :=
  (host.readFile call position readBytes).isSome && transferred host call position readBytes == readBytes

def surfacePass (sectorSize sec : Nat) (run : SurfaceRun) : SurfaceRun :=
  let toRead := min kSectorsPerRead (run.result.totalSectors - sec)
  let readBytes := toRead * sectorSize
  let call := run.reads.length
  let ok := readOk host call run.position readBytes
  { position := run.position + transferred host call run.position readBytes
    reads := run.reads ++ [⟨sec,toRead,run.position,readBytes,ok⟩]
    result := { run.result with
      badSectors := if ok then run.result.badSectors else run.result.badSectors + toRead
      slowSectors := if ok ∧ host.slow call then run.result.slowSectors + toRead else run.result.slowSectors
      sectorsScanned := run.result.sectorsScanned + toRead } }

def surfaceLoop (sectorSize sec : Nat) (run : SurfaceRun) : SurfaceRun :=
  if run.result.totalSectors ≤ sec then run
  else if host.canceled sec then run
  else surfaceLoop sectorSize (sec + kSectorsPerRead) (surfacePass host sectorSize sec run)
termination_by run.result.totalSectors - sec
decreasing_by
  simp only [surfacePass,kSectorsPerRead]
  omega

/-- The result, and the calls of `ReadFile` in order. -/
def surfaceScan : Result (SdHealthResult × List SurfaceRead) :=
  match host.getDiskInfo with
  | .error e => .error e
  | .ok (sizeBytes,diSectorSize) =>
    let sectorSize := if 0 < diSectorSize then diSectorSize else 512
    match host.createFile with
    | some lastErr => .error (.fromWin32 .diskAccessDenied lastErr "Cannot open disk for surface scan")
    | none =>
      let run := surfaceLoop host sectorSize 0 { result := { totalSectors := sizeBytes / sectorSize } }
      let result := { run.result with
        complete := !host.canceled (run.reads.length * kSectorsPerRead)
        summary := "Scanned " ++ toString run.result.sectorsScanned ++ " sectors. Bad: " ++
          toString run.result.badSectors ++ ". Slow (>500ms): " ++ toString run.result.slowSectors ++ "." }
      .ok (result,run.reads)

end SdCardAnalyzer

end SetecWizard.Core
