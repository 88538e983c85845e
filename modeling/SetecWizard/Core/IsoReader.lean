import SetecWizard.Core.ByteOrder
import SetecWizard.Core.RawDiskHandle
import SetecWizard.Library.Footprint

/-! Reading files out of an ISO 9660 image: the volume descriptors, the records of a directory
and the way along a path. The image is a store of bytes of some size; what Windows makes of a
call on it is a parameter. Names are bytes, as in a `std::string`.
-/
namespace SetecWizard.Core
open SetecWizard.Library

/-- By default every call works and transfers what there is. -/
structure IsoImage where
  size : Nat
  byte : Nat → UInt8
  createFile : Option UInt32 := none
  setFilePointer : Nat → Option UInt32 := fun _ => none
  readFile : Nat → Nat → Except UInt32 Nat := fun _ length => .ok length

structure IsoFileEntry where
  name : List UInt8
  lba : UInt32 := 0
  size : UInt32 := 0
  isDirectory : Bool := false
deriving DecidableEq

/-- The record of the root directory, as the primary volume descriptor has it. -/
structure Iso9660VolumeDescriptor where
  rootDirRecord : List UInt8
deriving DecidableEq

namespace IsoFlasher

def ISO_SECTOR_SIZE : Nat := 2048
def ISO_PVD_LBA : Nat := 16
def ISO_VD_PRIMARY : UInt8 := 1
def ISO_VD_TERMINATOR : UInt8 := 255

def sizeofDirRecord : Nat := 33

/-- "CD001" -/
def standardId : List UInt8 := [0x43,0x44,0x30,0x30,0x31]

def SEMICOLON : UInt8 := 0x3B
def DOT : UInt8 := 0x2E
def SLASH : UInt8 := 0x2F

def readAt (image : IsoImage) (code : ErrorCode) (seekFailed readFailed : String) (offset length : Nat) :
    Result (List UInt8) :=
  match image.setFilePointer offset with
  | some lastErr => .error (makeWin32Error code seekFailed lastErr)
  | none =>
    match image.readFile offset length with
    | .error lastErr => .error (makeWin32Error code readFailed lastErr)
    | .ok moved => .ok (window image.byte offset (min (min moved length) (image.size - offset)))

section Records

/-- The name of a file without its version and without the dot behind a name that has no
extension. -/
def stripped (rawName : List UInt8) : List UInt8 :=
  let name := rawName.takeWhile (· ≠ SEMICOLON)
  if name.getLast? = some DOT then name.dropLast else name

def entryOf (dirData : List UInt8) (pos : Nat) : IsoFileEntry where
  name := stripped (slice dirData (pos + 33) (dirData.getD (pos + 32) 0).toNat)
  lba := readLE32 dirData (pos + 2)
  size := readLE32 dirData (pos + 10)
  isDirectory := dirData.getD (pos + 25) 0 &&& 0x02 ≠ 0

/-- Whether the identifier of a record is one of the bytes 00 and 01 alone. -/
def isDotEntry (dirData : List UInt8) (pos : Nat) : Bool :=
  dirData.getD (pos + 32) 0 == 1 && (dirData.getD (pos + 33) 0 == 0x00 || dirData.getD (pos + 33) 0 == 0x01)

/-- The records of a directory from a position on, and the ranges of the buffer that are looked
at. The buffer has the size of the extent; only its first `bytesRead` bytes were read. -/
def parseRecords (dirData : List UInt8) (bytesRead pos : Nat) : List Access × List IsoFileEntry :=
  if bytesRead < pos + sizeofDirRecord then ([],[])
  else
    let header : Access := ⟨bytesRead,pos,sizeofDirRecord⟩
    let recordLength := (dirData.getD pos 0).toNat
    if recordLength = 0 then
      let nextSector := (pos / ISO_SECTOR_SIZE + 1) * ISO_SECTOR_SIZE
      if bytesRead ≤ nextSector then ([header],[])
      else
        let (accesses,entries) := parseRecords dirData bytesRead nextSector
        (header :: accesses,entries)
    else
      let (accesses,entries) := parseRecords dirData bytesRead (pos + recordLength)
      if recordLength < sizeofDirRecord then (header :: accesses,entries)
      else
        let identifier : Access := ⟨bytesRead,pos + 33,(dirData.getD (pos + 32) 0).toNat⟩
        if isDotEntry dirData pos then (header :: identifier :: accesses,entries)
        else (header :: identifier :: accesses,entryOf dirData pos :: entries)
termination_by bytesRead - pos
decreasing_by
  · have ahead : pos < (pos / ISO_SECTOR_SIZE + 1) * ISO_SECTOR_SIZE := by
      simp only [ISO_SECTOR_SIZE]
      omega
    simp only [sizeofDirRecord] at *
    omega
  · simp only [sizeofDirRecord] at *
    omega

end Records

variable (image : IsoImage)

def scanDescriptors : Nat → Nat → Result Iso9660VolumeDescriptor
  | 0,_ => .error (.fromCode .isoParseError "Exceeded volume descriptor scan limit")
  | left + 1,currentLba => do
    let sector ← match image.setFilePointer (currentLba * ISO_SECTOR_SIZE) with
      | some lastErr => .error (makeWin32Error .isoParseError "Failed to seek to volume descriptor" lastErr)
      | none =>
        match image.readFile (currentLba * ISO_SECTOR_SIZE) ISO_SECTOR_SIZE with
        | .error _ => .error (.fromCode .isoParseError "Failed to read volume descriptor sector")
        | .ok moved =>
          .ok (window image.byte (currentLba * ISO_SECTOR_SIZE)
            (min (min moved ISO_SECTOR_SIZE) (image.size - currentLba * ISO_SECTOR_SIZE)))
    refuse (sector.length < ISO_SECTOR_SIZE) .isoParseError "Failed to read volume descriptor sector"
    refuse (slice sector 1 5 ≠ standardId) .isoParseError "Invalid ISO9660: missing CD001 identifier"
    if sector.getD 0 0 = ISO_VD_PRIMARY then return { rootDirRecord := slice sector 156 34 }
    refuse (sector.getD 0 0 = ISO_VD_TERMINATOR) .isoParseError "No Primary Volume Descriptor found in ISO"
    scanDescriptors left (currentLba + 1)

def readPVD : Result Iso9660VolumeDescriptor := scanDescriptors image 32 ISO_PVD_LBA

def readExtent (extentLba extentSize : UInt32) : Result (List UInt8) :=
  readAt image .isoParseError "Failed to seek to directory extent" "Failed to read directory extent"
    (extentLba.toNat * ISO_SECTOR_SIZE) extentSize.toNat

/-- The buffer for the extent, zeros at first, after what arrived of it was read. -/
def extentBuffer (extentSize : UInt32) (arrived : List UInt8) : List UInt8 :=
  arrived ++ List.replicate (extentSize.toNat - arrived.length) 0

def parseDirectoryExtent (extentLba extentSize : UInt32) : Result (List Access × List IsoFileEntry) := do
  let arrived ← readExtent image extentLba extentSize
  return parseRecords (extentBuffer extentSize arrived) arrived.length 0

section Lookup

/-- `std::toupper` of the C locale. -/
def toupper (ch : UInt8) : UInt8 := if 0x61 ≤ ch ∧ ch ≤ 0x7A then ch - 0x20 else ch

/-- The parts of a path between slashes, without empty ones. -/
def components (path : List UInt8) : List (List UInt8) :=
  let pathCopy := (path.dropWhile (· = SLASH)).reverse.dropWhile (· = SLASH)
  (pathCopy.reverse.splitOn SLASH).filter (· ≠ [])

def notFound (path : String) : ErrorInfo := .fromCode .fileNotFound ("File not found in ISO: " ++ path)

def text (name : List UInt8) : String := String.ofList (name.map fun b => Char.ofNat b.toNat)

def walkTree (path : String) : List (List UInt8) → UInt32 → UInt32 → Result IsoFileEntry
  | [],_,_ => .error (notFound path)
  | component :: rest,currentLba,currentSize => do
    let (_,entries) ← parseDirectoryExtent image currentLba currentSize
    match entries.find? (fun entry => entry.name.map toupper == component.map toupper) with
    | none => .error (notFound path)
    | some entry =>
      if rest = [] then return entry
      else if ¬ entry.isDirectory then
        .error (.fromCode .isoParseError ("Path component is not a directory: " ++ text component))
      else walkTree path rest entry.lba entry.size

def findFileInIso (path : List UInt8) : Result IsoFileEntry := do
  let pvd ← readPVD image
  refuse (components path = []) .invalidArgument "Empty file path"
  walkTree image (text path) (components path) (readLE32 pvd.rootDirRecord 2) (readLE32 pvd.rootDirRecord 10)

end Lookup

def readIsoFile (filePath : List UInt8) : Result (List UInt8) :=
  match image.createFile with
  | some lastErr => .error (makeWin32Error .fileNotFound "Failed to open ISO file" lastErr)
  | none => do
    let entry ← findFileInIso image filePath
    readAt image .imageReadError "Failed to seek to file data in ISO" "Failed to read file data from ISO"
      (entry.lba.toNat * ISO_SECTOR_SIZE) entry.size.toNat

end IsoFlasher

end SetecWizard.Core
