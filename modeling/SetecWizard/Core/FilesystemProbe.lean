import SetecWizard.Core.PartitionEntry
import SetecWizard.Core.FormatFat32
import SetecWizard.Library.Footprint

/-! What the probes of FilesystemDetector are made of. A probe leaves a trace of the bytes it
touches, of the amounts it shifts by and of the products it reports; a string is the list of its
bytes.
-/
namespace SetecWizard.Core.FilesystemDetector
open SetecWizard.Library Traced FormatEngine

/-- The types that a probe reports. -/
inductive FilesystemType where
  | unknown
  | ntfs | fat32 | fat16 | fat12 | exFat | reFs
  | ext2 | ext3 | ext4 | btrfs | xfs | zfs | jfs | reiserFs
  | hfsPlus | apfs | hfs
  | hpfs | ufs | minix | bfsBeOs | qnx4 | udf | iso9660 | romFs | cramFs | squashFs
  | f2fs | jffs2 | nilfs2
  | fatx | stfs | gdfx | ps2mc
  | vhd | vhdx | vmdk | qcow2 | vdi
  | rvz | wbfs | nrg
  | swapLinux
deriving DecidableEq

structure FilesystemDetection where
  type : FilesystemType := .unknown
  label : List UInt8 := []
  uuid : List UInt8 := []
  blockSize : UInt32 := 0
  description : String := ""
deriving DecidableEq

/-- What may go wrong in a probe: bytes outside the buffer, a shift by as much as the operand has
bits, a product that does not fit into its type. -/
inductive Operation where
  | access (range : Access)
  | shift (width amount : Nat)
  | product (limit value : Nat)

def Operation.Defined : Operation → Prop
  | .access range => range.Inside
  | .shift width amount => amount < width
  | .product limit value => value < limit

abbrev Probe (α : Type) := Traced Operation α

/-- What a probe reports; nothing when it does not recognise the volume. -/
abbrev Detector := Probe (Option FilesystemDetection)

section Helpers

variable (data : List UInt8) (off : Nat)

/-- A value made of so many bytes. -/
def touch {α : Type} (length : Nat) (value : α) : Probe α := tell (.access ⟨data.length,off,length⟩) value

def byteAt : Probe UInt8 := touch data off 1 (data.getD off 0)
def le16At : Probe UInt16 := touch data off 2 (readLE16 data off)
def le32At : Probe UInt32 := touch data off 4 (readLE32 data off)
def le64At : Probe UInt64 := touch data off 8 (readLE64 data off)
def be16At : Probe UInt16 := touch data off 2 (readBE16 data off)
def be32At : Probe UInt32 := touch data off 4 (readBE32 data off)

def memEqual (magic : String) (len : Nat) : Probe Bool :=
  touch data off len (slice data off len == (asciiBytes magic).take len)

/-- Magics compared one after the other until one is found. -/
def memEqualAny : List (String × Nat) → Probe Bool
  | [] => pure false
  | (magic,len) :: rest => do
    if ← memEqual data off magic len then return true
    memEqualAny rest

def isPowerOf2 (v : UInt32) : Bool := v != 0 && v &&& (v - 1) == 0

/-- The bytes up to a zero, which is looked at too. Spaces at the end are taken off. -/
def extractString (maxLen : Nat) : Probe (List UInt8) :=
  let scanned := (slice data off maxLen).takeWhile (· ≠ 0)
  touch data off (min maxLen (scanned.length + 1)) (scanned.reverse.dropWhile (· = 0x20)).reverse

/-- The digits of a byte as "%02x" prints them. -/
def hex (b : UInt8) : List UInt8 := [hexDigit (b >>> 4),hexDigit (b &&& 0x0F)]
where
  hexDigit (digit : UInt8) : UInt8 := if digit < 10 then 0x30 + digit else 0x57 + digit

/-- The digits of a 16-bit number as "%04X" prints them. -/
def hex4 (v : UInt32) : List UInt8 := [digit (v >>> 12),digit (v >>> 8),digit (v >>> 4),digit v]
where
  digit (v : UInt32) : UInt8 :=
    let nibble := (v &&& 0x0F).toUInt8
    if nibble < 10 then 0x30 + nibble else 0x37 + nibble

def dash : List UInt8 := [0x2D]

def formatSerial (serial : UInt32) : List UInt8 := hex4 (serial >>> 16 &&& 0xFFFF) ++ dash ++ hex4 (serial &&& 0xFFFF)

def formatUuid (uuid : List UInt8) : List UInt8 :=
  let part (from_ n : Nat) := (slice uuid from_ n).flatMap hex
  part 0 4 ++ dash ++ part 4 2 ++ dash ++ part 6 2 ++ dash ++ part 8 2 ++ dash ++ part 10 6

def uuidAt : Probe (List UInt8) := touch data off 16 (formatUuid (slice data off 16))

def shiftLeft (v amount : UInt32) : Probe UInt32 := tell (.shift 32 amount.toNat) (v <<< amount)

/-- A product of numbers below 2^16, taken as an `int`. -/
def mulInt (a b : Nat) : Probe UInt32 := tell (.product (2 ^ 31) (a * b)) (.ofNat (a * b))

def mulUInt32 (a b : UInt32) : Probe UInt32 := tell (.product (2 ^ 32) (a.toNat * b.toNat)) (a * b)

end Helpers

def safeRead (readFunc : DiskReadCallback) (offset : UInt64) (size : UInt32) : List UInt8 :=
  match readFunc offset size with
  | .error _ => []
  | .ok data => data

/-- A probe of a range of the volume that gives up when fewer bytes arrive than it needs. -/
def probeAt (readFunc : DiskReadCallback) (offset : UInt64) (size : UInt32) (least : Nat)
    (probe : List UInt8 → Detector) : Detector :=
  let data := safeRead readFunc offset size
  if data.length < least then pure none else probe data

end SetecWizard.Core.FilesystemDetector
