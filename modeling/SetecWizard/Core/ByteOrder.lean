import SetecWizard.Core.Common
import SetecWizard.Library.LittleEndian

/-! Byte-level helpers of PartitionTable.cpp: integers in either byte order, the
packed CHS triple, CRC-32 and the transcoding of partition names. A pointer into
a buffer is the buffer with an offset.
-/
namespace SetecWizard.Core
open SetecWizard.Library

def readLE16 (p : List UInt8) (off : Nat) : UInt16 :=
  (p.getD off 0).toUInt16 ||| ((p.getD (off + 1) 0).toUInt16 <<< 8)

def readLE32 (p : List UInt8) (off : Nat) : UInt32 :=
  (p.getD off 0).toUInt32 ||| ((p.getD (off + 1) 0).toUInt32 <<< 8)
    ||| ((p.getD (off + 2) 0).toUInt32 <<< 16) ||| ((p.getD (off + 3) 0).toUInt32 <<< 24)

def readLE64 (p : List UInt8) (off : Nat) : UInt64 :=
  (readLE32 p off).toUInt64 ||| ((readLE32 p (off + 4)).toUInt64 <<< 32)

def le16 (v : UInt16) : List UInt8 := [v.toUInt8,(v >>> 8).toUInt8]

def le32 (v : UInt32) : List UInt8 :=
  [v.toUInt8,(v >>> 8).toUInt8,(v >>> 16).toUInt8,(v >>> 24).toUInt8]

def le64 (v : UInt64) : List UInt8 := le32 v.toUInt32 ++ le32 (v >>> 32).toUInt32

def writeLE16 (p : List UInt8) (off : Nat) (v : UInt16) : List UInt8 := splice p off (le16 v)

def writeLE32 (p : List UInt8) (off : Nat) (v : UInt32) : List UInt8 := splice p off (le32 v)

def writeLE64 (p : List UInt8) (off : Nat) (v : UInt64) : List UInt8 := splice p off (le64 v)

def readBE16 (p : List UInt8) (off : Nat) : UInt16 :=
  ((p.getD off 0).toUInt16 <<< 8) ||| (p.getD (off + 1) 0).toUInt16

def readBE32 (p : List UInt8) (off : Nat) : UInt32 :=
  ((p.getD off 0).toUInt32 <<< 24) ||| ((p.getD (off + 1) 0).toUInt32 <<< 16)
    ||| ((p.getD (off + 2) 0).toUInt32 <<< 8) ||| (p.getD (off + 3) 0).toUInt32

def guidFromBytes (raw : List UInt8) (off : Nat) : Guid := .copy raw off 16

/-- One step of the reflected division by the polynomial 0x04C11DB7. -/
def crc32Shift (crc : UInt32) : UInt32 :=
  if crc &&& 1 = 1 then (crc >>> 1) ^^^ 0xEDB88320 else crc >>> 1

def crc32Table (i : UInt32) : UInt32 := (List.range 8).foldl (fun crc _ => crc32Shift crc) i

def crc32 (data : List UInt8) : UInt32 :=
  data.foldl (fun crc b => crc32Table ((crc ^^^ b.toUInt32) &&& 0xFF) ^^^ (crc >>> 8)) 0xFFFFFFFF
    ^^^ 0xFFFFFFFF

structure CHSAddress where
  cylinder : UInt32 := 0
  head : UInt8 := 0
  sector : UInt8 := 0
deriving DecidableEq

def decodeCHS (p : List UInt8) (off : Nat) : CHSAddress where
  head := p.getD off 0
  sector := p.getD (off + 1) 0 &&& 0x3F
  cylinder := (p.getD (off + 2) 0).toUInt32 ||| ((p.getD (off + 1) 0 &&& 0xC0).toUInt32 <<< 2)

def encodeCHS (chs : CHSAddress) : List UInt8 :=
  [chs.head,
    ((chs.sector.toUInt32 &&& (0x3F : UInt32)) ||| ((chs.cylinder >>> 2) &&& (0xC0 : UInt32))).toUInt8,
    (chs.cylinder &&& (0xFF : UInt32)).toUInt8]

def encodeCHSOverflow : List UInt8 := [0xFE,0xFF,0xFF]

def utf8Unit (ch : UInt16) : List UInt8 :=
  if ch < 0x80 then [ch.toUInt8]
  else if ch < 0x800 then [((ch >>> 6) ||| 0xC0).toUInt8,((ch &&& 0x3F) ||| 0x80).toUInt8]
  else [((ch >>> 12) ||| 0xE0).toUInt8,(((ch >>> 6) &&& 0x3F) ||| 0x80).toUInt8,
    ((ch &&& 0x3F) ||| 0x80).toUInt8]

def utf16leToUtf8 (data : List UInt16) (maxChars : Nat) : List UInt8 :=
  ((data.take maxChars).takeWhile (· ≠ 0)).flatMap utf8Unit

/-- The loop of `utf8ToUtf16le`: `room` counts the code units that may still be
written. A byte that starts no complete sequence of at most three bytes is skipped. -/
def utf8ToUtf16leLoop : List UInt8 → Nat → List UInt16
  | [],_ => []
  | _ :: _,0 => []
  | c :: rest,room + 1 =>
    if c < 0x80 then c.toUInt16 :: utf8ToUtf16leLoop rest room
    else match rest with
      | d :: e :: tail =>
        if c &&& 0xE0 = 0xC0 then
          (((c &&& 0x1F).toUInt16 <<< 6) ||| (d &&& 0x3F).toUInt16)
            :: utf8ToUtf16leLoop (e :: tail) room
        else if c &&& 0xF0 = 0xE0 then
          (((c &&& 0x0F).toUInt16 <<< 12) ||| ((d &&& 0x3F).toUInt16 <<< 6)
            ||| (e &&& 0x3F).toUInt16) :: utf8ToUtf16leLoop tail room
        else utf8ToUtf16leLoop (d :: e :: tail) (room + 1)
      | [d] =>
        if c &&& 0xE0 = 0xC0 then
          (((c &&& 0x1F).toUInt16 <<< 6) ||| (d &&& 0x3F).toUInt16) :: utf8ToUtf16leLoop [] room
        else utf8ToUtf16leLoop [d] (room + 1)
      | [] => []

def utf8ToUtf16le (src : List UInt8) (maxChars : Nat) : List UInt16 :=
  let units := utf8ToUtf16leLoop src (maxChars - 1)
  units ++ List.replicate (maxChars - units.length) 0

end SetecWizard.Core
