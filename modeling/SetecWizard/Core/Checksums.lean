import SetecWizard.Core.Common

/-! CRC-32 as the imaging code computes it, on its own table and piece by piece.
-/
namespace SetecWizard.Core.Checksums

def kCrc32Polynomial : UInt32 := 0xEDB88320

def tableEntry (i : UInt32) : UInt32 :=
  (List.range 8).foldl (fun crc _ => if crc &&& 1 ≠ 0 then (crc >>> 1) ^^^ kCrc32Polynomial else crc >>> 1) i

def kCrc32Table : List UInt32 := (List.range 256).map (fun i => tableEntry (UInt32.ofNat i))

def crc32Update (previousCrc : UInt32) (data : List UInt8) : UInt32 :=
  data.foldl (fun (crc : UInt32) b =>
    let tableIndex := (crc ^^^ b.toUInt32).toUInt8
    (crc >>> 8) ^^^ kCrc32Table.getD tableIndex.toNat 0) (previousCrc ^^^ 0xFFFFFFFF) ^^^ 0xFFFFFFFF

def crc32Buffer (data : List UInt8) : UInt32 := crc32Update 0 data

end SetecWizard.Core.Checksums
