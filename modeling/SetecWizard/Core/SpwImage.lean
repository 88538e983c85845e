import SetecWizard.Core.ByteOrder

/-! The SPW image format: a header, one entry for every chunk, and the stored chunks. The
structures lie in the file without padding, little-endian.
-/
namespace SetecWizard.Core
open SetecWizard.Library

/-- "SPWIMG01". -/
def SPW_IMAGE_MAGIC : Bytes 8 := ⟨[0x53,0x50,0x57,0x49,0x4D,0x47,0x30,0x31],rfl⟩

def SPW_HEADER_SIZE : Nat := 360

def SPW_ENTRY_SIZE : Nat := 24

structure SpwImageHeader where
  magic : Bytes 8 := .zero 8
  headerSize : UInt32 := 0
  version : UInt32 := 0
  diskModel : Bytes 64 := .zero 64
  diskSerial : Bytes 64 := .zero 64
  sourceDiskSize : UInt64 := 0
  sourceSectorSize : UInt32 := 0
  partitionTableType : UInt32 := 0
  imageDataSize : UInt64 := 0
  chunkSize : UInt32 := 0
  chunkCount : UInt32 := 0
  compressionType : UInt32 := 0
  compressionLevel : UInt32 := 0
  creationTimestamp : UInt64 := 0
  sha256 : Bytes 32 := .zero 32
  sparseChunkCount : UInt32 := 0
  flags : UInt32 := 0
  reserved : Bytes 128 := .zero 128
deriving DecidableEq

namespace SpwImageHeader

/-- The fields as they follow each other in the file. -/
def blocks (h : SpwImageHeader) : List (List UInt8) :=
  [h.magic.data,le32 h.headerSize,le32 h.version,h.diskModel.data,h.diskSerial.data,
    le64 h.sourceDiskSize,le32 h.sourceSectorSize,le32 h.partitionTableType,le64 h.imageDataSize,
    le32 h.chunkSize,le32 h.chunkCount,le32 h.compressionType,le32 h.compressionLevel,
    le64 h.creationTimestamp,h.sha256.data,le32 h.sparseChunkCount,le32 h.flags,h.reserved.data]

def serialize (h : SpwImageHeader) : List UInt8 := h.blocks.flatten

/-- Reading the bytes as the struct. -/
def parse (raw : List UInt8) : SpwImageHeader where
  magic := .copy raw 0 8
  headerSize := readLE32 raw 8
  version := readLE32 raw 12
  diskModel := .copy raw 16 64
  diskSerial := .copy raw 80 64
  sourceDiskSize := readLE64 raw 144
  sourceSectorSize := readLE32 raw 152
  partitionTableType := readLE32 raw 156
  imageDataSize := readLE64 raw 160
  chunkSize := readLE32 raw 168
  chunkCount := readLE32 raw 172
  compressionType := readLE32 raw 176
  compressionLevel := readLE32 raw 180
  creationTimestamp := readLE64 raw 184
  sha256 := .copy raw 192 32
  sparseChunkCount := readLE32 raw 224
  flags := readLE32 raw 228
  reserved := .copy raw 232 128

end SpwImageHeader

/-- Where a chunk is stored, and how; bit 0 of the flags marks one that is all zeros and
not stored. -/
structure SpwChunkEntry where
  fileOffset : UInt64 := 0
  compressedSize : UInt32 := 0
  uncompressedSize : UInt32 := 0
  crc32 : UInt32 := 0
  flags : UInt32 := 0
deriving DecidableEq

namespace SpwChunkEntry

def serialize (e : SpwChunkEntry) : List UInt8 :=
  le64 e.fileOffset ++ le32 e.compressedSize ++ le32 e.uncompressedSize ++ le32 e.crc32 ++ le32 e.flags

def parse (raw : List UInt8) (off : Nat) : SpwChunkEntry where
  fileOffset := readLE64 raw off
  compressedSize := readLE32 raw (off + 8)
  uncompressedSize := readLE32 raw (off + 12)
  crc32 := readLE32 raw (off + 16)
  flags := readLE32 raw (off + 20)

def isSparse (e : SpwChunkEntry) : Bool := e.flags &&& 1 != 0

end SpwChunkEntry

def tableBytes (chunkTable : List SpwChunkEntry) : List UInt8 := chunkTable.flatMap SpwChunkEntry.serialize

/-- LZNT1 and SHA-256, which Windows provides. -/
structure Codec where
  compressLZNT1 : List UInt8 → Result (List UInt8)
  decompressLZNT1 : List UInt8 → Nat → Result (List UInt8)
  sha256 : List UInt8 → Bytes 32

end SetecWizard.Core
