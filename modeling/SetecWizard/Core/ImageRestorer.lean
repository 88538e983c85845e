import SetecWizard.Core.ImageCreator
import SetecWizard.Library.Footprint

/-! Restoring an SPW image. The header and the chunk table come from the file as they
are; the restore follows the sizes they give. Which parts of its buffers it reads, and
which ranges of the disk it writes, is recorded on the way.
-/
namespace SetecWizard.Core
open SetecWizard.Library

/-- What the system answers while an image is restored: how many bytes the reads of the
header, of the table and of a chunk deliver, or that they fail. A buffer is followed by
`pastEnd` in memory. -/
structure RestoreEnv where
  disk : Win32 := .working
  readHeader : Option Nat := some SPW_HEADER_SIZE
  readTable : Nat → Option Nat := fun length => some length
  readChunk : Nat → Nat → Option Nat := fun _ length => some length
  hashes : Bool := true
  pastEnd : Nat → UInt8 := fun _ => 0
  cancelRequested : Nat → Bool := fun _ => false
  progressCb : UInt64 → UInt64 → Bool := fun _ _ => true

namespace ImageRestorer

variable (codec : Codec) (env : RestoreEnv)

def restoreCanceled : ErrorInfo := .fromCode .operationCanceled "Restore canceled"

def hexDigits (n : Nat) : String := String.ofList (Nat.toDigits 16 n)

def crcMismatch (chunkIdx : Nat) (expected actual : UInt32) : ErrorInfo :=
  .fromCode .imageChecksumMismatch ("CRC32 mismatch on chunk " ++ toString chunkIdx ++ ": expected 0x" ++
    hexDigits expected.toNat ++ ", got 0x" ++ hexDigits actual.toNat)

/-- So many bytes from the start of a buffer, and what follows it where it is shorter. -/
def grab (buffer : List UInt8) (n : Nat) : List UInt8 :=
  buffer.take n ++ (List.range (n - buffer.length)).map env.pastEnd

def readBuffer (buffer : List UInt8) (n : Nat) : Footprint ErrorInfo (List UInt8) :=
  .access buffer.length 0 n (grab env buffer n)

def readStored (content : List UInt8) (chunkIdx : Nat) (entry : SpwChunkEntry) : Result (List UInt8) :=
  if 2 ^ 63 ≤ entry.fileOffset.toNat then
    .error (makeWin32Error .imageReadError "Failed to seek to chunk data" 131)
  else
    let failed := ErrorInfo.fromCode .imageReadError "Failed to read chunk data from image"
    match env.readChunk chunkIdx entry.compressedSize.toNat with
    | none => .error failed
    | some limit =>
      let data := (slice content entry.fileOffset.toNat entry.compressedSize.toNat).take limit
      if data.length < entry.compressedSize.toNat then .error failed else .ok data

def selectData (content : List UInt8) (header : SpwImageHeader) (chunkIdx : Nat) (entry : SpwChunkEntry) :
    Result (List UInt8) :=
  if entry.isSparse then .ok (List.replicate header.chunkSize.toNat 0)
  else do
    let stored ← readStored env content chunkIdx entry
    if header.compressionType ≠ 0 ∧ entry.compressedSize ≠ entry.uncompressedSize then
      codec.decompressLZNT1 stored entry.uncompressedSize.toNat
    else return stored

def alignedWriteSize (dstSectorSize : UInt32) (entry : SpwChunkEntry) : UInt32 :=
  (entry.uncompressedSize + dstSectorSize - 1) / dstSectorSize * dstSectorSize

def checkCrc (buffer : List UInt8) (chunkIdx : Nat) (entry : SpwChunkEntry) : Footprint ErrorInfo Unit :=
  if entry.isSparse then pure ()
  else do
    let bytes ← readBuffer env buffer entry.uncompressedSize.toNat
    .lift (if crc32 bytes = entry.crc32 then .ok ()
      else .error (crcMismatch chunkIdx entry.crc32 (crc32 bytes)))

def hashInput (buffer : List UInt8) (hashing : Bool) (entry : SpwChunkEntry) : Footprint ErrorInfo (List UInt8) :=
  if hashing then readBuffer env buffer entry.uncompressedSize.toNat else pure []

def writeInput (buffer : List UInt8) (dstSectorSize : UInt32) (entry : SpwChunkEntry) :
    Footprint ErrorInfo (List UInt8) :=
  let aligned := alignedWriteSize dstSectorSize entry
  if entry.uncompressedSize < aligned then do
    let bytes ← readBuffer env buffer entry.uncompressedSize.toNat
    return bytes ++ List.replicate (aligned.toNat - entry.uncompressedSize.toNat) 0
  else readBuffer env buffer aligned.toNat

def chunkData (content : List UInt8) (header : SpwImageHeader) (dstSectorSize : UInt32) (hashing : Bool)
    (chunkIdx : Nat) (entry : SpwChunkEntry) : Footprint ErrorInfo (List UInt8 × List UInt8) := do
  let writeData ← .lift (selectData codec env content header chunkIdx entry)
  checkCrc env writeData chunkIdx entry
  let hashed ← hashInput env writeData hashing entry
  let bytes ← writeInput env writeData dstSectorSize entry
  return (hashed,bytes)

/-- A restore so far: the buffers it read, the ranges of the disk it wrote or tried to
write (from an offset, so many bytes), its result and the disk. -/
structure RestoreRun (α : Type) where
  accesses : List Access
  writes : List (Nat × Nat)
  result : Result α
  disk : Disk

/-- The bytes hashed so far and those written so far are handed from chunk to chunk. -/
abbrev ChunkState := List UInt8 × UInt64

/-- One round of the loop. -/
def restoreChunk (content : List UInt8) (header : SpwImageHeader) (dstSectorSize : UInt32) (dstOffset : UInt64)
    (hashing : Bool) (chunkIdx : Nat) (entry : SpwChunkEntry) (st : ChunkState) (disk : Disk) :
    RestoreRun ChunkState :=
  if env.cancelRequested chunkIdx then ⟨[],[],.error restoreCanceled,disk⟩
  else
    let data := chunkData codec env content header dstSectorSize hashing chunkIdx entry
    match data.result with
    | .error e => ⟨data.accesses,[],.error e,disk⟩
    | .ok (hashed,buffer) =>
      let dstChunkOffset := dstOffset + UInt64.ofNat chunkIdx * header.chunkSize.toUInt64
      let dstLba := dstChunkOffset / dstSectorSize.toUInt64
      let aligned := alignedWriteSize dstSectorSize entry
      let dstSectors := (aligned / dstSectorSize).toUInt64
      let writes := if dstSectors = 0 then [] else [((dstLba * dstSectorSize.toUInt64).toNat,aligned.toNat)]
      let bytesWritten := st.2 + entry.uncompressedSize.toUInt64
      match RawDiskHandle.writeSectors env.disk disk .readWrite dstLba buffer dstSectors dstSectorSize with
      | (.error e,disk) => ⟨data.accesses,writes,.error e,disk⟩
      | (.ok _,disk) =>
        if env.progressCb bytesWritten header.imageDataSize = false then
          ⟨data.accesses,writes,.error restoreCanceled,disk⟩
        else ⟨data.accesses,writes,.ok (st.1 ++ hashed,bytesWritten),disk⟩

def restoreLoop (content : List UInt8) (header : SpwImageHeader) (dstSectorSize : UInt32) (dstOffset : UInt64)
    (hashing : Bool) : List SpwChunkEntry → Nat → ChunkState → Disk → RestoreRun ChunkState
  | [],_,st,disk => ⟨[],[],.ok st,disk⟩
  | entry :: rest,chunkIdx,st,disk =>
    let first := restoreChunk codec env content header dstSectorSize dstOffset hashing chunkIdx entry st disk
    match first.result with
    | .error e => { first with result := .error e }
    | .ok st =>
      let later := restoreLoop content header dstSectorSize dstOffset hashing rest (chunkIdx + 1) st first.disk
      { later with accesses := first.accesses ++ later.accesses, writes := first.writes ++ later.writes }

/-- The hash of the image is compared unless none is stored. -/
def verifyHash (header : SpwImageHeader) (hashed : List UInt8) : Result Unit :=
  refuse (header.sha256 ≠ .zero 32 ∧ codec.sha256 hashed ≠ header.sha256) .imageChecksumMismatch
    ("SHA-256 verification failed: restored data does not " ++
      "match the hash stored in the image header")

def restoreSpwImage (content : List UInt8) (header : SpwImageHeader) (chunkTable : List SpwChunkEntry)
    (dstSectorSize : UInt32) (dstOffset : UInt64) (verify : Bool) (disk : Disk) : RestoreRun Unit :=
  let hashing := verify && env.hashes
  let run := restoreLoop codec env content header dstSectorSize dstOffset hashing chunkTable 0 ([],0) disk
  { accesses := run.accesses, writes := run.writes, disk := run.disk,
    result := run.result >>= fun st => if hashing then verifyHash codec header st.1 else .ok () }

/-- The chunk table of as many entries as the header says, from the bytes that were read
of it. -/
def parseTable (chunkCount : UInt32) (raw : List UInt8) : List SpwChunkEntry :=
  (List.range chunkCount.toNat).map (fun i => .parse raw (i * SPW_ENTRY_SIZE))

def readTables (content : List UInt8) (dstTotalBytes destOffsetBytes : UInt64) :
    Result (SpwImageHeader × List SpwChunkEntry) :=
  let unreadable := ErrorInfo.fromCode .imageCorrupt "Failed to read SPW header"
  match env.readHeader with
  | none => .error unreadable
  | some limit => do
    let raw := (content.take SPW_HEADER_SIZE).take limit
    if raw.length < SPW_HEADER_SIZE then throw unreadable
    let header := SpwImageHeader.parse raw
    refuse (header.magic ≠ SPW_IMAGE_MAGIC ∨ header.version ≠ 1) .imageCorrupt "Invalid SPW image header"
    refuse (dstTotalBytes < destOffsetBytes + header.imageDataSize) .insufficientDiskSpace
      "Image is larger than destination disk"
    let length := ImageCreator.tableSize header.chunkCount
    let incomplete := ErrorInfo.fromCode .imageCorrupt "Failed to read SPW chunk table"
    match env.readTable length with
    | none => throw incomplete
    | some limit =>
      let raw := (slice content SPW_HEADER_SIZE length).take limit
      if raw.length < length then throw incomplete
      return (header,parseTable header.chunkCount raw)

/-- The part of a restore that is about SPW images, on a disk that is open. -/
def restoreImage (content : List UInt8) (dstSectorSize : UInt32) (destOffsetBytes : UInt64)
    (verifyAfterRestore : Bool) (disk : Disk) : RestoreRun Unit :=
  match readTables env content disk.totalBytes destOffsetBytes with
  | .error e => ⟨[],[],.error e,disk⟩
  | .ok (header,chunkTable) =>
    restoreSpwImage codec env content header chunkTable dstSectorSize destOffsetBytes verifyAfterRestore disk

end ImageRestorer

/-- What the system answers while a raw image is restored, read after read. -/
structure RawRestoreEnv where
  disk : Win32 := .working
  readFile : Nat → Nat → Except UInt32 Nat := fun _ length => .ok length
  cancelRequested : Nat → Bool := fun _ => false
  progressCb : UInt64 → UInt64 → Bool := fun _ _ => true

namespace ImageRestorer

def restoreRawLoop (env : RawRestoreEnv) (fileSize : UInt64) (dstSectorSize alignedBufSize : UInt32) :
    Nat → Nat → List UInt8 → UInt64 → UInt64 → Disk → Option (Mutation Disk)
  | 0,_,_,_,_,_ => none
  | fuel + 1,round,file,bytesWritten,dstPos,disk =>
    if fileSize ≤ bytesWritten then some (.ok (),disk)
    else if env.cancelRequested round then some (.error restoreCanceled,disk)
    else
      let readSize := min alignedBufSize.toUInt64 (fileSize - bytesWritten)
      match env.readFile round readSize.toNat with
      | .error lastErr =>
        some (.error (makeWin32Error .imageReadError "Failed to read from image file" lastErr),disk)
      | .ok delivered =>
        let data := (file.take readSize.toNat).take delivered
        -- The end of the file ends the loop as well.
        if data = [] then some (.ok (),disk)
        else
          let bytesRead := UInt32.ofNat data.length
          let aligned := (bytesRead + dstSectorSize - 1) / dstSectorSize * dstSectorSize
          let buffer := data ++ List.replicate (aligned.toNat - data.length) 0
          match RawDiskHandle.writeSectors env.disk disk .readWrite (dstPos / dstSectorSize.toUInt64) buffer
              (aligned / dstSectorSize).toUInt64 dstSectorSize with
          | (.error e,disk) => some (.error e,disk)
          | (.ok _,disk) =>
            let bytesWritten := bytesWritten + bytesRead.toUInt64
            if env.progressCb bytesWritten fileSize = false then some (.error restoreCanceled,disk)
            else restoreRawLoop env fileSize dstSectorSize alignedBufSize fuel (round + 1)
              (file.drop data.length) bytesWritten (dstPos + bytesRead.toUInt64) disk

def restoreRawImage (env : RawRestoreEnv) (fuel : Nat) (content : List UInt8) (fileSize : UInt64)
    (dstSectorSize : UInt32) (dstOffset : UInt64) (bufferSize : UInt32) (disk : Disk) : Option (Mutation Disk) :=
  match RawDiskHandle.getGeometry env.disk disk with
  | .error e => some (.error e,disk)
  | .ok totalBytes =>
    if totalBytes < dstOffset + fileSize then
      some (.error (.fromCode .insufficientDiskSpace "Image file is larger than destination disk"),disk)
    else
      let alignedBufSize := bufferSize / dstSectorSize * dstSectorSize
      if alignedBufSize = 0 then some (.error (.fromCode .invalidArgument "Buffer size too small"),disk)
      else restoreRawLoop env fileSize dstSectorSize alignedBufSize fuel 0 content 0 dstOffset disk

end ImageRestorer
end SetecWizard.Core
