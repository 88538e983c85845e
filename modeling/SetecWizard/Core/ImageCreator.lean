import SetecWizard.Core.SpwImage
import SetecWizard.Core.EncryptedVault
import SetecWizard.Core.RawDiskHandle

/-! Making an SPW image of a range of a disk. The header and the chunk table are written
twice: to reserve their place, and at the end with what is known by then.
-/
namespace SetecWizard.Core
open SetecWizard.Library

structure ImageCreateConfig where
  enableCompression : Bool := true
  enableSparse : Bool := true
  chunkSize : UInt32 := 4 * 1024 * 1024

inductive ImageWrite where
  | header | table
  | chunk (chunkIdx : Nat)
  | finalHeader | finalTable

/-- What the header says about the source, besides its size. -/
structure DiskMetadata where
  diskModel : Bytes 64 := .zero 64
  diskSerial : Bytes 64 := .zero 64
  partitionTableType : UInt32 := 0

/-- What the system answers while an image is made. A write may fail, and moves a number
of bytes, given how many it is asked to move. -/
structure CreateEnv where
  disk : Win32 := .working
  createFile : Option UInt32 := none
  writeFile : ImageWrite → Nat → Option UInt32 × Nat := fun _ length => (none,length)
  seekToStart : Option UInt32 := none
  opensSha256 : Bool := true
  createsHash : Bool := true
  metadata : DiskMetadata := {}
  systemTime : UInt64 := 0
  cancelRequested : Nat → Bool := fun _ => false
  progressCb : UInt64 → UInt64 → UInt64 → Bool := fun _ _ _ => true

namespace ImageCreator

variable (codec : Codec) (env : CreateEnv)

def writeWhole (file : QFile) (write : ImageWrite) (data : List UInt8) (context : String) : Mutation QFile :=
  let outcome := env.writeFile write data.length
  let (bytesWritten,file) := file.write data outcome.2
  match outcome.1 with
  | some lastErr => (.error (makeWin32Error .imageWriteError context lastErr),file)
  | none =>
    if bytesWritten ≠ data.length then (.error (makeWin32Error .imageWriteError context 0),file)
    else (.ok (),file)

/-- How a chunk goes into the image: its entry, and the bytes to store with the text of
the error if they cannot be written. A chunk of zeros is not stored. -/
def encodeChunk (config : ImageCreateConfig) (rawData : List UInt8) (currentFileOffset : UInt64) :
    SpwChunkEntry × Option (List UInt8 × String) :=
  let entry : SpwChunkEntry := { uncompressedSize := UInt32.ofNat rawData.length, crc32 := crc32 rawData }
  let stored (data : List UInt8) : SpwChunkEntry :=
    { entry with fileOffset := currentFileOffset, compressedSize := UInt32.ofNat data.length }
  if config.enableSparse = true ∧ rawData.all (· == 0) = true then ({ entry with flags := 1 },none)
  else if config.enableCompression then
    match codec.compressLZNT1 rawData with
    | .error _ => (stored rawData,some (rawData,"Failed to write uncompressed chunk"))
    | .ok compressed =>
      if compressed.length < rawData.length then
        (stored compressed,some (compressed,"Failed to write compressed chunk"))
      else (stored rawData,some (rawData,"Failed to write uncompressed chunk"))
  else (stored rawData,some (rawData,"Failed to write raw chunk"))

/-- Between two chunks: `hashed` is what went into SHA-256 so far. -/
structure CreateState where
  file : QFile
  currentFileOffset : UInt64
  bytesProcessed : UInt64 := 0
  totalCompressedBytes : UInt64 := 0
  sparseCount : UInt32 := 0
  chunkTable : List SpwChunkEntry := []
  hashed : List UInt8 := []

def imageCanceled : ErrorInfo := .fromCode .operationCanceled "Image creation canceled"

/-- One round of the loop. How many bytes of the chunk reach the file is not checked. -/
def createChunk (src : Disk) (sectorSize : UInt32) (srcOffset length : UInt64) (config : ImageCreateConfig)
    (chunkIdx : Nat) (st : CreateState) : Result CreateState := do
  if env.cancelRequested chunkIdx then throw imageCanceled
  let chunkOffset := srcOffset + UInt64.ofNat chunkIdx * config.chunkSize.toUInt64
  let remaining := length - st.bytesProcessed
  let thisChunkSize := (min config.chunkSize.toUInt64 remaining).toUInt32
  let lba := chunkOffset / sectorSize.toUInt64
  let sectors := ((thisChunkSize + sectorSize - 1) / sectorSize).toUInt64
  let read ← RawDiskHandle.readSectors env.disk src lba sectors sectorSize
  let rawData := read.take thisChunkSize.toNat
  let (entry,stored) := encodeChunk codec config rawData st.currentFileOffset
  let st := { st with
    chunkTable := st.chunkTable ++ [entry]
    hashed := st.hashed ++ rawData
    bytesProcessed := st.bytesProcessed + UInt64.ofNat rawData.length
    sparseCount := if stored.isNone then st.sparseCount + 1 else st.sparseCount }
  let st ← match stored with
    | none => pure st
    | some (data,context) =>
      let outcome := env.writeFile (.chunk chunkIdx) data.length
      let file := (st.file.write data outcome.2).2
      match outcome.1 with
      | some lastErr => throw (makeWin32Error .imageWriteError context lastErr)
      | none => pure { st with
          file := file
          currentFileOffset := st.currentFileOffset + UInt64.ofNat data.length
          totalCompressedBytes := st.totalCompressedBytes + UInt64.ofNat data.length }
  if env.progressCb st.bytesProcessed length st.totalCompressedBytes = false then throw imageCanceled
  return st

def createLoop (src : Disk) (sectorSize : UInt32) (srcOffset length : UInt64) (config : ImageCreateConfig) :
    Nat → Nat → CreateState → Result CreateState
  | 0,_,st => .ok st
  | left + 1,chunkIdx,st =>
    createChunk codec env src sectorSize srcOffset length config chunkIdx st >>=
      createLoop src sectorSize srcOffset length config left (chunkIdx + 1)

def chunkCount (length : UInt64) (chunkSize : UInt32) : UInt32 :=
  ((length + chunkSize.toUInt64 - 1) / chunkSize.toUInt64).toUInt32

/-- The length of the chunk table as it is given to the calls that write and read it. -/
def tableSize (chunkCount : UInt32) : Nat := chunkCount.toNat * SPW_ENTRY_SIZE % 2 ^ 32

def initialHeader (src : Disk) (sectorSize : UInt32) (length : UInt64) (config : ImageCreateConfig) :
    SpwImageHeader :=
  { magic := SPW_IMAGE_MAGIC, headerSize := UInt32.ofNat SPW_HEADER_SIZE, version := 1,
    imageDataSize := length, chunkSize := config.chunkSize, chunkCount := chunkCount length config.chunkSize,
    compressionType := if config.enableCompression then 1 else 0,
    flags := if config.enableSparse then 1 else 0, creationTimestamp := env.systemTime,
    sourceDiskSize := src.totalBytes, sourceSectorSize := sectorSize,
    diskModel := env.metadata.diskModel, diskSerial := env.metadata.diskSerial,
    partitionTableType := env.metadata.partitionTableType }

/-- The header and the table take their final values. What fails here leaves the file. -/
def finish (header : SpwImageHeader) (st : CreateState) : Mutation QFile :=
  match env.seekToStart with
  | some lastErr => (.error (makeWin32Error .imageWriteError "Failed to seek to header position" lastErr),st.file)
  | none =>
    let header := { header with sha256 := codec.sha256 st.hashed, sparseChunkCount := st.sparseCount }
    match writeWhole env { st.file with pos := 0 } .finalHeader header.serialize "Failed to rewrite SPW header" with
    | (.error e,file) => (.error e,file)
    | (.ok _,file) =>
      writeWhole env file .finalTable ((tableBytes st.chunkTable).take (tableSize header.chunkCount))
        "Failed to rewrite SPW chunk table"

def reserve (header : SpwImageHeader) : Result QFile :=
  match writeWhole env { content := [] } .header header.serialize "Failed to write SPW header" with
  | (.error e,_) => .error e
  | (.ok _,file) =>
    let placeholder := tableBytes (List.replicate header.chunkCount.toNat {})
    match writeWhole env file .table (placeholder.take (tableSize header.chunkCount))
        "Failed to write SPW chunk table placeholder" with
    | (.error e,_) => .error e
    | (.ok _,file) => .ok file

def createChunks (src : Disk) (sectorSize : UInt32) (srcOffset length : UInt64) (config : ImageCreateConfig) :
    Result CreateState := do
  let header := initialHeader env src sectorSize length config
  let file ← reserve env header
  refuse (env.opensSha256 = false) .unknown "Failed to open SHA-256 algorithm provider"
  refuse (env.createsHash = false) .unknown "Failed to create SHA-256 hash object"
  let dataStartOffset := UInt64.ofNat SPW_HEADER_SIZE + header.chunkCount.toUInt64 * UInt64.ofNat SPW_ENTRY_SIZE
  createLoop codec env src sectorSize srcOffset length config header.chunkCount.toNat 0
    { file := file, currentFileOffset := dataStartOffset }

def createSpwImage (src : Disk) (sectorSize : UInt32) (srcOffset length : UInt64) (config : ImageCreateConfig) :
    Mutation (Option (List UInt8)) :=
  if chunkCount length config.chunkSize = 0 then
    (.error (.fromCode .invalidArgument "Nothing to image (zero length)"),none)
  else match env.createFile with
    | some lastErr => (.error (makeWin32Error .fileCreateFailed "Failed to create SPW image file" lastErr),none)
    | none =>
      match RawDiskHandle.getGeometry env.disk src with
      | .error e => (.error e,some [])
      | .ok _ =>
        match createChunks codec env src sectorSize srcOffset length config with
        | .error e => (.error e,none)
        | .ok st =>
          let (result,file) := finish codec env (initialHeader env src sectorSize length config) st
          (result,some file.content)

end ImageCreator
end SetecWizard.Core
