import SetecWizard.Core.RawDiskHandle
import SetecWizard.Core.ByteOrder
import SetecWizard.Core.FormatEngine

/-! Recovery of deleted files from NTFS: the scan of the MFT, and the copy of one file to a
new one. The MFT is taken to lie in one piece from the cluster the boot sector names on,
and records are used as they are on the disk.
-/
namespace SetecWizard.Core
open SetecWizard.Library

structure DataRun where
  clusterOffset : UInt64 := 0
  clusterCount : UInt64 := 0
deriving DecidableEq

structure RecoverableFile where
  filename : List Char
  sizeBytes : UInt64 := 0
  sourceFs : FilesystemType := .ntfs
  extension : List Char := []
  confidence : Nat := 0
  partitionStartLba : UInt64 := 0
  sectorSize : UInt32 := SECTOR_SIZE_512
  mftEntryIndex : UInt64 := 0
  firstCluster : UInt32 := 0
  inodeNumber : UInt64 := 0
  carvedLba : UInt64 := 0
  dataRuns : List DataRun := []
deriving DecidableEq

/-- The partition that is searched. -/
structure FileRecovery where
  partStart : UInt64
  partSectors : UInt64
  sectorSize : UInt32 := SECTOR_SIZE_512

/-- The disk, the user who may cancel before a record is read, and the files that can be
created. -/
structure RecoveryEnv where
  device : Win32 := .working
  canceled : UInt64 → Bool := fun _ => false
  creates : String → Bool := fun _ => true

def NTFS_ATTR_FILE_NAME : UInt32 := 0x30
def NTFS_ATTR_DATA : UInt32 := 0x80
def NTFS_ATTR_END : UInt32 := 0xFFFFFFFF
def NTFS_MFT_FLAG_IN_USE : UInt16 := 0x0001
def NTFS_MFT_FLAG_DIRECTORY : UInt16 := 0x0002

/-- The sizes of the packed structures. -/
def sizeofMftHeader : Nat := 48
def sizeofAttributeHeader : Nat := 16
def sizeofResidentAttr : Nat := 8
def sizeofNonResidentAttr : Nat := 48
def sizeofFileNameAttr : Nat := 66

namespace FileRecovery

def signature : List UInt8 := [0x4E,0x54,0x46,0x53,0x20,0x20,0x20,0x20]

def fileMagic : List UInt8 := [0x46,0x49,0x4C,0x45]

/-- The bytes of a field of at most eight bytes, extended to eight by its sign. -/
def signExtended (field : List UInt8) : UInt64 :=
  let fill : UInt8 := if field.getD (field.length - 1) 0 &&& 0x80 ≠ 0 then 0xFF else 0
  .ofNat (ofLE (field ++ List.replicate (8 - field.length) fill))

/-- The runs from the current byte of a run list on. A run without an offset is left out. -/
def parseRuns (bytes : List UInt8) (prevClusterOffset : UInt64) : List DataRun :=
  match bytes with
  | [] => []
  | runHeader :: rest =>
    let lenSize := (runHeader &&& 0x0F).toNat
    let offSize := ((runHeader >>> 4) &&& 0x0F).toNat
    if runHeader = 0 then []
    else if lenSize = 0 ∨ 8 < lenSize ∨ 8 < offSize then []
    else if rest.length < lenSize + offSize then []
    else
      let runLength := UInt64.ofNat (ofLE (rest.take lenSize))
      if offSize = 0 then parseRuns (rest.drop lenSize) prevClusterOffset
      else
        let cluster := prevClusterOffset + signExtended (slice rest lenSize offSize)
        { clusterOffset := cluster, clusterCount := runLength } ::
          parseRuns (rest.drop (lenSize + offSize)) cluster
termination_by bytes.length
decreasing_by
  · simp only [List.length_drop,List.length_cons]
    omega
  · simp only [List.length_drop,List.length_cons]
    omega

/-- What the attributes of a record have given so far. -/
structure Found where
  fileName : List Char := []
  fileSize : UInt64 := 0
  dataRuns : List DataRun := []

section Attributes

variable (recordData : List UInt8)

/-- The name in a resident `$FILE_NAME` attribute, unless it is a DOS name or does not fit. -/
def fileNameAt (attrOffset : Nat) : Option (List Char) :=
  if recordData.length < attrOffset + sizeofAttributeHeader + sizeofResidentAttr then none
  else
    let nameAttrOffset := attrOffset + (readLE16 recordData (attrOffset + 20)).toNat
    if recordData.length < nameAttrOffset + sizeofFileNameAttr then none
    else if recordData.getD (nameAttrOffset + 65) 0 = 2 then none
    else
      let nameStart := nameAttrOffset + sizeofFileNameAttr
      let fileNameLength := (recordData.getD (nameAttrOffset + 64) 0).toNat
      if recordData.length < nameStart + fileNameLength * 2 then none
      else some ((List.range fileNameLength).map (fun i =>
        let ch := readLE16 recordData (nameStart + i * 2)
        if ch < 128 then Char.ofNat ch.toNat else '?'))

/-- A resident `$DATA` attribute counts as one run at the record itself. -/
def readData (recordCluster : UInt64) (attrOffset : Nat) (found : Found) : Found :=
  if recordData.getD (attrOffset + 8) 0 = 1 then
    if recordData.length < attrOffset + sizeofAttributeHeader + sizeofNonResidentAttr then found
    else
      let runOffset := attrOffset + (readLE16 recordData (attrOffset + 32)).toNat
      { found with
        fileSize := readLE64 recordData (attrOffset + 48)
        dataRuns := found.dataRuns ++ parseRuns (recordData.drop runOffset) 0 }
  else if recordData.length < attrOffset + sizeofAttributeHeader + sizeofResidentAttr then found
  else
    { found with
      fileSize := (readLE32 recordData (attrOffset + 16)).toUInt64
      dataRuns := found.dataRuns ++ [{ clusterOffset := recordCluster, clusterCount := 1 }] }

def readAttribute (recordCluster : UInt64) (attrOffset : Nat) (found : Found) : Found :=
  let type := readLE32 recordData attrOffset
  if type = NTFS_ATTR_FILE_NAME ∧ recordData.getD (attrOffset + 8) 0 = 0 then
    { found with fileName := (fileNameAt recordData attrOffset).getD found.fileName }
  else if type = NTFS_ATTR_DATA then readData recordData recordCluster attrOffset found
  else found

/-- The walk over the attributes, `none` while it has not ended. The lengths are 32-bit
numbers that are added as such, so a walk may come back to where it was. -/
def walkAttributes (recordCluster : UInt64) : Nat → UInt32 → Found → Option Found
  | 0, _, _ => none
  | fuel + 1, attrOffset, found =>
    if recordData.length < attrOffset.toNat + sizeofAttributeHeader then some found
    else
      let length := readLE32 recordData (attrOffset.toNat + 4)
      if readLE32 recordData attrOffset.toNat = NTFS_ATTR_END ∨ length = 0 then some found
      else if recordData.length < (attrOffset + length).toNat then some found
      else walkAttributes recordCluster fuel (attrOffset + length)
        (readAttribute recordData recordCluster attrOffset.toNat found)

end Attributes

/-- Where the MFT is, as the boot sector has it. -/
structure NtfsLayout where
  clusterSize : UInt32
  mftByteOffset : UInt64
  mftRecordSize : UInt32
deriving DecidableEq

def extensionOf (filename : List Char) : List Char :=
  if '.' ∈ filename then (filename.reverse.takeWhile (· ≠ '.')).reverse else []

variable (env : RecoveryEnv) (r : FileRecovery) (disk : Disk)

def readPartitionBytes (offset : UInt64) (size : UInt32) : Result (List UInt8) :=
  let absOffset := r.partStart * r.sectorSize.toUInt64 + offset
  let startSector := absOffset / r.sectorSize.toUInt64
  let inSectorOffset := (absOffset % r.sectorSize.toUInt64).toUInt32
  let alignedSize := (inSectorOffset + size + r.sectorSize - 1) / r.sectorSize * r.sectorSize
  let sectorsToRead := (alignedSize / r.sectorSize).toUInt64
  match RawDiskHandle.readSectors env.device disk startSector sectorsToRead r.sectorSize with
  | .error e => .error e
  | .ok data =>
    if data.length < (inSectorOffset + size).toNat then .error (.fromCode .diskReadError "Partition read underflow")
    else .ok (slice data inSectorOffset.toNat size.toNat)

/-- The checks of the boot sector. A record size that is not positive is the exponent of a
power of two, with its sign changed. -/
def ntfsLayout (boot : List UInt8) : Result NtfsLayout :=
  if boot.length < 512 then .error (.fromCode .filesystemCorrupt "NTFS boot sector too small")
  else if slice boot 3 8 ≠ signature then .error (.fromCode .filesystemCorrupt "Not an NTFS volume")
  else
    let bytesPerSector := if readLE16 boot 0x0B = 0 then r.sectorSize.toUInt16 else readLE16 boot 0x0B
    let sectorsPerCluster := boot.getD 0x0D 0
    if sectorsPerCluster = 0 then .error (.fromCode .filesystemCorrupt "NTFS sectors/cluster is 0")
    else
      let clusterSize := bytesPerSector.toUInt32 * sectorsPerCluster.toUInt32
      let mftRecordSizeRaw := boot.getD 0x40 0
      let mftRecordSize : UInt32 :=
        if 0 < mftRecordSizeRaw ∧ mftRecordSizeRaw < 0x80 then mftRecordSizeRaw.toUInt32 * clusterSize
        else 1 <<< (0 - mftRecordSizeRaw).toUInt32
      if mftRecordSize = 0 ∨ 65536 < mftRecordSize then
        .error (.fromCode .filesystemCorrupt "Invalid MFT record size")
      else .ok {
        clusterSize := clusterSize
        mftByteOffset := readLE64 boot 0x30 * clusterSize.toUInt64
        mftRecordSize := mftRecordSize }

section Scan

variable (layout : NtfsLayout)

def recordOffset (recordIdx : UInt64) : UInt64 := layout.mftByteOffset + recordIdx * layout.mftRecordSize.toUInt64

def recordsToScan : UInt64 :=
  min ((r.partSectors * r.sectorSize.toUInt64 - layout.mftByteOffset) / layout.mftRecordSize.toUInt64) 1000000

/-- The record of a file that is neither in use nor a directory. -/
def deletedFile (recordData : List UInt8) : Bool :=
  decide (sizeofMftHeader ≤ recordData.length) && decide (recordData.take 4 = fileMagic) &&
    decide (readLE16 recordData 22 &&& NTFS_MFT_FLAG_IN_USE = 0) &&
    decide (readLE16 recordData 22 &&& NTFS_MFT_FLAG_DIRECTORY = 0)

def scanRecord (fuel : Nat) (recordIdx : UInt64) (recordData : List UInt8) : Option (Option RecoverableFile) :=
  if deletedFile recordData then
    match walkAttributes recordData (recordOffset layout recordIdx / layout.clusterSize.toUInt64) fuel
      (readLE16 recordData 20).toUInt32 {} with
    | none => none
    | some found =>
      if found.fileName = [] ∨ (found.fileSize = 0 ∧ found.dataRuns = []) then some none
      else some (some {
        filename := found.fileName
        sizeBytes := found.fileSize
        extension := extensionOf found.fileName
        confidence := if found.dataRuns = [] then 30 else 75
        partitionStartLba := r.partStart
        sectorSize := r.sectorSize
        mftEntryIndex := recordIdx
        dataRuns := found.dataRuns })
  else some none

def scanRecords (fuel : Nat) : Nat → UInt64 → List RecoverableFile → Option (Result (List RecoverableFile))
  | 0, _, results => some (.ok results)
  | left + 1, recordIdx, results =>
    if env.canceled recordIdx then some (.error (.fromCode .operationCanceled ""))
    else match readPartitionBytes env r disk (recordOffset layout recordIdx) layout.mftRecordSize with
      | .error _ => some (.ok results)
      | .ok recordData =>
        match scanRecord r layout fuel recordIdx recordData with
        | none => none
        | some file => scanRecords fuel left (recordIdx + 1) (results ++ file.toList)

end Scan

def scanNtfs (fuel : Nat) : Option (Result (List RecoverableFile)) :=
  match readPartitionBytes env r disk 0 512 with
  | .error e => some (.error e)
  | .ok boot =>
    match ntfsLayout r boot with
    | .error e => some (.error e)
    | .ok layout => scanRecords env r disk layout fuel (recordsToScan r layout).toNat 0 []

def readChunk : UInt64 := 1024 * 1024

def copyRun (sizeBytes runByteOffset runByteSize : UInt64) :
    Nat → UInt64 → List UInt8 → Option (Result Unit × List UInt8)
  | 0, _, _ => none
  | fuel + 1, off, out =>
    if ¬ off < runByteSize then some (.ok (),out)
    else
      let toRead := (min readChunk (runByteSize - off)).toUInt32
      match readPartitionBytes env r disk (runByteOffset + off) toRead with
      | .error e => some (.error e,out)
      | .ok data =>
        let toWrite :=
          if 0 < sizeBytes ∧ sizeBytes.toNat < out.length + data.length then sizeBytes.toNat - out.length
          else data.length
        let out := out ++ data.take toWrite
        if 0 < sizeBytes ∧ sizeBytes.toNat ≤ out.length then some (.ok (),out)
        else copyRun sizeBytes runByteOffset runByteSize fuel (off + readChunk) out

def copyRuns (clusterSize : UInt32) (sizeBytes : UInt64) (fuel : Nat) :
    List DataRun → List UInt8 → Option (Result Unit × List UInt8)
  | [], out => some (.ok (),out)
  | run :: rest, out =>
    match copyRun env r disk sizeBytes (run.clusterOffset * clusterSize.toUInt64)
      (run.clusterCount * clusterSize.toUInt64) fuel 0 out with
    | none => none
    | some (.error e,out) => some (.error e,out)
    | some (.ok _,out) =>
      if 0 < sizeBytes ∧ sizeBytes.toNat ≤ out.length then some (.ok (),out)
      else copyRuns clusterSize sizeBytes fuel rest out

def copyEach (byteOffset : DataRun → UInt64) (clusterSize : UInt32) (sizeBytes : UInt64) (fuel : Nat) :
    List DataRun → List UInt8 → Option (Result Unit × List UInt8)
  | [], out => some (.ok (),out)
  | run :: rest, out =>
    match copyRun env r disk sizeBytes (byteOffset run) (run.clusterCount * clusterSize.toUInt64) fuel 0 out with
    | none => none
    | some (.error e,out) => some (.error e,out)
    | some (.ok _,out) => copyEach byteOffset clusterSize sizeBytes fuel rest out

/-- The file that is written is `none` where it was not created. -/
def recoverNtfsFile (file : RecoverableFile) (outputPath : String) (fuel : Nat) :
    Option (Result Unit × Option (List UInt8)) :=
  match readPartitionBytes env r disk 0 512 with
  | .error e => some (.error e,none)
  | .ok boot =>
    let bytesPerSector := readLE16 boot 0x0B
    let sectorsPerCluster := boot.getD 0x0D 0
    if bytesPerSector = 0 ∨ sectorsPerCluster = 0 then
      some (.error (.fromCode .filesystemCorrupt "Invalid NTFS BPB"),none)
    else if env.creates outputPath = false then
      some (.error (.fromCode .fileCreateFailed ("Cannot create output file: " ++ outputPath)),none)
    else
      (copyRuns env r disk (bytesPerSector.toUInt32 * sectorsPerCluster.toUInt32) file.sizeBytes fuel
        file.dataRuns []).map (fun outcome => (outcome.1,some outcome.2))

end FileRecovery
end SetecWizard.Core
