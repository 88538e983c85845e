import SetecWizard.Core.PartitionTable
import SetecWizard.Core.RawDiskHandle

/-! Reading and writing the table of a disk, and the operations of the queue that change
one, with what undoes them. Notifying the kernel and releasing the volume change
nothing on the disk and their results are dropped, so they do not appear.
-/
namespace SetecWizard.Core
open SetecWizard.Library

namespace OperationUtils

variable (fuel : Nat) (os : Win32) (disk : Disk) (sectorSize : UInt32)

/-- Whole sectors are read and cut to the size asked for. -/
def readFunc : DiskReadCallback := fun offset size =>
  let lba := offset / sectorSize.toUInt64
  let count := ((size + sectorSize - 1) / sectorSize).toUInt64
  (RawDiskHandle.readSectors os disk lba count sectorSize).map (·.take size.toNat)

def readPartitionTable : Option (Result PartitionTable) :=
  match RawDiskHandle.openPath os .readOnly with
  | .error e => some (.error e)
  | .ok _ =>
    match RawDiskHandle.getGeometry os disk with
    | .error e => some (.error e)
    | .ok diskSizeBytes => PartitionTable.parse fuel (readFunc os disk sectorSize) diskSizeBytes sectorSize

def sectorsToWrite (tableData : List UInt8) : UInt64 :=
  (UInt64.ofNat tableData.length + sectorSize.toUInt64 - 1) / sectorSize.toUInt64

/-- Zeros up to the next sector boundary. -/
def padded (tableData : List UInt8) : List UInt8 :=
  let paddedSize := (sectorsToWrite sectorSize tableData * sectorSize.toUInt64).toNat
  tableData ++ List.replicate (paddedSize - tableData.length) 0

/-- The serialized table goes to the disk as one block, from sector 0 on. -/
def writePartitionTable (table : PartitionTable) : Mutation Disk :=
  match table.serialize with
  | .error e => (.error e,disk)
  | .ok tableData =>
    if tableData.isEmpty then
      (.error (.fromCode .partitionTableCorrupt "Serialized table is empty"),disk)
    else match RawDiskHandle.openPath os .readWrite with
      | .error e => (.error e,disk)
      | .ok _ =>
        match RawDiskHandle.writeSectors os disk .readWrite 0 (padded sectorSize tableData)
            (sectorsToWrite sectorSize tableData) sectorSize with
        | (.error e,disk) => (.error e,disk)
        | (.ok _,disk) => (RawDiskHandle.flushBuffers os,disk)

def lockAndDismountVolume (driveLetter : UInt16) : Result Unit := do
  refuse (driveLetter = 0) .invalidArgument "No drive letter specified"
  VolumeHandle.openByLetter os driveLetter
  VolumeHandle.lock os driveLetter
  VolumeHandle.dismount os driveLetter

/-- A partition without a drive letter is not mounted. -/
def lockIfMounted (driveLetter : UInt16) : Result Unit :=
  if driveLetter ≠ 0 then lockAndDismountVolume os driveLetter else .ok ()

def partitionMissing (index : Int) : ErrorInfo :=
  .fromCode .partitionNotFound ("Partition index " ++ toString index ++ " not found")

end OperationUtils

structure CreatePartitionOp.Params where
  startLba : UInt64 := 0
  sectorCount : UInt64 := 0
  sectorSize : UInt32 := SECTOR_SIZE_512
  mbrType : UInt8 := MbrTypes.NTFS_HPFS
  isActive : Bool := false
  isLogical : Bool := false
  typeGuid : Guid := .zero 16
  gptName : List UInt8 := []
  formatAfter : Bool := false

structure CreatePartitionOp where
  params : CreatePartitionOp.Params
  createdIndex : Int := -1

structure DeletePartitionOp.Params where
  partitionIndex : Int := -1
  sectorSize : UInt32 := SECTOR_SIZE_512
  driveLetter : UInt16 := 0
  wipeFirstSectors : Bool := true

structure DeletePartitionOp where
  params : DeletePartitionOp.Params
  savedEntry : Option PartitionEntry := none

structure ResizePartitionOp.Params where
  partitionIndex : Int := -1
  sectorSize : UInt32 := SECTOR_SIZE_512
  driveLetter : UInt16 := 0
  newStartLba : UInt64 := 0
  newSectorCount : UInt64 := 0

structure ResizePartitionOp where
  params : ResizePartitionOp.Params
  savedEntry : Option PartitionEntry := none

structure SetFlagsOp.Params where
  partitionIndex : Int := -1
  sectorSize : UInt32 := SECTOR_SIZE_512
  setActive : Option Bool := none
  gptAttributes : Option UInt64 := none

structure SetFlagsOp where
  params : SetFlagsOp.Params
  savedEntry : Option PartitionEntry := none

def saveEntry (table : PartitionTable) (index : Int) (savedEntry : Option PartitionEntry) :
    Option PartitionEntry :=
  (table.partitions.find? (·.index == index)).or savedEntry

namespace CreatePartitionOp

def partParams (params : Params) (kind : PartitionTableType) : PartitionParams where
  startLba := params.startLba
  sectorCount := params.sectorCount
  mbrType := params.mbrType
  isActive := params.isActive
  isLogical := params.isLogical
  typeGuid :=
    if kind = .gpt ∧ params.typeGuid.isZero then GptTypes.microsoftBasicData else params.typeGuid
  gptName := params.gptName

def indexCreated (op : CreatePartitionOp) (table : PartitionTable) : Int :=
  match table.partitions.find? (fun e =>
      e.startLba == op.params.startLba && e.sectorCount == op.params.sectorCount) with
  | none => op.createdIndex
  | some entry => entry.index

/-- What the format engine does to the disk afterwards is left open. -/
def execute (fuel : Nat) (os : Win32) (random : Bytes 16) (format : Disk → Mutation Disk) (disk : Disk)
    (op : CreatePartitionOp) : Option (Result Unit × CreatePartitionOp × Disk) :=
  match OperationUtils.readPartitionTable fuel os disk op.params.sectorSize with
  | none => none
  | some (.error e) => some (.error e,op,disk)
  | some (.ok table) =>
    match table.addPartition (partParams op.params table.type) random with
    | (.error e,_) => some (.error e,op,disk)
    | (.ok _,table) =>
      match OperationUtils.writePartitionTable os disk op.params.sectorSize table with
      | (.error e,disk) => some (.error e,op,disk)
      | (.ok _,disk) =>
        let op := { op with createdIndex := op.indexCreated table }
        if op.params.formatAfter then
          let formatted := format disk
          some (formatted.1,op,formatted.2)
        else some (.ok (),op,disk)

def undo (fuel : Nat) (os : Win32) (disk : Disk) (op : CreatePartitionOp) :
    Option (Result Unit × CreatePartitionOp × Disk) :=
  if op.createdIndex < 0 then
    some (.error (.fromCode .invalidArgument "No partition to undo"),op,disk)
  else
    match OperationUtils.readPartitionTable fuel os disk op.params.sectorSize with
    | none => none
    | some (.error e) => some (.error e,op,disk)
    | some (.ok table) =>
      match table.deletePartition op.createdIndex with
      | (.error e,_) => some (.error e,op,disk)
      | (.ok _,table) =>
        match OperationUtils.writePartitionTable os disk op.params.sectorSize table with
        | (.error e,disk) => some (.error e,op,disk)
        | (.ok _,disk) => some (.ok (),{ op with createdIndex := -1 },disk)

end CreatePartitionOp

namespace DeletePartitionOp

/-- The first 4 KiB of the partition are zeroed as far as the disk lets it. -/
def wipe (os : Win32) (disk : Disk) (params : Params) (saved : PartitionEntry) : Disk :=
  match params.wipeFirstSectors,RawDiskHandle.openPath os .readWrite with
  | true,.ok _ =>
    let wipeSize : UInt32 := 4096
    let quotient := (wipeSize / params.sectorSize).toUInt64
    let wipeSecCount := if quotient = 0 then 1 else quotient
    (RawDiskHandle.writeSectors os disk .readWrite saved.startLba (List.replicate wipeSize.toNat 0)
      wipeSecCount params.sectorSize).2
  | _,_ => disk

def execute (fuel : Nat) (os : Win32) (disk : Disk) (op : DeletePartitionOp) :
    Option (Result Unit × DeletePartitionOp × Disk) :=
  match OperationUtils.lockIfMounted os op.params.driveLetter with
  | .error e => some (.error e,op,disk)
  | .ok _ =>
    match OperationUtils.readPartitionTable fuel os disk op.params.sectorSize with
    | none => none
    | some (.error e) => some (.error e,op,disk)
    | some (.ok table) =>
      match saveEntry table op.params.partitionIndex op.savedEntry with
      | none => some (.error (OperationUtils.partitionMissing op.params.partitionIndex),op,disk)
      | some saved =>
        let op := { op with savedEntry := some saved }
        let disk := wipe os disk op.params saved
        match table.deletePartition op.params.partitionIndex with
        | (.error e,_) => some (.error e,op,disk)
        | (.ok _,table) =>
          let written := OperationUtils.writePartitionTable os disk op.params.sectorSize table
          some (written.1,op,written.2)

def undoParams (saved : PartitionEntry) : PartitionParams where
  startLba := saved.startLba
  sectorCount := saved.sectorCount
  mbrType := saved.mbrType
  isActive := saved.isActive
  isLogical := saved.isLogical
  typeGuid := saved.typeGuid
  gptName := saved.gptName

def undo (fuel : Nat) (os : Win32) (random : Bytes 16) (disk : Disk) (op : DeletePartitionOp) :
    Option (Mutation Disk) :=
  match op.savedEntry with
  | none => some (.error (.fromCode .invalidArgument "No saved partition entry for undo"),disk)
  | some saved =>
    match OperationUtils.readPartitionTable fuel os disk op.params.sectorSize with
    | none => none
    | some (.error e) => some (.error e,disk)
    | some (.ok table) =>
      match table.addPartition (undoParams saved) random with
      | (.error e,_) => some (.error e,disk)
      | (.ok _,table) =>
        some (OperationUtils.writePartitionTable os disk op.params.sectorSize table)

end DeletePartitionOp

namespace ResizePartitionOp

def execute (fuel : Nat) (os : Win32) (disk : Disk) (op : ResizePartitionOp) :
    Option (Result Unit × ResizePartitionOp × Disk) :=
  match OperationUtils.lockIfMounted os op.params.driveLetter with
  | .error e => some (.error e,op,disk)
  | .ok _ =>
    match OperationUtils.readPartitionTable fuel os disk op.params.sectorSize with
    | none => none
    | some (.error e) => some (.error e,op,disk)
    | some (.ok table) =>
      match saveEntry table op.params.partitionIndex op.savedEntry with
      | none => some (.error (OperationUtils.partitionMissing op.params.partitionIndex),op,disk)
      | some saved =>
        let op := { op with savedEntry := some saved }
        if op.params.newSectorCount = 0 then
          some (.error (.fromCode .invalidArgument "New sector count cannot be zero"),op,disk)
        else
          match table.resizePartition op.params.partitionIndex op.params.newStartLba
              op.params.newSectorCount with
          | (.error e,_) => some (.error e,op,disk)
          | (.ok _,table) =>
            let written := OperationUtils.writePartitionTable os disk op.params.sectorSize table
            some (written.1,op,written.2)

def undo (fuel : Nat) (os : Win32) (disk : Disk) (op : ResizePartitionOp) : Option (Mutation Disk) :=
  match op.savedEntry with
  | none => some (.error (.fromCode .invalidArgument "No saved partition entry for undo"),disk)
  | some saved =>
    match OperationUtils.readPartitionTable fuel os disk op.params.sectorSize with
    | none => none
    | some (.error e) => some (.error e,disk)
    | some (.ok table) =>
      match table.resizePartition op.params.partitionIndex saved.startLba saved.sectorCount with
      | (.error e,_) => some (.error e,disk)
      | (.ok _,table) =>
        some (OperationUtils.writePartitionTable os disk op.params.sectorSize table)

end ResizePartitionOp

namespace SetFlagsOp

/-- Only the flag of an MBR is changed; attributes of a GPT are not. -/
def changeFlags (params : Params) : PartitionTable → Mutation PartitionTable
  | .mbr table =>
    match params.setActive with
    | none => (.ok (),.mbr table)
    | some true => (table.setActivePartition params.partitionIndex).map id .mbr
    | some false => (table.setActivePartition (-1)).map id .mbr
  | table => (.ok (),table)

def execute (fuel : Nat) (os : Win32) (disk : Disk) (op : SetFlagsOp) :
    Option (Result Unit × SetFlagsOp × Disk) :=
  match OperationUtils.readPartitionTable fuel os disk op.params.sectorSize with
  | none => none
  | some (.error e) => some (.error e,op,disk)
  | some (.ok table) =>
    match saveEntry table op.params.partitionIndex op.savedEntry with
    | none => some (.error (OperationUtils.partitionMissing op.params.partitionIndex),op,disk)
    | some saved =>
      let op := { op with savedEntry := some saved }
      match changeFlags op.params table with
      | (.error e,_) => some (.error e,op,disk)
      | (.ok _,table) =>
        let written := OperationUtils.writePartitionTable os disk op.params.sectorSize table
        some (written.1,op,written.2)

def undoParams (params : Params) (saved : PartitionEntry) : Params :=
  { params with
    setActive := params.setActive.map (fun _ => saved.isActive)
    gptAttributes := params.gptAttributes.map (fun _ => saved.gptAttributes) }

/-- The flags are restored by an operation of their own. -/
def undo (fuel : Nat) (os : Win32) (disk : Disk) (op : SetFlagsOp) : Option (Mutation Disk) :=
  match op.savedEntry with
  | none => some (.error (.fromCode .invalidArgument "No saved entry for undo"),disk)
  | some saved =>
    (execute fuel os disk { params := undoParams op.params saved }).map (fun run => (run.1,run.2.2))

end SetFlagsOp
end SetecWizard.Core
