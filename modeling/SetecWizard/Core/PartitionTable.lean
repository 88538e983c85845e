import SetecWizard.Core.MbrPartitionTable
import SetecWizard.Core.GptPartitionTable

/-! The partition table interface: the read-only Apple map, detection of the
kind of table on a disk, and new tables.
-/
namespace SetecWizard.Core
open SetecWizard.Library

structure ApmPartitionTable where
  diskSizeBytes : UInt64 := 0
  sectorSize : UInt32 := SECTOR_SIZE_512
  blockSize : UInt32 := 512
  blockCount : UInt32 := 0
  entries : List PartitionEntry := []

namespace ApmPartitionTable

def entryAt (blockSize : UInt32) (entryData : List UInt8) (i : Nat) : PartitionEntry :=
  { index := i
    sectorSize := blockSize
    startLba := (readBE32 entryData 8).toUInt64
    sectorCount := (readBE32 entryData 12).toUInt64
    apmName := (slice entryData 16 32).takeWhile (· ≠ 0)
    apmType := (slice entryData 48 32).takeWhile (· ≠ 0) }

/-- The entries from number `i` on; the first unreadable one ends the map. -/
def readEntries (readFunc : DiskReadCallback) (blockSize : UInt32) : Nat → Nat → List PartitionEntry
  | 0,_ => []
  | left + 1,i =>
    match readFunc (UInt64.ofNat (i + 1) * blockSize.toUInt64) blockSize with
    | .error _ => []
    | .ok entryData =>
      if entryData.length < 512 ∨ readBE16 entryData 0 ≠ APM_SIGNATURE then []
      else entryAt blockSize entryData i :: readEntries readFunc blockSize left (i + 1)

def parse (self : ApmPartitionTable) (readFunc : DiskReadCallback) : Result ApmPartitionTable := do
  let block0 ← readFunc 0 512
  refuse (block0.length < 512) .partitionTableCorrupt "APM block 0 too small"
  refuse (readBE16 block0 0 ≠ APM_DDM_SIGNATURE) .partitionTableCorrupt
    "Invalid APM Driver Descriptor Map signature"
  let reported := (readBE16 block0 2).toUInt32
  let blockSize := if reported = 0 ∨ 65536 < reported then 512 else reported
  let entry1 ← readFunc blockSize.toUInt64 blockSize
  refuse (entry1.length < 512) .partitionTableCorrupt "APM partition entry too small"
  refuse (readBE16 entry1 0 ≠ APM_SIGNATURE) .partitionTableCorrupt
    "Invalid APM partition map signature"
  let mapEntryCount := min (readBE32 entry1 4).toNat 256
  return { self with
    blockSize := blockSize
    blockCount := readBE32 block0 4
    entries := readEntries readFunc blockSize mapEntryCount 0 }

end ApmPartitionTable

inductive PartitionTableType where
  | unknown | mbr | gpt | apm
deriving DecidableEq

inductive PartitionTable where
  | mbr (table : MbrPartitionTable)
  | gpt (table : GptPartitionTable)
  | apm (table : ApmPartitionTable)

namespace PartitionTable

def type : PartitionTable → PartitionTableType
  | .mbr _ => .mbr
  | .gpt _ => .gpt
  | .apm _ => .apm

def partitions : PartitionTable → List PartitionEntry
  | .mbr table => table.entries
  | .gpt table => table.entries
  | .apm table => table.entries

def modificationUnsupported : ErrorInfo :=
  .fromCode .notImplemented "APM partition modification is not supported (read-only)"

/-- Only a GPT draws a GUID for the new partition. -/
def addPartition (params : PartitionParams) (random : Bytes 16) :
    PartitionTable → Mutation PartitionTable
  | .mbr table => (table.addPartition params).map id .mbr
  | .gpt table => (table.addPartition params random).map id .gpt
  | .apm table => (.error modificationUnsupported,.apm table)

def deletePartition (index : Int) : PartitionTable → Mutation PartitionTable
  | .mbr table => (table.deletePartition index).map id .mbr
  | .gpt table => (table.deletePartition index).map id .gpt
  | .apm table => (.error modificationUnsupported,.apm table)

def resizePartition (index : Int) (newStart newSize : UInt64) :
    PartitionTable → Mutation PartitionTable
  | .mbr table => (table.resizePartition index newStart newSize).map id .mbr
  | .gpt table => (table.resizePartition index newStart newSize).map id .gpt
  | .apm table => (.error modificationUnsupported,.apm table)

def serialize : PartitionTable → Result (List UInt8)
  | .mbr table => table.serialize
  | .gpt table => table.serialize
  | .apm _ => .error (.fromCode .notImplemented "APM serialization is not supported (read-only)")

/-- A protective entry whose GPT cannot be parsed leaves the table an MBR. -/
def parse (fuel : Nat) (readFunc : DiskReadCallback) (diskSizeBytes : UInt64) (sectorSize : UInt32) :
    Option (Result PartitionTable) :=
  match readFunc 0 sectorSize with
  | .error e => some (.error e)
  | .ok sector0 =>
    if sector0.length < 512 then
      some (.error (.fromCode .partitionTableCorrupt "Sector 0 too small"))
    else if readBE16 sector0 0 = APM_DDM_SIGNATURE then
      some ((ApmPartitionTable.parse { diskSizeBytes, sectorSize } readFunc).map .apm)
    else if readLE16 sector0 510 ≠ MBR_SIGNATURE then
      some (.error (.fromCode .partitionTableCorrupt
        "No valid partition table signature (expected 0xAA55 at offset 510)"))
    else
      match MbrPartitionTable.parse fuel { diskSizeBytes, sectorSize } readFunc with
      | none => none
      | some (.error e) => some (.error e)
      | some (.ok table) =>
        if table.hasGptProtective then
          match GptPartitionTable.parse { diskSizeBytes, sectorSize } readFunc with
          | .error _ => some (.ok (.mbr table))
          | .ok backing => some (.ok (.gpt backing))
        else some (.ok (.mbr table))

/-- A table without entries; a GPT without a disk GUID is given a random one. -/
def createNew (kind : PartitionTableType) (diskSizeBytes : UInt64) (sectorSize : UInt32)
    (diskGuid : Guid) (random : Bytes 16) : Option PartitionTable :=
  match kind with
  | .mbr => some (.mbr { diskSizeBytes,sectorSize })
  | .gpt =>
    let guid := if diskGuid.isZero then Guid.generate random else diskGuid
    some (.gpt { diskSizeBytes,sectorSize,diskGuid := guid })
  | .apm => some (.apm { diskSizeBytes,sectorSize })
  | .unknown => none

end PartitionTable
end SetecWizard.Core
