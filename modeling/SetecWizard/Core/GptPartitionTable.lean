import SetecWizard.Core.PartitionEntry

/-! The GPT partition table: both headers, the entry array, the three mutators.
A header whose CRC does not match is only logged by the parser, which therefore
does not look at the CRC fields; `validateCrcs` does.
-/
namespace SetecWizard.Core
open SetecWizard.Library

structure GptPartitionTable where
  diskSizeBytes : UInt64 := 0
  sectorSize : UInt32 := SECTOR_SIZE_512
  protectiveMbr : Bytes 512 := .zero 512
  diskGuid : Guid := .zero 16
  revision : UInt32 := 0x00010000
  firstUsableLba : UInt64 := 34
  lastUsableLba : UInt64 := 0
  alternateLba : UInt64 := 0
  entryCount : UInt32 := GPT_MAX_PARTITIONS
  entrySize : UInt32 := GPT_ENTRY_SIZE
  entries : List PartitionEntry := []

def GptTypes.microsoftBasicData : Guid :=
  ⟨[0xA2,0xA0,0xD0,0xEB,0xE5,0xB9,0x33,0x44,0x87,0xC0,0x68,0xB6,0xB7,0x26,0x99,0xC7],rfl⟩

def Guid.generate (random : Bytes 16) : Guid :=
  ⟨(random.data.modify 7 (fun b => (b &&& 0x0F) ||| 0x40)).modify 8 (fun b => (b &&& 0x3F) ||| 0x80),
    by rw [List.length_modify,List.length_modify,random.size]⟩

namespace GptPartitionTable

def entryAt (sectorSize : UInt32) (entryData : List UInt8) (entrySize i : Nat) : PartitionEntry :=
  let entry := i * entrySize
  let startLba := readLE64 entryData (entry + 32)
  { index := i
    typeGuid := guidFromBytes entryData entry
    uniqueGuid := guidFromBytes entryData (entry + 16)
    startLba := startLba
    sectorCount := readLE64 entryData (entry + 40) - startLba + 1
    sectorSize := sectorSize
    gptAttributes := readLE64 entryData (entry + 48)
    gptName := utf16leToUtf8
      ((List.range 36).map (fun k => readLE16 entryData (entry + 56 + 2 * k))) 36 }

/-- The loop stops at the first entry the data does not hold in full. -/
def parseEntries (self : GptPartitionTable) (entryData : List UInt8) : GptPartitionTable :=
  let complete (i : Nat) : Bool :=
    i * self.entrySize.toNat + GPT_ENTRY_SIZE.toNat ≤ entryData.length
  let used := ((List.range self.entryCount.toNat).takeWhile complete).filter
    (fun i => !(guidFromBytes entryData (i * self.entrySize.toNat)).isZero)
  { self with entries := used.map (entryAt self.sectorSize entryData self.entrySize.toNat) }

def parse (self : GptPartitionTable) (readFunc : DiskReadCallback) : Result GptPartitionTable := do
  let sector0 ← readFunc 0 self.sectorSize
  let protectiveMbr :=
    if 512 ≤ sector0.length then .copy sector0 0 512 else self.protectiveMbr
  let headerData ← readFunc self.sectorSize.toUInt64 self.sectorSize
  refuse (headerData.length < GPT_HEADER_SIZE.toNat) .partitionTableCorrupt "GPT header too small"
  refuse (readLE64 headerData 0 ≠ GPT_HEADER_SIGNATURE) .partitionTableCorrupt
    "Invalid GPT header signature (expected 'EFI PART')"
  let entryCount := readLE32 headerData 80
  let entrySize := readLE32 headerData 84
  refuse (entrySize < GPT_ENTRY_SIZE) .partitionTableCorrupt
    "GPT entry size too small (minimum 128 bytes)"
  refuse (1024 < entryCount) .partitionTableCorrupt "GPT entry count unreasonably large"
  let entryData ← readFunc (readLE64 headerData 72 * self.sectorSize.toUInt64) (entryCount * entrySize)
  return parseEntries { self with
    protectiveMbr := protectiveMbr
    revision := readLE32 headerData 8
    alternateLba := readLE64 headerData 32
    firstUsableLba := readLE64 headerData 40
    lastUsableLba := readLE64 headerData 48
    diskGuid := guidFromBytes headerData 56
    entryCount := entryCount
    entrySize := entrySize } entryData

def parseBackup (self : GptPartitionTable) (readFunc : DiskReadCallback) : Result GptPartitionTable := do
  let alternateLba :=
    if self.alternateLba = 0 then self.diskSizeBytes / self.sectorSize.toUInt64 - 1
    else self.alternateLba
  let headerData ← readFunc (alternateLba * self.sectorSize.toUInt64) self.sectorSize
  refuse (headerData.length < GPT_HEADER_SIZE.toNat) .partitionTableCorrupt
    "Backup GPT header too small"
  refuse (readLE64 headerData 0 ≠ GPT_HEADER_SIGNATURE) .partitionTableCorrupt
    "Invalid backup GPT header signature"
  let entryCount := readLE32 headerData 80
  let entrySize := readLE32 headerData 84
  let entryData ← readFunc (readLE64 headerData 72 * self.sectorSize.toUInt64) (entryCount * entrySize)
  return parseEntries { self with
    alternateLba := alternateLba
    entryCount := entryCount
    entrySize := entrySize } entryData

def hex (n : UInt32) : String := String.ofList (Nat.toDigits 16 n.toNat)

/-- The bytes a header CRC is computed over: the CRC field itself counts as zero. -/
def crcInput (headerData : List UInt8) (headerSize : UInt32) : List UInt8 :=
  writeLE32 (headerData.take headerSize.toNat) 16 0

def validateCrcs (self : GptPartitionTable) (readFunc : DiskReadCallback) : Result Unit := do
  let headerData ← readFunc self.sectorSize.toUInt64 self.sectorSize
  let storedHeaderCrc := readLE32 headerData 16
  let computedHeaderCrc := crc32 (crcInput headerData (readLE32 headerData 12))
  refuse (computedHeaderCrc ≠ storedHeaderCrc) .partitionTableCorrupt
    ("GPT header CRC32 mismatch: stored=0x" ++ hex storedHeaderCrc ++ " computed=0x"
      ++ hex computedHeaderCrc)
  let entryArrayBytes := readLE32 headerData 80 * readLE32 headerData 84
  let entryData ← readFunc (readLE64 headerData 72 * self.sectorSize.toUInt64) entryArrayBytes
  refuse (crc32 (entryData.take entryArrayBytes.toNat) ≠ readLE32 headerData 88)
    .partitionTableCorrupt "GPT partition entry array CRC32 mismatch"

def overlapsExisting (t : GptPartitionTable) (start stop : UInt64) (excludeIndex : Int) : Bool :=
  t.entries.any (fun e =>
    e.index != excludeIndex && decide (start ≤ e.startLba + e.sectorCount - 1)
      && decide (e.startLba ≤ stop))

def diskSectors (t : GptPartitionTable) : UInt64 := t.diskSizeBytes / t.sectorSize.toUInt64

/-- `addPartition` computes the last usable LBA when the table has none yet. -/
def withLastUsable (t : GptPartitionTable) : GptPartitionTable :=
  if t.lastUsableLba = 0 then { t with lastUsableLba := t.diskSectors - 34 } else t

def usedSlots (t : GptPartitionTable) : List Bool :=
  t.entries.foldl (fun used e =>
    if 0 ≤ e.index ∧ e.index < (t.entryCount.toNat : Int) then used.set e.index.toNat true else used)
    (List.replicate t.entryCount.toNat false)

def freeSlot (t : GptPartitionTable) : Option Nat := t.usedSlots.findIdx? (!·)

def addChecks (t : GptPartitionTable) (params : PartitionParams) : Result Unit := do
  refuse (params.startLba < t.firstUsableLba) .invalidArgument
    "Partition start is before first usable LBA"
  let endLba := params.startLba + params.sectorCount - 1
  refuse (t.lastUsableLba < endLba) .partitionTooLarge
    "Partition extends beyond last usable LBA"
  refuse (t.overlapsExisting params.startLba endLba (-1)) .partitionOverlap
    "New partition overlaps an existing partition"

def newEntry (t : GptPartitionTable) (params : PartitionParams) (random : Bytes 16) (slot : Nat) :
    PartitionEntry :=
  { index := slot
    startLba := params.startLba
    sectorCount := params.sectorCount
    sectorSize := t.sectorSize
    typeGuid := if params.typeGuid.isZero then GptTypes.microsoftBasicData else params.typeGuid
    uniqueGuid := .generate random
    gptAttributes := 0
    gptName := params.gptName }

def addPartition (t : GptPartitionTable) (params : PartitionParams) (random : Bytes 16) :
    Mutation GptPartitionTable :=
  if params.sectorCount = 0 then
    (.error (.fromCode .invalidArgument "Partition size cannot be zero"),t)
  else
    let t := t.withLastUsable
    match t.addChecks params with
    | .error e => (.error e,t)
    | .ok _ =>
      match t.freeSlot with
      | none => (.error (.fromCode .partitionTableFull "No free GPT entry slots available"),t)
      | some slot => (.ok (),{ t with entries := t.entries ++ [t.newEntry params random slot] })

def deletePartition (t : GptPartitionTable) (index : Int) : Mutation GptPartitionTable :=
  match findIndex t.entries index with
  | none => (.error (.fromCode .partitionNotFound "GPT partition index not found"),t)
  | some pos => (.ok (),{ t with entries := t.entries.eraseIdx pos })

def resizeChecks (t : GptPartitionTable) (index : Int) (newStart newSize : UInt64) : Result Unit := do
  refuse (newSize = 0) .invalidArgument "Partition size cannot be zero"
  refuse (newStart < t.firstUsableLba) .invalidArgument "Partition start before first usable LBA"
  let newEnd := newStart + newSize - 1
  refuse (t.lastUsableLba < newEnd) .partitionTooLarge
    "Resized partition exceeds last usable LBA"
  refuse (t.overlapsExisting newStart newEnd index) .partitionOverlap
    "Resized partition overlaps another partition"

def resizePartition (t : GptPartitionTable) (index : Int) (newStart newSize : UInt64) :
    Mutation GptPartitionTable :=
  match findIndex t.entries index with
  | none => (.error (.fromCode .partitionNotFound "GPT partition index not found"),t)
  | some pos =>
    match t.resizeChecks index newStart newSize with
    | .error e => (.error e,t)
    | .ok _ =>
      (.ok (),{ t with entries := t.entries.modify pos (·.movedTo newStart newSize) })

def entryArrayBytes (t : GptPartitionTable) : UInt32 := t.entryCount * t.entrySize

def entryArraySectors (t : GptPartitionTable) : UInt32 :=
  (t.entryArrayBytes + t.sectorSize - 1) / t.sectorSize

def protectiveEntry (t : GptPartitionTable) : List UInt8 :=
  let protSize := if 0xFFFFFFFF < t.diskSectors - 1 then 0xFFFFFFFF else t.diskSectors - 1
  [0x00,0x00,0x02,0x00,MbrTypes.GPT_Protective] ++ encodeCHSOverflow ++ le32 1 ++ le32 protSize.toUInt32

def protMbr (t : GptPartitionTable) : List UInt8 :=
  let protMbr := List.replicate t.sectorSize.toNat 0
  let protMbr := splice protMbr 0 (t.protectiveMbr.data.take (min 512 t.sectorSize.toNat))
  let protMbr := splice protMbr MBR_PARTITION_ENTRY_OFFSET t.protectiveEntry
  let protMbr := splice protMbr (MBR_PARTITION_ENTRY_OFFSET + 16) (List.replicate 48 0)
  writeLE16 protMbr 510 MBR_SIGNATURE

/-- The 128 bytes of an entry; the end LBA is inclusive. -/
def entryBytes (pe : PartitionEntry) : List UInt8 :=
  pe.typeGuid.data ++ pe.uniqueGuid.data ++ le64 pe.startLba
    ++ le64 (pe.startLba + pe.sectorCount - 1) ++ le64 pe.gptAttributes
    ++ (utf8ToUtf16le pe.gptName 36).flatMap le16

def entryArray (t : GptPartitionTable) : List UInt8 :=
  t.entries.foldl (fun entryArray pe =>
    if pe.index < 0 ∨ (t.entryCount.toNat : Int) ≤ pe.index then entryArray
    else splice entryArray (pe.index.toNat * t.entrySize.toNat) (entryBytes pe))
    (List.replicate t.entryArrayBytes.toNat 0)

/-- The CRC goes in last, computed while its own field is zero. -/
def sealHeader (header : List UInt8) : List UInt8 :=
  let header := writeLE32 header 16 0
  writeLE32 header 16 (crc32 (header.take GPT_HEADER_SIZE.toNat))

def primaryHeader (t : GptPartitionTable) : List UInt8 :=
  let lastUsable :=
    if t.lastUsableLba = 0 then t.diskSectors - t.entryArraySectors.toUInt64 - 2 else t.lastUsableLba
  let header := List.replicate t.sectorSize.toNat 0
  let header := writeLE64 header 0 GPT_HEADER_SIGNATURE
  let header := writeLE32 header 8 t.revision
  let header := writeLE32 header 12 GPT_HEADER_SIZE
  let header := writeLE32 header 20 0
  let header := writeLE64 header 24 1
  let header := writeLE64 header 32 (t.diskSectors - 1)
  let header := writeLE64 header 40 t.firstUsableLba
  let header := writeLE64 header 48 lastUsable
  let header := splice header 56 t.diskGuid.data
  let header := writeLE64 header 72 2
  let header := writeLE32 header 80 t.entryCount
  let header := writeLE32 header 84 t.entrySize
  let header := writeLE32 header 88 (crc32 t.entryArray)
  sealHeader header

def backupHeader (t : GptPartitionTable) : List UInt8 :=
  let header := t.primaryHeader
  let header := writeLE64 header 24 (t.diskSectors - 1)
  let header := writeLE64 header 32 1
  let header := writeLE64 header 72 (t.diskSectors - 1 - t.entryArraySectors.toUInt64)
  sealHeader header

def paddedEntries (t : GptPartitionTable) : List UInt8 :=
  splice (List.replicate (t.entryArraySectors * t.sectorSize).toNat 0) 0 t.entryArray

def serialize (t : GptPartitionTable) : Result (List UInt8) :=
  .ok (t.protMbr ++ t.primaryHeader ++ t.paddedEntries ++ t.paddedEntries ++ t.backupHeader)

end GptPartitionTable

/-- A call of one of the three mutators; `addPartition` draws a random GUID. -/
inductive GptCall where
  | add (params : PartitionParams) (random : Bytes 16)
  | delete (index : Int)
  | resize (index : Int) (newStart newSize : UInt64)

def GptCall.apply (t : GptPartitionTable) : GptCall → Mutation GptPartitionTable
  | .add params random => t.addPartition params random
  | .delete index => t.deletePartition index
  | .resize index newStart newSize => t.resizePartition index newStart newSize

def GptCall.step (t : GptPartitionTable) (call : GptCall) : GptPartitionTable := (call.apply t).2

end SetecWizard.Core
