import SetecWizard.Core.PartitionEntry

/-! The MBR partition table: parsing with the walk along the EBR chain, the
three mutators, and serialization of the MBR sector followed by the EBR sectors.
The walk of the source need not end, so the functions that contain it take fuel
and return nothing when it runs out.
-/
namespace SetecWizard.Core
open SetecWizard.Library

structure MbrPartitionTable where
  diskSizeBytes : UInt64 := 0
  sectorSize : UInt32 := SECTOR_SIZE_512
  bootCode : Bytes 446 := .zero 446
  diskSignature : UInt32 := 0
  reserved : UInt16 := 0
  entries : List PartitionEntry := []
deriving DecidableEq

/-- The loop variables of `walkExtendedChain`, with the entries pushed so far. -/
structure EbrWalk where
  currentEbrLba : UInt64
  logicalCount : Nat
  entries : List PartitionEntry

/-- How one pass of the loop body leaves it: by going round again, by `break`,
or by returning the error of a failed read. -/
inductive EbrPass where
  | more (next : EbrWalk)
  | stop (last : EbrWalk)
  | fail (error : ErrorInfo) (last : EbrWalk)

def MAX_LOGICAL_PARTITIONS : Nat := 256

/-- The logical partition of an EBR, pushed only when its slot is in use. -/
def pushLogical (sectorSize : UInt32) (ebrData : List UInt8) (w : EbrWalk) : EbrWalk :=
  let type0 := ebrData.getD (MBR_PARTITION_ENTRY_OFFSET + 4) 0
  let lbaStart0 := readLE32 ebrData (MBR_PARTITION_ENTRY_OFFSET + 8)
  let sectorCount0 := readLE32 ebrData (MBR_PARTITION_ENTRY_OFFSET + 12)
  if type0 ≠ MbrTypes.Empty ∧ 0 < sectorCount0 then
    { w with
      logicalCount := w.logicalCount + 1
      entries := w.entries ++ [{
        index := w.entries.length
        startLba := w.currentEbrLba + lbaStart0.toUInt64
        sectorCount := sectorCount0.toUInt64
        sectorSize := sectorSize
        mbrType := type0
        isActive := ebrData.getD MBR_PARTITION_ENTRY_OFFSET 0 == 0x80
        isExtended := false
        isLogical := true
        chsStart := decodeCHS ebrData (MBR_PARTITION_ENTRY_OFFSET + 1)
        chsEnd := decodeCHS ebrData (MBR_PARTITION_ENTRY_OFFSET + 5) }] }
  else w

/-- The loop body of `walkExtendedChain`. -/
def ebrPass (sectorSize : UInt32) (readFunc : DiskReadCallback) (extStart extSize : UInt64)
    (w : EbrWalk) : EbrPass :=
  if w.currentEbrLba < extStart ∨ extStart + extSize ≤ w.currentEbrLba then .stop w
  else
    match readFunc (w.currentEbrLba * sectorSize.toUInt64) MBR_SIZE with
    | .error e => .fail e w
    | .ok ebrData =>
      if ebrData.length < MBR_SIZE.toNat then .stop w
      else if readLE16 ebrData 510 ≠ MBR_SIGNATURE then .stop w
      else
        let w := pushLogical sectorSize ebrData w
        let entry1 := MBR_PARTITION_ENTRY_OFFSET + MBR_PARTITION_ENTRY_SIZE
        let type1 := ebrData.getD (entry1 + 4) 0
        let lbaStart1 := readLE32 ebrData (entry1 + 8)
        if MbrTypes.isExtendedType type1 ∧ lbaStart1 ≠ 0 then
          .more { w with currentEbrLba := extStart + lbaStart1.toUInt64 }
        else .stop w

/-- The `while` loop. The entries survive a failed read. -/
def ebrLoop (sectorSize : UInt32) (readFunc : DiskReadCallback) (extStart extSize : UInt64) :
    Nat → EbrWalk → Option (Mutation (List PartitionEntry))
  | 0,_ => none
  | fuel + 1,w =>
    if w.currentEbrLba ≠ 0 ∧ w.logicalCount < MAX_LOGICAL_PARTITIONS then
      match ebrPass sectorSize readFunc extStart extSize w with
      | .more next => ebrLoop sectorSize readFunc extStart extSize fuel next
      | .stop last => some (.ok (),last.entries)
      | .fail e last => some (.error e,last.entries)
    else some (.ok (),w.entries)

def walkExtendedChain (fuel : Nat) (sectorSize : UInt32) (readFunc : DiskReadCallback)
    (extStart extSize : UInt64) (entries : List PartitionEntry) :
    Option (Mutation (List PartitionEntry)) :=
  ebrLoop sectorSize readFunc extStart extSize fuel ⟨extStart,0,entries⟩

/-- A slot with neither a type nor a range is skipped. -/
def slotEmpty (raw : List UInt8) (i : Nat) : Bool :=
  let entryPtr := MBR_PARTITION_ENTRY_OFFSET + i * MBR_PARTITION_ENTRY_SIZE
  raw.getD (entryPtr + 4) 0 == MbrTypes.Empty && readLE32 raw (entryPtr + 8) == 0
    && readLE32 raw (entryPtr + 12) == 0

def primaryEntry (sectorSize : UInt32) (raw : List UInt8) (i : Nat) : PartitionEntry :=
  let entryPtr := MBR_PARTITION_ENTRY_OFFSET + i * MBR_PARTITION_ENTRY_SIZE
  let type := raw.getD (entryPtr + 4) 0
  { index := i
    startLba := (readLE32 raw (entryPtr + 8)).toUInt64
    sectorCount := (readLE32 raw (entryPtr + 12)).toUInt64
    sectorSize := sectorSize
    mbrType := type
    isActive := raw.getD entryPtr 0 == 0x80
    isExtended := MbrTypes.isExtendedType type
    isLogical := false
    chsStart := decodeCHS raw (entryPtr + 1)
    chsEnd := decodeCHS raw (entryPtr + 5) }

def occupiedSlots (raw : List UInt8) : List Nat :=
  (List.range MBR_MAX_PRIMARY_PARTITIONS).filter (fun i => !slotEmpty raw i)

namespace MbrPartitionTable

/-- Parsing replaces every member but the disk's size and sector size. -/
def parse (fuel : Nat) (self : MbrPartitionTable) (readFunc : DiskReadCallback) :
    Option (Result MbrPartitionTable) :=
  match readFunc 0 MBR_SIZE with
  | .error e => some (.error e)
  | .ok raw =>
    if raw.length < MBR_SIZE.toNat then
      some (.error (.fromCode .partitionTableCorrupt "MBR sector too small"))
    else if readLE16 raw 510 ≠ MBR_SIGNATURE then
      some (.error (.fromCode .partitionTableCorrupt "Invalid MBR signature"))
    else
      let primaries := (occupiedSlots raw).map (primaryEntry self.sectorSize raw)
      let table : MbrPartitionTable := {
        diskSizeBytes := self.diskSizeBytes
        sectorSize := self.sectorSize
        bootCode := .copy raw 0 446
        diskSignature := readLE32 raw 440
        reserved := readLE16 raw 444
        entries := primaries }
      match primaries.find? (·.isExtended) with
      | none => some (.ok table)
      | some ext =>
        -- a failed walk is logged, and what it had pushed stays in the table
        (walkExtendedChain fuel self.sectorSize readFunc ext.startLba ext.sectorCount primaries).map
          (fun walked => .ok { table with entries := walked.2 })

def hasGptProtective (t : MbrPartitionTable) : Bool :=
  t.entries.any (fun e => e.mbrType == MbrTypes.GPT_Protective)

/-- The extended container `findExtendedIndex` points at. -/
def findExtended (t : MbrPartitionTable) : Option PartitionEntry :=
  t.entries.find? (fun e => e.isExtended && !e.isLogical)

def overlapsExisting (t : MbrPartitionTable) (start count : UInt64) (excludeIndex : Int) : Bool :=
  t.entries.any (fun e =>
    e.index != excludeIndex && e.sectorCount != 0
      && decide (start < e.startLba + e.sectorCount) && decide (e.startLba < start + count))

/-- The part of `addPartition` that depends on the kind of partition. -/
def roomFor (t : MbrPartitionTable) (params : PartitionParams) : Result Unit :=
  if params.isLogical then
    match t.findExtended with
    | none => .error (.fromCode .invalidArgument
        "No extended partition exists for logical partition creation")
    | some ext =>
      if params.startLba < ext.startLba
          ∨ ext.startLba + ext.sectorCount < params.startLba + params.sectorCount then
        .error (.fromCode .partitionOverlap
          "Logical partition does not fit within extended partition")
      else .ok ()
  else if MBR_MAX_PRIMARY_PARTITIONS ≤ (t.entries.filter (fun e => !e.isLogical)).length then
    .error (.fromCode .partitionTableFull "MBR supports at most 4 primary partitions")
  else .ok ()

/-- Every check `addPartition` makes before it touches the table, in its order. -/
def addChecks (t : MbrPartitionTable) (params : PartitionParams) : Result Unit := do
  refuse (params.sectorCount = 0) .invalidArgument "Partition size cannot be zero"
  t.roomFor params
  refuse (t.overlapsExisting params.startLba params.sectorCount (-1)) .partitionOverlap
    "New partition overlaps an existing partition"
  refuse (t.diskSizeBytes / t.sectorSize.toUInt64 < params.startLba + params.sectorCount)
    .partitionTooLarge "Partition extends beyond disk boundary"
  refuse (0xFFFFFFFF < params.startLba ∨ 0xFFFFFFFF < params.sectorCount)
    .partitionTooLarge "MBR cannot address sectors beyond 2 TiB"

/-- The last LBA the 255/63 geometry is used for. -/
def CHS_LIMIT : UInt64 := 16450559

def newEntry (t : MbrPartitionTable) (params : PartitionParams) : PartitionEntry :=
  let geo : CHSGeometry := ⟨255,63⟩
  let chs (lba : UInt64) : CHSAddress :=
    if CHS_LIMIT < params.startLba then ⟨1023,254,63⟩
    else (DiskGeometry.lbaToChs lba geo).toOption.getD {}
  { index := t.entries.length
    startLba := params.startLba
    sectorCount := params.sectorCount
    sectorSize := t.sectorSize
    mbrType := params.mbrType
    isActive := params.isActive
    isExtended := MbrTypes.isExtendedType params.mbrType
    isLogical := params.isLogical
    chsStart := chs params.startLba
    chsEnd := chs (params.startLba + params.sectorCount - 1) }

def addPartition (t : MbrPartitionTable) (params : PartitionParams) : Mutation MbrPartitionTable :=
  match t.addChecks params with
  | .error e => (.error e,t)
  | .ok _ => (.ok (),{ t with entries := t.entries ++ [t.newEntry params] })

def reindex (entries : List PartitionEntry) : List PartitionEntry :=
  entries.mapIdx (fun i e => { e with index := i })

/-- What is left of the entries when the one at `pos` goes: a container takes all
logical partitions with it, and the entry itself is looked up again afterwards. -/
def withoutEntry (entries : List PartitionEntry) (pos : Nat) (e : PartitionEntry) :
    List PartitionEntry :=
  if e.isExtended && !e.isLogical then
    let rest := entries.filter (fun e => !e.isLogical)
    match findIndex rest e.index with
    | none => rest
    | some again => rest.eraseIdx again
  else entries.eraseIdx pos

def deletePartition (t : MbrPartitionTable) (index : Int) : Mutation MbrPartitionTable :=
  match findIndex t.entries index with
  | none => (.error (.fromCode .partitionNotFound "Partition index not found"),t)
  | some pos =>
    let target := t.entries[pos]?.getD {}
    (.ok (),{ t with entries := reindex (withoutEntry t.entries pos target) })

/-- Every check `resizePartition` makes once the entry is found, in its order. -/
def resizeChecks (t : MbrPartitionTable) (index : Int) (newStart newSize : UInt64) : Result Unit := do
  refuse (newSize = 0) .invalidArgument "Partition size cannot be zero"
  refuse (t.diskSizeBytes / t.sectorSize.toUInt64 < newStart + newSize)
    .partitionTooLarge "Resized partition exceeds disk boundary"
  refuse (0xFFFFFFFF < newStart ∨ 0xFFFFFFFF < newSize)
    .partitionTooLarge "MBR cannot address beyond 2 TiB"
  refuse (t.overlapsExisting newStart newSize index) .partitionOverlap
    "Resized partition overlaps another partition"

def resizePartition (t : MbrPartitionTable) (index : Int) (newStart newSize : UInt64) :
    Mutation MbrPartitionTable :=
  match findIndex t.entries index with
  | none => (.error (.fromCode .partitionNotFound "Partition index not found"),t)
  | some pos =>
    match t.resizeChecks index newStart newSize with
    | .error e => (.error e,t)
    | .ok _ =>
      (.ok (),{ t with entries := t.entries.modify pos (·.movedTo newStart newSize) })

def setActivePartition (t : MbrPartitionTable) (index : Int) : Mutation MbrPartitionTable :=
  let cleared := t.entries.map (fun e => if e.isLogical then e else { e with isActive := false })
  if index < 0 then (.ok (),{ t with entries := cleared })
  else
    match cleared.findIdx? (fun e => e.index == index && !e.isLogical) with
    | none => (.error (.fromCode .partitionNotFound "Primary partition index not found"),
        { t with entries := cleared })
    | some pos => (.ok (),{ t with
        entries := cleared.modify pos (fun e => { e with isActive := true }) })

def chsBytes (e : PartitionEntry) (chs : CHSAddress) : List UInt8 :=
  if CHS_LIMIT < e.startLba then encodeCHSOverflow else encodeCHS chs

def statusByte (e : PartitionEntry) : UInt8 := if e.isActive then 0x80 else 0x00

def primarySlot (e : PartitionEntry) : List UInt8 :=
  [statusByte e] ++ chsBytes e e.chsStart ++ [e.mbrType] ++ chsBytes e e.chsEnd
    ++ le32 e.startLba.toUInt32 ++ le32 e.sectorCount.toUInt32

def primaries (t : MbrPartitionTable) : List PartitionEntry :=
  t.entries.filter (fun e => !e.isLogical)

def logicals (t : MbrPartitionTable) : List PartitionEntry :=
  t.entries.filter (·.isLogical)

/-- The MBR sector: the first four primaries fill the slots from the first one on,
whatever slot they were read from. -/
def mbrSector (t : MbrPartitionTable) : List UInt8 :=
  let mbr := List.replicate MBR_SIZE.toNat 0
  let mbr := splice mbr 0 (t.bootCode.data.take 440)
  let mbr := writeLE32 mbr 440 t.diskSignature
  let mbr := writeLE16 mbr 444 t.reserved
  let mbr := splice mbr MBR_PARTITION_ENTRY_OFFSET
    ((t.primaries.take MBR_MAX_PRIMARY_PARTITIONS).flatMap primarySlot)
  writeLE16 mbr 510 MBR_SIGNATURE

/-- The first slot of an EBR: the data starts one sector after the EBR. -/
def logicalSlot (e : PartitionEntry) : List UInt8 :=
  [statusByte e] ++ encodeCHSOverflow ++ [e.mbrType] ++ encodeCHSOverflow
    ++ le32 1 ++ le32 e.sectorCount.toUInt32

/-- The second slot of an EBR: the next EBR, relative to the container. -/
def linkSlot (extStartLba : UInt64) (next : PartitionEntry) : List UInt8 :=
  [0x00] ++ encodeCHSOverflow ++ [MbrTypes.Extended] ++ encodeCHSOverflow
    ++ le32 (next.startLba - 1 - extStartLba).toUInt32 ++ le32 (next.sectorCount + 1).toUInt32

def ebrSector (extStartLba : UInt64) (e : PartitionEntry) (next : Option PartitionEntry) :
    List UInt8 :=
  let ebr := List.replicate MBR_SIZE.toNat 0
  let ebr := splice ebr MBR_PARTITION_ENTRY_OFFSET (logicalSlot e)
  let ebr := match next with
    | none => ebr
    | some next => splice ebr (MBR_PARTITION_ENTRY_OFFSET + MBR_PARTITION_ENTRY_SIZE)
        (linkSlot extStartLba next)
  writeLE16 ebr 510 MBR_SIGNATURE

def ebrSectors (extStartLba : UInt64) : List PartitionEntry → List UInt8
  | [] => []
  | e :: rest => ebrSector extStartLba e rest.head? ++ ebrSectors extStartLba rest

def serialize (t : MbrPartitionTable) : Result (List UInt8) :=
  match t.findExtended with
  | none => .ok t.mbrSector
  | some ext => .ok (t.mbrSector ++ ebrSectors ext.startLba t.logicals)

end MbrPartitionTable

/-- A call of one of the three mutators. -/
inductive MbrCall where
  | add (params : PartitionParams)
  | delete (index : Int)
  | resize (index : Int) (newStart newSize : UInt64)

def MbrCall.apply (t : MbrPartitionTable) : MbrCall → Mutation MbrPartitionTable
  | .add params => t.addPartition params
  | .delete index => t.deletePartition index
  | .resize index newStart newSize => t.resizePartition index newStart newSize

def MbrCall.step (t : MbrPartitionTable) (call : MbrCall) : MbrPartitionTable := (call.apply t).2

end SetecWizard.Core
