import SetecWizard.Core.FileRecovery
import SetecWizard.Library.Footprint

/-! Recovery of deleted files from ext2, ext3 and ext4: the scan of the inode tables, and the
copy of a file from the blocks its inode names. The scan keeps a record of what it does with
the numbers it finds.
-/
namespace SetecWizard.Core.FileRecovery
open SetecWizard.Library

def EXT_SUPER_MAGIC : UInt16 := 0xEF53

structure ExtSuperblock where
  inodeCount : UInt32
  blockCount : UInt32
  firstDataBlock : UInt32
  logBlockSize : UInt32
  blocksPerGroup : UInt32
  inodesPerGroup : UInt32
  inodeSize : UInt16
  incompatFeatures : UInt32

/-- An inode size of 0 stands for the one of ext2. -/
def extSuperblock (sb : List UInt8) : ExtSuperblock where
  inodeCount := readLE32 sb 0x00
  blockCount := readLE32 sb 0x04
  firstDataBlock := readLE32 sb 0x14
  logBlockSize := readLE32 sb 0x18
  blocksPerGroup := readLE32 sb 0x20
  inodesPerGroup := readLE32 sb 0x28
  inodeSize := if readLE16 sb 0x58 = 0 then 128 else readLE16 sb 0x58
  incompatFeatures := readLE32 sb 0x60

def superblockFields : List (Nat × Nat) :=
  [(0x38,2),(0x00,4),(0x04,4),(0x14,4),(0x18,4),(0x20,4),(0x28,4),(0x58,2),(0x60,4)]

namespace ExtSuperblock

variable (v : ExtSuperblock)

def blockSize : UInt32 := 1024 <<< v.logBlockSize

def blockGroups : UInt32 := (v.blockCount + v.blocksPerGroup - 1) / v.blocksPerGroup

def bgdtOffset : UInt64 :=
  (if v.firstDataBlock = 0 then 1 else v.firstDataBlock + 1).toUInt64 * v.blockSize.toUInt64

def is64bit : Bool := v.incompatFeatures &&& 0x80 != 0

def bgdSize : UInt32 := if v.is64bit then 64 else 32

def bgdOffset (bg : UInt32) : UInt64 := v.bgdtOffset + (bg * v.bgdSize).toUInt64

def inodesInThisGroup (bg : UInt32) : UInt32 := min v.inodesPerGroup (v.inodeCount - bg * v.inodesPerGroup)

def tableSize (bg : UInt32) : UInt32 := v.inodesInThisGroup bg * v.inodeSize.toUInt32

def descriptorBlock (bgd : List UInt8) (low high : Nat) : UInt64 :=
  let block := (readLE32 bgd low).toUInt64
  if v.is64bit ∧ high + 4 ≤ bgd.length then block ||| ((readLE32 bgd high).toUInt64 <<< 32) else block

def descriptorAccesses (bgd : List UInt8) (low high : Nat) : List Access :=
  ⟨bgd.length,low,4⟩ :: if v.is64bit ∧ high + 4 ≤ bgd.length then [⟨bgd.length,high,4⟩] else []

def inodeTableOffset (bgd : List UInt8) : UInt64 := v.descriptorBlock bgd 8 40 * v.blockSize.toUInt64

def inodeBitmapOffset (bgd : List UInt8) : UInt64 := v.descriptorBlock bgd 4 36 * v.blockSize.toUInt64

end ExtSuperblock

/-- What a scan does: what it divides by, by how much it shifts numbers of 32 bits, where it
reads in its buffers, the inodes it comes to and the files it reports. -/
structure ExtTrace where
  divisors : List UInt32 := []
  shifts : List UInt32 := []
  accesses : List Access := []
  visited : List UInt32 := []
  files : List RecoverableFile := []

instance : Append ExtTrace where
  append first second := {
    divisors := first.divisors ++ second.divisors
    shifts := first.shifts ++ second.shifts
    accesses := first.accesses ++ second.accesses
    visited := first.visited ++ second.visited
    files := first.files ++ second.files }

namespace ExtTrace

variable (first second : ExtTrace)

@[simp] theorem divisors_append : (first ++ second).divisors = first.divisors ++ second.divisors := rfl

@[simp] theorem shifts_append : (first ++ second).shifts = first.shifts ++ second.shifts := rfl

@[simp] theorem accesses_append : (first ++ second).accesses = first.accesses ++ second.accesses := rfl

@[simp] theorem visited_append : (first ++ second).visited = first.visited ++ second.visited := rfl

@[simp] theorem files_append : (first ++ second).files = first.files ++ second.files := rfl

end ExtTrace

section Inode

variable (inodeSize : UInt16) (inode : List UInt8)

def regular : Bool := readLE16 inode 0 &&& 0xF000 == 0x8000

def inodeFileSize : UInt64 :=
  let sizeHi := if 128 ≤ inodeSize then readLE32 inode 108 else 0
  (readLE32 inode 4).toUInt64 ||| (sizeHi.toUInt64 <<< 32)

def directBlocks : List UInt32 :=
  ((List.range 12).map (fun bp => readLE32 inode (40 + bp * 4))).takeWhile (· ≠ 0)

def pushBlock (dataRuns : List DataRun) (blockNum : UInt32) : List DataRun :=
  match dataRuns.getLast? with
  | none => [{ clusterOffset := blockNum.toUInt64,clusterCount := 1 }]
  | some back =>
    if back.clusterOffset + back.clusterCount = blockNum.toUInt64 then
      dataRuns.dropLast ++ [{ back with clusterCount := back.clusterCount + 1 }]
    else dataRuns ++ [{ clusterOffset := blockNum.toUInt64,clusterCount := 1 }]

def usesExtents : Bool := readLE32 inode 32 &&& 0x80000 != 0

def extentMagic : UInt16 := 0xF30A

def extOffset (e : Nat) : Nat := 40 + 12 + e * 12

/-- The entries of the extent header that lie within the inode, four at most. -/
def extentSlots : List Nat :=
  (List.range (min (readLE16 inode 42).toNat 4)).takeWhile (fun e => extOffset e + 12 ≤ inodeSize.toNat)

def extentRun (e : Nat) : DataRun :=
  let eeLen := readLE16 inode (extOffset e + 4)
  { clusterOffset :=
      (readLE32 inode (extOffset e + 8)).toUInt64 ||| ((readLE16 inode (extOffset e + 6)).toUInt64 <<< 32)
    clusterCount := (if 32768 < eeLen then eeLen - 32768 else eeLen).toUInt64 }

def inodeRuns : List DataRun :=
  if usesExtents inode then
    if readLE16 inode 40 = extentMagic then (extentSlots inodeSize inode).map (extentRun inode) else []
  else (directBlocks inode).foldl pushBlock []

def inodeFields : List (Nat × Nat) :=
  (0,2) :: if regular inode then
    (4,4) :: (if 128 ≤ inodeSize then [(108,4)] else []) ++
      if inodeFileSize inodeSize inode = 0 then []
      else
        (20,4) :: (List.range (min 12 ((directBlocks inode).length + 1))).map (fun bp => (40 + bp * 4,4)) ++
          (32,4) :: if usesExtents inode then
            (40,2) :: (42,2) :: if readLE16 inode 40 = extentMagic then
              (extentSlots inodeSize inode).flatMap
                (fun e => [(extOffset e + 4,2),(extOffset e + 6,2),(extOffset e + 8,4)])
            else []
          else []
  else []

def inodeFile (r : FileRecovery) (fsType : FilesystemType) (inodeNumber : UInt32) : RecoverableFile where
  filename := ("inode_" ++ toString inodeNumber.toNat).toList
  sizeBytes := inodeFileSize inodeSize inode
  sourceFs := fsType
  confidence := if inodeRuns inodeSize inode = [] then 25 else 65
  partitionStartLba := r.partStart
  sectorSize := r.sectorSize
  inodeNumber := inodeNumber.toUInt64
  dataRuns := inodeRuns inodeSize inode

end Inode

section Scan

variable (env : RecoveryEnv) (r : FileRecovery) (disk : Disk) (fsType : FilesystemType) (v : ExtSuperblock)

/-- One inode of a chunk, and whether the chunk goes on behind it. The reserved ones and those
in use are passed over. -/
def scanInode (bg : UInt32) (inodeBitmap chunkData : List UInt8) (firstInodeInChunk localIdx : UInt32) :
    ExtTrace × Bool :=
  let inodeNumber := bg * v.inodesPerGroup + firstInodeInChunk + localIdx + 1
  if inodeNumber ≤ 10 then ({ visited := [inodeNumber] },true)
  else
    let bitmapIdx := firstInodeInChunk + localIdx
    let byteIdx := (bitmapIdx / 8).toNat
    let looked : ExtTrace := {
      visited := [inodeNumber]
      shifts := if inodeBitmap = [] then [] else [bitmapIdx % 8]
      accesses := if byteIdx < inodeBitmap.length then [⟨inodeBitmap.length,byteIdx,1⟩] else [] }
    if byteIdx < inodeBitmap.length ∧ inodeBitmap.getD byteIdx 0 &&& (1 <<< (bitmapIdx % 8).toUInt8) ≠ 0 then
      (looked,true)
    else
      let inodeOffset := localIdx * v.inodeSize.toUInt32
      if chunkData.length < (inodeOffset + 128).toNat then (looked,false)
      else
        let inode := chunkData.drop inodeOffset.toNat
        let found : ExtTrace := {
          accesses := (inodeFields v.inodeSize inode).map
            (fun field => ⟨chunkData.length,inodeOffset.toNat + field.1,field.2⟩)
          files := if regular inode ∧ inodeFileSize v.inodeSize inode ≠ 0 then
            [inodeFile v.inodeSize inode r fsType inodeNumber] else [] }
        (looked ++ found,true)

def scanInodes (bg : UInt32) (inodeBitmap chunkData : List UInt8) (firstInodeInChunk : UInt32) :
    List Nat → ExtTrace
  | [] => {}
  | localIdx :: rest =>
    match scanInode r fsType v bg inodeBitmap chunkData firstInodeInChunk (.ofNat localIdx) with
    | (here,false) => here
    | (here,true) => here ++ scanInodes bg inodeBitmap chunkData firstInodeInChunk rest

def chunkSize : UInt32 := 64 * 1024

def scanChunk (bg : UInt32) (inodeBitmap : List UInt8) (chunkStart thisChunk : UInt32) (chunkData : List UInt8) :
    ExtTrace :=
  let counted : ExtTrace := { divisors := [v.inodeSize.toUInt32] }
  counted ++ scanInodes r fsType v bg inodeBitmap chunkData (chunkStart / v.inodeSize.toUInt32)
    (List.range (thisChunk / v.inodeSize.toUInt32).toNat)

/-- The inode table of a group from some byte on, `none` while it has not ended. The position
is a number of 32 bits, so it may start again from 0. -/
def scanChunks (bg : UInt32) (inodeTableOffset : UInt64) (inodeBitmap : List UInt8) (tableSize : UInt32) :
    Nat → UInt32 → Option ExtTrace
  | 0, _ => none
  | fuel + 1, chunkStart =>
    if ¬ chunkStart < tableSize then some {}
    else
      let thisChunk := min chunkSize (tableSize - chunkStart)
      match readPartitionBytes env r disk (inodeTableOffset + chunkStart.toUInt64) thisChunk with
      | .error _ => some {}
      | .ok chunkData =>
        (scanChunks bg inodeTableOffset inodeBitmap tableSize fuel (chunkStart + chunkSize)).map
          (fun rest => scanChunk r fsType v bg inodeBitmap chunkStart thisChunk chunkData ++ rest)

def inodeBitmapOf (bgd : List UInt8) : List UInt8 :=
  match readPartitionBytes env r disk (v.inodeBitmapOffset bgd) (v.inodesPerGroup / 8) with
  | .error _ => []
  | .ok bitmap => bitmap

def scanGroup (fuel : Nat) (bg : UInt32) : Option ExtTrace :=
  match readPartitionBytes env r disk (v.bgdOffset bg) v.bgdSize with
  | .error _ => some {}
  | .ok bgd =>
    if bgd.length < 32 then some {}
    else
      let described : ExtTrace := { accesses := v.descriptorAccesses bgd 8 40 ++ v.descriptorAccesses bgd 4 36 }
      (scanChunks env r disk fsType v bg (v.inodeTableOffset bgd) (inodeBitmapOf env r disk v bgd) (v.tableSize bg)
        fuel 0).map (fun chunks => described ++ chunks)

def scanGroups (fuel : Nat) : Nat → UInt32 → Option (ExtTrace × Result Unit)
  | 0, _ => some ({},.ok ())
  | left + 1, bg =>
    if env.canceled bg.toUInt64 then some ({},.error (.fromCode .operationCanceled ""))
    else match scanGroup env r disk fsType v fuel bg with
      | none => none
      | some here => (scanGroups fuel left (bg + 1)).map (fun rest => (here ++ rest.1,rest.2))

end Scan

/-- A scan that has come to an end. -/
structure ExtScan where
  trace : ExtTrace := {}
  result : Result (List RecoverableFile)

section Files

variable (env : RecoveryEnv) (r : FileRecovery) (disk : Disk)

def scanExt (fsType : FilesystemType) (fuel : Nat) : Option ExtScan :=
  match readPartitionBytes env r disk 1024 1024 with
  | .error e => some { result := .error e }
  | .ok sb =>
    if sb.length < 256 then some { result := .error (.fromCode .filesystemCorrupt "ext superblock too small") }
    else if readLE16 sb 0x38 ≠ EXT_SUPER_MAGIC then
      some {
        trace := { accesses := [⟨sb.length,0x38,2⟩] }
        result := .error (.fromCode .filesystemCorrupt "Not an ext2/3/4 volume") }
    else
      let v := extSuperblock sb
      let head : ExtTrace := {
        divisors := [v.blocksPerGroup]
        shifts := [v.logBlockSize]
        accesses := superblockFields.map (fun field => ⟨sb.length,field.1,field.2⟩) }
      if v.blockGroups = 0 then
        some { trace := head,result := .error (.fromCode .filesystemCorrupt "0 block groups") }
      else (scanGroups env r disk fsType v fuel v.blockGroups.toNat 0).map (fun groups => {
        trace := head ++ groups.1
        result := match groups.2 with
          | .error e => .error e
          | .ok _ => .ok groups.1.files })

def recoverExtFile (file : RecoverableFile) (outputPath : String) (fuel : Nat) :
    Option (Result Unit × Option (List UInt8)) :=
  match readPartitionBytes env r disk 1024 256 with
  | .error e => some (.error e,none)
  | .ok sb =>
    let blockSize : UInt32 := 1024 <<< readLE32 sb 0x18
    if env.creates outputPath = false then
      some (.error (.fromCode .fileCreateFailed ("Cannot create output file: " ++ outputPath)),none)
    else
      (copyEach env r disk (fun run => run.clusterOffset * blockSize.toUInt64) blockSize file.sizeBytes fuel
        file.dataRuns []).map (fun outcome => (outcome.1,some outcome.2))

end Files
end SetecWizard.Core.FileRecovery
