import SetecWizard.Core.ExtRecovery
import SetecWizard.Recovery.FatFile

/-! A deleted file of ext2, ext3 or ext4. The scan takes the blocks of a file from its inode
alone, so what the copy has written when it succeeds is the file or the part of it that these
blocks hold.
-/
namespace SetecWizard.Core.FileRecovery
open SetecWizard.Library

variable {env : RecoveryEnv} {r : FileRecovery} {disk : Disk} {fsType : FilesystemType}

def blockCount (runs : List DataRun) : Nat := (runs.map (fun run => run.clusterCount.toNat)).sum

theorem blockCount_cons (run : DataRun) (rest : List DataRun) :
    blockCount (run :: rest) = run.clusterCount.toNat + blockCount rest := by
  rw [blockCount,List.map_cons,List.sum_cons,blockCount]

theorem blockCount_append (first second : List DataRun) :
    blockCount (first ++ second) = blockCount first + blockCount second := by
  rw [blockCount,List.map_append,List.sum_append,blockCount,blockCount]

section Copied

variable (positive : 0 < r.sectorSize.toNat) (moderate : r.sectorSize.toNat ≤ 65536)
include positive moderate

theorem length_readPartitionBytes {offset : UInt64} {size : UInt32} {data : List UInt8} (small : size.toNat < 2 ^ 31)
    (read : readPartitionBytes env r disk offset size = .ok data) : data.length = size.toNat := by
  obtain ⟨_,part⟩ := PartitionRecovery.sector_of positive (r.partStart * r.sectorSize.toUInt64 + offset)
  have below := Nat.mod_lt (r.partStart * r.sectorSize.toUInt64 + offset).toNat positive
  unfold readPartitionBytes at read
  simp only at read
  split at read
  next => cases read
  next bytes _ =>
    split at read
    next => cases read
    next enough =>
      rw [UInt32.toNat_add,Nat.mod_eq_of_lt (by omega)] at enough
      rw [← Except.ok.inj read,slice,List.length_take,List.length_drop]
      omega

variable {sizeBytes : UInt64} (some_size : 0 < sizeBytes.toNat)
include some_size

/-- A run is copied up to the size of the file, unless a read fails. -/
theorem length_copyRun {runByteOffset runByteSize : UInt64} (short : runByteSize.toNat < 2 ^ 63) {fuel : Nat}
    {off : UInt64} {out : List UInt8} (fits : out.length ≤ sizeBytes.toNat) (bounded : off.toNat < 2 ^ 63 + 2 ^ 20)
    (enough : runByteSize.toNat ≤ off.toNat + fuel * 2 ^ 20) :
    ∃ result out', copyRun env r disk sizeBytes runByteOffset runByteSize (fuel + 1) off out = some (result,out') ∧
      (result = .ok () →
        out'.length = min sizeBytes.toNat (out.length + (runByteSize.toNat - off.toNat))) := by
  have chunk : readChunk.toNat = 2 ^ 20 := rfl
  induction fuel generalizing off out with
  | zero =>
    have last : ¬ off < runByteSize := by
      rw [UInt64.lt_iff_toNat_lt]
      omega
    refine ⟨.ok (),out,?_,fun _ => by omega⟩
    rw [copyRun,if_pos last]
  | succ fuel ih =>
    by_cases more : off < runByteSize
    · have below := UInt64.lt_iff_toNat_lt.mp more
      have left : (runByteSize - off).toNat = runByteSize.toNat - off.toNat :=
        UInt64.toNat_sub_of_le _ _ (UInt64.le_iff_toNat_le.mpr (Nat.le_of_lt below))
      have toRead : (min readChunk (runByteSize - off)).toUInt32.toNat =
          min (2 ^ 20) (runByteSize.toNat - off.toNat) := by
        rw [UInt64.toNat_toUInt32,UInt64.toNat_min,chunk,left]
        exact Nat.mod_eq_of_lt (by omega)
      have next : (off + readChunk).toNat = off.toNat + 2 ^ 20 := by
        rw [UInt64.toNat_add,chunk]
        exact Nat.mod_eq_of_lt (by omega)
      rw [copyRun,if_neg (not_not_intro more)]
      simp only []
      split
      next e failed => exact ⟨.error e,out,rfl,fun ok => (by cases ok)⟩
      next data read =>
        have length := length_readPartitionBytes positive moderate (by omega) read
        rw [toRead] at length
        have same : limited sizeBytes.toNat out = out := by
          rw [limited,if_neg (Nat.ne_of_gt some_size)]
          exact List.take_of_length_le fits
        rw [limited_chunk same]
        have written : (limited sizeBytes.toNat (out ++ data)).length =
            min sizeBytes.toNat (out.length + min (2 ^ 20) (runByteSize.toNat - off.toNat)) := by
          rw [limited,if_neg (Nat.ne_of_gt some_size),List.length_take,List.length_append,length]
        split
        next full =>
          refine ⟨.ok (),_,rfl,fun _ => ?_⟩
          have all := full.2
          omega
        next going =>
          obtain ⟨result,out',copied,rest⟩ := @ih (off + readChunk) (limited sizeBytes.toNat (out ++ data))
            (by omega) (by omega) (by omega)
          refine ⟨result,out',copied,fun ok => ?_⟩
          have total := rest ok
          omega
    · refine ⟨.ok (),out,?_,fun _ => ?_⟩
      · rw [copyRun,if_pos more]
      · rw [UInt64.lt_iff_toNat_lt] at more
        omega

theorem length_copyEach {byteOffset : DataRun → UInt64} {clusterSize : UInt32} {runs : List DataRun}
    (few : blockCount runs < 2 ^ 18) {fuel : Nat} (enough : 2 ^ 30 ≤ fuel) {out : List UInt8}
    (fits : out.length ≤ sizeBytes.toNat) :
    ∃ result out', copyEach env r disk byteOffset clusterSize sizeBytes (fuel + 1) runs out = some (result,out') ∧
      (result = .ok () →
        out'.length = min sizeBytes.toNat (out.length + blockCount runs * clusterSize.toNat)) := by
  induction runs generalizing out with
  | nil =>
    refine ⟨.ok (),out,rfl,fun _ => ?_⟩
    rw [blockCount,List.map_nil,List.sum_nil]
    omega
  | cons run rest ih =>
    rw [blockCount_cons] at few ⊢
    have width := clusterSize.toNat_lt
    have area : run.clusterCount.toNat * clusterSize.toNat < 2 ^ 18 * 2 ^ 32 :=
      Nat.mul_lt_mul_of_lt_of_lt (by omega) width
    have bytes : (run.clusterCount * clusterSize.toUInt64).toNat = run.clusterCount.toNat * clusterSize.toNat := by
      rw [UInt64.toNat_mul,UInt32.toNat_toUInt64]
      exact Nat.mod_eq_of_lt (by omega)
    have start : (0 : UInt64).toNat = 0 := rfl
    obtain ⟨result,out',copied,length⟩ := @length_copyRun env r disk positive moderate sizeBytes some_size
      (byteOffset run) (run.clusterCount * clusterSize.toUInt64) (by omega) fuel 0 out fits (by rw [start]; decide)
      (by rw [bytes,start]; omega)
    rw [copyEach,copied]
    cases result with
    | error e => exact ⟨.error e,out',rfl,fun ok => (by cases ok)⟩
    | ok _ =>
      have here := length rfl
      rw [bytes,start,Nat.sub_zero] at here
      obtain ⟨result,out'',after,total⟩ := @ih (by omega) out' (by omega)
      refine ⟨result,out'',after,fun ok => ?_⟩
      have there := total ok
      rw [Nat.add_mul]
      omega

end Copied

section Mapped

theorem blockCount_pushBlock {runs : List DataRun} (room : blockCount runs < 2 ^ 63) (blockNum : UInt32) :
    blockCount (pushBlock runs blockNum) = blockCount runs + 1 := by
  have one : (1 : UInt64).toNat = 1 := rfl
  have single : blockCount [{ clusterOffset := blockNum.toUInt64,clusterCount := 1 }] = 1 := rfl
  rw [pushBlock]
  split
  next none =>
    rw [List.getLast?_eq_none_iff] at none
    rw [none]
    rfl
  next back last =>
    split
    next follows =>
      have whole : runs = runs.dropLast ++ [back] := (List.dropLast_append_getLast? back last).symm
      have counted : blockCount runs = blockCount runs.dropLast + back.clusterCount.toNat := by
        rw [whole,blockCount_append,List.dropLast_concat]
        rfl
      rw [blockCount_append,counted,blockCount_cons]
      rw [UInt64.toNat_add,one,Nat.mod_eq_of_lt (by omega)]
      rfl
    next apart => rw [blockCount_append,single]

theorem blockCount_pushBlocks {blocks : List UInt32} :
    ∀ {runs : List DataRun}, blockCount runs + blocks.length < 2 ^ 63 →
      blockCount (blocks.foldl pushBlock runs) = blockCount runs + blocks.length := by
  induction blocks with
  | nil => exact fun _ => rfl
  | cons blockNum rest ih =>
    intro runs room
    rw [List.length_cons] at room
    have pushed := @blockCount_pushBlock runs (by omega) blockNum
    rw [List.foldl_cons,ih (by omega),pushed,List.length_cons]
    omega

/-- The blocks of an extent, whether it is initialized or not. -/
def extentLength (inode : List UInt8) (e : Nat) : Nat :=
  let eeLen := (readLE16 inode (extOffset e + 4)).toNat
  if 32768 < eeLen then eeLen - 32768 else eeLen

/-- The blocks that an inode names itself: its first direct pointers, or the extents that
follow the header in it. -/
def mappedBlocks (inodeSize : UInt16) (inode : List UInt8) : Nat :=
  if usesExtents inode then
    if readLE16 inode 40 = extentMagic then ((extentSlots inodeSize inode).map (extentLength inode)).sum else 0
  else (directBlocks inode).length

variable (inodeSize : UInt16) (inode : List UInt8)

theorem extentRun_count (e : Nat) : (extentRun inode e).clusterCount.toNat = extentLength inode e := by
  have limit : (32768 : UInt16).toNat = 32768 := rfl
  have short := (readLE16 inode (extOffset e + 4)).toNat_lt
  simp only [extentRun,extentLength,UInt16.lt_iff_toNat_lt,limit]
  split
  next long =>
    rw [UInt16.toNat_toUInt64,UInt16.toNat_sub,limit]
    omega
  next => rw [UInt16.toNat_toUInt64]

theorem extentLength_le (e : Nat) : extentLength inode e ≤ 32768 := by
  have short := (readLE16 inode (extOffset e + 4)).toNat_lt
  rw [extentLength]
  split <;> omega

theorem length_directBlocks : (directBlocks inode).length ≤ 12 := by
  have most := (List.takeWhile_sublist (l := (List.range 12).map (fun bp => readLE32 inode (40 + bp * 4)))
    (fun blockNum => decide (blockNum ≠ 0))).length_le
  rw [List.length_map,List.length_range] at most
  exact most

theorem length_extentSlots : (extentSlots inodeSize inode).length ≤ 4 := by
  have most := (List.takeWhile_sublist (l := List.range (min (readLE16 inode 42).toNat 4))
    (fun e => decide (extOffset e + 12 ≤ inodeSize.toNat))).length_le
  rw [List.length_range] at most
  exact Nat.le_trans most (Nat.min_le_right _ _)

theorem blockCount_inodeRuns : blockCount (inodeRuns inodeSize inode) = mappedBlocks inodeSize inode := by
  have direct := length_directBlocks inode
  rw [inodeRuns,mappedBlocks]
  split
  next =>
    split
    next =>
      rw [blockCount,List.map_map]
      exact congrArg List.sum (List.map_congr_left (fun e _ => extentRun_count inode e))
    next => rfl
  next =>
    have none : blockCount [] = 0 := rfl
    rw [blockCount_pushBlocks (by omega),none,Nat.zero_add]

theorem mappedBlocks_lt : mappedBlocks inodeSize inode < 2 ^ 18 := by
  have direct := length_directBlocks inode
  have slots := length_extentSlots inodeSize inode
  have sum (es : List Nat) : (es.map (extentLength inode)).sum ≤ es.length * 32768 := by
    induction es with
    | nil => exact Nat.le_refl _
    | cons e rest ih =>
      have here := extentLength_le inode e
      rw [List.map_cons,List.sum_cons,List.length_cons]
      omega
  rw [mappedBlocks]
  split
  next =>
    split
    next =>
      have most := sum (extentSlots inodeSize inode)
      omega
    next => decide
  next => omega

end Mapped

section Scanned

/-- A file of an inode that was read from the partition and is not empty. -/
structure FromInode (env : RecoveryEnv) (r : FileRecovery) (disk : Disk) (fsType : FilesystemType)
    (inodeSize : UInt16) (inode : List UInt8) (file : RecoverableFile) : Prop where
  stored : ∃ offset size chunkData inodeOffset, readPartitionBytes env r disk offset size = .ok chunkData ∧
    inode = chunkData.drop inodeOffset
  listed : ∃ inodeNumber, file = inodeFile inodeSize inode r fsType inodeNumber
  some_size : file.sizeBytes ≠ 0

def FromInodes (env : RecoveryEnv) (r : FileRecovery) (disk : Disk) (fsType : FilesystemType) (inodeSize : UInt16)
    (trace : ExtTrace) : Prop :=
  ∀ file ∈ trace.files, ∃ inode, FromInode env r disk fsType inodeSize inode file

variable {v : ExtSuperblock} {bg : UInt32} {inodeBitmap : List UInt8}

theorem FromInodes.empty {trace : ExtTrace} (none : trace.files = []) :
    FromInodes env r disk fsType v.inodeSize trace := by
  intro file member
  rw [none] at member
  exact absurd member List.not_mem_nil

theorem FromInodes.append {first second : ExtTrace} (left : FromInodes env r disk fsType v.inodeSize first)
    (right : FromInodes env r disk fsType v.inodeSize second) :
    FromInodes env r disk fsType v.inodeSize (first ++ second) := by
  intro file member
  rw [ExtTrace.files_append] at member
  rcases List.mem_append.mp member with before | after
  · exact left file before
  · exact right file after

section Chunk

variable {offset : UInt64} {size : UInt32} {chunkData : List UInt8}
  (read : readPartitionBytes env r disk offset size = .ok chunkData) {firstInodeInChunk : UInt32}
include read

theorem scanInode_from {localIdx : UInt32} : FromInodes env r disk fsType v.inodeSize
    (scanInode r fsType v bg inodeBitmap chunkData firstInodeInChunk localIdx).1 := by
  unfold scanInode
  simp only
  split
  next => exact .empty rfl
  next =>
    split
    next => exact .empty rfl
    next =>
      split
      next => exact .empty rfl
      next =>
        refine .append (.empty rfl) (fun file member => ?_)
        simp only at member
        split at member
        next kept =>
          rw [List.mem_singleton.mp member]
          exact ⟨_,⟨_,_,chunkData,_,read,rfl⟩,⟨_,rfl⟩,kept.2⟩
        next => exact absurd member List.not_mem_nil

theorem scanInodes_from {left : List Nat} : FromInodes env r disk fsType v.inodeSize
    (scanInodes r fsType v bg inodeBitmap chunkData firstInodeInChunk left) := by
  induction left with
  | nil => exact .empty rfl
  | cons localIdx rest ih =>
    have here := @scanInode_from env r disk fsType v bg inodeBitmap offset size chunkData read firstInodeInChunk
      (.ofNat localIdx)
    rw [scanInodes]
    split
    next trace ended =>
      rw [ended] at here
      exact here
    next trace goes =>
      rw [goes] at here
      exact here.append ih

end Chunk

theorem scanChunks_from {inodeTableOffset : UInt64} {tableSize : UInt32} {fuel : Nat} :
    ∀ {chunkStart : UInt32} {trace : ExtTrace},
      scanChunks env r disk fsType v bg inodeTableOffset inodeBitmap tableSize fuel chunkStart = some trace →
        FromInodes env r disk fsType v.inodeSize trace := by
  induction fuel with
  | zero => exact fun ended => (by cases ended)
  | succ fuel ih =>
    intro chunkStart trace ended
    rw [scanChunks] at ended
    split at ended
    next =>
      cases ended
      exact .empty rfl
    next =>
      simp only at ended
      split at ended
      next =>
        cases ended
        exact .empty rfl
      next chunkData read =>
        obtain ⟨rest,after,rfl⟩ := Option.map_eq_some_iff.mp ended
        exact .append (.append (.empty rfl) (scanInodes_from read)) (ih after)

theorem scanGroup_from {fuel : Nat} {trace : ExtTrace} (ended : scanGroup env r disk fsType v fuel bg = some trace) :
    FromInodes env r disk fsType v.inodeSize trace := by
  unfold scanGroup at ended
  split at ended
  next =>
    cases ended
    exact .empty rfl
  next =>
    split at ended
    next =>
      cases ended
      exact .empty rfl
    next =>
      obtain ⟨chunks,scanned,rfl⟩ := Option.map_eq_some_iff.mp ended
      exact .append (.empty rfl) (scanChunks_from scanned)

theorem scanGroups_from {fuel left : Nat} :
    ∀ {bg : UInt32} {groups : ExtTrace × Result Unit}, scanGroups env r disk fsType v fuel left bg = some groups →
      FromInodes env r disk fsType v.inodeSize groups.1 := by
  induction left with
  | zero =>
    intro bg groups ended
    cases ended
    exact .empty rfl
  | succ left ih =>
    intro bg groups ended
    rw [scanGroups] at ended
    split at ended
    next =>
      cases ended
      exact .empty rfl
    next =>
      split at ended
      next => cases ended
      next here scanned =>
        obtain ⟨rest,after,rfl⟩ := Option.map_eq_some_iff.mp ended
        exact (scanGroup_from scanned).append (ih after)

theorem scanExt_from {fuel : Nat} {scan : ExtScan} {files : List RecoverableFile}
    (ended : scanExt env r disk fsType fuel = some scan) (listed : scan.result = .ok files) :
    ∃ sb, readPartitionBytes env r disk 1024 1024 = .ok sb ∧
      ∀ file ∈ files, ∃ inode, FromInode env r disk fsType (extSuperblock sb).inodeSize inode file := by
  unfold scanExt at ended
  split at ended
  next =>
    cases ended
    cases listed
  next sb read =>
    refine ⟨sb,read,?_⟩
    split at ended
    next =>
      cases ended
      cases listed
    next =>
      split at ended
      next =>
        cases ended
        cases listed
      next =>
        simp only at ended
        split at ended
        next =>
          cases ended
          cases listed
        next =>
          obtain ⟨groups,scanned,rfl⟩ := Option.map_eq_some_iff.mp ended
          have from_inodes := scanGroups_from scanned
          simp only at listed
          split at listed
          next => cases listed
          next =>
            cases listed
            exact from_inodes

end Scanned

section Complete

/-- When the copy of a file succeeds it is complete exactly where the blocks that its inode
names itself have room for its size. -/
theorem recoverExtFile_complete_iff (positive : 0 < r.sectorSize.toNat) (moderate : r.sectorSize.toNat ≤ 65536)
    {fuel : Nat} {scan : ExtScan} {files : List RecoverableFile}
    (ended : scanExt env r disk fsType fuel = some scan) (listed : scan.result = .ok files)
    {file : RecoverableFile} (reported : file ∈ files) :
    ∃ sb inode, readPartitionBytes env r disk 1024 1024 = .ok sb ∧
      FromInode env r disk fsType (extSuperblock sb).inodeSize inode file ∧
      ∀ outputPath rounds, 2 ^ 30 ≤ rounds →
        ∃ result out, recoverExtFile env r disk file outputPath (rounds + 1) = some (result,out) ∧
          (result = .ok () → ∃ sb' content, readPartitionBytes env r disk 1024 256 = .ok sb' ∧ out = some content ∧
            (content.length = file.sizeBytes.toNat ↔ file.sizeBytes.toNat ≤
              mappedBlocks (extSuperblock sb).inodeSize inode * ((1024 : UInt32) <<< readLE32 sb' 0x18).toNat)) := by
  obtain ⟨sb,read,inodes⟩ := scanExt_from ended listed
  obtain ⟨inode,from_inode⟩ := inodes file reported
  refine ⟨sb,inode,read,from_inode,fun outputPath rounds enough => ?_⟩
  obtain ⟨_,of_inode⟩ := from_inode.listed
  have runs : file.dataRuns = inodeRuns (extSuperblock sb).inodeSize inode := by rw [of_inode]; rfl
  have some_size : 0 < file.sizeBytes.toNat := by
    have other := from_inode.some_size
    rw [ne_eq,← UInt64.toNat_inj] at other
    exact Nat.pos_of_ne_zero other
  unfold recoverExtFile
  split
  next e _ => exact ⟨.error e,none,rfl,fun ok => (by cases ok)⟩
  next sb' again =>
    simp only
    split
    next => exact ⟨_,none,rfl,fun ok => (by cases ok)⟩
    next =>
      have few := mappedBlocks_lt (extSuperblock sb).inodeSize inode
      rw [← blockCount_inodeRuns,← runs] at few
      obtain ⟨result,content,copied,length⟩ := @length_copyEach env r disk positive moderate file.sizeBytes some_size
        (fun run => run.clusterOffset * ((1024 : UInt32) <<< readLE32 sb' 0x18).toUInt64)
        ((1024 : UInt32) <<< readLE32 sb' 0x18) file.dataRuns few rounds enough [] (Nat.zero_le _)
      refine ⟨result,some content,by rw [copied]; rfl,fun ok => ⟨sb',content,again,rfl,?_⟩⟩
      rw [length ok,runs,blockCount_inodeRuns,List.length_nil,Nat.zero_add]
      omega

theorem recoverExtFile_single {sb : List UInt8} (read : readPartitionBytes env r disk 1024 256 = .ok sb)
    {blockSize : UInt32} (named : 1024 <<< readLE32 sb 0x18 = blockSize) {file : RecoverableFile} {run : DataRun}
    (runs : file.dataRuns = [run]) {outputPath : String} (creates : env.creates outputPath = true) {fuel : Nat}
    {content : List UInt8}
    (copied : copyRun env r disk file.sizeBytes (run.clusterOffset * blockSize.toUInt64)
      (run.clusterCount * blockSize.toUInt64) fuel 0 [] = some (.ok (),content)) :
    recoverExtFile env r disk file outputPath fuel = some (.ok (),some content) := by
  unfold recoverExtFile
  simp only [read,named,creates,Bool.true_eq_false,if_false,runs]
  rw [copyEach,copied]
  rfl

end Complete

section Sample

def extPartition : FileRecovery := { partStart := 0,partSectors := 128 }

def extSample : List UInt8 :=
  overwrite (List.replicate 1024 0) [(0x00,le32 16),(0x04,le32 64),(0x14,le32 1),(0x20,le32 8192),(0x28,le32 16),
    (0x38,le16 EXT_SUPER_MAGIC),(0x58,le16 128)]

theorem length_extSample : extSample.length = 1024 := length_overwrite (by decide) List.length_replicate

def extGroup : List UInt8 := overwrite (List.replicate 32 0) [(4,le32 3),(8,le32 4)]

def extInode (size : UInt32) : List UInt8 :=
  overwrite (List.replicate 128 0) [(0,le16 0x8000),(4,le32 size),(20,le32 1),
    (40,(List.range 12).flatMap (fun bp => le32 (.ofNat (10 + bp)))),(88,le32 22)]

/-- A volume with blocks of 1024 bytes and one group, on which inode 11 is a deleted file. -/
def extVolume (size : UInt32) : Disk :=
  (((filled 65536 0).patched 1024 extSample).patched 2048 extGroup).patched 5376 (extInode size)

def reports : Option ExtScan → List RecoverableFile
  | some { result := .ok files,.. } => files
  | _ => []

theorem reports_file {scan : Option ExtScan} {sizeBytes : UInt64} {dataRuns : List DataRun}
    (found : (reports scan).map (fun file => (file.sizeBytes,file.dataRuns)) = [(sizeBytes,dataRuns)]) :
    ∃ ended files file, scan = some ended ∧ ended.result = .ok files ∧ file ∈ files ∧
      file.sizeBytes = sizeBytes ∧ file.dataRuns = dataRuns := by
  obtain ⟨file,member,same⟩ := List.mem_map.mp (found ▸ List.mem_singleton.mpr rfl)
  obtain ⟨size,runs⟩ := Prod.mk.inj same
  unfold reports at member
  split at member
  next trace files => exact ⟨_,files,file,rfl,rfl,member,size,runs⟩
  next => exact absurd member List.not_mem_nil

variable (size : UInt32)

theorem extVolume_readable : Readable {} extPartition (extVolume size) where
  positive := by decide
  moderate := by decide
  signed := by change 65536 < 2 ^ 63; decide
  inside := by change 0 * 512 + 128 * 512 ≤ 65536; decide
  reads _ _ _ := rfl

theorem extVolume_sample {count : UInt32} (some_byte : 0 < count.toNat) (short : count.toNat ≤ 1024) :
    readPartitionBytes {} extPartition (extVolume size) 1024 count = .ok (slice extSample 0 count.toNat) := by
  have start : partBase extPartition + (1024 : UInt64).toNat = 1024 + 0 := rfl
  have room : (1024 : UInt64).toNat + count.toNat ≤ partBytes extPartition :=
    Nat.le_trans (Nat.add_le_add_left short _) (by decide)
  have group : extGroup.length = 32 := by decide
  have read := readPartitionBytes_inside (extVolume_readable size) some_byte (Nat.le_trans short (by decide)) room
  rw [start,extVolume,Disk.patched_byte,window_patch_apart _ _ _ _ _ (.inl (by omega)),Disk.patched_byte,
    window_patch_apart _ _ _ _ _ (.inl (by omega)),Disk.patched_byte,
    window_patch_inside _ _ _ _ _ (by rw [length_extSample]; omega)] at read
  exact read

theorem extVolume_superblock : readPartitionBytes {} extPartition (extVolume size) 1024 256 = .ok (slice extSample 0 256) :=
  extVolume_sample size (by decide) (by decide)

variable {size}

theorem extSample_blockSize : (1024 : UInt32) <<< readLE32 (slice extSample 0 256) 0x18 = 1024 := by decide

theorem extVolume_copied {file : RecoverableFile} (runs : file.dataRuns = [⟨10,12⟩]) (fuel : Nat) :
    recoverExtFile {} extPartition (extVolume size) file "out" (fuel + 2) =
      some (.ok (),some (limited file.sizeBytes.toNat (window (extVolume size).byte 10240 12288))) := by
  have zero : (0 : UInt64).toNat = 0 := rfl
  have place : partBase extPartition + ((10 : UInt64) * (1024 : UInt32).toUInt64).toNat = 10240 := rfl
  have bytes : ((12 : UInt64) * (1024 : UInt32).toUInt64).toNat = 12288 := rfl
  have copied := @copyRun_eq {} extPartition _ (extVolume_readable size) file.sizeBytes
    (10 * (1024 : UInt32).toUInt64) (12 * (1024 : UInt32).toUInt64) (by decide) (fuel + 1) 0 [] (limited_nil _) (by decide)
    (by rw [bytes,zero]; omega)
  rw [place,bytes,zero,Nat.add_zero,Nat.sub_zero,List.nil_append] at copied
  exact recoverExtFile_single (extVolume_superblock size) extSample_blockSize runs rfl copied

/-- A file of 14 blocks is recovered without an error as one of 12. -/
theorem indirect_truncated : ∃ scan files file content,
    scanExt {} extPartition (extVolume 14336) .ext2 2 = some scan ∧ scan.result = .ok files ∧ file ∈ files ∧
      file.sizeBytes = 14336 ∧
      recoverExtFile {} extPartition (extVolume 14336) file "out" 2 = some (.ok (),some content) ∧
      content.length = 12288 := by
  obtain ⟨scan,files,file,ended,listed,reported,size,runs⟩ := @reports_file
    (scanExt {} extPartition (extVolume 14336) .ext2 2) 14336 [⟨10,12⟩] (by decide +kernel)
  refine ⟨scan,files,file,_,ended,listed,reported,size,extVolume_copied runs 0,?_⟩
  rw [size,limited,if_neg (by decide),List.length_take,length_window]
  decide

/-- A file of 12 blocks is complete. -/
theorem direct_complete : ∃ scan files file content,
    scanExt {} extPartition (extVolume 12288) .ext2 2 = some scan ∧ scan.result = .ok files ∧ file ∈ files ∧
      recoverExtFile {} extPartition (extVolume 12288) file "out" (2 ^ 30 + 1) = some (.ok (),some content) ∧
      content.length = file.sizeBytes.toNat := by
  obtain ⟨scan,files,file,ended,listed,reported,size,runs⟩ := @reports_file
    (scanExt {} extPartition (extVolume 12288) .ext2 2) 12288 [⟨10,12⟩] (by decide +kernel)
  obtain ⟨sb,inode,read,from_inode,recovered⟩ :=
    recoverExtFile_complete_iff (by decide) (by decide) ended listed reported
  obtain ⟨result,out,copied,complete⟩ := recovered "out" (2 ^ 30) (Nat.le_refl _)
  have whole := @extVolume_copied 12288 file runs (2 ^ 30 - 1)
  have same := Option.some.inj (copied.symm.trans whole)
  obtain ⟨sb',content,again,stored,length⟩ := complete (Prod.mk.inj same).1
  refine ⟨scan,files,file,content,ended,listed,reported,?_,length.mpr ?_⟩
  · rw [copied,(Prod.mk.inj same).1,stored]
  · obtain ⟨_,of_inode⟩ := from_inode.listed
    have named : file.dataRuns = inodeRuns (extSuperblock sb).inodeSize inode := by rw [of_inode]; rfl
    have known : sb' = slice extSample 0 256 := Except.ok.inj (again.symm.trans (extVolume_superblock 12288))
    rw [size,known,← blockCount_inodeRuns,← named,runs]
    decide

end Sample
end SetecWizard.Core.FileRecovery
