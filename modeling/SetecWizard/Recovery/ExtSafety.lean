import SetecWizard.Core.ExtRecovery
import SetecWizard.Library.Ascending
import SetecWizard.Recovery.ExtFile

/-! What a scan of ext2, ext3 or ext4 does with the numbers of a superblock that nobody has
checked. The accesses are all guarded; the shift, the division and the numbers of the inodes
are not, and the position in an inode table may start again from 0.
-/
namespace SetecWizard.Core.FileRecovery
open SetecWizard.Library

variable {env : RecoveryEnv} {r : FileRecovery} {disk : Disk} {fsType : FilesystemType} {v : ExtSuperblock}

/-- Nothing is divided by zero, shifted by too much or read out of bounds. -/
structure ExtTrace.Harmless (t : ExtTrace) : Prop where
  divisors : ∀ d ∈ t.divisors, d ≠ 0
  shifts : ∀ s ∈ t.shifts, s.toNat < 32
  accesses : ∀ a ∈ t.accesses, a.Inside

/-- Besides, the inodes that are come to exist, and none is come to twice. -/
structure ExtTrace.Safe (inodeCount : Nat) (t : ExtTrace) : Prop extends t.Harmless where
  visited : ∀ n ∈ t.visited, 1 ≤ n.toNat ∧ n.toNat ≤ inodeCount
  once : t.visited.Nodup

namespace ExtTrace

theorem harmless_empty : ({} : ExtTrace).Harmless := by
  constructor
  all_goals exact fun _ member => absurd member List.not_mem_nil

theorem Harmless.append {first second : ExtTrace} (left : first.Harmless) (right : second.Harmless) :
    (first ++ second).Harmless where
  divisors d member := by
    rw [divisors_append] at member
    exact (List.mem_append.mp member).elim (left.divisors d) (right.divisors d)
  shifts s member := by
    rw [shifts_append] at member
    exact (List.mem_append.mp member).elim (left.shifts s) (right.shifts s)
  accesses a member := by
    rw [accesses_append] at member
    exact (List.mem_append.mp member).elim (left.accesses a) (right.accesses a)

end ExtTrace

section Inode

theorem inodeFields_short (inodeSize : UInt16) (inode : List UInt8) :
    ∀ field ∈ inodeFields inodeSize inode, field.1 + field.2 ≤ 128 := by
  have slots : ∀ e ∈ extentSlots inodeSize inode, e < 4 := by
    intro e member
    have listed := List.mem_range.mp ((List.takeWhile_sublist _).subset member)
    exact Nat.lt_of_lt_of_le listed (Nat.min_le_right _ _)
  have empty : ∀ field ∈ ([] : List (Nat × Nat)), field.1 + field.2 ≤ 128 := fun _ member =>
    absurd member List.not_mem_nil
  rw [inodeFields]
  refine List.forall_mem_cons.mpr ⟨by decide,?_⟩
  split
  next =>
    refine List.forall_mem_append.mpr ⟨List.forall_mem_cons.mpr ⟨by decide,?_⟩,?_⟩
    · split
      next => decide
      next => exact empty
    · split
      next => exact empty
      next =>
        refine List.forall_mem_append.mpr ⟨List.forall_mem_cons.mpr ⟨by decide,?_⟩,
          List.forall_mem_cons.mpr ⟨by decide,?_⟩⟩
        · intro field member
          obtain ⟨bp,listed,rfl⟩ := List.mem_map.mp member
          have few := List.mem_range.mp listed
          simp only
          omega
        · split
          next =>
            refine List.forall_mem_cons.mpr ⟨by decide,List.forall_mem_cons.mpr ⟨by decide,?_⟩⟩
            split
            next =>
              intro field member
              obtain ⟨e,listed,inside⟩ := List.mem_flatMap.mp member
              have slot := slots e listed
              have start : extOffset e = 40 + 12 + e * 12 := rfl
              simp only [List.mem_cons,List.not_mem_nil,or_false] at inside
              rcases inside with rfl | rfl | rfl
              all_goals
                simp only
                omega
            next => exact empty
          next => exact empty
  next => exact empty

variable {bg : UInt32} {inodeBitmap chunkData : List UInt8} {firstInodeInChunk localIdx : UInt32}

def inodeNumber (v : ExtSuperblock) (bg firstInodeInChunk localIdx : UInt32) : UInt32 :=
  bg * v.inodesPerGroup + firstInodeInChunk + localIdx + 1

theorem scanInode_visited : (scanInode r fsType v bg inodeBitmap chunkData firstInodeInChunk localIdx).1.visited =
    [inodeNumber v bg firstInodeInChunk localIdx] := by
  unfold scanInode
  simp only
  split
  next => rfl
  next =>
    split
    next => rfl
    next =>
      split
      next => rfl
      next => rw [ExtTrace.visited_append]; rfl

theorem scanInode_harmless (small : localIdx.toNat * v.inodeSize.toNat ≤ 65536) :
    (scanInode r fsType v bg inodeBitmap chunkData firstInodeInChunk localIdx).1.Harmless := by
  have width : (localIdx * v.inodeSize.toUInt32 + 128).toNat = localIdx.toNat * v.inodeSize.toNat + 128 := by
    have unit : (128 : UInt32).toNat = 128 := rfl
    rw [UInt32.toNat_add,UInt32.toNat_mul,UInt16.toNat_toUInt32,unit]
    omega
  have place : (localIdx * v.inodeSize.toUInt32).toNat = localIdx.toNat * v.inodeSize.toNat := by
    rw [UInt32.toNat_mul,UInt16.toNat_toUInt32]
    omega
  have looked (bitmapIdx : UInt32) (number : UInt32) : ({
      visited := [number]
      shifts := if inodeBitmap = [] then [] else [bitmapIdx % 8]
      accesses := if (bitmapIdx / 8).toNat < inodeBitmap.length then
        [⟨inodeBitmap.length,(bitmapIdx / 8).toNat,1⟩] else [] } : ExtTrace).Harmless := by
    refine ⟨fun _ member => absurd member List.not_mem_nil,fun amount member => ?_,fun access member => ?_⟩
    · simp only at member
      split at member
      next => exact absurd member List.not_mem_nil
      next =>
        have eight : (8 : UInt32).toNat = 8 := rfl
        rw [List.mem_singleton.mp member,UInt32.toNat_mod,eight]
        omega
    · simp only at member
      split at member
      next inside =>
        rw [List.mem_singleton.mp member]
        exact inside
      next => exact absurd member List.not_mem_nil
  unfold scanInode
  simp only
  split
  next => exact ⟨fun _ member => absurd member List.not_mem_nil,fun _ member => absurd member List.not_mem_nil,
    fun _ member => absurd member List.not_mem_nil⟩
  next =>
    split
    next => exact looked _ _
    next =>
      split
      next => exact looked _ _
      next enough =>
        refine (looked _ _).append ⟨fun _ member => absurd member List.not_mem_nil,
          fun _ member => absurd member List.not_mem_nil,fun access member => ?_⟩
        obtain ⟨field,listed,rfl⟩ := List.mem_map.mp member
        have short := inodeFields_short _ _ field listed
        rw [width] at enough
        rw [Access.Inside,place]
        simp only
        omega

theorem scanInodes_sublist (left : List Nat) :
    (scanInodes r fsType v bg inodeBitmap chunkData firstInodeInChunk left).visited.Sublist
      (left.map (fun l => inodeNumber v bg firstInodeInChunk (.ofNat l))) := by
  induction left with
  | nil => exact List.Sublist.slnil
  | cons l rest ih =>
    have here := @scanInode_visited r fsType v bg inodeBitmap chunkData firstInodeInChunk (.ofNat l)
    rw [scanInodes,List.map_cons]
    split
    next trace ended =>
      rw [ended] at here
      rw [here]
      exact (List.nil_sublist _).cons_cons _
    next trace goes =>
      rw [goes] at here
      rw [ExtTrace.visited_append,here]
      exact ih.cons_cons _

theorem scanInodes_first (l : Nat) (rest : List Nat) : inodeNumber v bg firstInodeInChunk (.ofNat l) ∈
    (scanInodes r fsType v bg inodeBitmap chunkData firstInodeInChunk (l :: rest)).visited := by
  have here := @scanInode_visited r fsType v bg inodeBitmap chunkData firstInodeInChunk (.ofNat l)
  rw [scanInodes]
  split
  next trace ended =>
    rw [ended] at here
    rw [here]
    exact List.mem_singleton_self _
  next trace goes =>
    rw [goes] at here
    rw [ExtTrace.visited_append,here]
    exact List.mem_append_left _ (List.mem_singleton_self _)

theorem scanInodes_harmless {left : List Nat} (small : ∀ l ∈ left, (UInt32.ofNat l).toNat * v.inodeSize.toNat ≤ 65536) :
    (scanInodes r fsType v bg inodeBitmap chunkData firstInodeInChunk left).Harmless := by
  induction left with
  | nil => exact ExtTrace.harmless_empty
  | cons l rest ih =>
    obtain ⟨first,others⟩ := List.forall_mem_cons.mp small
    have here := @scanInode_harmless r fsType v bg inodeBitmap chunkData firstInodeInChunk (.ofNat l) first
    rw [scanInodes]
    split
    next trace ended =>
      rw [ended] at here
      exact here
    next trace goes =>
      rw [goes] at here
      exact here.append (ih others)

end Inode

section Chunk

variable {bg : UInt32} {inodeBitmap chunkData : List UInt8} {chunkStart thisChunk : UInt32}
  (some_size : v.inodeSize ≠ 0)
include some_size

theorem inodeSize_positive : 0 < v.inodeSize.toNat := by
  rw [ne_eq,← UInt16.toNat_inj] at some_size
  exact Nat.pos_of_ne_zero some_size

theorem scanChunk_harmless (small : thisChunk.toNat ≤ 65536) :
    (scanChunk r fsType v bg inodeBitmap chunkStart thisChunk chunkData).Harmless := by
  have positive := inodeSize_positive some_size
  refine ExtTrace.Harmless.append ⟨fun d member => ?_,fun _ member => absurd member List.not_mem_nil,
    fun _ member => absurd member List.not_mem_nil⟩ (scanInodes_harmless (fun l listed => ?_))
  · rw [List.mem_singleton.mp member,ne_eq,← UInt32.toNat_inj,UInt16.toNat_toUInt32]
    exact Nat.ne_of_gt positive
  · have below := List.mem_range.mp listed
    rw [UInt32.toNat_div,UInt16.toNat_toUInt32] at below
    have area := Nat.mul_le_of_le_div _ _ _ (Nat.le_of_lt below)
    have count : l ≤ l * v.inodeSize.toNat := Nat.le_mul_of_pos_right _ positive
    rw [UInt32.toNat_ofNat_of_lt' (Nat.lt_of_le_of_lt (Nat.le_trans count area) (UInt32.toNat_lt _))]
    omega

omit some_size in
theorem scanChunk_rising (below : bg.toNat * v.inodesPerGroup.toNat + chunkStart.toNat / v.inodeSize.toNat +
      thisChunk.toNat / v.inodeSize.toNat < 2 ^ 32) :
    Rising UInt32.toNat (bg.toNat * v.inodesPerGroup.toNat + chunkStart.toNat / v.inodeSize.toNat + 1)
      (bg.toNat * v.inodesPerGroup.toNat + chunkStart.toNat / v.inodeSize.toNat +
        thisChunk.toNat / v.inodeSize.toNat + 1)
      (scanChunk r fsType v bg inodeBitmap chunkStart thisChunk chunkData).visited := by
  have one : (1 : UInt32).toNat = 1 := rfl
  obtain ⟨group,grouped⟩ : ∃ group, group = bg.toNat * v.inodesPerGroup.toNat := ⟨_,rfl⟩
  obtain ⟨first,started⟩ : ∃ first, first = chunkStart.toNat / v.inodeSize.toNat := ⟨_,rfl⟩
  obtain ⟨count,counted⟩ : ∃ count, count = thisChunk.toNat / v.inodeSize.toNat := ⟨_,rfl⟩
  rw [← grouped,← started,← counted] at below ⊢
  have number : ∀ l < count, (inodeNumber v bg (chunkStart / v.inodeSize.toUInt32) (.ofNat l)).toNat =
      group + first + l + 1 := by
    intro l small
    rw [inodeNumber,UInt32.toNat_add,UInt32.toNat_add,UInt32.toNat_add,UInt32.toNat_mul,UInt32.toNat_div,
      UInt16.toNat_toUInt32,one,UInt32.toNat_ofNat_of_lt' (by change l < 2 ^ 32; omega),← grouped,← started]
    omega
  have listed : (thisChunk / v.inodeSize.toUInt32).toNat = count := by
    rw [UInt32.toNat_div,UInt16.toNat_toUInt32,counted]
  rw [scanChunk,ExtTrace.visited_append,listed]
  refine Rising.sublist ⟨?_,fun n member => ?_⟩ (scanInodes_sublist _)
  · apply List.pairwise_map.mpr
    refine List.pairwise_lt_range.imp_of_mem (fun left right less => ?_)
    rw [number _ (List.mem_range.mp left),number _ (List.mem_range.mp right)]
    omega
  · obtain ⟨l,within,rfl⟩ := List.mem_map.mp member
    have small := List.mem_range.mp within
    rw [number l small]
    omega

end Chunk

section Table

variable (env : RecoveryEnv) (r : FileRecovery) (disk : Disk) (inodeTableOffset : UInt64) (tableSize : UInt32)

def chunkAt (k : Nat) : Result (List UInt8) :=
  readPartitionBytes env r disk (inodeTableOffset + (UInt32.ofNat (k * 65536)).toUInt64)
    (min chunkSize (tableSize - .ofNat (k * 65536)))

def ChunkEnds (k : Nat) : Prop :=
  tableSize.toNat ≤ k * 65536 ∨ ∃ e, chunkAt env r disk inodeTableOffset tableSize k = .error e

def TableEnds : Prop := ∃ k ≤ 65535, ChunkEnds env r disk inodeTableOffset tableSize k

variable {env r disk inodeTableOffset tableSize} {bg : UInt32} {inodeBitmap : List UInt8} {k : Nat} (counted : k ≤ 65535)
include counted

theorem chunkStart_toNat : (UInt32.ofNat (k * 65536)).toNat = k * 65536 :=
  UInt32.toNat_ofNat_of_lt' (by change k * 65536 < 2 ^ 32; omega)

theorem scanChunks_end (ended : ChunkEnds env r disk inodeTableOffset tableSize k) (fuel : Nat) :
    scanChunks env r disk fsType v bg inodeTableOffset inodeBitmap tableSize (fuel + 1) (.ofNat (k * 65536)) =
      some {} := by
  rw [scanChunks]
  by_cases more : UInt32.ofNat (k * 65536) < tableSize
  · have reached := UInt32.lt_iff_toNat_lt.mp more
    rw [chunkStart_toNat counted] at reached
    rcases ended with small | ⟨e,failed⟩
    · omega
    · rw [chunkAt] at failed
      rw [if_neg (not_not_intro more)]
      simp only [failed]
  · rw [if_pos more]

theorem scanChunks_next (goes : ¬ ChunkEnds env r disk inodeTableOffset tableSize k) (fuel : Nat) :
    ∃ chunkData, chunkAt env r disk inodeTableOffset tableSize k = .ok chunkData ∧
      scanChunks env r disk fsType v bg inodeTableOffset inodeBitmap tableSize (fuel + 1) (.ofNat (k * 65536)) =
        (scanChunks env r disk fsType v bg inodeTableOffset inodeBitmap tableSize fuel (.ofNat ((k + 1) * 65536))).map
          (fun rest => scanChunk r fsType v bg inodeBitmap (.ofNat (k * 65536))
            (min chunkSize (tableSize - .ofNat (k * 65536))) chunkData ++ rest) := by
  obtain ⟨large,readable⟩ := not_or.mp goes
  have more : UInt32.ofNat (k * 65536) < tableSize := by
    rw [UInt32.lt_iff_toNat_lt,chunkStart_toNat counted]
    omega
  have next : UInt32.ofNat (k * 65536) + chunkSize = .ofNat ((k + 1) * 65536) := by
    rw [Nat.add_mul,UInt32.ofNat_add]
    rfl
  cases read : chunkAt env r disk inodeTableOffset tableSize k with
  | error e => exact absurd ⟨e,read⟩ readable
  | ok chunkData =>
    refine ⟨chunkData,rfl,?_⟩
    rw [chunkAt] at read
    rw [scanChunks,if_neg (not_not_intro more)]
    simp only [read,next]

end Table

section Tables

variable {inodeTableOffset : UInt64} {tableSize : UInt32} {bg : UInt32} {inodeBitmap : List UInt8}

theorem scanChunks_endless (endless : ¬ TableEnds env r disk inodeTableOffset tableSize) {fuel : Nat} :
    ∀ {k : Nat}, k ≤ 65535 → scanChunks env r disk fsType v bg inodeTableOffset inodeBitmap tableSize fuel
      (.ofNat (k * 65536)) = none := by
  induction fuel with
  | zero => exact fun _ => rfl
  | succ fuel ih =>
    intro k counted
    obtain ⟨chunkData,_,next⟩ := @scanChunks_next fsType v env r disk inodeTableOffset tableSize bg inodeBitmap k counted
      (fun ended => endless ⟨k,counted,ended⟩) fuel
    rw [next]
    rcases Nat.lt_or_ge k 65535 with more | last
    · rw [ih (by omega)]
      rfl
    · have start : UInt32.ofNat ((k + 1) * 65536) = .ofNat (0 * 65536) := by
        rw [Nat.le_antisymm counted last]
        rfl
      rw [start,ih (by decide)]
      rfl

variable (some_size : v.inodeSize ≠ 0)
include some_size

/-- Up to the chunk that ends the table, the scan of the chunks is harmless, and comes to
inodes with rising numbers as long as these are below some number of 32 bits. -/
theorem scanChunks_safe {last : Nat} (within : last ≤ 65535)
    (ended : ChunkEnds env r disk inodeTableOffset tableSize last) {left : Nat} :
    ∀ {k fuel : Nat}, k + left = last → left < fuel →
      ∃ trace, scanChunks env r disk fsType v bg inodeTableOffset inodeBitmap tableSize fuel (.ofNat (k * 65536)) =
          some trace ∧ trace.Harmless ∧
        ∀ limit < 2 ^ 32, bg.toNat * v.inodesPerGroup.toNat + tableSize.toNat / v.inodeSize.toNat ≤ limit →
          Rising UInt32.toNat (bg.toNat * v.inodesPerGroup.toNat + k * 65536 / v.inodeSize.toNat + 1) (limit + 1)
            trace.visited := by
  have positive := inodeSize_positive some_size
  induction left with
  | zero =>
    intro k fuel here enough
    obtain ⟨fuel,rfl⟩ := Nat.exists_eq_succ_of_ne_zero (Nat.ne_of_gt enough)
    rw [Nat.add_zero] at here
    refine ⟨{},scanChunks_end (here ▸ within) (here ▸ ended) fuel,ExtTrace.harmless_empty,fun _ _ _ => Rising.nil⟩
  | succ left ih =>
    intro k fuel here enough
    obtain ⟨fuel,rfl⟩ := Nat.exists_eq_succ_of_ne_zero (by omega : fuel ≠ 0)
    have counted : k ≤ 65535 := by omega
    by_cases stop : ChunkEnds env r disk inodeTableOffset tableSize k
    · exact ⟨{},scanChunks_end counted stop fuel,ExtTrace.harmless_empty,fun _ _ _ => Rising.nil⟩
    · obtain ⟨chunkData,_,next⟩ := @scanChunks_next fsType v env r disk inodeTableOffset tableSize bg inodeBitmap k counted
        stop fuel
      obtain ⟨rest,scanned,harmless,rising⟩ := @ih (k + 1) fuel (by omega) (by omega)
      have more : k * 65536 < tableSize.toNat := Nat.lt_of_not_le (not_or.mp stop).1
      have start := chunkStart_toNat counted
      have unit : chunkSize.toNat = 65536 := rfl
      have length : (min chunkSize (tableSize - .ofNat (k * 65536))).toNat = min 65536 (tableSize.toNat - k * 65536) := by
        rw [UInt32.toNat_min,unit,UInt32.toNat_sub_of_le _ _ (by rw [UInt32.le_iff_toNat_le,start]; omega),start]
      refine ⟨_,by rw [next,scanned]; rfl,(scanChunk_harmless some_size (by rw [length]; omega)).append harmless,
        fun limit small bounded => ?_⟩
      have through := rising limit small bounded
      have sum := @Nat.div_add_div_le_add_div (k * 65536) (min 65536 (tableSize.toNat - k * 65536)) v.inodeSize.toNat
      have whole : (k * 65536 + min 65536 (tableSize.toNat - k * 65536)) / v.inodeSize.toNat ≤
          tableSize.toNat / v.inodeSize.toNat := Nat.div_le_div_right (by omega)
      have step : (k * 65536 + min 65536 (tableSize.toNat - k * 65536)) / v.inodeSize.toNat ≤
          (k + 1) * 65536 / v.inodeSize.toNat := Nat.div_le_div_right (by omega)
      have here := @scanChunk_rising r fsType v bg inodeBitmap chunkData (.ofNat (k * 65536))
        (min chunkSize (tableSize - .ofNat (k * 65536)))
      rw [start,length] at here
      -- the quotients are numbers of their own from here on
      obtain ⟨group,grouped⟩ : ∃ group, group = bg.toNat * v.inodesPerGroup.toNat := ⟨_,rfl⟩
      obtain ⟨first,started⟩ : ∃ first, first = k * 65536 / v.inodeSize.toNat := ⟨_,rfl⟩
      obtain ⟨count,covered⟩ : ∃ count, count = min 65536 (tableSize.toNat - k * 65536) / v.inodeSize.toNat := ⟨_,rfl⟩
      obtain ⟨second,followed⟩ : ∃ second, second = (k + 1) * 65536 / v.inodeSize.toNat := ⟨_,rfl⟩
      obtain ⟨total,summed⟩ : ∃ total, total = tableSize.toNat / v.inodeSize.toNat := ⟨_,rfl⟩
      rw [← started,← covered] at sum
      rw [← summed] at whole bounded
      rw [← followed] at step through
      rw [← grouped] at bounded through here ⊢
      rw [← started,← covered] at here
      rw [← started]
      exact (here (by omega)).append through (by omega) (by omega) (by omega)

end Tables

section Group

variable (env : RecoveryEnv) (r : FileRecovery) (disk : Disk) (v : ExtSuperblock)

def FirstInode (bgd : List UInt8) (bg : UInt32) : Prop :=
  v.inodeSize.toNat ≤ (v.tableSize bg).toNat ∧
    ∃ chunkData, chunkAt env r disk (v.inodeTableOffset bgd) (v.tableSize bg) 0 = .ok chunkData

/-- The table of a group ends, and its inodes start below the number of all inodes, if it has
a first one. -/
def GroupFine (bg : UInt32) : Prop :=
  ∀ bgd, readPartitionBytes env r disk (v.bgdOffset bg) v.bgdSize = .ok bgd → 32 ≤ bgd.length →
    TableEnds env r disk (v.inodeTableOffset bgd) (v.tableSize bg) ∧
      (FirstInode env r disk v bgd bg → bg.toNat * v.inodesPerGroup.toNat < v.inodeCount.toNat)

variable {env r disk v} {bg : UInt32}

theorem descriptor_harmless (bgd : List UInt8) (long : 32 ≤ bgd.length) : ({
    accesses := v.descriptorAccesses bgd 8 40 ++ v.descriptorAccesses bgd 4 36 } : ExtTrace).Harmless := by
  have fields (low high : Nat) (near : low + 4 ≤ 32) : ∀ a ∈ v.descriptorAccesses bgd low high, a.Inside := by
    intro a member
    rw [ExtSuperblock.descriptorAccesses] at member
    rcases List.mem_cons.mp member with rfl | far
    · exact Nat.le_trans near long
    · split at far
      next wide =>
        rw [List.mem_singleton.mp far]
        exact wide.2
      next => exact absurd far List.not_mem_nil
  refine ⟨fun _ member => absurd member List.not_mem_nil,fun _ member => absurd member List.not_mem_nil,?_⟩
  intro a member
  rcases List.mem_append.mp member with table | bitmap
  · exact fields 8 40 (by decide) a table
  · exact fields 4 36 (by decide) a bitmap

theorem tableSize_bound (some_size : v.inodeSize ≠ 0) (below : bg.toNat * v.inodesPerGroup.toNat < v.inodeCount.toNat) :
    bg.toNat * v.inodesPerGroup.toNat + (v.tableSize bg).toNat / v.inodeSize.toNat ≤
      min (bg.toNat * v.inodesPerGroup.toNat + v.inodesPerGroup.toNat) v.inodeCount.toNat := by
  have positive := inodeSize_positive some_size
  have width := v.inodeCount.toNat_lt
  have start : (bg * v.inodesPerGroup).toNat = bg.toNat * v.inodesPerGroup.toNat := by
    rw [UInt32.toNat_mul]
    exact Nat.mod_eq_of_lt (by omega)
  have inodes : (v.inodesInThisGroup bg).toNat =
      min v.inodesPerGroup.toNat (v.inodeCount.toNat - bg.toNat * v.inodesPerGroup.toNat) := by
    rw [ExtSuperblock.inodesInThisGroup,UInt32.toNat_min,
      UInt32.toNat_sub_of_le _ _ (by rw [UInt32.le_iff_toNat_le,start]; omega),start]
  have table : (v.tableSize bg).toNat / v.inodeSize.toNat ≤ (v.inodesInThisGroup bg).toNat := by
    rw [ExtSuperblock.tableSize,UInt32.toNat_mul,UInt16.toNat_toUInt32]
    refine Nat.le_trans (Nat.div_le_div_right (Nat.mod_le _ _)) ?_
    rw [Nat.mul_div_cancel _ positive]
  rw [inodes] at table
  omega

/-- A group without a first inode has none. -/
theorem scanChunks_none {bgd inodeBitmap : List UInt8} {fuel : Nat} {trace : ExtTrace}
    (none : ¬ FirstInode env r disk v bgd bg)
    (scanned : scanChunks env r disk fsType v bg (v.inodeTableOffset bgd) inodeBitmap (v.tableSize bg) fuel 0 =
      some trace) : trace.visited = [] := by
  have width := v.inodeSize.toNat_lt
  cases fuel with
  | zero => cases scanned
  | succ fuel =>
    by_cases ended : ChunkEnds env r disk (v.inodeTableOffset bgd) (v.tableSize bg) 0
    · have empty := @scanChunks_end fsType v env r disk (v.inodeTableOffset bgd) (v.tableSize bg) bg inodeBitmap 0
        (by decide) ended fuel
      rw [← Option.some.inj (empty.symm.trans scanned)]
    · obtain ⟨chunkData,read,next⟩ := @scanChunks_next fsType v env r disk (v.inodeTableOffset bgd) (v.tableSize bg) bg
        inodeBitmap 0 (by decide) ended fuel
      have narrow : (v.tableSize bg).toNat < v.inodeSize.toNat := Nat.lt_of_not_le (fun room => none ⟨room,chunkData,read⟩)
      obtain ⟨rest,after,rfl⟩ := Option.map_eq_some_iff.mp (next.symm.trans scanned)
      have empty : rest = {} := by
        cases fuel with
        | zero => cases after
        | succ fuel =>
          have second := @scanChunks_end fsType v env r disk (v.inodeTableOffset bgd) (v.tableSize bg) bg inodeBitmap 1
            (by decide) (.inl (by omega)) fuel
          exact Option.some.inj (after.symm.trans second)
      have unit : chunkSize.toNat = 65536 := rfl
      have first : v.tableSize bg - UInt32.ofNat (0 * 65536) = v.tableSize bg := UInt32.sub_zero _
      have room : ((min chunkSize (v.tableSize bg)) / v.inodeSize.toUInt32).toNat = 0 := by
        rw [UInt32.toNat_div,UInt32.toNat_min,unit,UInt16.toNat_toUInt32]
        exact Nat.div_eq_of_lt (by omega)
      rw [empty,ExtTrace.visited_append,scanChunk,ExtTrace.visited_append,first,room]
      rfl

/-- A group that is fine is scanned to its end without harm, and its inodes are its own. -/
theorem scanGroup_safe (some_size : v.inodeSize ≠ 0) (fine : GroupFine env r disk v bg) {fuel : Nat}
    (enough : 65535 < fuel) :
    ∃ trace, scanGroup env r disk fsType v fuel bg = some trace ∧ trace.Harmless ∧
      Rising UInt32.toNat (bg.toNat * v.inodesPerGroup.toNat + 1)
        (min (bg.toNat * v.inodesPerGroup.toNat + v.inodesPerGroup.toNat) v.inodeCount.toNat + 1) trace.visited := by
  unfold scanGroup
  split
  next => exact ⟨{},rfl,ExtTrace.harmless_empty,Rising.nil⟩
  next bgd read =>
    split
    next => exact ⟨{},rfl,ExtTrace.harmless_empty,Rising.nil⟩
    next short =>
      have long : 32 ≤ bgd.length := Nat.le_of_not_lt short
      obtain ⟨⟨last,within,ended⟩,below⟩ := fine bgd read long
      obtain ⟨chunks,scanned,harmless,rising⟩ := @scanChunks_safe env r disk fsType v (v.inodeTableOffset bgd)
        (v.tableSize bg) bg (inodeBitmapOf env r disk v bgd) some_size last within ended last 0 fuel (Nat.zero_add _)
        (by omega)
      have start : UInt32.ofNat (0 * 65536) = 0 := rfl
      rw [start] at scanned
      refine ⟨_,by rw [scanned]; rfl,(descriptor_harmless bgd long).append harmless,?_⟩
      rw [ExtTrace.visited_append,List.nil_append]
      by_cases first : FirstInode env r disk v bgd bg
      · have limit := tableSize_bound some_size (below first)
        have width := v.inodeCount.toNat_lt
        have through := rising _ (by omega) limit
        rw [Nat.zero_mul,Nat.zero_div,Nat.add_zero] at through
        exact through
      · rw [scanChunks_none first scanned]
        exact Rising.nil

theorem scanGroup_ended (some_size : v.inodeSize ≠ 0) {fuel : Nat} {trace : ExtTrace}
    (scanned : scanGroup env r disk fsType v fuel bg = some trace) {bgd : List UInt8}
    (read : readPartitionBytes env r disk (v.bgdOffset bg) v.bgdSize = .ok bgd) (long : 32 ≤ bgd.length) :
    TableEnds env r disk (v.inodeTableOffset bgd) (v.tableSize bg) ∧
      (FirstInode env r disk v bgd bg → inodeNumber v bg 0 0 ∈ trace.visited) := by
  have positive := inodeSize_positive some_size
  have start : UInt32.ofNat (0 * 65536) = 0 := rfl
  unfold scanGroup at scanned
  simp only [read] at scanned
  rw [if_neg (Nat.not_lt.mpr long)] at scanned
  obtain ⟨chunks,through,rfl⟩ := Option.map_eq_some_iff.mp scanned
  constructor
  · by_contra endless
    have never := @scanChunks_endless env r disk fsType v (v.inodeTableOffset bgd) (v.tableSize bg) bg
      (inodeBitmapOf env r disk v bgd) endless fuel 0 (by decide)
    rw [start,through] at never
    cases never
  · rintro ⟨room,chunkData,first⟩
    cases fuel with
    | zero => cases through
    | succ fuel =>
      have goes : ¬ ChunkEnds env r disk (v.inodeTableOffset bgd) (v.tableSize bg) 0 := by
        rintro (none | ⟨e,failed⟩)
        · omega
        · cases first.symm.trans failed
      obtain ⟨chunkData,_,next⟩ := @scanChunks_next fsType v env r disk (v.inodeTableOffset bgd) (v.tableSize bg) bg
        (inodeBitmapOf env r disk v bgd) 0 (by decide) goes fuel
      rw [start,through] at next
      obtain ⟨rest,_,same⟩ := Option.map_eq_some_iff.mp next.symm
      have unit : chunkSize.toNat = 65536 := rfl
      have width := v.inodeSize.toNat_lt
      have one : 0 < ((min chunkSize (v.tableSize bg)) / v.inodeSize.toUInt32).toNat := by
        rw [UInt32.toNat_div,UInt32.toNat_min,unit,UInt16.toNat_toUInt32]
        exact Nat.div_pos (by omega) positive
      obtain ⟨m,more⟩ := Nat.exists_eq_succ_of_ne_zero (Nat.ne_of_gt one)
      have zero : 0 / v.inodeSize.toUInt32 = 0 := UInt32.zero_div
      rw [ExtTrace.visited_append,← same,ExtTrace.visited_append,scanChunk,ExtTrace.visited_append,UInt32.sub_zero,zero,
        more,List.range_succ_eq_map]
      apply List.mem_append_right
      apply List.mem_append_left
      apply List.mem_append_right
      exact scanInodes_first 0 _

end Group

section Groups

variable {fuel : Nat}

/-- The groups from some one on that are scanned before a cancellation. -/
def Due (env : RecoveryEnv) (bg : UInt32) (left : Nat) (g : UInt32) : Prop :=
  bg ≤ g ∧ g.toNat < bg.toNat + left ∧ ∀ j, bg ≤ j → j ≤ g → env.canceled j.toUInt64 = false

theorem group_next {bg : UInt32} {left : Nat} (room : bg.toNat + (left + 1) < 2 ^ 32) :
    (bg + 1).toNat = bg.toNat + 1 := by
  have one : (1 : UInt32).toNat = 1 := rfl
  rw [UInt32.toNat_add,one]
  exact Nat.mod_eq_of_lt (by omega)

theorem Due.next {bg g : UInt32} {left : Nat} (room : bg.toNat + (left + 1) < 2 ^ 32)
    (going : env.canceled bg.toUInt64 = false) (due : Due env (bg + 1) left g) : Due env bg (left + 1) g := by
  have next := group_next room
  obtain ⟨above,below,never⟩ := due
  rw [UInt32.le_iff_toNat_le,next] at above
  refine ⟨UInt32.le_iff_toNat_le.mpr (by omega),by omega,fun j first last => ?_⟩
  by_cases here : j = bg
  · rw [here]
    exact going
  · have apart : j.toNat ≠ bg.toNat := fun same => here (UInt32.toNat_inj.mp same)
    have low := UInt32.le_iff_toNat_le.mp first
    exact never j (UInt32.le_iff_toNat_le.mpr (by omega)) last

theorem scanGroups_safe (some_size : v.inodeSize ≠ 0) (enough : 65535 < fuel) {left : Nat} :
    ∀ {bg : UInt32}, bg.toNat + left < 2 ^ 32 → (∀ g, Due env bg left g → GroupFine env r disk v g) →
      ∃ groups, scanGroups env r disk fsType v fuel left bg = some groups ∧ groups.1.Harmless ∧
        Rising UInt32.toNat (bg.toNat * v.inodesPerGroup.toNat + 1) (v.inodeCount.toNat + 1) groups.1.visited := by
  induction left with
  | zero => exact fun _ _ => ⟨_,rfl,ExtTrace.harmless_empty,Rising.nil⟩
  | succ left ih =>
    intro bg room fine
    rw [scanGroups]
    split
    next => exact ⟨_,rfl,ExtTrace.harmless_empty,Rising.nil⟩
    next going =>
      have on : env.canceled bg.toUInt64 = false := Bool.eq_false_iff.mpr going
      have next := group_next room
      have first : Due env bg (left + 1) bg := by
        refine ⟨UInt32.le_refl bg,by omega,fun j low high => ?_⟩
        rw [UInt32.le_antisymm high low]
        exact on
      obtain ⟨here,scanned,harmless,rising⟩ := scanGroup_safe some_size (fine bg first) enough
      obtain ⟨rest,after,others,following⟩ := @ih (bg + 1) (by omega) (fun g due => fine g (due.next room on))
      rw [next,Nat.add_mul,Nat.one_mul] at following
      rw [scanned]
      simp only [after]
      refine ⟨_,rfl,harmless.append others,?_⟩
      rw [ExtTrace.visited_append]
      exact rising.append following (by omega) (by omega) (by omega)

theorem scanGroups_each {left : Nat} :
    ∀ {bg : UInt32} {groups : ExtTrace × Result Unit}, bg.toNat + left < 2 ^ 32 →
      scanGroups env r disk fsType v fuel left bg = some groups → ∀ g, Due env bg left g →
        ∃ here, scanGroup env r disk fsType v fuel g = some here ∧ ∀ n ∈ here.visited, n ∈ groups.1.visited := by
  induction left with
  | zero =>
    intro bg groups _ _ g due
    have above := UInt32.le_iff_toNat_le.mp due.1
    have below := due.2.1
    omega
  | succ left ih =>
    intro bg groups room ended g due
    have next := group_next room
    obtain ⟨above,below,never⟩ := due
    rw [scanGroups,never bg (UInt32.le_refl bg) above,if_neg Bool.false_ne_true] at ended
    split at ended
    next => cases ended
    next here scanned =>
      obtain ⟨rest,after,rfl⟩ := Option.map_eq_some_iff.mp ended
      by_cases same : g = bg
      · rw [same]
        exact ⟨here,scanned,fun n member => List.mem_append_left _ member⟩
      · have apart : g.toNat ≠ bg.toNat := fun equal => same (UInt32.toNat_inj.mp equal)
        rw [UInt32.le_iff_toNat_le] at above
        obtain ⟨there,later,listed⟩ := ih (by omega) after g
          ⟨UInt32.le_iff_toNat_le.mpr (by omega),by omega,fun j low high => never j (UInt32.le_iff_toNat_le.mpr (by
            rw [UInt32.le_iff_toNat_le] at low
            omega)) high⟩
        exact ⟨there,later,fun n member => List.mem_append_right _ (listed n member)⟩

end Groups

section Superblock

/-- The numbers of a superblock that a scan can work with: a shift that is one, groups of some
blocks, tables that end, and groups that start below the number of inodes. -/
structure ExtSound (env : RecoveryEnv) (r : FileRecovery) (disk : Disk) (v : ExtSuperblock) : Prop where
  shift : v.logBlockSize.toNat < 32
  divisor : v.blocksPerGroup ≠ 0
  groups : ∀ g, Due env 0 v.blockGroups.toNat g → GroupFine env r disk v g

def ScansSafely (env : RecoveryEnv) (r : FileRecovery) (disk : Disk) (fsType : FilesystemType) (inodeCount : Nat) : Prop :=
  ∃ fuel scan, scanExt env r disk fsType fuel = some scan ∧ scan.trace.Safe inodeCount

theorem inodeSize_default (sb : List UInt8) : (extSuperblock sb).inodeSize ≠ 0 := by
  have either (size : UInt16) : (if size = 0 then 128 else size) ≠ 0 := by
    split
    next => decide
    next other => exact other
  exact either _

variable {sb : List UInt8} (read : readPartitionBytes env r disk 1024 1024 = .ok sb) (size : sb.length = 1024)
  (magic : readLE16 sb 0x38 = EXT_SUPER_MAGIC)
include read size magic

def scanHead (sb : List UInt8) : ExtTrace where
  divisors := [(extSuperblock sb).blocksPerGroup]
  shifts := [(extSuperblock sb).logBlockSize]
  accesses := superblockFields.map (fun field => ⟨sb.length,field.1,field.2⟩)

theorem scanExt_head {fuel : Nat} {scan : ExtScan} (ended : scanExt env r disk fsType fuel = some scan) :
    ((extSuperblock sb).blockGroups = 0 ∧ scan.trace = scanHead sb) ∨ ∃ groups,
      scanGroups env r disk fsType (extSuperblock sb) fuel (extSuperblock sb).blockGroups.toNat 0 = some groups ∧
        scan.trace = scanHead sb ++ groups.1 := by
  unfold scanExt at ended
  simp only [read] at ended
  rw [if_neg (by omega),if_neg (not_not_intro magic)] at ended
  split at ended
  next none =>
    rw [← Option.some.inj ended]
    exact .inl ⟨none,rfl⟩
  next =>
    obtain ⟨groups,scanned,rfl⟩ := Option.map_eq_some_iff.mp ended
    exact .inr ⟨groups,scanned,rfl⟩

omit read magic in
theorem scanHead_harmless (shift : (extSuperblock sb).logBlockSize.toNat < 32)
    (divisor : (extSuperblock sb).blocksPerGroup ≠ 0) : (scanHead sb).Harmless where
  divisors d member := by
    rw [List.mem_singleton.mp member]
    exact divisor
  shifts s member := by
    rw [List.mem_singleton.mp member]
    exact shift
  accesses a member := by
    obtain ⟨field,listed,rfl⟩ := List.mem_map.mp member
    have short : ∀ field ∈ superblockFields, field.1 + field.2 ≤ 1024 := by decide
    rw [Access.Inside,size]
    exact short field listed

theorem scanExt_needs {inodeCount : Nat} (safely : ScansSafely env r disk fsType inodeCount) :
    (extSuperblock sb).logBlockSize.toNat < 32 ∧ (extSuperblock sb).blocksPerGroup ≠ 0 := by
  obtain ⟨fuel,scan,ended,safe⟩ := safely
  rcases scanExt_head read size magic ended with ⟨_,same⟩ | ⟨groups,_,same⟩
  · rw [same] at safe
    exact ⟨safe.shifts _ List.mem_cons_self,safe.divisors _ List.mem_cons_self⟩
  · rw [same] at safe
    exact ⟨safe.shifts _ List.mem_cons_self,safe.divisors _ List.mem_cons_self⟩

theorem scanExt_sound (sound : ExtSound env r disk (extSuperblock sb)) :
    ScansSafely env r disk fsType (extSuperblock sb).inodeCount.toNat := by
  have head := scanHead_harmless size sound.shift sound.divisor
  obtain ⟨groups,scanned,harmless,rising⟩ := @scanGroups_safe env r disk fsType (extSuperblock sb) 65536
    (inodeSize_default sb) (by decide) (extSuperblock sb).blockGroups.toNat 0
    (by rw [UInt32.toNat_zero,Nat.zero_add]; exact UInt32.toNat_lt _) sound.groups
  have ended : ∃ scan, scanExt env r disk fsType 65536 = some scan := by
    unfold scanExt
    simp only [read]
    rw [if_neg (by omega),if_neg (not_not_intro magic)]
    split
    next => exact ⟨_,rfl⟩
    next => exact ⟨_,by rw [scanned]; rfl⟩
  obtain ⟨scan,ended⟩ := ended
  refine ⟨65536,scan,ended,?_⟩
  rcases scanExt_head read size magic ended with ⟨_,same⟩ | ⟨groups',again,same⟩
  · rw [same]
    exact ⟨head,fun _ member => absurd member List.not_mem_nil,List.nodup_nil⟩
  · obtain rfl := Option.some.inj (again.symm.trans scanned)
    have visited : (scanHead sb ++ groups'.1).visited = groups'.1.visited := by
      rw [ExtTrace.visited_append,scanHead,List.nil_append]
    rw [same]
    refine ⟨head.append harmless,fun n member => ?_,visited ▸ rising.nodup⟩
    have range := rising.bounds n (visited ▸ member)
    rw [UInt32.toNat_zero,Nat.zero_mul] at range
    omega

/-- No group that is scanned and has a first inode starts behind the numbers of 32 bits. -/
def StartsCounted (env : RecoveryEnv) (r : FileRecovery) (disk : Disk) (v : ExtSuperblock) : Prop :=
  ∀ g, Due env 0 v.blockGroups.toNat g → ∀ bgd, readPartitionBytes env r disk (v.bgdOffset g) v.bgdSize = .ok bgd →
    FirstInode env r disk v bgd g → g.toNat * v.inodesPerGroup.toNat < 2 ^ 32

theorem sound_of_scansSafely (counted : StartsCounted env r disk (extSuperblock sb))
    (safely : ScansSafely env r disk fsType (extSuperblock sb).inodeCount.toNat) :
    ExtSound env r disk (extSuperblock sb) := by
  obtain ⟨shift,divisor⟩ := scanExt_needs read size magic safely
  refine ⟨shift,divisor,fun g due bgd described long => ?_⟩
  obtain ⟨fuel,scan,ended,safe⟩ := safely
  rcases scanExt_head read size magic ended with ⟨none,_⟩ | ⟨groups,scanned,same⟩
  · have below := due.2.1
    rw [none,UInt32.toNat_zero] at below
    omega
  · obtain ⟨here,through,listed⟩ := scanGroups_each
      (by rw [UInt32.toNat_zero,Nat.zero_add]; exact UInt32.toNat_lt _) scanned g due
    obtain ⟨ends,first⟩ := scanGroup_ended (inodeSize_default sb) through described long
    refine ⟨ends,fun inode => ?_⟩
    have low := counted g due bgd described inode
    have member : inodeNumber (extSuperblock sb) g 0 0 ∈ scan.trace.visited := by
      rw [same,ExtTrace.visited_append]
      exact List.mem_append_right _ (listed _ (first inode))
    have range := safe.visited _ member
    have one : (1 : UInt32).toNat = 1 := rfl
    rw [inodeNumber,UInt32.add_zero,UInt32.add_zero,UInt32.toNat_add,UInt32.toNat_mul,one,Nat.mod_eq_of_lt low] at range
    omega

/-- A scan is safe where the superblock is sound, and where no start of a group wraps only
there. -/
theorem scanExt_safe_iff :
    (ExtSound env r disk (extSuperblock sb) → ScansSafely env r disk fsType (extSuperblock sb).inodeCount.toNat) ∧
    (StartsCounted env r disk (extSuperblock sb) →
      (ScansSafely env r disk fsType (extSuperblock sb).inodeCount.toNat ↔ ExtSound env r disk (extSuperblock sb))) :=
  ⟨scanExt_sound read size magic,fun counted =>
    ⟨sound_of_scansSafely read size magic counted,scanExt_sound read size magic⟩⟩

end Superblock

section Sample

theorem extVolume_read : readPartitionBytes {} extPartition (extVolume 12288) 1024 1024 = .ok extSample := by
  have whole := slice_all extSample
  rw [length_extSample] at whole
  exact (@extVolume_sample 12288 1024 (by decide) (by decide)).trans (congrArg Except.ok whole)

theorem extSample_sound : ExtSound {} extPartition (extVolume 12288) (extSuperblock extSample) := by
  have fields : (extSuperblock extSample).logBlockSize = 0 ∧ (extSuperblock extSample).blocksPerGroup = 8192 ∧
      (extSuperblock extSample).blockGroups = 1 ∧ (extSuperblock extSample).inodesPerGroup = 16 ∧
      (extSuperblock extSample).inodeCount = 16 ∧ (extSuperblock extSample).tableSize 0 = 2048 := by decide
  obtain ⟨log,blocks,groups,inodes,count,table⟩ := fields
  refine ⟨by rw [log]; decide,by rw [blocks]; decide,fun g due bgd _ _ => ?_⟩
  have only : g = 0 := by
    have below := due.2.1
    rw [groups] at below
    exact UInt32.toNat_inj.mp (Nat.lt_one_iff.mp below)
  rw [only,inodes,count,table]
  exact ⟨⟨65535,Nat.le_refl _,.inl (by decide)⟩,fun _ => by decide⟩

/-- A volume of one group is scanned safely. -/
theorem sample_safe : ScansSafely {} extPartition (extVolume 12288) .ext2 16 := by
  have count : (extSuperblock extSample).inodeCount.toNat = 16 := by decide
  rw [← count]
  exact (scanExt_safe_iff extVolume_read (by decide +kernel) (by decide)).1 extSample_sound

/-- A superblock that has the magic and is empty otherwise. -/
def emptySuperblock : List UInt8 := overwrite (List.replicate 1024 0) [(0x38,le16 EXT_SUPER_MAGIC)]

def emptyVolume : Disk := (filled 65536 0).patched 1024 emptySuperblock

/-- Its scan divides by zero. -/
theorem zero_divided : ∃ sb, readPartitionBytes {} extPartition emptyVolume 1024 1024 = .ok sb ∧ sb.length = 1024 ∧
    readLE16 sb 0x38 = EXT_SUPER_MAGIC ∧
    ¬ ScansSafely {} extPartition emptyVolume .ext2 (extSuperblock sb).inodeCount.toNat := by
  have start : partBase extPartition + (1024 : UInt64).toNat = 1024 := rfl
  have count : (1024 : UInt32).toNat = 1024 := rfl
  have block : emptySuperblock.length = 1024 := length_overwrite (by decide) List.length_replicate
  have magic : readLE16 emptySuperblock 0x38 = EXT_SUPER_MAGIC := by decide
  have none : (extSuperblock emptySuperblock).blocksPerGroup = 0 := by decide
  have readable : Readable {} extPartition emptyVolume :=
    ⟨by decide,by decide,by change 65536 < 2 ^ 63; decide,by change 0 * 512 + 128 * 512 ≤ 65536; decide,fun _ _ _ => rfl⟩
  have read := @readPartitionBytes_inside {} extPartition _ readable 1024 1024 (by decide) (by decide) (by decide)
  rw [start,count,emptyVolume,Disk.patched_byte,window_patch_whole _ _ block] at read
  exact ⟨emptySuperblock,read,block,magic,fun safely => (scanExt_needs read block magic safely).2 none⟩

end Sample
end SetecWizard.Core.FileRecovery
