import SetecWizard.Recovery.FatFile
import Mathlib.Data.List.Nodup
import Mathlib.Data.List.TakeWhile

/-! Which entries of directories the results of a scan are made of. The root directory of FAT32 is
walked along its chain, at most 4096 clusters of it, and then the first clusters of the data area
are swept for what looks like a directory; a cluster that is come to in both ways, or twice along
a chain that runs in a circle, has its deleted entries reported as often.
-/
namespace SetecWizard.Core.FileRecovery
open SetecWizard.Library

section Reports

variable (env : RecoveryEnv) (r : FileRecovery) (disk : Disk) (fsType : FilesystemType) (bpb : FatBpb)

def entryAt (dirData : List UInt8) (i : Nat) : List UInt8 := slice dirData (i * 32) 32

def unused (entry : List UInt8) : Prop := entry.getD 0 0 = 0x00

instance (entry : List UInt8) : Decidable (unused entry) := inferInstanceAs (Decidable (_ = _))

def deletedIndices (dirData : List UInt8) : List Nat :=
  ((List.range (dirData.length / 32)).takeWhile fun i => ¬ unused (entryAt dirData i)).filter
    fun i => deletedEntry (entryAt dirData i)

def dirData (offset : UInt64) (size : UInt32) : List UInt8 :=
  match readPartitionBytes env r disk offset size with
  | .error _ => []
  | .ok data => data

/-- The results of a directory, each with the place of its entry in the partition. -/
def reportsIn (offset : UInt64) (size : UInt32) : List (Nat × RecoverableFile) :=
  let data := dirData env r disk offset size
  (deletedIndices data).map fun i => (offset.toNat + i * 32,entryFile r fsType bpb (entryAt data i))

def clusterData (cluster : Nat) : List UInt8 :=
  dirData env r disk (bpb.clusterByteOffset (.ofNat cluster)) bpb.clusterSize

def clusterReports (cluster : Nat) : List (Nat × RecoverableFile) :=
  reportsIn env r disk fsType bpb (bpb.clusterByteOffset (.ofNat cluster)) bpb.clusterSize

/-- The numbers of clusters that hold data. -/
abbrev InChain (cluster : UInt32) : Prop := 2 ≤ cluster ∧ cluster < 0x0FFFFFF8

def nextCluster (cluster : UInt32) : Option UInt32 :=
  match readPartitionBytes env r disk
      (bpb.reservedSectors.toUInt64 * bpb.bytesPerSector.toUInt64 + (cluster * 4).toUInt64) 4 with
  | .error _ => none
  | .ok fatData => some (readLE32 fatData 0 &&& 0x0FFFFFFF)

def chainFrom : Nat → UInt32 → Option UInt32
  | 0,cluster => if InChain cluster then some cluster else none
  | k + 1,cluster => if InChain cluster then (nextCluster env r disk bpb cluster).bind (chainFrom k) else none

def chainClusters : Nat → UInt32 → List Nat
  | 0,_ => []
  | left + 1,cluster =>
    if InChain cluster then cluster.toNat :: (nextCluster env r disk bpb cluster).elim [] (chainClusters left) else []

def looksLikeDirectory (cluster : Nat) : Bool :=
  match readPartitionBytes env r disk (bpb.clusterByteOffset (.ofNat cluster)) 32 with
  | .error _ => false
  | .ok peek => peek.getD 0 0 == 0x2E || peek.getD 0 0 == FAT_DELETED_MARKER

def rootClusters : List Nat := chainClusters env r disk bpb maxClusters bpb.rootCluster

def sweptClusters : List Nat :=
  (List.range' 2 bpb.clustersToScan.toNat).filter (looksLikeDirectory env r disk bpb)

def fixedRoot : UInt64 :=
  (bpb.reservedSectors.toUInt32 + bpb.numberOfFats.toUInt32 * bpb.fatSize).toUInt64 * bpb.bytesPerSector.toUInt64

def rootReports : List (Nat × RecoverableFile) :=
  if bpb.isFat32 then (rootClusters env r disk bpb).flatMap (clusterReports env r disk fsType bpb)
  else reportsIn env r disk fsType bpb (fixedRoot bpb) (bpb.rootEntryCount.toUInt32 * 32)

/-- The results of the scan with the places of their entries. -/
def placedReports : List (Nat × RecoverableFile) :=
  rootReports env r disk fsType bpb ++ (sweptClusters env r disk bpb).flatMap (clusterReports env r disk fsType bpb)

end Reports

theorem ofNat_cluster (cluster : UInt32) : UInt64.ofNat cluster.toNat = cluster.toUInt64 := by
  have narrow := cluster.toNat_lt
  apply UInt64.toNat_inj.mp
  rw [UInt64.toNat_ofNat',UInt32.toNat_toUInt64,Nat.mod_eq_of_lt (by omega)]

theorem deletedIndices_nil : deletedIndices [] = [] := by
  rw [deletedIndices,List.length_nil,Nat.zero_div]
  rfl

section Scan

variable {env : RecoveryEnv} {r : FileRecovery} {disk : Disk} {fsType : FilesystemType} {bpb : FatBpb}
variable (running : ∀ position, env.canceled position = false)
include running

theorem scanEntries_eq (offset : UInt64) (data : List UInt8) (left : List Nat) :
    scanEntries env r fsType bpb offset data left =
      ((left.takeWhile fun i => ¬ unused (entryAt data i)).filter fun i => deletedEntry (entryAt data i)).map
        fun i => entryFile r fsType bpb (entryAt data i) := by
  induction left with
  | nil => rfl
  | cons i rest ih =>
    rw [scanEntries,if_neg (by rw [running]; exact Bool.false_ne_true)]
    change (if unused (entryAt data i) then []
      else if deletedEntry (entryAt data i) = true then
        entryFile r fsType bpb (entryAt data i) :: scanEntries env r fsType bpb offset data rest
      else scanEntries env r fsType bpb offset data rest) = _
    by_cases last : unused (entryAt data i)
    · rw [if_pos last,List.takeWhile_cons,if_neg (by rw [decide_eq_true_eq]; exact not_not.mpr last)]
      rfl
    · rw [if_neg last,List.takeWhile_cons,if_pos (decide_eq_true last),ih]
      by_cases deleted : deletedEntry (entryAt data i) = true
      · rw [if_pos deleted,List.filter_cons,if_pos deleted,List.map_cons]
      · rw [if_neg deleted,List.filter_cons,if_neg deleted]

theorem scanDirEntries_eq (offset : UInt64) (size : UInt32) :
    scanDirEntries env r disk fsType bpb offset size = (reportsIn env r disk fsType bpb offset size).map Prod.snd := by
  rw [scanDirEntries,reportsIn,dirData]
  cases readPartitionBytes env r disk offset size with
  | error e =>
    dsimp only
    rw [deletedIndices_nil]
    rfl
  | ok data =>
    dsimp only
    rw [scanEntries_eq running,List.map_map]
    rfl

theorem walkRoot_eq (left : Nat) (cluster : UInt32) : walkRoot env r disk fsType bpb left cluster =
    ((chainClusters env r disk bpb left cluster).flatMap (clusterReports env r disk fsType bpb)).map Prod.snd := by
  induction left generalizing cluster with
  | zero => rfl
  | succ left ih =>
    rw [walkRoot,chainClusters]
    by_cases valid : InChain cluster
    · rw [if_pos valid,if_pos valid,List.flatMap_cons,List.map_append,scanDirEntries_eq running,clusterReports,
        ofNat_cluster,nextCluster]
      cases readPartitionBytes env r disk
          (bpb.reservedSectors.toUInt64 * bpb.bytesPerSector.toUInt64 + (cluster * 4).toUInt64) 4 with
      | error e => rfl
      | ok fatData => exact congrArg _ (ih _)
    · rw [if_neg valid,if_neg valid]
      rfl

theorem scanClusters_eq (left : List Nat) : scanClusters env r disk fsType bpb left =
    ((left.filter (looksLikeDirectory env r disk bpb)).flatMap (clusterReports env r disk fsType bpb)).map Prod.snd := by
  induction left with
  | nil => rfl
  | cons cluster rest ih =>
    rw [scanClusters,if_neg (by rw [running]; exact Bool.false_ne_true),List.filter_cons,looksLikeDirectory]
    cases readPartitionBytes env r disk (bpb.clusterByteOffset (.ofNat cluster)) 32 with
    | error e => exact ih
    | ok peek =>
      dsimp only
      by_cases other : peek.getD 0 0 ≠ 0x2E ∧ peek.getD 0 0 ≠ FAT_DELETED_MARKER
      · rw [if_pos other,if_neg (by simpa using other),ih]
      · rw [if_neg other,if_pos (by simpa [or_iff_not_imp_left] using other),List.flatMap_cons,List.map_append,
          scanDirEntries_eq running,ih]
        rfl

/-- The scan returns the results, whatever places they come from. -/
theorem scanFat_reports {boot : List UInt8} (read : readPartitionBytes env r disk 0 512 = .ok boot)
    {files : List RecoverableFile} (scanned : scanFat env r disk fsType = .ok files) :
    files = (placedReports env r disk fsType (fatBpb boot)).map Prod.snd := by
  rw [scanFat,read] at scanned
  dsimp only at scanned
  split at scanned
  next => cases scanned
  next =>
    split at scanned
    next => cases scanned
    next =>
      rw [← Except.ok.inj scanned,placedReports,List.map_append,scanClusters_eq running,scanRoot,rootReports]
      split
      next => rw [walkRoot_eq running]; rfl
      next => rw [scanDirEntries_eq running]; rfl

end Scan

section Places

variable {env : RecoveryEnv} {r : FileRecovery} {disk : Disk} {fsType : FilesystemType} {bpb : FatBpb}

def clusterSlots (env : RecoveryEnv) (r : FileRecovery) (disk : Disk) (bpb : FatBpb) (cluster : Nat) : List Nat :=
  (deletedIndices (clusterData env r disk bpb cluster)).map
    fun i => (bpb.clusterByteOffset (.ofNat cluster)).toNat + i * 32

theorem clusterSlots_eq (cluster : Nat) :
    (clusterReports env r disk fsType bpb cluster).map Prod.fst = clusterSlots env r disk bpb cluster := List.map_map

theorem flatMap_slots (clusters : List Nat) : (clusters.flatMap (clusterReports env r disk fsType bpb)).map Prod.fst =
    clusters.flatMap (clusterSlots env r disk bpb) := by
  rw [List.map_flatMap]
  exact congrArg (clusters.flatMap ·) (funext fun cluster => clusterSlots_eq cluster)

theorem length_dirData (offset : UInt64) (size : UInt32) : (dirData env r disk offset size).length ≤ size.toNat := by
  rw [dirData]
  split
  next => exact Nat.zero_le _
  next data read =>
    rw [readPartitionBytes] at read
    split at read
    next => cases read
    next =>
      split at read
      next => cases read
      next =>
        rw [← Except.ok.inj read,slice,List.length_take]
        exact Nat.min_le_left _ _

/-- An entry that is deleted, with no unused one before it. -/
structure DeletedAt (data : List UInt8) (i : Nat) : Prop where
  inside : i < data.length / 32
  deleted : deletedEntry (entryAt data i) = true
  used : ∀ j < i, ¬ unused (entryAt data j)

theorem mem_takeWhile_range' (p : Nat → Bool) {start n i : Nat} : i ∈ (List.range' start n).takeWhile p ↔
    start ≤ i ∧ i < start + n ∧ ∀ j, start ≤ j → j ≤ i → p j = true := by
  induction n generalizing start with
  | zero => exact iff_of_false List.not_mem_nil (fun all => by omega)
  | succ n ih =>
    rw [List.range'_succ,List.takeWhile_cons]
    split
    next here =>
      rw [List.mem_cons,ih]
      constructor
      · rintro (rfl | ⟨behind,inside,all⟩)
        · refine ⟨by omega,by omega,fun j from_ upto => ?_⟩
          rw [Nat.le_antisymm upto from_]
          exact here
        · refine ⟨by omega,by omega,fun j from_ upto => ?_⟩
          rcases Nat.eq_or_lt_of_le from_ with rfl | later
          · exact here
          · exact all j later upto
      · rintro ⟨behind,inside,all⟩
        rcases Nat.eq_or_lt_of_le behind with rfl | later
        · exact .inl rfl
        · exact .inr ⟨later,by omega,fun j from_ upto => all j (by omega) upto⟩
    next fails => exact iff_of_false List.not_mem_nil (fun all => fails (all.2.2 start (Nat.le_refl _) all.1))

theorem mem_deletedIndices {data : List UInt8} {i : Nat} : i ∈ deletedIndices data ↔ DeletedAt data i := by
  rw [deletedIndices,List.mem_filter,List.range_eq_range',mem_takeWhile_range']
  constructor
  · rintro ⟨⟨_,inside,used⟩,deleted⟩
    exact ⟨by omega,deleted,fun j before => of_decide_eq_true (used j (Nat.zero_le _) (Nat.le_of_lt before))⟩
  · intro here
    have marked : ¬ unused (entryAt data i) := by
      intro free
      have deleted := here.deleted
      rw [deletedEntry,show (entryAt data i).getD 0 0 = 0 from free] at deleted
      simp [FAT_DELETED_MARKER] at deleted
    refine ⟨⟨Nat.zero_le _,by have inside := here.inside; omega,fun j _ upto => decide_eq_true ?_⟩,here.deleted⟩
    rcases Nat.eq_or_lt_of_le upto with rfl | before
    · exact marked
    · exact here.used j before

theorem nodup_deletedIndices (data : List UInt8) : (deletedIndices data).Nodup :=
  ((List.nodup_range).sublist (List.takeWhile_sublist _)).filter _

theorem nodup_places (data : List UInt8) (start : Nat) : ((deletedIndices data).map fun i => start + i * 32).Nodup := by
  apply (nodup_deletedIndices data).map
  intro i j same
  dsimp only at same
  omega

theorem clusterByteOffset_place {cluster : Nat} (behind : 2 ≤ cluster) (narrow : cluster < 2 ^ 32) :
    (bpb.clusterByteOffset (.ofNat cluster)).toNat =
      bpb.firstDataSector.toNat * bpb.bytesPerSector.toNat + (cluster - 2) * bpb.clusterBytes := by
  have sector := bpb.firstDataSector.toNat_lt
  have bytes := bpb.bytesPerSector.toNat_lt
  obtain ⟨size,small⟩ := clusterSize_toNat bpb
  have two : (2 : UInt64).toNat = 2 := rfl
  have first : bpb.firstDataSector.toNat * bpb.bytesPerSector.toNat < 2 ^ 48 :=
    Nat.lt_of_lt_of_le (Nat.mul_lt_mul_of_lt_of_lt sector bytes) (by decide)
  have second : (cluster - 2) * bpb.clusterBytes < 2 ^ 56 :=
    Nat.lt_of_lt_of_le (Nat.mul_lt_mul_of_lt_of_lt (by omega : cluster - 2 < 2 ^ 32) small) (by decide)
  have less : (UInt64.ofNat cluster - 2).toNat = cluster - 2 := by
    rw [UInt64.toNat_sub,two,UInt64.toNat_ofNat']
    omega
  rw [FatBpb.clusterByteOffset,UInt64.toNat_add,UInt64.toNat_mul,UInt64.toNat_mul,less,UInt32.toNat_toUInt64,
    UInt32.toNat_toUInt64,UInt16.toNat_toUInt64,size,
    Nat.mod_eq_of_lt (by omega : bpb.firstDataSector.toNat * bpb.bytesPerSector.toNat < 2 ^ 64),
    Nat.mod_eq_of_lt (by omega : (cluster - 2) * bpb.clusterBytes < 2 ^ 64)]
  exact Nat.mod_eq_of_lt (by omega)

theorem slot_range {cluster slot : Nat} (behind : 2 ≤ cluster) (narrow : cluster < 2 ^ 32)
    (member : slot ∈ clusterSlots env r disk bpb cluster) :
    let start := bpb.firstDataSector.toNat * bpb.bytesPerSector.toNat
    start ≤ slot ∧ (slot - start) / bpb.clusterBytes = cluster - 2 := by
  obtain ⟨i,found,rfl⟩ := List.mem_map.mp member
  have inside := (mem_deletedIndices.mp found).inside
  have short : (clusterData env r disk bpb cluster).length ≤ bpb.clusterBytes := by
    rw [← (clusterSize_toNat bpb).1]
    exact length_dirData _ _
  rw [clusterByteOffset_place behind narrow]
  dsimp only
  refine ⟨by omega,?_⟩
  apply Nat.div_eq_of_lt_le
  · omega
  · rw [Nat.succ_mul]
    omega

/-- A slot is in one cluster only. -/
theorem slot_cluster {first second slot : Nat} (range : 2 ≤ first ∧ first < 2 ^ 32) (also : 2 ≤ second ∧ second < 2 ^ 32)
    (member : slot ∈ clusterSlots env r disk bpb first) (other : slot ∈ clusterSlots env r disk bpb second) :
    first = second := by
  have place := (slot_range range.1 range.2 member).2
  rw [(slot_range also.1 also.2 other).2] at place
  omega

end Places

section Chains

variable {env : RecoveryEnv} {r : FileRecovery} {disk : Disk} {bpb : FatBpb}

theorem chainFrom_range {k : Nat} {cluster last : UInt32} (found : chainFrom env r disk bpb k cluster = some last) :
    InChain last := by
  induction k generalizing cluster with
  | zero =>
    rw [chainFrom] at found
    split at found
    next valid => rwa [← Option.some.inj found]
    next => cases found
  | succ k ih =>
    rw [chainFrom] at found
    split at found
    next =>
      obtain ⟨next,_,rest⟩ := Option.bind_eq_some_iff.mp found
      exact ih rest
    next => cases found

theorem inChain_toNat {cluster : UInt32} (valid : InChain cluster) : 2 ≤ cluster.toNat ∧ cluster.toNat < 2 ^ 32 :=
  ⟨UInt32.le_iff_toNat_le.mp valid.1,cluster.toNat_lt⟩

theorem getElem?_chainClusters {left k : Nat} {cluster : UInt32} :
    (chainClusters env r disk bpb left cluster)[k]? =
      if k < left then (chainFrom env r disk bpb k cluster).map UInt32.toNat else none := by
  induction left generalizing k cluster with
  | zero =>
    rw [if_neg (Nat.not_lt_zero k)]
    rfl
  | succ left ih =>
    rw [chainClusters]
    by_cases valid : InChain cluster
    · rw [if_pos valid]
      cases k with
      | zero =>
        rw [if_pos (Nat.succ_pos left),chainFrom,if_pos valid]
        rfl
      | succ k =>
        rw [List.getElem?_cons_succ,chainFrom,if_pos valid]
        cases nextCluster env r disk bpb cluster with
        | none =>
          change none = if k + 1 < left + 1 then none else none
          rw [ite_self]
        | some next =>
          change (chainClusters env r disk bpb left next)[k]? =
            if k + 1 < left + 1 then (chainFrom env r disk bpb k next).map UInt32.toNat else none
          rw [ih]
          exact if_congr Nat.succ_lt_succ_iff.symm rfl rfl
    · have none_found : chainFrom env r disk bpb k cluster = none := by
        cases k with
        | zero => rw [chainFrom,if_neg valid]
        | succ k => rw [chainFrom,if_neg valid]
      rw [if_neg valid,none_found,Option.map_none,ite_self]
      rfl

theorem getElem?_rootClusters {k cluster : Nat} : (rootClusters env r disk bpb)[k]? = some cluster ↔
    k < maxClusters ∧ ∃ last, chainFrom env r disk bpb k bpb.rootCluster = some last ∧ last.toNat = cluster := by
  rw [rootClusters,getElem?_chainClusters]
  split
  next early => rw [Option.map_eq_some_iff,and_iff_right early]
  next late => exact iff_of_false (fun found => (nomatch found)) (fun found => late found.1)

theorem mem_rootClusters {cluster : Nat} : cluster ∈ rootClusters env r disk bpb ↔
    ∃ k < maxClusters, ∃ last, chainFrom env r disk bpb k bpb.rootCluster = some last ∧ last.toNat = cluster :=
  List.mem_iff_getElem?.trans (exists_congr fun _ => getElem?_rootClusters)

theorem rootClusters_range {cluster : Nat} (member : cluster ∈ rootClusters env r disk bpb) :
    2 ≤ cluster ∧ cluster < 2 ^ 32 := by
  obtain ⟨k,_,last,found,rfl⟩ := mem_rootClusters.mp member
  exact inChain_toNat (chainFrom_range found)

theorem sweptClusters_range {cluster : Nat} (member : cluster ∈ sweptClusters env r disk bpb) :
    2 ≤ cluster ∧ cluster < 2 ^ 32 := by
  obtain ⟨behind,inside⟩ := List.mem_range'_1.mp (List.mem_of_mem_filter member)
  have capped : bpb.clustersToScan.toNat ≤ 8192 := by
    change (if bpb.totalClusters ≤ 8192 then bpb.totalClusters else 8192).toNat ≤ 8192
    split
    next few => exact UInt64.le_iff_toNat_le.mp few
    next => exact Nat.le_refl _
  exact ⟨behind,by omega⟩

end Chains

section Once

variable (env : RecoveryEnv) (r : FileRecovery) (disk : Disk) (fsType : FilesystemType) (bpb : FatBpb)

def HasDeleted (cluster : Nat) : Prop := ∃ i, DeletedAt (clusterData env r disk bpb cluster) i

/-- A cluster of the root directory with no unused entry in those before it. -/
structure RootCluster (k : Nat) (cluster : UInt32) : Prop where
  along : chainFrom env r disk bpb k bpb.rootCluster = some cluster
  behind_used : ∀ j < k, ∀ before, chainFrom env r disk bpb j bpb.rootCluster = some before →
    ∀ i < (clusterData env r disk bpb before.toNat).length / 32,
      ¬ unused (entryAt (clusterData env r disk bpb before.toNat) i)

/-- The place of a deleted entry of a directory before its first unused one. -/
def DeletedSlot (offset : UInt64) (size : UInt32) (slot : Nat) : Prop :=
  ∃ i, DeletedAt (dirData env r disk offset size) i ∧ offset.toNat + i * 32 = slot

def RootSlot (slot : Nat) : Prop :=
  if bpb.isFat32 then ∃ k cluster, RootCluster env r disk bpb k cluster ∧
    DeletedSlot env r disk (bpb.clusterByteOffset cluster.toUInt64) bpb.clusterSize slot
  else DeletedSlot env r disk (fixedRoot bpb) (bpb.rootEntryCount.toUInt32 * 32) slot

/-- The results come from entries at different places, those of the root directory among them. -/
structure ReportsOnce (files : List RecoverableFile) : Prop where
  listed : files = (placedReports env r disk fsType bpb).map Prod.snd
  once : ((placedReports env r disk fsType bpb).map Prod.fst).Nodup
  found : ∀ slot, RootSlot env r disk bpb slot → slot ∈ (placedReports env r disk fsType bpb).map Prod.fst

/-- The clusters with deleted entries are come to once: not twice along the chain of the root
directory, not by the sweep as well, and those too far along the chain by the sweep at least. -/
structure SeenOnce : Prop where
  walked : ∀ j < maxClusters, ∀ k < maxClusters, ∀ cluster, chainFrom env r disk bpb j bpb.rootCluster = some cluster →
    chainFrom env r disk bpb k bpb.rootCluster = some cluster → HasDeleted env r disk bpb cluster.toNat → j = k
  unswept : ∀ k < maxClusters, ∀ cluster, chainFrom env r disk bpb k bpb.rootCluster = some cluster →
    HasDeleted env r disk bpb cluster.toNat → cluster.toNat ∉ sweptClusters env r disk bpb
  reached : ∀ k, maxClusters ≤ k → ∀ cluster, RootCluster env r disk bpb k cluster →
    HasDeleted env r disk bpb cluster.toNat →
      cluster.toNat ∈ rootClusters env r disk bpb ∨ cluster.toNat ∈ sweptClusters env r disk bpb

variable {env r disk fsType bpb}

theorem mem_deletedSlots {offset : UInt64} {size : UInt32} {slot : Nat} :
    slot ∈ (reportsIn env r disk fsType bpb offset size).map Prod.fst ↔ DeletedSlot env r disk offset size slot := by
  rw [reportsIn,List.map_map,List.mem_map]
  exact exists_congr fun i => and_congr_left fun _ => mem_deletedIndices

theorem mem_clusterSlots {cluster slot : Nat} : slot ∈ clusterSlots env r disk bpb cluster ↔
    DeletedSlot env r disk (bpb.clusterByteOffset (.ofNat cluster)) bpb.clusterSize slot := by
  rw [clusterSlots,List.mem_map]
  exact exists_congr fun i => and_congr_left fun _ => mem_deletedIndices

theorem hasDeleted_slot {cluster slot : Nat} (member : slot ∈ clusterSlots env r disk bpb cluster) :
    HasDeleted env r disk bpb cluster := by
  obtain ⟨i,here,_⟩ := mem_clusterSlots.mp member
  exact ⟨i,here⟩

theorem slot_hasDeleted {cluster : Nat} (some_deleted : HasDeleted env r disk bpb cluster) :
    ∃ slot, slot ∈ clusterSlots env r disk bpb cluster := by
  obtain ⟨i,here⟩ := some_deleted
  exact ⟨_,mem_clusterSlots.mpr ⟨i,here,rfl⟩⟩

/-- Two clusters share a slot only where they are one. -/
theorem disjoint_slots {first second : Nat} (range : 2 ≤ first ∧ first < 2 ^ 32) (also : 2 ≤ second ∧ second < 2 ^ 32) :
    List.Disjoint (clusterSlots env r disk bpb first) (clusterSlots env r disk bpb second) ↔
      (first = second → ¬ HasDeleted env r disk bpb first) := by
  constructor
  · rintro apart rfl some_deleted
    obtain ⟨slot,member⟩ := slot_hasDeleted some_deleted
    exact apart member member
  · intro apart slot member other
    exact apart (slot_cluster range also member other) (hasDeleted_slot member)

theorem nodup_slots {clusters : List Nat} (range : ∀ cluster ∈ clusters, 2 ≤ cluster ∧ cluster < 2 ^ 32) :
    (clusters.flatMap (clusterSlots env r disk bpb)).Nodup ↔
      clusters.Pairwise fun first second => first = second → ¬ HasDeleted env r disk bpb first := by
  have single : ∀ cluster ∈ clusters, (clusterSlots env r disk bpb cluster).Nodup := fun cluster _ => nodup_places _ _
  rw [List.nodup_flatMap,and_iff_right single]
  exact List.Pairwise.iff_of_mem fun member other => disjoint_slots (range _ member) (range _ other)

theorem sweptClusters_pairwise : (sweptClusters env r disk bpb).Pairwise
    fun first second => first = second → ¬ HasDeleted env r disk bpb first :=
  (List.Nodup.filter _ List.nodup_range').imp fun apart same => absurd same apart

/-- No cluster with deleted entries comes twice in the walk. -/
theorem rootClusters_pairwise : (rootClusters env r disk bpb).Pairwise
      (fun first second => first = second → ¬ HasDeleted env r disk bpb first) ↔
    ∀ j < maxClusters, ∀ k < maxClusters, ∀ cluster, chainFrom env r disk bpb j bpb.rootCluster = some cluster →
      chainFrom env r disk bpb k bpb.rootCluster = some cluster → HasDeleted env r disk bpb cluster.toNat → j = k := by
  rw [List.pairwise_iff_getElem]
  constructor
  · intro apart
    have ordered : ∀ j < maxClusters, ∀ k < maxClusters, ∀ cluster,
        chainFrom env r disk bpb j bpb.rootCluster = some cluster →
        chainFrom env r disk bpb k bpb.rootCluster = some cluster →
        HasDeleted env r disk bpb cluster.toNat → ¬ j < k := by
      intro j early k also cluster first second some_deleted before
      obtain ⟨inside,here⟩ := List.getElem?_eq_some_iff.mp (getElem?_rootClusters.mpr ⟨early,cluster,first,rfl⟩)
      obtain ⟨within,there⟩ := List.getElem?_eq_some_iff.mp (getElem?_rootClusters.mpr ⟨also,cluster,second,rfl⟩)
      exact apart j k inside within before (here.trans there.symm) (here ▸ some_deleted)
    intro j early k also cluster first second some_deleted
    exact Nat.le_antisymm (Nat.not_lt.mp (ordered k also j early cluster second first some_deleted))
      (Nat.not_lt.mp (ordered j early k also cluster first second some_deleted))
  · intro apart j k inside within before same some_deleted
    obtain ⟨early,first,along,here⟩ := getElem?_rootClusters.mp (List.getElem?_eq_getElem inside)
    obtain ⟨also,second,later,there⟩ := getElem?_rootClusters.mp (List.getElem?_eq_getElem within)
    have one : first = second := UInt32.toNat_inj.mp (here.trans (same.trans there.symm))
    exact absurd (apart j early k also first along (one ▸ later) (here ▸ some_deleted)) (Nat.ne_of_lt before)

end Once

section Exact

variable {env : RecoveryEnv} {r : FileRecovery} {disk : Disk} {fsType : FilesystemType} {bpb : FatBpb}
variable {files : List RecoverableFile} (listed : files = (placedReports env r disk fsType bpb).map Prod.snd)

theorem places_fat32 (fat32 : bpb.isFat32 = true) : (placedReports env r disk fsType bpb).map Prod.fst =
    (rootClusters env r disk bpb ++ sweptClusters env r disk bpb).flatMap (clusterSlots env r disk bpb) := by
  rw [placedReports,rootReports,if_pos fat32,List.map_append,flatMap_slots,flatMap_slots,List.flatMap_append]

theorem nodup_places_fat32 (fat32 : bpb.isFat32 = true) : ((placedReports env r disk fsType bpb).map Prod.fst).Nodup ↔
    (∀ j < maxClusters, ∀ k < maxClusters, ∀ cluster, chainFrom env r disk bpb j bpb.rootCluster = some cluster →
      chainFrom env r disk bpb k bpb.rootCluster = some cluster → HasDeleted env r disk bpb cluster.toNat → j = k) ∧
    ∀ k < maxClusters, ∀ cluster, chainFrom env r disk bpb k bpb.rootCluster = some cluster →
      HasDeleted env r disk bpb cluster.toNat → cluster.toNat ∉ sweptClusters env r disk bpb := by
  have range : ∀ cluster ∈ rootClusters env r disk bpb ++ sweptClusters env r disk bpb,
      2 ≤ cluster ∧ cluster < 2 ^ 32 := by
    intro cluster member
    rcases List.mem_append.mp member with walked | swept
    · exact rootClusters_range walked
    · exact sweptClusters_range swept
  rw [places_fat32 fat32,nodup_slots range,List.pairwise_append,rootClusters_pairwise,
    and_iff_right sweptClusters_pairwise]
  apply and_congr_right
  intro _
  constructor
  · intro apart k early cluster along some_deleted swept
    exact apart _ (mem_rootClusters.mpr ⟨k,early,cluster,along,rfl⟩) _ swept rfl some_deleted
  · rintro unswept first walked _ swept rfl some_deleted
    obtain ⟨k,early,cluster,along,rfl⟩ := mem_rootClusters.mp walked
    exact unswept k early cluster along some_deleted swept

include listed

theorem reportsOnce_fat32 (fat32 : bpb.isFat32 = true) :
    ReportsOnce env r disk fsType bpb files ↔ SeenOnce env r disk bpb := by
  have at_cluster : ∀ {cluster : UInt32} {slot}, slot ∈ clusterSlots env r disk bpb cluster.toNat ↔
      DeletedSlot env r disk (bpb.clusterByteOffset cluster.toUInt64) bpb.clusterSize slot := by
    intro cluster slot
    rw [mem_clusterSlots,ofNat_cluster]
  constructor
  · intro all
    obtain ⟨walked,unswept⟩ := (nodup_places_fat32 fat32).mp all.once
    refine ⟨walked,unswept,fun k late cluster root some_deleted => ?_⟩
    obtain ⟨slot,member⟩ := slot_hasDeleted some_deleted
    have wanted : RootSlot env r disk bpb slot := by
      rw [RootSlot,if_pos fat32]
      exact ⟨k,cluster,root,at_cluster.mp member⟩
    have present := all.found slot wanted
    rw [places_fat32 fat32] at present
    obtain ⟨other,seen,there⟩ := List.mem_flatMap.mp present
    -- a slot lies in one cluster only, so the cluster itself was come to
    have range := inChain_toNat (chainFrom_range root.along)
    rcases List.mem_append.mp seen with walk | swept
    · rw [slot_cluster range (rootClusters_range walk) member there]
      exact .inl walk
    · rw [slot_cluster range (sweptClusters_range swept) member there]
      exact .inr swept
  · intro seen
    refine ⟨listed,(nodup_places_fat32 fat32).mpr ⟨seen.walked,seen.unswept⟩,fun slot wanted => ?_⟩
    rw [RootSlot,if_pos fat32] at wanted
    obtain ⟨k,cluster,root,deleted⟩ := wanted
    have member := at_cluster.mpr deleted
    have present : cluster.toNat ∈ rootClusters env r disk bpb ++ sweptClusters env r disk bpb := by
      rw [List.mem_append]
      by_cases early : k < maxClusters
      · exact .inl (mem_rootClusters.mpr ⟨k,early,cluster,root.along,rfl⟩)
      · exact seen.reached k (Nat.not_lt.mp early) cluster root (hasDeleted_slot member)
    rw [places_fat32 fat32]
    exact List.mem_flatMap.mpr ⟨_,present,member⟩

omit listed in
theorem fixedRoot_end (sectors : bpb.bytesPerSector ≠ 0) (data : bpb.dataSector ≤ bpb.totalSectors.toNat) :
    (fixedRoot bpb).toNat + bpb.rootEntryCount.toNat * 32 ≤ bpb.firstDataSector.toNat * bpb.bytesPerSector.toNat := by
  have limit := totalSectors_lt bpb
  have bytes := bpb.bytesPerSector.toNat_lt
  have some_byte := sector_positive sectors
  have fats : bpb.reservedSectors.toNat + bpb.numberOfFats.toNat * bpb.fatSize.toNat < 2 ^ 32 :=
    Nat.lt_of_le_of_lt (Nat.le_add_right _ _) (Nat.lt_of_le_of_lt data limit)
  have small : (bpb.reservedSectors.toNat + bpb.numberOfFats.toNat * bpb.fatSize.toNat) * bpb.bytesPerSector.toNat <
      2 ^ 48 := Nat.lt_of_lt_of_le (Nat.mul_lt_mul_of_lt_of_lt fats bytes) (by decide)
  have start : (fixedRoot bpb).toNat =
      (bpb.reservedSectors.toNat + bpb.numberOfFats.toNat * bpb.fatSize.toNat) * bpb.bytesPerSector.toNat := by
    rw [fixedRoot,UInt64.toNat_mul,UInt32.toNat_toUInt64,UInt32.toNat_add,UInt32.toNat_mul,UInt16.toNat_toUInt32,
      UInt8.toNat_toUInt32,UInt16.toNat_toUInt64,
      Nat.mod_eq_of_lt (by omega : bpb.numberOfFats.toNat * bpb.fatSize.toNat < 2 ^ 32),Nat.mod_eq_of_lt fats]
    exact Nat.mod_eq_of_lt (by omega)
  -- the sectors of the root directory are rounded up
  have whole := Nat.div_add_mod (bpb.rootEntryCount.toNat * 32 + (bpb.bytesPerSector.toNat - 1)) bpb.bytesPerSector.toNat
  have rest := Nat.mod_lt (bpb.rootEntryCount.toNat * 32 + (bpb.bytesPerSector.toNat - 1)) some_byte
  rw [Nat.mul_comm] at whole
  rw [firstDataSector_toNat sectors data,FatBpb.dataSector,Nat.add_mul,start]
  omega

theorem reportsOnce_fixed (fixed : bpb.isFat32 = false) (sectors : bpb.bytesPerSector ≠ 0)
    (data : bpb.dataSector ≤ bpb.totalSectors.toNat) : ReportsOnce env r disk fsType bpb files := by
  have other : ¬ bpb.isFat32 = true := by rw [fixed]; exact Bool.false_ne_true
  have places : (placedReports env r disk fsType bpb).map Prod.fst =
      (reportsIn env r disk fsType bpb (fixedRoot bpb) (bpb.rootEntryCount.toUInt32 * 32)).map Prod.fst ++
        (sweptClusters env r disk bpb).flatMap (clusterSlots env r disk bpb) := by
    rw [placedReports,rootReports,if_neg other,List.map_append,flatMap_slots]
  refine ⟨listed,?_,fun slot wanted => ?_⟩
  · rw [places,List.nodup_append]
    refine ⟨?_,(nodup_slots fun _ member => sweptClusters_range member).mpr sweptClusters_pairwise,?_⟩
    · rw [reportsIn,List.map_map]
      exact nodup_places _ _
    · rintro slot member _ swept rfl
      obtain ⟨i,here,place⟩ := mem_deletedSlots.mp member
      obtain ⟨cluster,seen,there⟩ := List.mem_flatMap.mp swept
      have behind := (slot_range (sweptClusters_range seen).1 (sweptClusters_range seen).2 there).1
      have inside := here.inside
      have short := @length_dirData env r disk (fixedRoot bpb) (bpb.rootEntryCount.toUInt32 * 32)
      have before := fixedRoot_end sectors data
      have count := bpb.rootEntryCount.toNat_lt
      rw [UInt32.toNat_mul,UInt16.toNat_toUInt32,show (32 : UInt32).toNat = 32 from rfl] at short
      omega
  · rw [RootSlot,if_neg other] at wanted
    rw [places]
    exact List.mem_append_left _ (mem_deletedSlots.mpr wanted)

end Exact

section Volumes

variable {env : RecoveryEnv} {r : FileRecovery} {disk : Disk} {fsType : FilesystemType}
variable (vol : Readable env r disk) (room : 512 ≤ partBytes r) (sectors : (bootBpb r disk).bytesPerSector ≠ 0)
  (clusters : (bootBpb r disk).sectorsPerCluster ≠ 0) (fats : (bootBpb r disk).numberOfFats ≠ 0)
include vol room sectors clusters fats

/-- The scan ends whatever the chains are. -/
theorem scanFat_ends : ∃ files, scanFat env r disk fsType = .ok files := by
  have valid : ¬ ((bootBpb r disk).bytesPerSector = 0 ∨ (bootBpb r disk).sectorsPerCluster = 0 ∨
      (bootBpb r disk).numberOfFats = 0) := by
    rintro (none_there | none_there | none_there)
    · exact sectors none_there
    · exact clusters none_there
    · exact fats none_there
  have long : ¬ (window disk.byte (partBase r) 512).length < 512 := by
    rw [length_window]
    exact Nat.lt_irrefl _
  rw [scanFat,boot_read vol room]
  dsimp only
  rw [if_neg long]
  change ∃ files, (if (bootBpb r disk).bytesPerSector = 0 ∨ (bootBpb r disk).sectorsPerCluster = 0 ∨
    (bootBpb r disk).numberOfFats = 0 then _ else _) = Except.ok files
  rw [if_neg valid]
  exact ⟨_,rfl⟩

/-- A scan that is let to its end reports the deleted entries once where no cluster with such
entries is come to twice and none of the root directory is left out; on FAT12 and FAT16 it always does. -/
theorem scanFat_once_iff (running : ∀ position, env.canceled position = false)
    (data : (bootBpb r disk).dataSector ≤ (bootBpb r disk).totalSectors.toNat) :
    ∃ files, scanFat env r disk fsType = .ok files ∧
      (ReportsOnce env r disk fsType (bootBpb r disk) files ↔
        ((bootBpb r disk).isFat32 = true → SeenOnce env r disk (bootBpb r disk))) := by
  obtain ⟨files,scanned⟩ := @scanFat_ends env r disk fsType vol room sectors clusters fats
  have listed : files = (placedReports env r disk fsType (bootBpb r disk)).map Prod.snd :=
    scanFat_reports running (boot_read vol room) scanned
  refine ⟨files,scanned,?_⟩
  by_cases fat32 : (bootBpb r disk).isFat32 = true
  · rw [reportsOnce_fat32 listed fat32]
    exact ⟨fun seen _ => seen,fun seen => seen fat32⟩
  · exact iff_of_true (reportsOnce_fixed listed (Bool.eq_false_iff.mpr fat32) sectors data)
      (fun also => absurd also fat32)

end Volumes

section Overlap

def fat16Boot : List UInt8 :=
  overwrite (List.replicate 512 0) [(0x0B,le16 512),(0x0D,[1]),(0x0E,le16 1),(0x10,[2]),(0x11,le16 512),
    (0x13,le16 8192),(0x16,le16 32)]

def fat16Volume : Disk := (filled 4831838208 FAT_DELETED_MARKER).patched 0 fat16Boot

theorem fat16Volume_bpb : bootBpb fatPartition fat16Volume = fatBpb fat16Boot := by
  have start : partBase fatPartition = 0 := rfl
  have length : fat16Boot.length = 512 := length_overwrite (by decide) List.length_replicate
  rw [bootBpb,start,fat16Volume,Disk.patched_byte,window_patch_whole _ _ length]

def mixedRoot : List UInt8 := List.replicate 32 0x41 ++ (deletedAt3 700 ++ List.replicate 448 0)

/-- A volume of FAT32 whose root directory is one cluster, which the sweep does not take for
a directory. -/
def fat32Volume : Disk :=
  (((filled 4831838208 0x41).patched 0 fatBoot).patched 16392 (le32 0x0FFFFFFF)).patched 37765120 mixedRoot

theorem length_mixedRoot : mixedRoot.length = 512 := by
  rw [mixedRoot,List.length_append,List.length_append,List.length_replicate,List.length_replicate]
  rfl

theorem fat32Volume_readable : Readable {} fatPartition fat32Volume :=
  ⟨by decide,by decide,by change 4831838208 < 2 ^ 63; decide,
    by change 0 * 512 + 9437184 * 512 ≤ 4831838208; decide,fun _ _ _ => rfl⟩

theorem fat32Volume_bpb : bootBpb fatPartition fat32Volume = fatBpb fatBoot := by
  have start : partBase fatPartition = 0 := rfl
  rw [bootBpb,start,fat32Volume,Disk.patched_byte,window_patch_apart _ _ _ _ _ (.inl (by decide)),Disk.patched_byte,
    window_patch_apart _ _ _ _ _ (.inl (by decide)),Disk.patched_byte,window_patch_whole _ _ length_fatBoot]

theorem fat32Volume_place : (fatBpb fatBoot).clusterByteOffset (.ofNat 2) = 37765120 ∧
    (fatBpb fatBoot).clusterSize = 512 ∧ (fatBpb fatBoot).rootCluster = 2 := by
  decide

theorem fat32Volume_chain {k : Nat} {cluster : UInt32}
    (along : chainFrom {} fatPartition fat32Volume (fatBpb fatBoot) k 2 = some cluster) : k = 0 ∧ cluster = 2 := by
  have next : nextCluster {} fatPartition fat32Volume (fatBpb fatBoot) 2 = some 0x0FFFFFFF := by
    have place : (fatBpb fatBoot).reservedSectors.toUInt64 * (fatBpb fatBoot).bytesPerSector.toUInt64 +
        ((2 : UInt32) * 4).toUInt64 = 16392 := by decide
    have read := @readPartitionBytes_inside {} fatPartition _ fat32Volume_readable 16392 4 (by decide) (by decide)
      (by decide)
    have start : partBase fatPartition + (16392 : UInt64).toNat = 16392 := rfl
    rw [start,show (4 : UInt32).toNat = 4 from rfl,fat32Volume,Disk.patched_byte,
      window_patch_apart _ _ _ _ _ (.inl (by decide)),Disk.patched_byte,
      window_patch_whole _ _ (show (le32 0x0FFFFFFF).length = 4 from rfl)] at read
    rw [nextCluster,place,fat32Volume,read]
    rfl
  cases k with
  | zero => exact ⟨rfl,(Option.some.inj along).symm⟩
  | succ k =>
    have last : chainFrom {} fatPartition fat32Volume (fatBpb fatBoot) k 0x0FFFFFFF = some cluster := by
      rw [chainFrom,if_pos (by decide),next] at along
      exact along
    cases k <;> cases last

theorem fat32Volume_root : clusterData {} fatPartition fat32Volume (fatBpb fatBoot) 2 = mixedRoot := by
  obtain ⟨place,size,_⟩ := fat32Volume_place
  have read := @readPartitionBytes_inside {} fatPartition _ fat32Volume_readable 37765120 512 (by decide) (by decide)
    (by decide)
  have start : partBase fatPartition + (37765120 : UInt64).toNat = 37765120 := rfl
  rw [start,show (512 : UInt32).toNat = 512 from rfl,fat32Volume,Disk.patched_byte,
    window_patch_whole _ _ length_mixedRoot] at read
  rw [clusterData,place,size,dirData,fat32Volume,read]

theorem fat32Volume_unswept : 2 ∉ sweptClusters {} fatPartition fat32Volume (fatBpb fatBoot) := by
  intro swept
  have taken := (List.mem_filter.mp swept).2
  have read := @readPartitionBytes_inside {} fatPartition _ fat32Volume_readable 37765120 32 (by decide) (by decide)
    (by decide)
  have start : partBase fatPartition + (37765120 : UInt64).toNat = 37765120 + 0 := rfl
  rw [start,show (32 : UInt32).toNat = 32 from rfl,fat32Volume,Disk.patched_byte,
    window_patch_inside _ _ _ _ _ (by rw [length_mixedRoot]; decide)] at read
  have used : (slice mixedRoot 0 32).getD 0 0 = 0x41 := by decide
  have passed : looksLikeDirectory {} fatPartition fat32Volume (fatBpb fatBoot) 2 = false := by
    have place := fat32Volume_place.1
    rw [looksLikeDirectory,place,fat32Volume,read]
    dsimp only
    rw [used]
    rfl
  rw [passed] at taken
  cases taken

theorem fat32Volume_slot : RootSlot {} fatPartition fat32Volume (fatBpb fatBoot) (37765120 + 1 * 32) := by
  obtain ⟨place,size,root⟩ := fat32Volume_place
  have data : dirData {} fatPartition fat32Volume 37765120 512 = mixedRoot := by
    have whole := fat32Volume_root
    rwa [clusterData,place,size] at whole
  rw [RootSlot,if_pos (by decide)]
  refine ⟨0,2,⟨by rw [root]; rfl,fun j before => absurd before (Nat.not_lt_zero j)⟩,1,?_,?_⟩
  · rw [show (2 : UInt32).toUInt64 = .ofNat 2 from rfl,place,size,data]
    refine ⟨by rw [length_mixedRoot]; decide,by decide,fun j before => ?_⟩
    rw [Nat.lt_one_iff.mp before]
    decide
  · rw [show (2 : UInt32).toUInt64 = .ofNat 2 from rfl,place]
    rfl

/-- The entries of the volumes, those of the swept clusters of the first as well, are reported once. -/
theorem fat16Volume_once : (∃ files, scanFat {} fatPartition fat16Volume .fat16 = .ok files ∧
      ReportsOnce {} fatPartition fat16Volume .fat16 (fatBpb fat16Boot) files) ∧
    ∃ files, scanFat {} fatPartition fat32Volume .fat32 = .ok files ∧ files ≠ [] ∧
      ReportsOnce {} fatPartition fat32Volume .fat32 (fatBpb fatBoot) files := by
  constructor
  · have vol : Readable {} fatPartition fat16Volume :=
      ⟨by decide,by decide,by change 4831838208 < 2 ^ 63; decide,
        by change 0 * 512 + 9437184 * 512 ≤ 4831838208; decide,fun _ _ _ => rfl⟩
    obtain ⟨files,scanned,once⟩ := @scanFat_once_iff {} fatPartition fat16Volume .fat16 vol (by decide)
      (by rw [fat16Volume_bpb]; decide) (by rw [fat16Volume_bpb]; decide)
      (by rw [fat16Volume_bpb]; decide) (fun _ => rfl) (by rw [fat16Volume_bpb]; decide)
    rw [fat16Volume_bpb] at once
    have fixed : ¬ (fatBpb fat16Boot).isFat32 = true := by decide
    exact ⟨files,scanned,once.mpr fun fat32 => absurd fat32 fixed⟩
  · obtain ⟨files,scanned,once⟩ := @scanFat_once_iff {} fatPartition fat32Volume .fat32 fat32Volume_readable (by decide)
      (by rw [fat32Volume_bpb]; decide) (by rw [fat32Volume_bpb]; decide)
      (by rw [fat32Volume_bpb]; decide) (fun _ => rfl) (by rw [fat32Volume_bpb]; decide)
    rw [fat32Volume_bpb] at once
    have root := fat32Volume_place.2.2
    have reports := once.mpr fun _ => by
      refine ⟨fun j _ k _ cluster first second _ => ?_,fun k _ cluster along _ => ?_,fun k late cluster along _ => ?_⟩
      · rw [root] at first second
        rw [(fat32Volume_chain first).1,(fat32Volume_chain second).1]
      · rw [root] at along
        rw [(fat32Volume_chain along).2]
        exact fat32Volume_unswept
      · have along := along.along
        rw [root] at along
        rw [(fat32Volume_chain along).1] at late
        exact absurd late (by decide)
    refine ⟨files,scanned,fun none => ?_,reports⟩
    have found := reports.found _ fat32Volume_slot
    rw [List.map_eq_nil_iff.mp (reports.listed.symm.trans none)] at found
    cases found


/-- The root directory of the sample volume is cluster 2, which starts with a deleted entry: the
sweep comes to it again. -/
theorem fatVolume_twice : ∃ files, scanFat {} fatPartition (fatVolume 700) .fat32 = .ok files ∧
    ¬ ReportsOnce {} fatPartition (fatVolume 700) .fat32 (fatBpb fatBoot) files := by
  have vol := fatVolume_readable 700
  obtain ⟨files,scanned,_⟩ := fatVolume_scanned 700
  have listed := scanFat_reports (fun _ => rfl) (boot_read vol (by decide)) scanned
  rw [fatVolume_boot] at listed
  refine ⟨files,scanned,?_⟩
  rw [reportsOnce_fat32 listed (by decide)]
  intro seen
  have place : (fatBpb fatBoot).clusterByteOffset (.ofNat 2) = 37765120 ∧ (fatBpb fatBoot).clusterSize = 512 := by
    decide
  have data : clusterData {} fatPartition (fatVolume 700) (fatBpb fatBoot) 2 = fatRoot 700 := by
    rw [clusterData,place.1,place.2,dirData,fatVolume_root]
  have some_deleted : HasDeleted {} fatPartition (fatVolume 700) (fatBpb fatBoot) 2 := by
    refine ⟨0,?_⟩
    rw [data]
    exact ⟨by rw [length_fatRoot]; decide,fatRoot_deleted 700,fun j before => absurd before (Nat.not_lt_zero j)⟩
  have swept : 2 ∈ sweptClusters {} fatPartition (fatVolume 700) (fatBpb fatBoot) := by
    refine List.mem_filter.mpr ⟨List.mem_range'_1.mpr ⟨Nat.le_refl _,by decide⟩,?_⟩
    have read := @readPartitionBytes_inside {} fatPartition _ vol 37765120 32 (by decide) (by decide) (by decide)
    have start : partBase fatPartition + (37765120 : UInt64).toNat = 37765120 + 0 := rfl
    have size : (32 : UInt32).toNat = 32 := rfl
    have marker : (slice (fatRoot 700) 0 32).getD 0 0 = FAT_DELETED_MARKER := rfl
    rw [start,size,fatVolume,Disk.patched_byte,
      window_patch_inside _ _ _ _ _ (by rw [length_fatRoot]; decide)] at read
    rw [looksLikeDirectory,place.1,fatVolume,read]
    dsimp only
    rw [marker]
    rfl
  have walked : chainFrom {} fatPartition (fatVolume 700) (fatBpb fatBoot) 0 (fatBpb fatBoot).rootCluster = some 2 := by
    rw [chainFrom,show (fatBpb fatBoot).rootCluster = 2 by decide]
    rfl
  exact seen.unswept 0 (by decide) 2 walked some_deleted swept

end Overlap

end SetecWizard.Core.FileRecovery
