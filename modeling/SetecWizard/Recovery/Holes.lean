import SetecWizard.Recovery.NtfsRecovery
import SetecWizard.Imaging.Sectors

/-! Which deleted records are recovered, whatever their clusters hold. The records around
one decide whether the scan comes to it; its own runs decide what is written.
-/
namespace SetecWizard.Core.FileRecovery
open SetecWizard.Library

variable {env : RecoveryEnv} {r : FileRecovery} {disk disk' : Disk} {layout : NtfsLayout}

section Content

variable {clusterSize : UInt32}

theorem length_runBytes (run : FileRun) :
    (run.bytes r disk clusterSize).length = run.count * clusterSize.toNat := by
  unfold FileRun.bytes
  split
  next => exact List.length_replicate
  next => exact length_window _ _ _

/-- Without a hole before its end, a file is the clusters of its runs. -/
theorem content_without_holes {realSize : Nat} (runs : List FileRun) (start : Nat)
    (none : NoHoleBelow clusterSize.toNat realSize start runs) :
    ((onDisk runs).flatMap (FileRun.bytes r disk clusterSize)).take (realSize - start) =
      (runs.flatMap (FileRun.bytes r disk clusterSize)).take (realSize - start) := by
  induction runs generalizing start with
  | nil => rfl
  | cons run rest ih =>
    obtain ⟨here,there⟩ := none
    have after := ih _ there
    have length := @length_runBytes r disk clusterSize run
    cases place : run.cluster with
    | some cluster =>
      have kept : onDisk (run :: rest) = run :: onDisk rest := List.filter_cons_of_pos (by simp [place])
      rw [kept,List.flatMap_cons,List.flatMap_cons,List.take_append,List.take_append,length,Nat.sub_sub,after]
    | none =>
      have left : onDisk (run :: rest) = onDisk rest := List.filter_cons_of_neg (by simp [place])
      by_cases empty : run.count = 0
      · rw [empty,Nat.zero_mul] at length
        rw [empty,Nat.zero_mul,Nat.add_zero] at after
        rw [left,List.flatMap_cons,List.length_eq_zero_iff.mp length,List.nil_append,after]
      · have beyond := here place empty
        rw [Nat.sub_eq_zero_of_le beyond,List.take_zero,List.take_zero]

theorem zero_of_hole {realSize : Nat} (some_byte : 0 < clusterSize.toNat) (runs : List FileRun) (start : Nat)
    (hole : ¬ NoHoleBelow clusterSize.toNat realSize start runs) :
    0 ∈ (runs.flatMap (FileRun.bytes r disk clusterSize)).take (realSize - start) := by
  induction runs generalizing start with
  | nil => exact absurd trivial hole
  | cons run rest ih =>
    rw [NoHoleBelow,not_and_or] at hole
    have length := @length_runBytes r disk clusterSize run
    rw [List.flatMap_cons,List.take_append,length]
    rcases hole with here | there
    · rw [Classical.not_imp,Classical.not_imp] at here
      obtain ⟨place,some_cluster,before⟩ := here
      refine List.mem_append_left _ ?_
      have zeros : run.bytes r disk clusterSize = List.replicate (run.count * clusterSize.toNat) 0 := by
        unfold FileRun.bytes
        rw [place]
      have some_zero := Nat.mul_pos (Nat.pos_of_ne_zero some_cluster) some_byte
      rw [zeros,List.take_replicate]
      exact List.mem_replicate.mpr ⟨by omega,rfl⟩
    · refine List.mem_append_right _ ?_
      rw [Nat.sub_sub]
      exact ih _ there

theorem limited_content_iff {realSize : Nat} (some_byte : 0 < clusterSize.toNat) {runs : List FileRun}
    (none : realSize ≠ 0 → NoHoleBelow clusterSize.toNat realSize 0 runs) :
    limited realSize ((onDisk runs).flatMap (FileRun.bytes r disk clusterSize)) =
        logicalContent r disk clusterSize realSize runs ↔
      (realSize = 0 → ∀ run ∈ onDisk runs, run.count = 0) := by
  unfold limited logicalContent
  by_cases known : realSize = 0
  · rw [if_pos known,known,List.take_zero,List.flatMap_eq_nil_iff]
    have empty (run : FileRun) : run.bytes r disk clusterSize = [] ↔ run.count = 0 := by
      rw [← List.length_eq_zero_iff,length_runBytes,Nat.mul_eq_zero]
      exact or_iff_left (by omega)
    simp only [empty,true_implies]
  · have same := @content_without_holes r disk clusterSize realSize runs 0 (none known)
    rw [Nat.sub_zero] at same
    rw [if_neg known,same]
    exact ⟨fun _ zero => absurd zero known,fun _ => rfl⟩

end Content

def Metadata (r : FileRecovery) (layout : NtfsLayout) (i : Nat) : Prop :=
  i < 512 ∨ layout.mftByteOffset.toNat ≤ i ∧
    i < layout.mftByteOffset.toNat + (recordsToScan r layout).toNat * layout.mftRecordSize.toNat

instance (r : FileRecovery) (layout : NtfsLayout) (i : Nat) : Decidable (Metadata r layout i) :=
  inferInstanceAs (Decidable (_ ∨ _))

/-- A disk of the same size on which the scan finds the same. -/
structure SameMetadata (r : FileRecovery) (layout : NtfsLayout) (disk disk' : Disk) : Prop where
  size : disk'.totalBytes = disk.totalBytes
  bytes : ∀ i, Metadata r layout i → disk'.byte (partBase r + i) = disk.byte (partBase r + i)

/-- No run of a file lies over the boot sector or over a record. -/
def Apart (r : FileRecovery) (layout : NtfsLayout) (runs : List FileRun) : Prop :=
  ∀ run ∈ runs, ∀ cluster, run.cluster = some cluster → ∀ i, cluster.toNat * layout.clusterSize.toNat ≤ i →
    i < (cluster.toNat + run.count) * layout.clusterSize.toNat → ¬ Metadata r layout i

/-- The disk with ones in place of everything but what the scan goes by. -/
def overwritten (r : FileRecovery) (layout : NtfsLayout) (disk : Disk) : Disk where
  totalBytes := disk.totalBytes
  byte j := if partBase r ≤ j ∧ Metadata r layout (j - partBase r) then disk.byte j else 0xFF

theorem overwritten_same : SameMetadata r layout disk (overwritten r layout disk) where
  size := rfl
  bytes i inside := if_pos ⟨Nat.le_add_right _ _,by rwa [Nat.add_sub_cancel_left]⟩

theorem overwritten_run {run : FileRun} {b : UInt8}
    (apart : ∀ cluster, run.cluster = some cluster → ∀ i, cluster.toNat * layout.clusterSize.toNat ≤ i →
      i < (cluster.toNat + run.count) * layout.clusterSize.toNat → ¬ Metadata r layout i)
    (present : run.cluster.isSome = true) (byte : b ∈ run.bytes r (overwritten r layout disk) layout.clusterSize) :
    b = 0xFF := by
  obtain ⟨cluster,place⟩ := Option.isSome_iff_exists.mp present
  unfold FileRun.bytes at byte
  rw [place] at byte
  obtain ⟨k,below,rfl⟩ := List.mem_map.mp byte
  have inside := List.mem_range.mp below
  have beside := apart cluster place (cluster.toNat * layout.clusterSize.toNat + k) (Nat.le_add_right _ _)
    (by rw [Nat.add_mul]; omega)
  refine if_neg (fun both => beside ?_)
  have same : partBase r + cluster.toNat * layout.clusterSize.toNat + k - partBase r =
      cluster.toNat * layout.clusterSize.toNat + k := by omega
  rw [← same]
  exact both.2

section Same

variable (same : SameMetadata r layout disk disk')
include same

theorem readable_same (vol : Readable env r disk) : Readable env r disk' := by
  obtain ⟨positive,moderate,signed,inside,reads⟩ := vol
  rw [← same.size] at signed inside reads
  exact ⟨positive,moderate,signed,inside,reads⟩

theorem boot_same : window disk'.byte (partBase r) 512 = window disk.byte (partBase r) 512 := by
  refine window_congr _ _ _ _ (fun j above below => ?_)
  have byte := same.bytes (j - partBase r) (.inl (by omega))
  rwa [Nat.add_sub_cancel' above] at byte

theorem volume_same (volume : NtfsVolume r disk layout) : NtfsVolume r disk' layout := by
  obtain ⟨room,boot,sectors,mft⟩ := volume
  rw [← boot_same same] at boot sectors
  exact ⟨room,boot,sectors,mft⟩

theorem recordAt_same (vol : Readable env r disk) (volume : NtfsVolume r disk layout) {recordIdx : UInt64}
    (scanned : recordIdx.toNat < (recordsToScan r layout).toNat) :
    recordAt r disk' layout recordIdx = recordAt r disk layout recordIdx := by
  have stored := scanned
  rw [recordsToScan_eq volume vol] at stored
  obtain ⟨place,_⟩ := recordOffset_eq volume vol (lt_of_lt_of_le stored (min_le_left _ _))
  have ends := Nat.mul_le_mul_right layout.mftRecordSize.toNat (Nat.succ_le_of_lt scanned)
  rw [Nat.succ_mul] at ends
  refine window_congr _ _ _ _ (fun j above below => ?_)
  have byte := same.bytes (j - partBase r) (.inr (by omega))
  rwa [Nat.add_sub_cancel' (by omega)] at byte

theorem walkEnds_same (vol : Readable env r disk) (volume : NtfsVolume r disk layout) {j : Nat}
    (scanned : j < (recordsToScan r layout).toNat) (ends : WalkEnds r disk layout (.ofNat j)) :
    WalkEnds r disk' layout (.ofNat j) := by
  have width := (recordsToScan r layout).toNat_lt
  have number : (UInt64.ofNat j).toNat = j := by
    rw [UInt64.toNat_ofNat']
    exact Nat.mod_eq_of_lt (by omega)
  unfold WalkEnds at ends ⊢
  rwa [recordAt_same same vol volume (by rwa [number])]

end Same

section Record

variable {recordIdx realSize : UInt64} {head attr : List UInt8} {pre post : List (List UInt8)}
  {pairs : List MappingPair} {outputPath : String}

/-- What has to hold of a record, and of those around it. -/
structure Recoverable (r : FileRecovery) (disk : Disk) (layout : NtfsLayout) (recordIdx : UInt64) (head : List UInt8)
    (pre : List (List UInt8)) (attr : List UInt8) (post : List (List UInt8)) (realSize : Nat) (runs : List FileRun) :
    Prop where
  single : ∀ attr' ∈ pre ++ post, readLE32 attr' 0 ≠ NTFS_ATTR_DATA
  early : recordIdx.toNat < 1000000
  named : nameFrom (recordAt r disk layout recordIdx) head.length (pre ++ attr :: post) [] ≠ []
  ends : ∀ j < (recordsToScan r layout).toNat, WalkEnds r disk layout (.ofNat j)
  holes : realSize ≠ 0 → NoHoleBelow layout.clusterSize.toNat realSize 0 runs
  size : SizeCounts realSize runs

theorem record_same (vol : Readable env r disk) (volume : NtfsVolume r disk layout)
    (same : SameMetadata r layout disk disk') (early : recordIdx.toNat < 1000000)
    (record : DeletedRecord r disk layout recordIdx head pre attr post pairs realSize) :
    recordAt r disk' layout recordIdx = recordAt r disk layout recordIdx ∧
      DeletedRecord r disk' layout recordIdx head pre attr post pairs realSize := by
  have scanned : recordIdx.toNat < (recordsToScan r layout).toNat := by
    rw [recordsToScan_eq volume vol]
    exact lt_min record.stored early
  have kept := recordAt_same same vol volume scanned
  obtain ⟨stored,deleted,list,data,inside⟩ := record
  rw [← kept] at deleted list
  exact ⟨kept,stored,deleted,list,data,inside⟩

/-- Which deleted records are recovered whatever their clusters hold. A record with another
`$DATA` attribute is not looked at in the second part, nor is one with runs over the
boot sector or the records. -/
theorem scanNtfs_recovers (vol : Readable env r disk) (volume : NtfsVolume r disk layout)
    (record : DeletedRecord r disk layout recordIdx head pre attr post pairs realSize)
    (going : ∀ j, env.canceled j = false) (creates : env.creates outputPath = true) :
    (Recoverable r disk layout recordIdx head pre attr post realSize.toNat (runsFrom 0 pairs) →
      ∀ disk', SameMetadata r layout disk disk' →
        Recovers env r disk' layout recordIdx realSize (runsFrom 0 pairs) outputPath) ∧
    ((∀ attr' ∈ pre ++ post, readLE32 attr' 0 ≠ NTFS_ATTR_DATA) → Apart r layout (runsFrom 0 pairs) →
      (∀ disk', SameMetadata r layout disk disk' →
        Recovers env r disk' layout recordIdx realSize (runsFrom 0 pairs) outputPath) →
      Recoverable r disk layout recordIdx head pre attr post realSize.toNat (runsFrom 0 pairs)) := by
  have some_byte := clusterSize_positive volume
  have zero : realSize = 0 ↔ realSize.toNat = 0 := by
    rw [← UInt64.toNat_inj]
    exact Iff.rfl
  constructor
  · rintro ⟨single,early,named,ends,holes,size⟩ disk' same
    obtain ⟨kept,record'⟩ := record_same vol volume same early record
    refine (recovers_iff (readable_same same vol) (volume_same same volume) record' single going creates).mpr
      ⟨early,by rwa [kept],fun j scanned => walkEnds_same same vol volume scanned (ends j scanned),
        fun none => (size (zero.mp none)).1,?_⟩
    exact (limited_content_iff some_byte holes).mpr (fun none => (size none).2)
  · intro single apart recovers
    have itself : SameMetadata r layout disk disk := ⟨rfl,fun _ _ => rfl⟩
    obtain ⟨early,named,ends,listed,_⟩ :=
      (recovers_iff vol volume record single going creates).mp (recovers disk itself)
    have same := @overwritten_same r disk layout
    obtain ⟨kept,record'⟩ := record_same vol volume same early record
    obtain ⟨_,_,_,_,content⟩ := (recovers_iff (readable_same same vol) (volume_same same volume) record' single going
      creates).mp (recovers _ same)
    have ones : ∀ b ∈ (onDisk (runsFrom 0 pairs)).flatMap
        (FileRun.bytes r (overwritten r layout disk) layout.clusterSize), b = 0xFF := by
      intro b member
      obtain ⟨run,present,byte⟩ := List.mem_flatMap.mp member
      obtain ⟨listed,some_cluster⟩ := List.mem_filter.mp present
      exact overwritten_run (apart run listed) some_cluster byte
    have holes : realSize.toNat ≠ 0 → NoHoleBelow layout.clusterSize.toNat realSize.toNat 0 (runsFrom 0 pairs) := by
      intro known
      by_contra hole
      have some_zero := @zero_of_hole r (overwritten r layout disk) layout.clusterSize realSize.toNat some_byte _ 0 hole
      rw [Nat.sub_zero,← logicalContent,← content,limited,if_neg known] at some_zero
      exact absurd (ones 0 (List.mem_of_mem_take some_zero)) (by decide)
    exact ⟨single,early,named,ends,holes,
      fun none => ⟨listed (zero.mpr none),(limited_content_iff some_byte holes).mp content none⟩⟩

end Record

section Sample

def samplePartition : FileRecovery := { partStart := 0, partSectors := 8 }

/-- A boot sector with clusters of one sector, records of 1024 bytes and the MFT at cluster 6. -/
def sampleBoot : List UInt8 :=
  overwrite (List.replicate 512 0) [(3,signature),(0x0B,le16 512),(0x0D,[1]),(0x30,le64 6),(0x40,[0xF6])]

def sampleLayout : NtfsLayout := { clusterSize := 512, mftByteOffset := 3072, mftRecordSize := 1024 }

def sampleHead : List UInt8 := overwrite (List.replicate 56 0) [(0,fileMagic),(20,le16 56)]

def sampleName : List UInt8 :=
  overwrite (List.replicate 96 0) [(0,le32 0x30),(4,le32 96),(16,le32 68),(20,le16 24),(88,[1,1,0x41])]

def sampleData (realSize : UInt64) (list : List UInt8) : List UInt8 :=
  overwrite (List.replicate 72 0)
    [(0,le32 0x80),(4,le32 72),(8,[1]),(32,le16 64),(48,le64 realSize),(64,list)]

def sampleRecord (realSize : UInt64) (list : List UInt8) : List UInt8 :=
  sampleHead ++ ([sampleName,sampleData realSize list].flatten ++ (le32 NTFS_ATTR_END ++ List.replicate 796 0))

def sampleVolume (realSize : UInt64) (list : List UInt8) : Disk :=
  ((filled 4096 0xFF).patched 0 sampleBoot).patched 3072 (sampleRecord realSize list)

def onePair : MappingPair := ⟨[1],[2],by decide,by decide⟩

def holePair : MappingPair := ⟨[1],[],by decide,by decide⟩

/-- The sample partition with some record as the only one of its MFT. -/
def volumeOf (record : List UInt8) : Disk := ((filled 4096 0xFF).patched 0 sampleBoot).patched 3072 record

variable (record : List UInt8)

theorem volumeOf_readable : Readable {} samplePartition (volumeOf record) where
  positive := by decide
  moderate := by decide
  signed := by change 4096 < 2 ^ 63; decide
  inside := by change 0 * 512 + 8 * 512 ≤ 4096; decide
  reads _ _ _ := rfl

theorem length_sampleBoot : sampleBoot.length = 512 := length_overwrite (by decide) List.length_replicate

theorem volumeOf_boot : window (volumeOf record).byte (partBase samplePartition) 512 = sampleBoot := by
  have base : partBase samplePartition = 0 := rfl
  rw [base,volumeOf,Disk.patched_byte,window_patch_apart _ _ _ _ _ (.inl (by decide)),Disk.patched_byte,
    window_patch_whole _ _ length_sampleBoot]

theorem volumeOf_volume : NtfsVolume samplePartition (volumeOf record) sampleLayout where
  room := by change 512 ≤ 8 * 512; decide
  boot := by
    rw [volumeOf_boot]
    decide +kernel
  sectors := by
    rw [volumeOf_boot]
    decide
  mft := by change 3072 ≤ 8 * 512; decide

variable {record}

theorem volumeOf_record (size : record.length = 1024) :
    recordAt samplePartition (volumeOf record) sampleLayout 0 = record := by
  have place : partBase samplePartition + (recordOffset sampleLayout 0).toNat = 3072 := by decide
  rw [recordAt,place,volumeOf,Disk.patched_byte]
  exact window_patch_whole _ _ size

variable (realSize : UInt64) (list : List UInt8)

theorem sampleVolume_readable : Readable {} samplePartition (sampleVolume realSize list) := volumeOf_readable _

theorem sampleVolume_volume : NtfsVolume samplePartition (sampleVolume realSize list) sampleLayout := volumeOf_volume _

theorem sampleVolume_record {realSize : UInt64} {list : List UInt8}
    (size : (sampleRecord realSize list).length = 1024) :
    recordAt samplePartition (sampleVolume realSize list) sampleLayout 0 = sampleRecord realSize list :=
  volumeOf_record size

theorem sampleVolume_deleted {realSize : UInt64} {list : List UInt8} {pairs : List MappingPair}
    (size : (sampleRecord realSize list).length = 1024) (deleted : deletedFile (sampleRecord realSize list) = true)
    (first : readLE16 (sampleRecord realSize list) 20 = 56) (data : DataAttribute (sampleData realSize list) pairs realSize)
    (inside : ∀ run ∈ runsFrom 0 pairs, run.Inside samplePartition 512) :
    DeletedRecord samplePartition (sampleVolume realSize list) sampleLayout 0 sampleHead [sampleName]
      (sampleData realSize list) [] pairs realSize where
  stored := by decide
  deleted := by rwa [sampleVolume_record size]
  list := by
    rw [sampleVolume_record size]
    refine ⟨⟨_,rfl,by decide⟩,by rw [first]; decide,by rw [size]; decide,?_⟩
    rw [List.singleton_append,List.forall_mem_cons,List.forall_mem_singleton]
    exact ⟨⟨by decide,by decide,by decide⟩,data.toAttribute⟩
  data := data
  inside := inside

theorem length_sampleRecord (short : list.length ≤ 8) : (sampleRecord realSize list).length = 1024 := by
  have data : (sampleData realSize list).length = 72 := by
    refine length_overwrite ?_ List.length_replicate
    simp only [List.mem_cons,List.not_mem_nil,or_false,forall_eq_or_imp,forall_eq,length_le32,length_le16,length_le64,
      List.length_singleton]
    omega
  have head : sampleHead.length = 56 := length_overwrite (by decide) List.length_replicate
  have name : sampleName.length = 96 := length_overwrite (by decide) List.length_replicate
  rw [sampleRecord,List.flatten_cons,List.flatten_cons,List.flatten_nil,List.length_append,List.length_append,
    List.length_append,List.length_append,List.length_append,List.length_replicate,head,name,data]
  rfl

/-- One cluster inside the sample partition. -/
theorem sample_inside {run : FileRun} (place : run.cluster = some 2 ∨ run.cluster = none) (count : run.count = 1) :
    run.Inside samplePartition 512 := by
  intro cluster found _
  rcases place with two | none
  · cases two.symm.trans found
    rw [count]
    exact ⟨by decide,by decide⟩
  · cases none.symm.trans found

theorem dense_deleted : DeletedRecord samplePartition (sampleVolume 512 (runList [onePair])) sampleLayout 0 sampleHead
    [sampleName] (sampleData 512 (runList [onePair])) [] [onePair] 512 := by
  refine sampleVolume_deleted (length_sampleRecord _ _ (by decide)) (by decide +kernel) (by decide) ?_ ?_
  · exact ⟨⟨by decide,by decide,by decide⟩,by decide,by decide,
      by decide,by decide,by decide,[0,0,0,0],by decide⟩
  · intro run member
    rw [List.mem_singleton.mp member]
    exact sample_inside (.inl rfl) rfl

/-- A file of one cluster comes back. -/
theorem dense_recovered : Recovers {} samplePartition (sampleVolume 512 (runList [onePair])) sampleLayout 0 512
    (runsFrom 0 [onePair]) "A" := by
  have readable := sampleVolume_readable 512 (runList [onePair])
  have volume := sampleVolume_volume 512 (runList [onePair])
  have size := length_sampleRecord 512 (runList [onePair]) (by decide)
  have single : ∀ attr' ∈ [sampleName] ++ [], readLE32 attr' 0 ≠ NTFS_ATTR_DATA := by
    rw [List.append_nil,List.forall_mem_singleton]
    decide
  refine (scanNtfs_recovers readable volume dense_deleted (fun _ => rfl) rfl).1
    ⟨single,by decide,?_,fun j below => ?_,fun _ => ⟨fun none => ?_,trivial⟩,fun none => absurd none (by decide)⟩ _
    ⟨rfl,fun _ _ => rfl⟩
  · rw [sampleVolume_record size]
    decide +kernel
  · have only : j = 0 := Nat.lt_one_iff.mp below
    rw [only]
    obtain ⟨file,_,_,_,scanned⟩ := scanRecord_data dense_deleted single 3 (by decide)
    exact ⟨3,_,scanned⟩
  · cases none

/-- A file of two clusters, of which the first is a hole, does not. -/
theorem hole_dropped : Readable {} samplePartition (sampleVolume 1024 (runList [holePair,onePair])) ∧
    NtfsVolume samplePartition (sampleVolume 1024 (runList [holePair,onePair])) sampleLayout ∧
    DeletedRecord samplePartition (sampleVolume 1024 (runList [holePair,onePair])) sampleLayout 0 sampleHead
      [sampleName] (sampleData 1024 (runList [holePair,onePair])) [] [holePair,onePair] 1024 ∧
    ¬ Recovers {} samplePartition (sampleVolume 1024 (runList [holePair,onePair])) sampleLayout 0 1024
      (runsFrom 0 [holePair,onePair]) "A" := by
  have readable := sampleVolume_readable 1024 (runList [holePair,onePair])
  have volume := sampleVolume_volume 1024 (runList [holePair,onePair])
  have single : ∀ attr' ∈ [sampleName] ++ [], readLE32 attr' 0 ≠ NTFS_ATTR_DATA := by
    rw [List.append_nil,List.forall_mem_singleton]
    decide
  have deleted : DeletedRecord samplePartition (sampleVolume 1024 (runList [holePair,onePair])) sampleLayout 0
      sampleHead [sampleName] (sampleData 1024 (runList [holePair,onePair])) [] [holePair,onePair] 1024 := by
    refine sampleVolume_deleted (length_sampleRecord _ _ (by decide)) (by decide +kernel) (by decide) ?_ ?_
    · exact ⟨⟨by decide,by decide,by decide⟩,by decide,by decide,
        by decide,by decide,by decide,[0,0],by decide⟩
    · have runs : runsFrom 0 [holePair,onePair] = [⟨none,1⟩,⟨some 2,1⟩] := rfl
      rw [runs,List.forall_mem_cons,List.forall_mem_singleton]
      exact ⟨sample_inside (.inr rfl) rfl,sample_inside (.inl rfl) rfl⟩
  refine ⟨readable,volume,deleted,fun recovers => ?_⟩
  obtain ⟨_,_,_,_,same⟩ := (recovers_iff readable volume deleted single (fun _ => rfl) rfl).mp recovers
  -- one cluster is written, and the file has two
  have length := congrArg List.length same
  have runs : runsFrom 0 [holePair,onePair] = [⟨none,1⟩,⟨some 2,1⟩] := rfl
  have kept : onDisk [⟨none,1⟩,⟨some 2,1⟩] = [⟨some 2,1⟩] := rfl
  have clusters : sampleLayout.clusterSize.toNat = 512 := rfl
  have size : (1024 : UInt64).toNat = 1024 := rfl
  rw [runs,kept,logicalContent,limited,if_neg (by decide),List.length_take,List.length_take,List.flatMap_cons,
    List.flatMap_cons,List.flatMap_cons,List.flatMap_nil,List.length_append,List.length_append,List.length_append,
    length_runBytes,length_runBytes,clusters,size] at length
  exact absurd length (by decide)

end Sample
end SetecWizard.Core.FileRecovery
