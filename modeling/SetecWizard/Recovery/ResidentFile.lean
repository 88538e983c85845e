import SetecWizard.Recovery.Holes

/-! A deleted file whose data lies in its record. The scan has cluster numbers only, and names
the cluster that the record begins in, so that what is written is the start of that cluster.
-/
namespace SetecWizard.Core.FileRecovery
open SetecWizard.Library

variable {env : RecoveryEnv} {r : FileRecovery} {disk : Disk} {layout : NtfsLayout} {recordIdx : UInt64}
  {head attr : List UInt8} {pre post : List (List UInt8)}

def residentValue (attr : List UInt8) : List UInt8 :=
  slice attr (readLE16 attr 20).toNat (readLE32 attr 16).toNat

/-- A resident `$DATA` attribute without a name, which holds its value. -/
structure ResidentData (attr : List UInt8) : Prop extends Attribute attr where
  data : readLE32 attr 0 = NTFS_ATTR_DATA
  resident : attr.getD 8 0 = 0
  unnamed : attr.getD 9 0 = 0
  whole : sizeofAttributeHeader + sizeofResidentAttr ≤ attr.length
  inside : (readLE16 attr 20).toNat + (readLE32 attr 16).toNat ≤ attr.length

def recordCluster (layout : NtfsLayout) (recordIdx : UInt64) : Nat :=
  (recordOffset layout recordIdx).toNat / layout.clusterSize.toNat

/-- A deleted record of the MFT with its data in it. The cluster that it begins in is one of
the partition. -/
structure ResidentRecord (r : FileRecovery) (disk : Disk) (layout : NtfsLayout) (recordIdx : UInt64)
    (head : List UInt8) (pre : List (List UInt8)) (attr : List UInt8) (post : List (List UInt8)) : Prop where
  stored : recordIdx.toNat < (partBytes r - layout.mftByteOffset.toNat) / layout.mftRecordSize.toNat
  deleted : deletedFile (recordAt r disk layout recordIdx) = true
  list : AttributeList (recordAt r disk layout recordIdx) head (pre ++ attr :: post)
  data : ResidentData attr
  cluster : (recordCluster layout recordIdx + 1) * layout.clusterSize.toNat ≤ partBytes r

def residentRun (layout : NtfsLayout) (recordIdx : UInt64) : FileRun := ⟨some (recordCluster layout recordIdx),1⟩

theorem readAttribute_resident {recordData before attr tail : List UInt8} {cluster : UInt64} {found : Found}
    (shape : recordData = before ++ (attr ++ tail)) (this : ResidentData attr) :
    readAttribute recordData cluster before.length found =
      { found with
        fileSize := (readLE32 attr 16).toUInt64
        dataRuns := found.dataRuns ++ [{ clusterOffset := cluster, clusterCount := 1 }] } := by
  have header : sizeofAttributeHeader = 16 := rfl
  have value : sizeofResidentAttr = 8 := rfl
  have whole := this.whole
  have type : readLE32 recordData before.length = NTFS_ATTR_DATA := by
    rw [shape,← this.data]
    exact (readLE32_append_right before _ 0).trans (readLE32_append_left _ _ (by omega))
  have kind : recordData.getD (before.length + 8) 0 ≠ 1 := by
    rw [shape,getD_append_right,List.getD_append _ _ _ _ (by omega),this.resident]
    decide
  have size : readLE32 recordData (before.length + 16) = readLE32 attr 16 := by
    rw [shape,readLE32_append_right,readLE32_append_left _ _ (by omega)]
  have long : ¬ recordData.length < before.length + sizeofAttributeHeader + sizeofResidentAttr := by
    rw [shape,List.length_append,List.length_append]
    omega
  have other : NTFS_ATTR_DATA ≠ NTFS_ATTR_FILE_NAME := by decide
  unfold readAttribute readData
  simp only [type,other,false_and,if_false,if_true,if_neg kind,if_neg long,size]

theorem residentRun_stored : [residentRun layout recordIdx].filterMap FileRun.stored =
    [{ clusterOffset := recordOffset layout recordIdx / layout.clusterSize.toUInt64, clusterCount := 1 }] := by
  have same : UInt64.ofInt (recordCluster layout recordIdx) = recordOffset layout recordIdx / layout.clusterSize.toUInt64 := by
    apply UInt64.toNat_inj.mp
    have width := (recordOffset layout recordIdx / layout.clusterSize.toUInt64).toNat_lt
    rw [UInt64.toNat_div,UInt32.toNat_toUInt64,← recordCluster] at width ⊢
    rw [UInt64.ofInt,UInt64.toNat_ofNat']
    omega
  rw [← same]
  rfl

theorem scanRecord_resident (record : ResidentRecord r disk layout recordIdx head pre attr post)
    (single : ∀ attr' ∈ pre ++ post, readLE32 attr' 0 ≠ NTFS_ATTR_DATA) :
    ScanGives r disk layout recordIdx (pre ++ attr :: post).length
      (nameFrom (recordAt r disk layout recordIdx) head.length (pre ++ attr :: post) [])
      (readLE32 attr 16).toUInt64 [residentRun layout recordIdx] := by
  obtain ⟨tail,shape,_⟩ := record.list.layout
  refine scanRecord_gives record.deleted record.list ?_
  rw [residentRun_stored]
  exact readAll_gives shape record.list.attributes (fun place => readAttribute_resident place record.data) single

theorem limited_cluster_iff {size : Nat} (some_byte : 0 < layout.clusterSize.toNat) {value : List UInt8}
    (length : value.length = size) {off : Nat} :
    limited size (window disk.byte off layout.clusterSize.toNat) = value ↔
      0 < size ∧ size ≤ layout.clusterSize.toNat ∧ window disk.byte off size = value := by
  unfold limited
  constructor
  · intro same
    have count := congrArg List.length same
    split at same
    next zero =>
      rw [if_pos zero,length_window,length] at count
      omega
    next known =>
      rw [if_neg known,List.length_take,length_window,length] at count
      rw [take_window _ _ _ _ (by omega)] at same
      exact ⟨Nat.pos_of_ne_zero known,by omega,same⟩
  · rintro ⟨positive,fits,same⟩
    rw [if_neg (by omega),take_window _ _ _ _ fits]
    exact same

theorem recovers_resident_iff (vol : Readable env r disk) (volume : NtfsVolume r disk layout)
    (record : ResidentRecord r disk layout recordIdx head pre attr post)
    (single : ∀ attr' ∈ pre ++ post, readLE32 attr' 0 ≠ NTFS_ATTR_DATA) (going : ∀ j, env.canceled j = false)
    {outputPath : String} (creates : env.creates outputPath = true) :
    RecoversContent env r disk recordIdx (residentValue attr) outputPath ↔
      recordIdx.toNat < 1000000 ∧
      nameFrom (recordAt r disk layout recordIdx) head.length (pre ++ attr :: post) [] ≠ [] ∧
      (∀ j < (recordsToScan r layout).toNat, WalkEnds r disk layout (.ofNat j)) ∧
      0 < (readLE32 attr 16).toNat ∧ (readLE32 attr 16).toNat ≤ layout.clusterSize.toNat ∧
      window disk.byte (partBase r + recordCluster layout recordIdx * layout.clusterSize.toNat)
        (readLE32 attr 16).toNat = residentValue attr := by
  have some_byte := clusterSize_positive volume
  have inside : ∀ run ∈ [residentRun layout recordIdx], run.Inside r layout.clusterSize := by
    intro run member cluster place _
    obtain rfl := List.mem_singleton.mp member
    obtain rfl := Option.some.inj place
    exact ⟨Int.natCast_nonneg _,by simpa [residentRun] using record.cluster⟩
  have kept : onDisk [residentRun layout recordIdx] = [residentRun layout recordIdx] := rfl
  have bytes : (onDisk [residentRun layout recordIdx]).flatMap (FileRun.bytes r disk layout.clusterSize) =
      window disk.byte (partBase r + recordCluster layout recordIdx * layout.clusterSize.toNat)
        layout.clusterSize.toNat := by
    rw [kept,List.flatMap_singleton,FileRun.bytes]
    simp [residentRun]
  have length : (residentValue attr).length = (readLE32 attr 16).toNat := length_slice _ _ _ record.data.inside
  have listed : (readLE32 attr 16).toUInt64 = 0 → onDisk [residentRun layout recordIdx] ≠ [] :=
    fun _ => List.cons_ne_nil _ _
  rw [recoversContent_iff vol volume record.stored (scanRecord_resident record single) inside going creates,bytes,
    UInt32.toNat_toUInt64,limited_cluster_iff some_byte length]
  exact and_congr_right fun _ => and_congr_right fun _ => and_congr_right fun _ => and_iff_right listed

/-- What has to hold of a record with its data in it, of those around it, and of the cluster that
it begins in. -/
structure ResidentRecoverable (r : FileRecovery) (disk : Disk) (layout : NtfsLayout) (recordIdx : UInt64)
    (head : List UInt8) (pre : List (List UInt8)) (attr : List UInt8) (post : List (List UInt8)) : Prop where
  single : ∀ attr' ∈ pre ++ post, readLE32 attr' 0 ≠ NTFS_ATTR_DATA
  early : recordIdx.toNat < 1000000
  named : nameFrom (recordAt r disk layout recordIdx) head.length (pre ++ attr :: post) [] ≠ []
  ends : ∀ j < (recordsToScan r layout).toNat, WalkEnds r disk layout (.ofNat j)
  some_byte : 0 < (readLE32 attr 16).toNat
  fits : (readLE32 attr 16).toNat ≤ layout.clusterSize.toNat
  front : window disk.byte (partBase r + recordCluster layout recordIdx * layout.clusterSize.toNat)
    (readLE32 attr 16).toNat = residentValue attr

/-- Which deleted files with their data in the record are recovered. A record with another
`$DATA` attribute is not looked at in the second part. -/
theorem resident_recovered (vol : Readable env r disk) (volume : NtfsVolume r disk layout)
    (record : ResidentRecord r disk layout recordIdx head pre attr post) (going : ∀ j, env.canceled j = false)
    {outputPath : String} (creates : env.creates outputPath = true) :
    (ResidentRecoverable r disk layout recordIdx head pre attr post →
      RecoversContent env r disk recordIdx (residentValue attr) outputPath) ∧
    ((∀ attr' ∈ pre ++ post, readLE32 attr' 0 ≠ NTFS_ATTR_DATA) →
      RecoversContent env r disk recordIdx (residentValue attr) outputPath →
      ResidentRecoverable r disk layout recordIdx head pre attr post) := by
  constructor
  · rintro ⟨single,early,named,ends,some_byte,fits,front⟩
    exact (recovers_resident_iff vol volume record single going creates).mpr ⟨early,named,ends,some_byte,fits,front⟩
  · intro single recovers
    obtain ⟨early,named,ends,some_byte,fits,front⟩ :=
      (recovers_resident_iff vol volume record single going creates).mp recovers
    exact ⟨single,early,named,ends,some_byte,fits,front⟩

section Sample

/-- A resident `$DATA` attribute of four bytes. -/
def sampleResident (value : List UInt8) : List UInt8 :=
  overwrite (List.replicate 32 0) [(0,le32 0x80),(4,le32 32),(16,le32 4),(20,le16 24),(24,value)]

def residentSample (value : List UInt8) : List UInt8 :=
  sampleHead ++ ([sampleName,sampleResident value].flatten ++ (le32 NTFS_ATTR_END ++ List.replicate 836 0))

theorem residentSample_record {value : List UInt8} (size : (residentSample value).length = 1024)
    (deleted : deletedFile (residentSample value) = true) (first : readLE16 (residentSample value) 20 = 56)
    (data : ResidentData (sampleResident value)) :
    ResidentRecord samplePartition (volumeOf (residentSample value)) sampleLayout 0 sampleHead [sampleName]
      (sampleResident value) [] where
  stored := by decide
  deleted := by rwa [volumeOf_record size]
  list := by
    rw [volumeOf_record size]
    refine ⟨⟨_,rfl,by decide⟩,by rw [first]; decide,by rw [size]; decide,?_⟩
    rw [List.singleton_append,List.forall_mem_cons,List.forall_mem_singleton]
    exact ⟨⟨by decide,by decide,by decide⟩,data.toAttribute⟩
  data := data
  cluster := by decide

theorem residentSample_front {value : List UInt8} (size : (residentSample value).length = 1024)
    (magic : slice (residentSample value) 0 4 = fileMagic) :
    window (volumeOf (residentSample value)).byte 3072 4 = fileMagic := by
  have inside := window_patch_inside ((filled 4096 0xFF).patched 0 sampleBoot).byte 3072 (residentSample value) 0 4
    (by rw [size]; decide)
  rw [Nat.add_zero] at inside
  rw [volumeOf,Disk.patched_byte,inside,magic]

theorem sampleName_other : ∀ attr' ∈ [sampleName] ++ [], readLE32 attr' 0 ≠ NTFS_ATTR_DATA := by
  rw [List.append_nil,List.forall_mem_singleton]
  decide

theorem length_residentSample {value : List UInt8} (four : value.length = 4) : (residentSample value).length = 1024 := by
  have data : (sampleResident value).length = 32 := by
    refine length_overwrite ?_ List.length_replicate
    simp only [List.mem_cons,List.not_mem_nil,or_false,forall_eq_or_imp,forall_eq,length_le32,length_le16,four]
    omega
  have head : sampleHead.length = 56 := length_overwrite (by decide) List.length_replicate
  have name : sampleName.length = 96 := length_overwrite (by decide) List.length_replicate
  rw [residentSample,List.flatten_cons,List.flatten_cons,List.flatten_nil,List.length_append,List.length_append,
    List.length_append,List.length_append,List.length_append,List.length_replicate,head,name,data]
  rfl

theorem magic_record : ResidentRecord samplePartition (volumeOf (residentSample fileMagic)) sampleLayout 0 sampleHead
    [sampleName] (sampleResident fileMagic) [] :=
  residentSample_record (length_residentSample rfl) (by decide +kernel) (by decide)
    ⟨⟨by decide,by decide,by decide⟩,by decide,by decide,by decide,
      by decide,by decide⟩

/-- A file that consists of the four letters that its record begins with comes back. -/
theorem magic_recovered :
    RecoversContent {} samplePartition (volumeOf (residentSample fileMagic)) 0 fileMagic "A" := by
  have size : (residentSample fileMagic).length = 1024 := length_residentSample rfl
  have value : residentValue (sampleResident fileMagic) = fileMagic := by decide
  have front := residentSample_front size (by decide)
  rw [← value]
  refine (resident_recovered (volumeOf_readable _) (volumeOf_volume _) magic_record (fun _ => rfl) rfl).1
    ⟨sampleName_other,by decide,?_,fun j below => ?_,by decide,by decide,?_⟩
  · rw [volumeOf_record size]
    decide +kernel
  · have only : j = 0 := Nat.lt_one_iff.mp below
    rw [only]
    obtain ⟨file,_,_,_,scanned⟩ := scanRecord_resident magic_record sampleName_other 3 (by decide)
    exact ⟨3,_,scanned⟩
  · rw [value]
    exact front

/-- A file of four bytes that are not the start of its record does not come back. -/
theorem resident_lost : Readable {} samplePartition (volumeOf (residentSample [0x68,0x69,0x0D,0x0A])) ∧
    NtfsVolume samplePartition (volumeOf (residentSample [0x68,0x69,0x0D,0x0A])) sampleLayout ∧
    ResidentRecord samplePartition (volumeOf (residentSample [0x68,0x69,0x0D,0x0A])) sampleLayout 0 sampleHead
      [sampleName] (sampleResident [0x68,0x69,0x0D,0x0A]) [] ∧
    residentValue (sampleResident [0x68,0x69,0x0D,0x0A]) = [0x68,0x69,0x0D,0x0A] ∧
    ¬ RecoversContent {} samplePartition (volumeOf (residentSample [0x68,0x69,0x0D,0x0A])) 0 [0x68,0x69,0x0D,0x0A]
      "A" := by
  have record : ResidentRecord samplePartition (volumeOf (residentSample [0x68,0x69,0x0D,0x0A])) sampleLayout 0
      sampleHead [sampleName] (sampleResident [0x68,0x69,0x0D,0x0A]) [] :=
    residentSample_record (length_residentSample rfl) (by decide +kernel) (by decide)
      ⟨⟨by decide,by decide,by decide⟩,by decide,by decide,by decide,
        by decide,by decide⟩
  have value : residentValue (sampleResident [0x68,0x69,0x0D,0x0A]) = [0x68,0x69,0x0D,0x0A] := by decide
  have front := @residentSample_front [0x68,0x69,0x0D,0x0A] (length_residentSample rfl) (by decide)
  refine ⟨volumeOf_readable _,volumeOf_volume _,record,value,fun recovers => ?_⟩
  rw [← value] at recovers
  obtain ⟨_,_,_,_,_,same⟩ := (recovers_resident_iff (volumeOf_readable _) (volumeOf_volume _) record sampleName_other
    (fun _ => rfl) rfl).mp recovers
  have wrong := front.symm.trans (same.trans value)
  exact absurd wrong (by decide)

end Sample
end SetecWizard.Core.FileRecovery
