import SetecWizard.Recovery.RunList
import SetecWizard.Operations.Transfer
import SetecWizard.Library.Copying

/-! The scan of the MFT on a disk that can be read. Every record that lies in the partition is
read as it is; a record with one `$DATA` attribute gives the runs of its mapping pairs.
-/
namespace SetecWizard.Core.FileRecovery
open SetecWizard.Library

variable {env : RecoveryEnv} {r : FileRecovery} {disk : Disk}

/-- The first byte of the partition, and the number of its bytes. -/
def partBase (r : FileRecovery) : Nat := r.partStart.toNat * r.sectorSize.toNat

def partBytes (r : FileRecovery) : Nat := r.partSectors.toNat * r.sectorSize.toNat

/-- The partition lies on the disk, and what lies on the disk can be read. The size of a disk
is a signed number. -/
structure Readable (env : RecoveryEnv) (r : FileRecovery) (disk : Disk) : Prop where
  positive : 0 < r.sectorSize.toNat
  moderate : r.sectorSize.toNat ≤ 65536
  signed : disk.totalBytes.toNat < 2 ^ 63
  inside : partBase r + partBytes r ≤ disk.totalBytes.toNat
  reads : ∀ off n, off + n ≤ disk.totalBytes.toNat → env.device.readFile off n = .ok n

section Reading

variable (vol : Readable env r disk)
include vol

theorem readSectors_readable {lba count : UInt64} {off n : Nat}
    (start : (lba * r.sectorSize.toUInt64).toNat = off) (length : (count * r.sectorSize.toUInt64).toNat = n)
    (small : n < 2 ^ 32) (inside : off + n ≤ disk.totalBytes.toNat) :
    RawDiskHandle.readSectors env.device disk lba count r.sectorSize = .ok (window disk.byte off n) := by
  have limit : MAXDWORD.toNat = 2 ^ 32 - 1 := rfl
  have allowed : ¬ MAXDWORD < count * r.sectorSize.toUInt64 := by
    rw [UInt64.lt_iff_toNat_lt,limit,length]
    omega
  unfold RawDiskHandle.readSectors
  split
  next zero =>
    rw [zero,UInt64.zero_mul] at length
    have none : n = 0 := length.symm
    rw [none]
    rfl
  next =>
    simp only [if_neg allowed,start,length,vol.reads off n inside,available_all disk off n inside]

theorem readPartitionBytes_inside {offset : UInt64} {size : UInt32} (some_byte : 0 < size.toNat)
    (short : size.toNat ≤ 2 ^ 20) (inside : offset.toNat + size.toNat ≤ partBytes r) :
    readPartitionBytes env r disk offset size =
      .ok (window disk.byte (partBase r + offset.toNat) size.toNat) := by
  have positive := vol.positive
  have moderate := vol.moderate
  have room := vol.inside
  have bound := disk.totalBytes.toNat_lt
  have one : (1 : UInt32).toNat = 1 := rfl
  obtain ⟨abs,absolute⟩ : ∃ abs, abs = r.partStart * r.sectorSize.toUInt64 + offset := ⟨_,rfl⟩
  have base : (r.partStart * r.sectorSize.toUInt64).toNat = partBase r := by
    rw [UInt64.toNat_mul,UInt32.toNat_toUInt64]
    exact Nat.mod_eq_of_lt (by rw [← partBase]; omega)
  have place : abs.toNat = partBase r + offset.toNat := by
    rw [absolute,UInt64.toNat_add,base]
    exact Nat.mod_eq_of_lt (by omega)
  have below := Nat.mod_lt abs.toNat positive
  have low : (abs % r.sectorSize.toUInt64).toUInt32.toNat = abs.toNat % r.sectorSize.toNat := by
    rw [UInt64.toNat_toUInt32,UInt64.toNat_mod,UInt32.toNat_toUInt64]
    exact Nat.mod_eq_of_lt (by omega)
  have start : (abs / r.sectorSize.toUInt64 * r.sectorSize.toUInt64).toNat =
      abs.toNat / r.sectorSize.toNat * r.sectorSize.toNat := by
    have floor := Nat.div_mul_le_self abs.toNat r.sectorSize.toNat
    rw [UInt64.toNat_mul,UInt64.toNat_div,UInt32.toNat_toUInt64]
    exact Nat.mod_eq_of_lt (by omega)
  obtain ⟨part,length⟩ : ∃ part, part = (abs % r.sectorSize.toUInt64).toUInt32 + size := ⟨_,rfl⟩
  have part_length : part.toNat = abs.toNat % r.sectorSize.toNat + size.toNat := by
    rw [length,UInt32.toNat_add,low]
    exact Nat.mod_eq_of_lt (by omega)
  have above := le_roundUp (n := part.toNat) positive
  have close := roundUp_lt (n := part.toNat) positive
  have whole : ((part + r.sectorSize - 1) / r.sectorSize * r.sectorSize).toNat =
      roundUp part.toNat r.sectorSize.toNat := by
    have last : (part + r.sectorSize - 1).toNat = part.toNat + r.sectorSize.toNat - 1 := by
      rw [UInt32.toNat_sub,UInt32.toNat_add,one]
      omega
    rw [UInt32.toNat_mul,UInt32.toNat_div,last,← roundUp]
    exact Nat.mod_eq_of_lt (by omega)
  have count : (((part + r.sectorSize - 1) / r.sectorSize * r.sectorSize / r.sectorSize).toUInt64 *
      r.sectorSize.toUInt64).toNat = roundUp part.toNat r.sectorSize.toNat := by
    rw [UInt64.toNat_mul,UInt32.toNat_toUInt64,UInt32.toNat_toUInt64,UInt32.toNat_div,whole,
      Nat.div_mul_cancel (dvd_roundUp _ _)]
    exact Nat.mod_eq_of_lt (by omega)
  have split := Nat.div_add_mod' abs.toNat r.sectorSize.toNat
  have ends : abs.toNat / r.sectorSize.toNat * r.sectorSize.toNat + roundUp part.toNat r.sectorSize.toNat ≤
      partBase r + partBytes r := by
    have multiple : r.sectorSize.toNat ∣ partBase r + partBytes r :=
      Nat.dvd_add (Nat.dvd_mul_left _ _) (Nat.dvd_mul_left _ _)
    rw [← roundUp_add positive (Nat.dvd_mul_left _ _)]
    exact roundUp_le_of_dvd positive (by omega) multiple
  have read := readSectors_readable vol start count (by omega) (by omega)
  have enough : ¬ (window disk.byte (abs.toNat / r.sectorSize.toNat * r.sectorSize.toNat)
      (roundUp part.toNat r.sectorSize.toNat)).length < part.toNat := by
    rw [length_window]
    omega
  have same : abs.toNat / r.sectorSize.toNat * r.sectorSize.toNat + abs.toNat % r.sectorSize.toNat =
      partBase r + offset.toNat := split.trans place
  unfold readPartitionBytes
  simp only [← absolute,← length,read,if_neg enough,low]
  rw [slice_window _ _ _ _ _ (by omega),same]

end Reading

section Fields

theorem readLE32_append_left (xs ys : List UInt8) {off : Nat} (fits : off + 4 ≤ xs.length) :
    readLE32 (xs ++ ys) off = readLE32 xs off := by
  apply UInt32.toNat_inj.mp
  rw [readLE32_toNat,readLE32_toNat,slice_append_left _ _ _ _ fits]

theorem readLE32_append_right (xs ys : List UInt8) (off : Nat) :
    readLE32 (xs ++ ys) (xs.length + off) = readLE32 ys off := by
  apply UInt32.toNat_inj.mp
  rw [readLE32_toNat,readLE32_toNat,slice_append_right]

theorem readLE16_append_left (xs ys : List UInt8) {off : Nat} (fits : off + 2 ≤ xs.length) :
    readLE16 (xs ++ ys) off = readLE16 xs off := by
  apply UInt16.toNat_inj.mp
  rw [readLE16_toNat,readLE16_toNat,slice_append_left _ _ _ _ fits]

theorem readLE16_append_right (xs ys : List UInt8) (off : Nat) :
    readLE16 (xs ++ ys) (xs.length + off) = readLE16 ys off := by
  apply UInt16.toNat_inj.mp
  rw [readLE16_toNat,readLE16_toNat,slice_append_right]

theorem readLE64_append_left (xs ys : List UInt8) {off : Nat} (fits : off + 8 ≤ xs.length) :
    readLE64 (xs ++ ys) off = readLE64 xs off := by
  apply UInt64.toNat_inj.mp
  rw [readLE64_toNat,readLE64_toNat,slice_append_left _ _ _ _ fits]

theorem readLE64_append_right (xs ys : List UInt8) (off : Nat) :
    readLE64 (xs ++ ys) (xs.length + off) = readLE64 ys off := by
  apply UInt64.toNat_inj.mp
  rw [readLE64_toNat,readLE64_toNat,slice_append_right]

theorem getD_append_right (xs ys : List UInt8) (i : Nat) : (xs ++ ys).getD (xs.length + i) 0 = ys.getD i 0 := by
  rw [List.getD_append_right _ _ _ _ (Nat.le_add_right _ _),Nat.add_sub_cancel_left]

end Fields

/-- An attribute that says how long it is. -/
structure Attribute (attr : List UInt8) : Prop where
  long : sizeofAttributeHeader ≤ attr.length
  length : (readLE32 attr 4).toNat = attr.length
  type : readLE32 attr 0 ≠ NTFS_ATTR_END

/-- A record with some attributes, one behind the other up to the end marker. -/
structure AttributeList (recordData head : List UInt8) (attrs : List (List UInt8)) : Prop where
  layout : ∃ tail, recordData = head ++ (attrs.flatten ++ tail) ∧ readLE32 tail 0 = NTFS_ATTR_END
  first : head.length = (readLE16 recordData 20).toNat
  short : recordData.length ≤ 65536
  attributes : ∀ attr ∈ attrs, Attribute attr

section Walk

variable (recordData : List UInt8) (recordCluster : UInt64)

def readAll : Nat → List (List UInt8) → Found → Found
  | _, [], found => found
  | off, attr :: rest, found => readAll (off + attr.length) rest (readAttribute recordData recordCluster off found)

theorem readAll_append (off : Nat) (first second : List (List UInt8)) (found : Found) :
    readAll recordData recordCluster off (first ++ second) found =
      readAll recordData recordCluster (off + first.flatten.length) second
        (readAll recordData recordCluster off first found) := by
  induction first generalizing off found with
  | nil => rfl
  | cons attr rest ih =>
    rw [List.cons_append,readAll,readAll,ih,List.flatten_cons,List.length_append,Nat.add_assoc]

variable {recordData recordCluster}

theorem walkAttributes_eq {attrs : List (List UInt8)} {before tail : List UInt8} {fuel : Nat} {found : Found}
    (layout : recordData = before ++ (attrs.flatten ++ tail)) (short : recordData.length ≤ 65536)
    (attributes : ∀ attr ∈ attrs, Attribute attr) (last : readLE32 tail 0 = NTFS_ATTR_END)
    (enough : attrs.length < fuel) :
    walkAttributes recordData recordCluster fuel (.ofNat before.length) found =
      some (readAll recordData recordCluster before.length attrs found) := by
  induction attrs generalizing before fuel found with
  | nil =>
    obtain ⟨fuel,rfl⟩ : ∃ k, fuel = k + 1 := ⟨fuel - 1,by omega⟩
    rw [List.flatten_nil,List.nil_append] at layout
    have inside : before.length ≤ 65536 := by
      rw [layout,List.length_append] at short
      omega
    have start : (UInt32.ofNat before.length).toNat = before.length := by
      rw [UInt32.toNat_ofNat']
      exact Nat.mod_eq_of_lt (by omega)
    have marker : readLE32 recordData before.length = NTFS_ATTR_END := by
      rw [layout,← last]
      exact readLE32_append_right before tail 0
    rw [walkAttributes,start]
    split
    next => rfl
    next => rw [if_pos (.inl marker)]; rfl
  | cons attr rest ih =>
    obtain ⟨fuel,rfl⟩ : ∃ k, fuel = k + 1 := ⟨fuel - 1,by omega⟩
    obtain ⟨⟨long,length,type⟩,others⟩ := List.forall_mem_cons.mp attributes
    have header : sizeofAttributeHeader = 16 := rfl
    rw [List.flatten_cons,List.append_assoc] at layout
    have total : before.length + attr.length ≤ recordData.length := by
      rw [layout,List.length_append,List.length_append]
      omega
    have start : (UInt32.ofNat before.length).toNat = before.length := by
      rw [UInt32.toNat_ofNat']
      exact Nat.mod_eq_of_lt (by omega)
    have field (i : Nat) (inside : i + 4 ≤ attr.length) :
        readLE32 recordData (before.length + i) = readLE32 attr i := by
      rw [layout,readLE32_append_right,readLE32_append_left _ _ inside]
    have some_length : readLE32 attr 4 ≠ 0 := by
      intro zero
      rw [zero] at length
      have none : attr.length = 0 := length.symm
      omega
    have next : UInt32.ofNat before.length + readLE32 attr 4 = .ofNat (before ++ attr).length := by
      apply UInt32.toNat_inj.mp
      rw [UInt32.toNat_add,start,length,UInt32.toNat_ofNat',List.length_append]
    have next_start : (UInt32.ofNat (before ++ attr).length).toNat = before.length + attr.length := by
      rw [UInt32.toNat_ofNat',List.length_append]
      exact Nat.mod_eq_of_lt (by omega)
    have type_read : readLE32 recordData before.length = readLE32 attr 0 := field 0 (by omega)
    rw [walkAttributes,start,if_neg (by omega)]
    simp only [field 4 (by omega),type_read,next,next_start]
    rw [if_neg (not_or_intro type some_length),if_neg (by omega),
      ih (by rw [layout,List.append_assoc]) others (by rw [List.length_cons] at enough; omega),readAll,
      List.length_append]

theorem readAttribute_other {off : Nat} {found : Found} (other : readLE32 recordData off ≠ NTFS_ATTR_DATA) :
    (readAttribute recordData recordCluster off found).fileSize = found.fileSize ∧
      (readAttribute recordData recordCluster off found).dataRuns = found.dataRuns := by
  unfold readAttribute
  simp only [if_neg other]
  split
  next => exact ⟨rfl,rfl⟩
  next => exact ⟨rfl,rfl⟩

theorem readAll_others {before tail : List UInt8} {attrs : List (List UInt8)} {found : Found}
    (layout : recordData = before ++ (attrs.flatten ++ tail)) (attributes : ∀ attr ∈ attrs, Attribute attr)
    (others : ∀ attr ∈ attrs, readLE32 attr 0 ≠ NTFS_ATTR_DATA) :
    (readAll recordData recordCluster before.length attrs found).fileSize = found.fileSize ∧
      (readAll recordData recordCluster before.length attrs found).dataRuns = found.dataRuns := by
  induction attrs generalizing before found with
  | nil => exact ⟨rfl,rfl⟩
  | cons attr rest ih =>
    obtain ⟨this,those⟩ := List.forall_mem_cons.mp others
    obtain ⟨⟨long,_,_⟩,those'⟩ := List.forall_mem_cons.mp attributes
    have header : sizeofAttributeHeader = 16 := rfl
    rw [List.flatten_cons,List.append_assoc] at layout
    have type_read : readLE32 recordData before.length = readLE32 attr 0 := by
      rw [layout]
      exact (readLE32_append_right before _ 0).trans (readLE32_append_left _ _ (by omega))
    rw [← type_read] at this
    obtain ⟨size,runs⟩ := @readAttribute_other recordData recordCluster before.length found this
    have after := @ih (before ++ attr) (readAttribute recordData recordCluster before.length found)
      (by rw [layout,List.append_assoc]) those' those
    rw [List.length_append] at after
    rw [readAll,after.1,after.2]
    exact ⟨size,runs⟩

/-- A non-resident `$DATA` attribute, not compressed, with the pairs of its runs. -/
structure DataAttribute (attr : List UInt8) (pairs : List MappingPair) (realSize : UInt64) : Prop
    extends Attribute attr where
  data : readLE32 attr 0 = NTFS_ATTR_DATA
  nonResident : attr.getD 8 0 = 1
  uncompressed : readLE16 attr 12 &&& 0x0001 = 0
  whole : sizeofAttributeHeader + sizeofNonResidentAttr ≤ attr.length
  size : readLE64 attr 48 = realSize
  runs : ∃ rest, attr.drop (readLE16 attr 32).toNat = runList pairs ++ rest

theorem readAttribute_data {before attr tail : List UInt8} {pairs : List MappingPair} {realSize : UInt64}
    {found : Found} (layout : recordData = before ++ (attr ++ tail)) (this : DataAttribute attr pairs realSize) :
    readAttribute recordData recordCluster before.length found =
      { found with
        fileSize := realSize
        dataRuns := found.dataRuns ++ (runsFrom 0 pairs).filterMap FileRun.stored } := by
  have header : sizeofAttributeHeader = 16 := rfl
  have rest_size : sizeofNonResidentAttr = 48 := rfl
  have whole := this.whole
  have type_read : readLE32 recordData before.length = NTFS_ATTR_DATA := by
    rw [layout,← this.data]
    exact (readLE32_append_right before _ 0).trans (readLE32_append_left _ _ (by omega))
  have kind : recordData.getD (before.length + 8) 0 = 1 := by
    rw [layout,getD_append_right,List.getD_append _ _ _ _ (by omega)]
    exact this.nonResident
  have place : readLE16 recordData (before.length + 32) = readLE16 attr 32 := by
    rw [layout,readLE16_append_right,readLE16_append_left _ _ (by omega)]
  have size : readLE64 recordData (before.length + 48) = realSize := by
    rw [layout,readLE64_append_right,readLE64_append_left _ _ (by omega)]
    exact this.size
  have long : ¬ recordData.length < before.length + sizeofAttributeHeader + sizeofNonResidentAttr := by
    rw [layout,List.length_append,List.length_append]
    omega
  obtain ⟨rest,runs⟩ := this.runs
  have some_byte : (readLE16 attr 32).toNat < attr.length := by
    have length := congrArg List.length runs
    rw [List.length_drop,List.length_append,runList,List.length_append,List.length_singleton] at length
    omega
  have list : recordData.drop (before.length + (readLE16 attr 32).toNat) = runList pairs ++ (rest ++ tail) := by
    rw [layout,← List.drop_drop,List.drop_left,List.drop_append_of_le_length (by omega),runs,List.append_assoc]
  have other : NTFS_ATTR_DATA ≠ NTFS_ATTR_FILE_NAME := by decide
  have zero : (UInt64.ofInt 0) = 0 := rfl
  unfold readAttribute readData
  simp only [type_read,other,false_and,if_false,if_true,kind,if_neg long,place,list,size]
  rw [← zero,parseRuns_runList]

theorem readAll_gives {head tail : List UInt8} {pre post : List (List UInt8)} {attr : List UInt8} {size : UInt64}
    {runs : List DataRun} (layout : recordData = head ++ ((pre ++ attr :: post).flatten ++ tail))
    (attributes : ∀ attr' ∈ pre ++ attr :: post, Attribute attr')
    (gives : ∀ {before tail : List UInt8} {found : Found}, recordData = before ++ (attr ++ tail) →
      readAttribute recordData recordCluster before.length found =
        { found with fileSize := size, dataRuns := found.dataRuns ++ runs })
    (others : ∀ attr' ∈ pre ++ post, readLE32 attr' 0 ≠ NTFS_ATTR_DATA) :
    (readAll recordData recordCluster head.length (pre ++ attr :: post) {}).fileSize = size ∧
      (readAll recordData recordCluster head.length (pre ++ attr :: post) {}).dataRuns = runs := by
  obtain ⟨before,_,after⟩ := List.forall_mem_append.mp attributes |>.imp_right List.forall_mem_cons.mp
  obtain ⟨others_before,others_after⟩ := List.forall_mem_append.mp others
  rw [List.flatten_append,List.flatten_cons] at layout
  have first := @readAll_others recordData recordCluster head (attr ++ post.flatten ++ tail) pre {}
    (by rw [layout]; simp only [List.append_assoc]) before others_before
  have middle := @gives (head ++ pre.flatten) (post.flatten ++ tail)
    (readAll recordData recordCluster head.length pre {}) (by rw [layout]; simp only [List.append_assoc])
  have last := @readAll_others recordData recordCluster (head ++ pre.flatten ++ attr) tail post
    (readAttribute recordData recordCluster (head ++ pre.flatten).length
      (readAll recordData recordCluster head.length pre {}))
    (by rw [layout]; simp only [List.append_assoc]) after others_after
  rw [List.length_append,List.length_append] at last
  rw [List.length_append] at middle
  rw [readAll_append,readAll,last.1,last.2,middle]
  exact ⟨rfl,by rw [first.2]; rfl⟩

theorem readAll_data {head tail : List UInt8} {pre post : List (List UInt8)} {attr : List UInt8}
    {pairs : List MappingPair} {realSize : UInt64}
    (layout : recordData = head ++ ((pre ++ attr :: post).flatten ++ tail))
    (attributes : ∀ attr' ∈ pre ++ attr :: post, Attribute attr') (this : DataAttribute attr pairs realSize)
    (others : ∀ attr' ∈ pre ++ post, readLE32 attr' 0 ≠ NTFS_ATTR_DATA) :
    (readAll recordData recordCluster head.length (pre ++ attr :: post) {}).fileSize = realSize ∧
      (readAll recordData recordCluster head.length (pre ++ attr :: post) {}).dataRuns =
        (runsFrom 0 pairs).filterMap FileRun.stored :=
  readAll_gives layout attributes (fun shape => readAttribute_data shape this) others

end Walk

section Records

variable {layout : NtfsLayout}

def recordAt (r : FileRecovery) (disk : Disk) (layout : NtfsLayout) (recordIdx : UInt64) : List UInt8 :=
  window disk.byte (partBase r + (recordOffset layout recordIdx).toNat) layout.mftRecordSize.toNat

def WalkEnds (r : FileRecovery) (disk : Disk) (layout : NtfsLayout) (recordIdx : UInt64) : Prop :=
  ∃ fuel file, scanRecord r layout fuel recordIdx (recordAt r disk layout recordIdx) = some file

theorem walkAttributes_mono {recordData : List UInt8} {recordCluster : UInt64} {fuel more : Nat} {off : UInt32}
    {found result : Found} (ends : walkAttributes recordData recordCluster fuel off found = some result)
    (enough : fuel ≤ more) : walkAttributes recordData recordCluster more off found = some result := by
  induction fuel generalizing more off found with
  | zero => cases ends
  | succ fuel ih =>
    obtain ⟨more,rfl⟩ : ∃ k, more = k + 1 := ⟨more - 1,by omega⟩
    rw [walkAttributes] at ends ⊢
    split at ends
    next short => rwa [if_pos short]
    next long =>
      rw [if_neg long]
      simp only [] at ends ⊢
      split at ends
      next last => rwa [if_pos last]
      next inner =>
        rw [if_neg inner]
        split at ends
        next beyond => rwa [if_pos beyond]
        next inside =>
          rw [if_neg inside]
          exact ih ends (by omega)

theorem scanRecord_mono {fuel more : Nat} {recordIdx : UInt64} {recordData : List UInt8}
    {file : Option RecoverableFile} (ends : scanRecord r layout fuel recordIdx recordData = some file)
    (enough : fuel ≤ more) : scanRecord r layout more recordIdx recordData = some file := by
  unfold scanRecord at ends ⊢
  split at ends
  next deleted =>
    rw [if_pos deleted]
    split at ends
    next => cases ends
    next found walked =>
      rw [walkAttributes_mono walked enough]
      exact ends
  next other => rwa [if_neg other]

theorem scanRecords_lists {fuel left : Nat} {recordIdx : UInt64} {results : List RecoverableFile}
    (going : ∀ j, env.canceled j = false)
    (reads : ∀ k < left, readPartitionBytes env r disk (recordOffset layout (recordIdx + .ofNat k))
      layout.mftRecordSize = .ok (recordAt r disk layout (recordIdx + .ofNat k)))
    (ends : ∀ k < left, ∃ file, scanRecord r layout fuel (recordIdx + .ofNat k)
      (recordAt r disk layout (recordIdx + .ofNat k)) = some file) :
    ∃ files, scanRecords env r disk layout fuel left recordIdx results = some (.ok files) ∧
      (∀ file ∈ results, file ∈ files) ∧ ∀ k < left, ∀ file, scanRecord r layout fuel (recordIdx + .ofNat k)
        (recordAt r disk layout (recordIdx + .ofNat k)) = some (some file) → file ∈ files := by
  induction left generalizing recordIdx results with
  | zero => exact ⟨results,rfl,fun _ member => member,fun k none => absurd none (Nat.not_lt_zero k)⟩
  | succ left ih =>
    have shift (k : Nat) : recordIdx + 1 + .ofNat k = recordIdx + .ofNat (k + 1) := by
      rw [UInt64.add_assoc,UInt64.add_comm 1,UInt64.ofNat_add]
      rfl
    have here : recordIdx + .ofNat 0 = recordIdx := UInt64.add_zero _
    obtain ⟨file,scanned⟩ := ends 0 (Nat.succ_pos left)
    have read := reads 0 (Nat.succ_pos left)
    rw [here] at scanned read
    obtain ⟨files,run,kept,listed⟩ := @ih (recordIdx + 1) (results ++ file.toList)
      (fun k below => by rw [shift]; exact reads (k + 1) (by omega))
      (fun k below => by rw [shift]; exact ends (k + 1) (by omega))
    rw [List.forall_mem_append] at kept
    refine ⟨files,?_,kept.1,?_⟩
    · rw [scanRecords,going recordIdx,if_neg (by decide),read]
      simp only [scanned]
      exact run
    · intro k below file' found
      cases k with
      | zero =>
        rw [here,scanned] at found
        cases found
        exact kept.2 file' (by simp)
      | succ k =>
        rw [← shift] at found
        exact listed k (by omega) file' found

theorem scanRecords_listed {fuel left : Nat} {recordIdx : UInt64} {results files : List RecoverableFile}
    (going : ∀ j, env.canceled j = false)
    (reads : ∀ k < left, readPartitionBytes env r disk (recordOffset layout (recordIdx + .ofNat k))
      layout.mftRecordSize = .ok (recordAt r disk layout (recordIdx + .ofNat k)))
    (run : scanRecords env r disk layout fuel left recordIdx results = some (.ok files)) :
    (∀ k < left, ∃ file, scanRecord r layout fuel (recordIdx + .ofNat k)
      (recordAt r disk layout (recordIdx + .ofNat k)) = some file) ∧
      ∀ file ∈ files, file ∈ results ∨ ∃ k < left, scanRecord r layout fuel (recordIdx + .ofNat k)
        (recordAt r disk layout (recordIdx + .ofNat k)) = some (some file) := by
  induction left generalizing recordIdx results with
  | zero =>
    cases run
    exact ⟨fun k none => absurd none (Nat.not_lt_zero k),fun _ member => .inl member⟩
  | succ left ih =>
    have shift (k : Nat) : recordIdx + 1 + .ofNat k = recordIdx + .ofNat (k + 1) := by
      rw [UInt64.add_assoc,UInt64.add_comm 1,UInt64.ofNat_add]
      rfl
    have here : recordIdx + .ofNat 0 = recordIdx := UInt64.add_zero _
    have read := reads 0 (Nat.succ_pos left)
    rw [here] at read
    rw [scanRecords,going recordIdx,if_neg (by decide),read] at run
    cases scanned : scanRecord r layout fuel recordIdx (recordAt r disk layout recordIdx) with
    | none => simp [scanned] at run
    | some file =>
      simp only [scanned] at run
      obtain ⟨ends,listed⟩ := @ih (recordIdx + 1) (results ++ file.toList)
        (fun k below => by rw [shift]; exact reads (k + 1) (by omega)) run
      constructor
      · intro k below
        cases k with
        | zero => exact ⟨file,by rw [here]; exact scanned⟩
        | succ k =>
          rw [← shift]
          exact ends k (by omega)
      · intro file' member
        rcases listed file' member with before | ⟨k,below,found⟩
        · rcases List.mem_append.mp before with earlier | this
          · exact .inl earlier
          · refine .inr ⟨0,Nat.succ_pos left,?_⟩
            rw [here,scanned]
            cases file with
            | none => cases this
            | some file =>
              cases List.mem_singleton.mp this
              rfl
        · rw [shift] at found
          exact .inr ⟨k + 1,by omega,found⟩

end Records
end SetecWizard.Core.FileRecovery
