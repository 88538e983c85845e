import SetecWizard.Recovery.NtfsFile

/-! From a deleted record to its file. What is written are the clusters of the runs without
the holes between them, so that everything behind a hole comes too early; and a size of
zero, which is a size, is taken for none.
-/
namespace SetecWizard.Core.FileRecovery
open SetecWizard.Library

variable {env : RecoveryEnv} {r : FileRecovery} {disk disk' : Disk} {layout : NtfsLayout}

/-- An NTFS volume: its boot sector is accepted and names a sector size, and the MFT begins
in the partition. -/
structure NtfsVolume (r : FileRecovery) (disk : Disk) (layout : NtfsLayout) : Prop where
  room : 512 ≤ partBytes r
  boot : ntfsLayout r (window disk.byte (partBase r) 512) = .ok layout
  sectors : readLE16 (window disk.byte (partBase r) 512) 0x0B ≠ 0
  mft : layout.mftByteOffset.toNat ≤ partBytes r

/-- A deleted record of the MFT with a `$DATA` attribute of some runs. -/
structure DeletedRecord (r : FileRecovery) (disk : Disk) (layout : NtfsLayout) (recordIdx : UInt64) (head : List UInt8)
    (pre : List (List UInt8)) (attr : List UInt8) (post : List (List UInt8)) (pairs : List MappingPair)
    (realSize : UInt64) : Prop where
  stored : recordIdx.toNat <
    (partBytes r - layout.mftByteOffset.toNat) / layout.mftRecordSize.toNat
  deleted : deletedFile (recordAt r disk layout recordIdx) = true
  list : AttributeList (recordAt r disk layout recordIdx) head (pre ++ attr :: post)
  data : DataAttribute attr pairs realSize
  inside : ∀ run ∈ runsFrom 0 pairs, run.Inside r layout.clusterSize

def nameFrom (recordData : List UInt8) : Nat → List (List UInt8) → List Char → List Char
  | _, [], name => name
  | off, attr :: rest, name => nameFrom recordData (off + attr.length) rest
    (if readLE32 recordData off = NTFS_ATTR_FILE_NAME ∧ recordData.getD (off + 8) 0 = 0 then
      (fileNameAt recordData off).getD name else name)

def NoHoleBelow (clusterSize realSize : Nat) : Nat → List FileRun → Prop
  | _, [] => True
  | start, run :: rest => (run.cluster = none → run.count ≠ 0 → realSize ≤ start) ∧
    NoHoleBelow clusterSize realSize (start + run.count * clusterSize) rest

/-- A file without a size has no clusters either, but is listed. -/
def SizeCounts (realSize : Nat) (runs : List FileRun) : Prop :=
  realSize = 0 → onDisk runs ≠ [] ∧ ∀ run ∈ onDisk runs, run.count = 0

/-- The scan lists the record, and the file it gives is written with some content. -/
def RecoversContent (env : RecoveryEnv) (r : FileRecovery) (disk : Disk) (recordIdx : UInt64) (content : List UInt8)
    (outputPath : String) : Prop :=
  ∃ enough, ∀ fuel, enough ≤ fuel → ∃ files file, scanNtfs env r disk fuel = some (.ok files) ∧ file ∈ files ∧
    file.mftEntryIndex = recordIdx ∧ recoverNtfsFile env r disk file outputPath fuel = some (.ok (),some content)

/-- What the scan makes of a record, with enough rounds: a file of some size and runs, unless it
has no name or nothing to recover. -/
def ScanGives (r : FileRecovery) (disk : Disk) (layout : NtfsLayout) (recordIdx : UInt64) (rounds : Nat)
    (name : List Char) (sizeBytes : UInt64) (runs : List FileRun) : Prop :=
  ∀ fuel, rounds < fuel → ∃ file, file.mftEntryIndex = recordIdx ∧ file.sizeBytes = sizeBytes ∧
    file.dataRuns = runs.filterMap FileRun.stored ∧
    scanRecord r layout fuel recordIdx (recordAt r disk layout recordIdx) =
      some (if name = [] ∨ (sizeBytes = 0 ∧ onDisk runs = []) then none else some file)

/-- The scan lists the record, and the file it gives is written as it was. -/
def Recovers (env : RecoveryEnv) (r : FileRecovery) (disk : Disk) (layout : NtfsLayout) (recordIdx : UInt64)
    (realSize : UInt64) (runs : List FileRun) (outputPath : String) : Prop :=
  ∃ enough, ∀ fuel, enough ≤ fuel → ∃ files file, scanNtfs env r disk fuel = some (.ok files) ∧ file ∈ files ∧
    file.mftEntryIndex = recordIdx ∧ recoverNtfsFile env r disk file outputPath fuel =
      some (.ok (),some (logicalContent r disk layout.clusterSize realSize.toNat runs))

section Volume

variable (volume : NtfsVolume r disk layout)
include volume

theorem layout_sizes : (window disk.byte (partBase r) 512).getD 0x0D 0 ≠ 0 ∧
    layout.clusterSize = (readLE16 (window disk.byte (partBase r) 512) 0x0B).toUInt32 *
      ((window disk.byte (partBase r) 512).getD 0x0D 0).toUInt32 ∧
    0 < layout.mftRecordSize.toNat ∧ layout.mftRecordSize.toNat ≤ 65536 := by
  have most : (65536 : UInt32).toNat = 65536 := rfl
  have boot := volume.boot
  have sectors := volume.sectors
  generalize window disk.byte (partBase r) 512 = bytes at boot sectors ⊢
  unfold ntfsLayout at boot
  split at boot
  next => cases boot
  next =>
    split at boot
    next => cases boot
    next =>
      simp only at boot
      split at boot
      next => cases boot
      next clusters =>
        generalize (if 0 < bytes.getD 0x40 0 ∧ bytes.getD 0x40 0 < 0x80 then
            (bytes.getD 0x40 0).toUInt32 * ((readLE16 bytes 0x0B).toUInt32 * (bytes.getD 0x0D 0).toUInt32)
          else (1 : UInt32) <<< (0 - bytes.getD 0x40 0).toUInt32) = recordSize at boot
        split at boot
        next => exact absurd boot (by simp)
        next size =>
          obtain rfl := Except.ok.inj boot
          rw [not_or,UInt32.not_lt,UInt32.le_iff_toNat_le,most] at size
          exact ⟨clusters,rfl,Nat.pos_of_ne_zero (fun zero => size.1 (UInt32.toNat_inj.mp zero)),size.2⟩

theorem clusterSize_positive : 0 < layout.clusterSize.toNat := by
  obtain ⟨clusters,size,_⟩ := layout_sizes volume
  have sectors := volume.sectors
  generalize readLE16 (window disk.byte (partBase r) 512) 0x0B = bytes at size sectors
  generalize (window disk.byte (partBase r) 512).getD 0x0D 0 = perCluster at size clusters
  have some_bytes : 0 < bytes.toNat := Nat.pos_of_ne_zero (fun zero => sectors (UInt16.toNat_inj.mp zero))
  have some_sectors : 0 < perCluster.toNat := Nat.pos_of_ne_zero (fun zero => clusters (UInt8.toNat_inj.mp zero))
  have low := bytes.toNat_lt
  have high := perCluster.toNat_lt
  have product : bytes.toNat * perCluster.toNat < 2 ^ 16 * 2 ^ 8 := Nat.mul_lt_mul'' low high
  rw [size,UInt32.toNat_mul,UInt16.toNat_toUInt32,UInt8.toNat_toUInt32,Nat.mod_eq_of_lt (by omega)]
  exact Nat.mul_pos some_bytes some_sectors

theorem recordsToScan_eq (vol : Readable env r disk) : (recordsToScan r layout).toNat =
    min ((partBytes r - layout.mftByteOffset.toNat) / layout.mftRecordSize.toNat) 1000000 := by
  have room := vol.inside
  have bound := vol.signed
  have million : (1000000 : UInt64).toNat = 1000000 := rfl
  have bytes : (r.partSectors * r.sectorSize.toUInt64).toNat = partBytes r := by
    rw [UInt64.toNat_mul,UInt32.toNat_toUInt64]
    exact Nat.mod_eq_of_lt (by rw [← partBytes]; omega)
  have left : (r.partSectors * r.sectorSize.toUInt64 - layout.mftByteOffset).toNat =
      partBytes r - layout.mftByteOffset.toNat := by
    rw [UInt64.toNat_sub_of_le _ _ (UInt64.le_iff_toNat_le.mpr (by rw [bytes]; exact volume.mft)),bytes]
  rw [recordsToScan,UInt64.toNat_min,UInt64.toNat_div,left,UInt32.toNat_toUInt64,million]

theorem recordOffset_eq (vol : Readable env r disk) {recordIdx : UInt64} (stored : recordIdx.toNat <
    (partBytes r - layout.mftByteOffset.toNat) / layout.mftRecordSize.toNat) :
    (recordOffset layout recordIdx).toNat =
        layout.mftByteOffset.toNat + recordIdx.toNat * layout.mftRecordSize.toNat ∧
      layout.mftByteOffset.toNat + (recordIdx.toNat + 1) * layout.mftRecordSize.toNat ≤ partBytes r := by
  have room := vol.inside
  have bound := vol.signed
  have mft := volume.mft
  have ends := (Nat.mul_le_mul_right layout.mftRecordSize.toNat (Nat.succ_le_of_lt stored)).trans
    (Nat.div_mul_le_self _ _)
  rw [Nat.succ_eq_add_one] at ends
  have last : (recordIdx.toNat + 1) * layout.mftRecordSize.toNat =
      recordIdx.toNat * layout.mftRecordSize.toNat + layout.mftRecordSize.toNat := Nat.succ_mul _ _
  have product : (recordIdx * layout.mftRecordSize.toUInt64).toNat =
      recordIdx.toNat * layout.mftRecordSize.toNat := by
    rw [UInt64.toNat_mul,UInt32.toNat_toUInt64]
    exact Nat.mod_eq_of_lt (by omega)
  refine ⟨?_,by omega⟩
  rw [recordOffset,UInt64.toNat_add,product]
  exact Nat.mod_eq_of_lt (by omega)

theorem record_read (vol : Readable env r disk) {recordIdx : UInt64} (stored : recordIdx.toNat <
    (partBytes r - layout.mftByteOffset.toNat) / layout.mftRecordSize.toNat) :
    readPartitionBytes env r disk (recordOffset layout recordIdx) layout.mftRecordSize =
      .ok (recordAt r disk layout recordIdx) := by
  obtain ⟨_,_,some_byte,short⟩ := layout_sizes volume
  obtain ⟨place,inside⟩ := recordOffset_eq volume vol stored
  rw [Nat.succ_mul] at inside
  exact readPartitionBytes_inside vol some_byte (by omega) (by rw [place]; omega)

theorem scanned_read (vol : Readable env r disk) : ∀ k < (recordsToScan r layout).toNat,
    readPartitionBytes env r disk (recordOffset layout (0 + .ofNat k)) layout.mftRecordSize =
      .ok (recordAt r disk layout (0 + .ofNat k)) := by
  intro k below
  rw [recordsToScan_eq volume vol] at below
  refine record_read volume vol ?_
  rw [UInt64.zero_add,UInt64.toNat_ofNat',Nat.mod_eq_of_lt (by omega)]
  omega

theorem scanNtfs_eq (vol : Readable env r disk) (fuel : Nat) : scanNtfs env r disk fuel =
    scanRecords env r disk layout fuel (recordsToScan r layout).toNat 0 [] := by
  have boot := @readPartitionBytes_inside env r disk vol 0 512 (by decide) (by decide) volume.room
  have start : partBase r + (0 : UInt64).toNat = partBase r := rfl
  have length : (512 : UInt32).toNat = 512 := rfl
  rw [start,length] at boot
  unfold scanNtfs
  simp only [boot,volume.boot]

end Volume

/-- A record is recovered with some content when it is scanned, named and listed, and when its
runs without the holes are that content. -/
theorem recoversContent_iff (vol : Readable env r disk) (volume : NtfsVolume r disk layout) {recordIdx sizeBytes : UInt64}
    {rounds : Nat} {name : List Char} {runs : List FileRun} (stored : recordIdx.toNat <
      (partBytes r - layout.mftByteOffset.toNat) / layout.mftRecordSize.toNat)
    (gives : ScanGives r disk layout recordIdx rounds name sizeBytes runs)
    (inside : ∀ run ∈ runs, run.Inside r layout.clusterSize) (going : ∀ j, env.canceled j = false)
    {outputPath : String} (creates : env.creates outputPath = true) (content : List UInt8) :
    RecoversContent env r disk recordIdx content outputPath ↔
      recordIdx.toNat < 1000000 ∧ name ≠ [] ∧
      (∀ j < (recordsToScan r layout).toNat, WalkEnds r disk layout (.ofNat j)) ∧
      (sizeBytes = 0 → onDisk runs ≠ []) ∧
      limited sizeBytes.toNat ((onDisk runs).flatMap (FileRun.bytes r disk layout.clusterSize)) = content := by
  obtain ⟨clusters,size,_,_⟩ := layout_sizes volume
  have some_byte := clusterSize_positive volume
  have scanned := recordsToScan_eq volume vol
  have reads := scanned_read volume vol
  have recovered (file : RecoverableFile) (same : file.sizeBytes = sizeBytes)
      (kept : file.dataRuns = runs.filterMap FileRun.stored) {fuel : Nat}
      (enough : partBytes r < fuel) : recoverNtfsFile env r disk file outputPath fuel = some (.ok (),some
        (limited sizeBytes.toNat
          ((onDisk runs).flatMap (FileRun.bytes r disk layout.clusterSize)))) := by
    obtain ⟨fuel,rfl⟩ : ∃ k, fuel = k + 1 := ⟨fuel - 1,by omega⟩
    rw [← same]
    exact recoverNtfsFile_eq vol volume.room volume.sectors clusters creates size some_byte inside kept
      (by omega)
  have number (j : Nat) : (0 : UInt64) + .ofNat j = .ofNat j := UInt64.zero_add _
  constructor
  · rintro ⟨enough,recovers⟩
    obtain ⟨files,file,listed,member,index,written⟩ :=
      recovers (enough + rounds + partBytes r + 1) (by omega)
    rw [scanNtfs_eq volume vol] at listed
    obtain ⟨ends,origin⟩ := scanRecords_listed going reads listed
    obtain ⟨k,below,found⟩ := (origin file member).resolve_left List.not_mem_nil
    have place : recordIdx = 0 + .ofNat k := by
      rw [← index]
      unfold scanRecord at found
      split at found
      next =>
        split at found
        next => cases found
        next =>
          split at found
          next => cases found
          next =>
            cases found
            rfl
      next => cases found
    rw [← place] at found
    obtain ⟨file',_,size',stored',made⟩ := gives (enough + rounds + partBytes r + 1) (by omega)
    rw [found] at made
    split at made
    next => cases made
    next kept =>
      obtain rfl := Option.some.inj (Option.some.inj made)
      rw [not_or,not_and] at kept
      refine ⟨?_,kept.1,fun j inside => ?_,kept.2,?_⟩
      · rw [scanned] at below
        rw [place,number,UInt64.toNat_ofNat',Nat.mod_eq_of_lt (by omega)]
        omega
      · obtain ⟨outcome,walked⟩ := ends j inside
        rw [number] at walked
        exact ⟨_,outcome,walked⟩
      · rw [recovered file size' stored' (by omega)] at written
        exact Option.some.inj (Prod.mk.inj (Option.some.inj written)).2
  · rintro ⟨early,named,ends,counted,same⟩
    -- enough steps for each of the walks, by their number
    have bounded (n : Nat) (some_records : n ≤ (recordsToScan r layout).toNat) :
        ∃ enough, ∀ fuel, enough ≤ fuel → ∀ j < n, ∃ file, scanRecord r layout fuel (.ofNat j)
          (recordAt r disk layout (.ofNat j)) = some file := by
      induction n with
      | zero => exact ⟨0,fun _ _ j none => absurd none (Nat.not_lt_zero j)⟩
      | succ n ih =>
        obtain ⟨enough,before⟩ := ih (by omega)
        obtain ⟨steps,file,walked⟩ := ends n (by omega)
        refine ⟨enough + steps,fun fuel many j below => ?_⟩
        by_cases last : j = n
        · subst last
          exact ⟨file,scanRecord_mono walked (by omega)⟩
        · exact before fuel (by omega) j (by omega)
    obtain ⟨enough,walks⟩ := bounded _ (Nat.le_refl _)
    refine ⟨enough + rounds + partBytes r + 1,fun fuel many => ?_⟩
    obtain ⟨files,run,_,lists⟩ := @scanRecords_lists env r disk layout fuel _ 0 [] going reads (fun k below => by
      rw [number]
      exact walks fuel (by omega) k below)
    obtain ⟨file,index,size',stored',made⟩ := gives fuel (by omega)
    have kept : ¬ (name = [] ∨ (sizeBytes = 0 ∧ onDisk runs = [])) := not_or_intro named (fun both => counted both.1 both.2)
    rw [if_neg kept] at made
    have place : (0 : UInt64) + .ofNat recordIdx.toNat = recordIdx := by
      rw [number,UInt64.ofNat_toNat]
    refine ⟨files,file,(scanNtfs_eq volume vol fuel).trans run,?_,index,?_⟩
    · refine lists recordIdx.toNat ?_ file (by rw [place]; exact made)
      rw [scanned]
      exact lt_min stored early
    · rw [recovered file size' stored' (by omega),same]

section Record

variable {recordIdx realSize : UInt64} {head attr : List UInt8} {pre post : List (List UInt8)}
  {pairs : List MappingPair}

theorem readData_fileName (recordData : List UInt8) (recordCluster : UInt64) (off : Nat) (found : Found) :
    (readData recordData recordCluster off found).fileName = found.fileName := by
  unfold readData
  split
  next =>
    split
    next => rfl
    next => rfl
  next =>
    split
    next => rfl
    next => rfl

theorem readAll_fileName (recordData : List UInt8) (recordCluster : UInt64) (off : Nat) (attrs : List (List UInt8))
    (found : Found) : (readAll recordData recordCluster off attrs found).fileName =
      nameFrom recordData off attrs found.fileName := by
  induction attrs generalizing off found with
  | nil => rfl
  | cons attr rest ih =>
    have here : (readAttribute recordData recordCluster off found).fileName =
        if readLE32 recordData off = NTFS_ATTR_FILE_NAME ∧ recordData.getD (off + 8) 0 = 0 then
          (fileNameAt recordData off).getD found.fileName else found.fileName := by
      simp only [readAttribute]
      split
      next => rfl
      next =>
        split
        next => exact readData_fileName recordData recordCluster off found
        next => rfl
    rw [readAll,ih,nameFrom,here]

theorem filterMap_stored {runs : List FileRun} : runs.filterMap FileRun.stored = [] ↔ onDisk runs = [] := by
  rw [onDisk,List.filter_eq_nil_iff,List.filterMap_eq_nil_iff]
  have absent (run : FileRun) : run.stored = none ↔ ¬ run.cluster.isSome = true := by
    cases place : run.cluster with
    | none => simp [FileRun.stored,place]
    | some cluster => simp [FileRun.stored,place]
  exact forall₂_congr (fun run _ => absent run)

theorem scanRecord_gives {attrs : List (List UInt8)} {runs : List FileRun}
    (deleted : deletedFile (recordAt r disk layout recordIdx) = true)
    (list : AttributeList (recordAt r disk layout recordIdx) head attrs)
    (data : (readAll (recordAt r disk layout recordIdx) (recordOffset layout recordIdx / layout.clusterSize.toUInt64)
        head.length attrs {}).fileSize = realSize ∧
      (readAll (recordAt r disk layout recordIdx) (recordOffset layout recordIdx / layout.clusterSize.toUInt64)
        head.length attrs {}).dataRuns = runs.filterMap FileRun.stored) :
    ScanGives r disk layout recordIdx attrs.length (nameFrom (recordAt r disk layout recordIdx) head.length attrs [])
      realSize runs := by
  intro fuel enough
  obtain ⟨tail,shape,last⟩ := list.layout
  have name := readAll_fileName (recordAt r disk layout recordIdx)
    (recordOffset layout recordIdx / layout.clusterSize.toUInt64) head.length attrs {}
  have walked := @walkAttributes_eq _ (recordOffset layout recordIdx / layout.clusterSize.toUInt64) _ _ _ fuel {} shape
    list.short list.attributes last enough
  have first : UInt32.ofNat head.length = (readLE16 (recordAt r disk layout recordIdx) 20).toUInt32 := by
    apply UInt32.toNat_inj.mp
    have width := (readLE16 (recordAt r disk layout recordIdx) 20).toNat_lt
    rw [UInt32.toNat_ofNat',list.first,UInt16.toNat_toUInt32]
    exact Nat.mod_eq_of_lt (by omega)
  rw [first] at walked
  refine ⟨{ filename := nameFrom (recordAt r disk layout recordIdx) head.length attrs []
            sizeBytes := realSize
            extension := extensionOf (nameFrom (recordAt r disk layout recordIdx) head.length attrs [])
            confidence := if runs.filterMap FileRun.stored = [] then 30 else 75
            partitionStartLba := r.partStart
            sectorSize := r.sectorSize
            mftEntryIndex := recordIdx
            dataRuns := runs.filterMap FileRun.stored },rfl,rfl,rfl,?_⟩
  unfold scanRecord
  rw [if_pos deleted,walked]
  simp only [name,data.1,data.2,filterMap_stored]
  split
  next => rfl
  next => rfl

theorem scanRecord_data (record : DeletedRecord r disk layout recordIdx head pre attr post pairs realSize)
    (single : ∀ attr' ∈ pre ++ post, readLE32 attr' 0 ≠ NTFS_ATTR_DATA) :
    ScanGives r disk layout recordIdx (pre ++ attr :: post).length
      (nameFrom (recordAt r disk layout recordIdx) head.length (pre ++ attr :: post) []) realSize
      (runsFrom 0 pairs) := by
  obtain ⟨tail,shape,_⟩ := record.list.layout
  exact scanRecord_gives record.deleted record.list (readAll_data shape record.list.attributes record.data single)

/-- A record is recovered when it is scanned, named and listed, and when its runs without
the holes are its content. -/
theorem recovers_iff (vol : Readable env r disk) (volume : NtfsVolume r disk layout)
    (record : DeletedRecord r disk layout recordIdx head pre attr post pairs realSize)
    (single : ∀ attr' ∈ pre ++ post, readLE32 attr' 0 ≠ NTFS_ATTR_DATA) (going : ∀ j, env.canceled j = false)
    {outputPath : String} (creates : env.creates outputPath = true) :
    Recovers env r disk layout recordIdx realSize (runsFrom 0 pairs) outputPath ↔
      recordIdx.toNat < 1000000 ∧
      nameFrom (recordAt r disk layout recordIdx) head.length (pre ++ attr :: post) [] ≠ [] ∧
      (∀ j < (recordsToScan r layout).toNat, WalkEnds r disk layout (.ofNat j)) ∧
      (realSize = 0 → onDisk (runsFrom 0 pairs) ≠ []) ∧
      limited realSize.toNat ((onDisk (runsFrom 0 pairs)).flatMap (FileRun.bytes r disk layout.clusterSize)) =
        logicalContent r disk layout.clusterSize realSize.toNat (runsFrom 0 pairs) :=
  @recoversContent_iff env r disk layout vol volume recordIdx realSize (pre ++ attr :: post).length _ (runsFrom 0 pairs)
    record.stored (scanRecord_data record single) record.inside going outputPath creates _

end Record
end SetecWizard.Core.FileRecovery
