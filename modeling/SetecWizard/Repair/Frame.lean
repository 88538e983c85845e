import SetecWizard.Repair.Faultless

/-! The sectors a repair of the GPT touches. They are computed from the number and the size
of the entries, which are neither compared with the usable range nor with the disk.
-/
namespace SetecWizard.Core.BootRepair
open SetecWizard.Library

section Frame

variable {env : RepairEnv} {disk : Disk} {sectorSize : UInt32} {fromBackup : Bool} {header : List UInt8}

/-- Sectors are written before the first usable one or behind the last, and no position
comes from a difference that falls below zero. -/
def InFrame (fromBackup : Bool) (header : List UInt8) : RepairAccess → Prop
  | .read _ _ => True
  | .write lba _ reached => ∀ k < reached,
    if fromBackup then lba.toNat + k < (firstUsableLba header).toNat
    else (lastUsableLba header).toNat < lba.toNat + k
  | .difference minuend subtrahend => subtrahend ≤ minuend

/-- The entries fit between the start of the disk and its last sector, and stay clear of
the partitions where they are written; so does the header. -/
def FrameKept (env : RepairEnv) (disk : Disk) (sectorSize : UInt32) (fromBackup : Bool) (header : List UInt8) : Prop :=
  let backup := backupLba disk sectorSize
  let count := entrySectors sectorSize header
  let reached := RepairState.reached env sectorSize disk
  if fromBackup then
    count ≤ backup ∧ (Readable env disk sectorSize (backup - count) count →
      (0 < reached 1 1 → 1 + reached 1 1 ≤ (firstUsableLba header).toNat) ∧
      (Writable env disk sectorSize 1 1 → 0 < reached 2 count →
        2 + reached 2 count ≤ (firstUsableLba header).toNat))
  else
    Readable env disk sectorSize (partitionEntryLba header) count → count ≤ backup ∧
      (0 < reached (backup - count) count → lastUsableLba header < backup - count) ∧
      (Writable env disk sectorSize (backup - count) count → 0 < reached backup 1 → lastUsableLba header < backup)

theorem forall_below {n a limit : Nat} : (∀ k < n, a + k < limit) ↔ (0 < n → a + n ≤ limit) := by
  constructor
  · intro below positive
    have last := below (n - 1) (by omega)
    omega
  · intro ends k inside
    have := ends (by omega)
    omega

theorem forall_above {n a limit : Nat} : (∀ k < n, limit < a + k) ↔ (0 < n → limit < a) := by
  constructor
  · intro above positive
    exact above 0 positive
  · intro start k inside
    have := start (by omega)
    omega

theorem inFrame_write {fromBackup : Bool} {header : List UInt8} {lba count : UInt64} {reached : Nat} :
    InFrame fromBackup header (.write lba count reached) ↔ (0 < reached →
      if fromBackup then lba.toNat + reached ≤ (firstUsableLba header).toNat
      else (lastUsableLba header).toNat < lba.toNat) := by
  cases fromBackup with
  | true => exact forall_below
  | false => exact forall_above

theorem beforeEntries_frame (some_sector : 1 ≤ disk.totalBytes / sectorSize.toUInt64) :
    (∀ access ∈ beforeEntries disk sectorSize fromBackup header, InFrame fromBackup header access) ↔
      (fromBackup = true → entrySectors sectorSize header ≤ backupLba disk sectorSize) := by
  cases fromBackup with
  | true => simp [beforeEntries,InFrame,some_sector]
  | false => simp [beforeEntries,InFrame,some_sector]

theorem afterEntries_frame (some_sector : 1 ≤ disk.totalBytes / sectorSize.toUInt64) :
    (∀ access ∈ afterEntries disk sectorSize fromBackup header, InFrame fromBackup header access) ↔
      entrySectors sectorSize header ≤ backupLba disk sectorSize := by
  cases fromBackup with
  | true => simp [afterEntries,beforeEntries,InFrame,some_sector]
  | false => simp [afterEntries,beforeEntries,InFrame,some_sector]

/-- Which headers a repair stays clear of the partitions for, and of a difference below zero. -/
theorem repairGpt_frame_iff (geometry : env.device.diskGeometry = none)
    (large : 34 ≤ disk.totalBytes / sectorSize.toUInt64)
    (read : RawDiskHandle.readSectors env.device disk (sourceLba disk sectorSize fromBackup) 1 sectorSize = .ok header)
    (valid : validateGptHeader header = true) :
    (∀ access ∈ (repairGpt env sectorSize fromBackup ⟨disk,[]⟩).2.accesses, InFrame fromBackup header access) ↔
      FrameKept env disk sectorSize fromBackup header := by
  have not_small : ¬ disk.totalBytes / sectorSize.toUInt64 < 34 := UInt64.not_lt.mpr large
  have some_sector : (1 : UInt64) ≤ disk.totalBytes / sectorSize.toUInt64 := UInt64.le_trans (by decide) large
  cases found : RawDiskHandle.readSectors env.device disk (arrayLba disk sectorSize fromBackup header)
      (entrySectors sectorSize header) sectorSize with
  | error error =>
    have unread : ¬ Readable env disk sectorSize (arrayLba disk sectorSize fromBackup header)
        (entrySectors sectorSize header) := by
      rintro ⟨data,read⟩
      rw [found] at read
      cases read
    obtain ⟨e,run⟩ := repairGpt_unread geometry not_small read valid found
    rw [run,List.nil_append,beforeEntries_frame some_sector]
    cases fromBackup with
    | true =>
      simp only [arrayLba,if_true] at unread
      simp [FrameKept,unread]
    | false =>
      simp only [arrayLba,Bool.false_eq_true,if_false] at unread
      simp [FrameKept,unread]
  | ok entryData =>
    have readable : Readable env disk sectorSize (arrayLba disk sectorSize fromBackup header)
        (entrySectors sectorSize header) := ⟨entryData,found⟩
    obtain ⟨firstMsg,secondMsg,run⟩ := repairGpt_read geometry not_small read valid found
    rw [run,List.nil_append,writeTwo_accesses,List.forall_mem_append,afterEntries_frame some_sector,List.forall_mem_cons,
      forall_mem_ite,writable_iff,inFrame_write,inFrame_write]
    cases fromBackup with
    | true =>
      simp only [arrayLba,if_true] at readable
      simp only [FrameKept,if_true,readable,true_implies,firstWrite,secondWrite,headerWrite,entriesWrite,targetLba,
        targetArrayLba]
      exact Iff.rfl
    | false =>
      simp only [arrayLba,Bool.false_eq_true,if_false] at readable
      simp only [FrameKept,Bool.false_eq_true,if_false,readable,true_implies,firstWrite,secondWrite,headerWrite,
        entriesWrite,targetLba,targetArrayLba]
      exact Iff.rfl

end Frame

section Sample

def sampleFields (firstUsable : UInt64) (entryCrc : UInt32) : List (Nat × List UInt8) :=
  [(0,le64 GPT_HEADER_SIGNATURE),(8,le32 0x00010000),(12,le32 92),(40,le64 firstUsable),(48,le64 36),
    (80,le32 1),(84,le32 128),(88,le32 entryCrc)]

def sampleTemplate (firstUsable : UInt64) (entryCrc : UInt32) : List UInt8 :=
  overwrite (List.replicate 92 0) (sampleFields firstUsable entryCrc)

def sampleHeader (entryLba firstUsable : UInt64) (entryCrc : UInt32) : List UInt8 :=
  movedSector {} 39 1 entryLba 512 (sampleTemplate firstUsable entryCrc)

def sampleDisk (entryLba firstUsable : UInt64) (entryCrc : UInt32) (entries : List UInt8) : Disk :=
  ((filled 20480 0).patched (entryLba.toNat * 512) entries).patched (39 * 512)
    (sampleHeader entryLba firstUsable entryCrc)

def sampleRepair : RepairEnv := { device := faultless 20480 }

theorem sampleRepair_works : Faultless sampleRepair 20480 := faultless_ok (.zero 420) 20480

section Header

variable (entryLba firstUsable : UInt64) (entryCrc : UInt32) (entries : List UInt8)

theorem sampleFields_layout : Fields 92 (sampleFields firstUsable entryCrc) := by
  constructor <;> simp [sampleFields,Outside]

theorem length_sampleTemplate : (sampleTemplate firstUsable entryCrc).length = 92 :=
  length_overwrite (sampleFields_layout firstUsable entryCrc).fit List.length_replicate

theorem sampleTemplate_field {off : Nat} {block : List UInt8}
    (member : (off,block) ∈ sampleFields firstUsable entryCrc) :
    slice (sampleTemplate firstUsable entryCrc) off block.length = block :=
  (sampleFields_layout firstUsable entryCrc).read List.length_replicate member

theorem sampleTemplate_32 {off : Nat} {v : UInt32} (member : (off,le32 v) ∈ sampleFields firstUsable entryCrc) :
    readLE32 (sampleTemplate firstUsable entryCrc) off = v := by
  have field : slice (sampleTemplate firstUsable entryCrc) off 4 = le32 v :=
    sampleTemplate_field firstUsable entryCrc member
  exact readLE32_of_slice field

theorem sampleTemplate_64 {off : Nat} {v : UInt64} (member : (off,le64 v) ∈ sampleFields firstUsable entryCrc) :
    readLE64 (sampleTemplate firstUsable entryCrc) off = v := by
  have field : slice (sampleTemplate firstUsable entryCrc) off 8 = le64 v :=
    sampleTemplate_field firstUsable entryCrc member
  exact readLE64_of_slice field

theorem sampleTemplate_proper : readLE32 (sampleTemplate firstUsable entryCrc) 12 = 92 ∧
    ProperHeader (sampleTemplate firstUsable entryCrc) := by
  have signature : readLE64 (sampleTemplate firstUsable entryCrc) 0 = GPT_HEADER_SIGNATURE :=
    sampleTemplate_64 firstUsable entryCrc (by simp [sampleFields])
  have revision : readLE32 (sampleTemplate firstUsable entryCrc) 8 = 0x00010000 :=
    sampleTemplate_32 firstUsable entryCrc (by simp [sampleFields])
  have size : readLE32 (sampleTemplate firstUsable entryCrc) 12 = 92 :=
    sampleTemplate_32 firstUsable entryCrc (by simp [sampleFields])
  have long := length_sampleTemplate firstUsable entryCrc
  exact ⟨size,by omega,signature,by rw [revision]; decide,by rw [size]; decide,by rw [size]; decide⟩

theorem length_sampleHeader : (sampleHeader entryLba firstUsable entryCrc).length = 512 :=
  length_movedSector _ _ _ _ (by rw [length_sampleTemplate]) (by decide)

theorem sampleHeader_valid : validateGptHeader (sampleHeader entryLba firstUsable entryCrc) = true := by
  obtain ⟨size,proper⟩ := sampleTemplate_proper firstUsable entryCrc
  exact (movedSector_valid_iff {} 39 1 entryLba proper.long (by decide) proper).mpr (by rw [size]; exact zeroBehind_92 _)

theorem sampleHeader_kept {off : Nat} {v : UInt32} (low : 80 ≤ off) (high : off + 4 ≤ 92)
    (member : (off,le32 v) ∈ sampleFields firstUsable entryCrc) :
    readLE32 (sampleHeader entryLba firstUsable entryCrc) off = v := by
  have long := (sampleTemplate_proper firstUsable entryCrc).2.long
  rw [sampleHeader,entryField_movedSector {} 39 1 entryLba long low high]
  exact sampleTemplate_32 firstUsable entryCrc member

theorem sampleHeader_entries : entryBytes (sampleHeader entryLba firstUsable entryCrc) = 128 ∧
    entrySectors 512 (sampleHeader entryLba firstUsable entryCrc) = 1 := by
  have count : readLE32 (sampleHeader entryLba firstUsable entryCrc) 80 = 1 :=
    sampleHeader_kept entryLba firstUsable entryCrc (by decide) (by decide) (by simp [sampleFields])
  have size : readLE32 (sampleHeader entryLba firstUsable entryCrc) 84 = 128 :=
    sampleHeader_kept entryLba firstUsable entryCrc (by decide) (by decide) (by simp [sampleFields])
  have bytes : entryBytes (sampleHeader entryLba firstUsable entryCrc) = 128 := by
    rw [entryBytes,count,size]
    decide
  exact ⟨bytes,by rw [entrySectors,bytes]; decide⟩

theorem sampleHeader_size : readLE32 (sampleHeader entryLba firstUsable entryCrc) 12 = 92 := by
  obtain ⟨size,proper⟩ := sampleTemplate_proper firstUsable entryCrc
  have apart : ∀ field ∈ movedFields 39 1 entryLba, Outside field 12 4 := by
    simp [movedFields,Outside]
  rw [sampleHeader,readLE32_movedSector {} 39 1 entryLba proper.long (by decide) (.inl (by decide)) apart,size]

theorem sampleHeader_firstUsable : firstUsableLba (sampleHeader entryLba firstUsable entryCrc) = firstUsable := by
  have long := (sampleTemplate_proper firstUsable entryCrc).2.long
  have apart : ∀ field ∈ movedFields 39 1 entryLba, Outside field 40 8 := by
    simp [movedFields,Outside]
  rw [sampleHeader,firstUsableLba,readLE64_movedSector {} 39 1 entryLba long (by decide) (.inr (by decide)) apart]
  exact sampleTemplate_64 firstUsable entryCrc (by simp [sampleFields])

theorem sampleHeader_read : RawDiskHandle.readSectors sampleRepair.device
    (sampleDisk entryLba firstUsable entryCrc entries)
    (sourceLba (sampleDisk entryLba firstUsable entryCrc entries) 512 true) 1 512 =
      .ok (sampleHeader entryLba firstUsable entryCrc) := by
  have last : sourceLba (sampleDisk entryLba firstUsable entryCrc entries) 512 true = 39 := by
    have total : (sampleDisk entryLba firstUsable entryCrc entries).totalBytes = 20480 := rfl
    rw [sourceLba,if_pos rfl,backupLba,total]
    decide
  have inside : Inside (sampleDisk entryLba firstUsable entryCrc entries).totalBytes.toNat 512 39 1 :=
    .inr (by change (512 < 2 ^ 32) ∧ 19968 + 512 ≤ 20480; decide)
  rw [last,readSectors_inside sampleRepair_works inside]
  exact congrArg Except.ok (window_patch_whole _ (39 * 512) (length_sampleHeader entryLba firstUsable entryCrc))

end Header

/-- The entry has room before the first partition. -/
theorem frame_sample : validateGptHeader (sampleHeader 38 3 0) = true ∧
    ∀ access ∈ (repairGpt sampleRepair 512 true ⟨sampleDisk 38 3 0 [],[]⟩).2.accesses,
      InFrame true (sampleHeader 38 3 0) access := by
  obtain ⟨_,one⟩ := sampleHeader_entries 38 3 0
  have first := sampleHeader_firstUsable 38 3 0
  have works : Faultless sampleRepair (sampleDisk 38 3 0 []).totalBytes.toNat := sampleRepair_works
  have large : 34 ≤ (sampleDisk 38 3 0 []).totalBytes / (512 : UInt32).toUInt64 := by decide
  refine ⟨sampleHeader_valid 38 3 0,
    (repairGpt_frame_iff rfl large (sampleHeader_read 38 3 0 []) (sampleHeader_valid 38 3 0)).mpr ?_⟩
  simp only [FrameKept,one,if_true,first]
  refine ⟨by decide,fun _ => ⟨fun _ => ?_,fun _ _ => ?_⟩⟩
  · rw [reached_one works (by decide) (.inr (by decide))]
    decide
  · rw [reached_one works (by decide) (.inr (by decide))]
    decide

/-- A header that has its partitions start at sector 2, where the entry goes. -/
theorem entry_over_partition : validateGptHeader (sampleHeader 38 2 0) = true ∧
    34 ≤ (sampleDisk 38 2 0 []).totalBytes / (512 : UInt32).toUInt64 ∧
    RawDiskHandle.readSectors sampleRepair.device (sampleDisk 38 2 0 []) (sourceLba (sampleDisk 38 2 0 []) 512 true) 1
      512 = .ok (sampleHeader 38 2 0) ∧
    ¬ ∀ access ∈ (repairGpt sampleRepair 512 true ⟨sampleDisk 38 2 0 [],[]⟩).2.accesses,
      InFrame true (sampleHeader 38 2 0) access := by
  obtain ⟨_,one⟩ := sampleHeader_entries 38 2 0
  have first := sampleHeader_firstUsable 38 2 0
  have works : Faultless sampleRepair (sampleDisk 38 2 0 []).totalBytes.toNat := sampleRepair_works
  have large : 34 ≤ (sampleDisk 38 2 0 []).totalBytes / (512 : UInt32).toUInt64 := by decide
  have read := sampleHeader_read 38 2 0 []
  have valid := sampleHeader_valid 38 2 0
  refine ⟨valid,large,read,fun kept => ?_⟩
  have place : arrayLba (sampleDisk 38 2 0 []) 512 true (sampleHeader 38 2 0) = 38 := by
    rw [arrayLba,one]
    decide
  have found := readSectors_inside works (.inr (by decide) : Inside _ 512 38 1)
  have writable : Writable sampleRepair (sampleDisk 38 2 0 []) 512 1 1 := by
    rw [Writable,writeSectors_inside works [] (.inr (by decide))]
  rw [← place] at found
  obtain ⟨firstMsg,secondMsg,run⟩ := repairGpt_read rfl (UInt64.not_lt.mpr large) read valid (by rw [one]; exact found)
  rw [run,List.nil_append,writeTwo_accesses,List.forall_mem_append,List.forall_mem_cons,forall_mem_ite,writable_iff,inFrame_write,
    inFrame_write] at kept
  have entries := kept.2.2 writable
  simp only [secondWrite,entriesWrite,if_true,targetArrayLba,one,first,
    reached_one works (by decide) (.inr (by decide) : Inside _ 512 2 1)] at entries
  exact absurd (entries (by decide)) (by decide)

end Sample
end SetecWizard.Core.BootRepair
