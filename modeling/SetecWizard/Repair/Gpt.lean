import SetecWizard.Repair.Headers
import SetecWizard.Imaging.RawClone

/-! The repair of one copy of the GPT from the other. Once its header and its entries are
read, a repair is two writes, of which only the order depends on the direction. What it
touches, and what it leaves behind, follow from where the two are.
-/
namespace SetecWizard.Core.BootRepair
open SetecWizard.Library

section Places

variable (env : RepairEnv) (disk : Disk) (sectorSize : UInt32) (fromBackup : Bool) (header : List UInt8)

def backupLba : UInt64 := disk.totalBytes / sectorSize.toUInt64 - 1

/-- The header that is copied, and the one that is rebuilt. -/
def sourceLba : UInt64 := if fromBackup then backupLba disk sectorSize else GPT_HEADER_LBA

def targetLba : UInt64 := if fromBackup then GPT_HEADER_LBA else backupLba disk sectorSize

/-- Where the entries are looked for, and where they are put. -/
def arrayLba : UInt64 :=
  if fromBackup then backupLba disk sectorSize - entrySectors sectorSize header else partitionEntryLba header

def targetArrayLba : UInt64 :=
  if fromBackup then 2 else backupLba disk sectorSize - entrySectors sectorSize header

def rebuiltSector : List UInt8 :=
  movedSector env (targetLba disk sectorSize fromBackup) (sourceLba disk sectorSize fromBackup)
    (targetArrayLba disk sectorSize fromBackup header) sectorSize header

structure SectorWrite where
  lba : UInt64
  data : List UInt8
  count : UInt64

def headerWrite : SectorWrite := ⟨targetLba disk sectorSize fromBackup,rebuiltSector env disk sectorSize fromBackup header,1⟩

def entriesWrite (entryData : List UInt8) : SectorWrite :=
  ⟨targetArrayLba disk sectorSize fromBackup header,entryData ++ env.behindEntries,entrySectors sectorSize header⟩

def firstWrite (entryData : List UInt8) : SectorWrite :=
  if fromBackup then headerWrite env disk sectorSize fromBackup header
  else entriesWrite env disk sectorSize fromBackup header entryData

def secondWrite (entryData : List UInt8) : SectorWrite :=
  if fromBackup then entriesWrite env disk sectorSize fromBackup header entryData
  else headerWrite env disk sectorSize fromBackup header

end Places

def writeTwo (env : RepairEnv) (sectorSize : UInt32) (first second : SectorWrite) (firstMsg secondMsg : String)
    (s : RepairState) : Mutation RepairState :=
  match s.writeSectors env sectorSize first.lba first.data first.count with
  | (.error _,s) => (failed firstMsg,s)
  | (.ok _,s) =>
    match s.writeSectors env sectorSize second.lba second.data second.count with
    | (.error _,s) => (failed secondMsg,s)
    | (.ok _,s) => (.ok (),s)

section Writes

variable {env : RepairEnv} {sectorSize : UInt32} {first second : SectorWrite} {firstMsg secondMsg : String}
  {s s' : RepairState}

theorem writeTwo_ok (done : writeTwo env sectorSize first second firstMsg secondMsg s = (.ok (),s')) :
    ∃ between, RawDiskHandle.writeSectors env.device s.disk env.mode first.lba first.data first.count sectorSize =
        (.ok (),between) ∧
      RawDiskHandle.writeSectors env.device between env.mode second.lba second.data second.count sectorSize =
        (.ok (),s'.disk) := by
  unfold writeTwo at done
  simp only [RepairState.writeSectors] at done
  split at done
  next => cases done
  next first_ok =>
    split at done
    next => cases done
    next second_ok =>
      cases done
      obtain ⟨ok,same⟩ := Prod.mk.inj first_ok
      obtain ⟨ok',same'⟩ := Prod.mk.inj second_ok
      subst same same'
      exact ⟨_,Prod.ext ok rfl,Prod.ext ok' rfl⟩

/-- How far a write reaches depends on the size of the disk only. -/
theorem reached_size (env : RepairEnv) (sectorSize : UInt32) {disk other : Disk}
    (size : disk.totalBytes = other.totalBytes) (lba count : UInt64) :
    RepairState.reached env sectorSize disk lba count = RepairState.reached env sectorSize other lba count := by
  simp only [RepairState.reached,RawDiskHandle.available,size]

theorem writeTwo_accesses (env : RepairEnv) (sectorSize : UInt32) (first second : SectorWrite)
    (firstMsg secondMsg : String) (s : RepairState) :
    (writeTwo env sectorSize first second firstMsg secondMsg s).2.accesses =
      s.accesses ++ .write first.lba first.count (RepairState.reached env sectorSize s.disk first.lba first.count) ::
        (if succeeded (RawDiskHandle.writeSectors env.device s.disk env.mode first.lba first.data first.count
          sectorSize).1
        then [.write second.lba second.count (RepairState.reached env sectorSize s.disk second.lba second.count)]
        else []) := by
  unfold writeTwo
  simp only [RepairState.writeSectors,RepairState.note]
  obtain ⟨⟨result,between⟩,outcome⟩ : ∃ outcome, RawDiskHandle.writeSectors env.device s.disk env.mode first.lba
    first.data first.count sectorSize = outcome := ⟨_,rfl⟩
  rw [outcome]
  cases result with
  | error e => simp [succeeded]
  | ok =>
    obtain ⟨⟨result,after⟩,outcome'⟩ : ∃ outcome, RawDiskHandle.writeSectors env.device between env.mode second.lba
      second.data second.count sectorSize = outcome := ⟨_,rfl⟩
    have size : between.totalBytes = s.disk.totalBytes := by
      have kept := writeSectors_size env.device s.disk env.mode first.lba first.data first.count sectorSize
      rwa [outcome] at kept
    simp only [outcome',reached_size env sectorSize size]
    cases result with
    | error e => simp [succeeded]
    | ok => simp [succeeded]

end Writes

/-- A read of some sectors works. -/
def Readable (env : RepairEnv) (disk : Disk) (sectorSize : UInt32) (lba count : UInt64) : Prop :=
  ∃ data, RawDiskHandle.readSectors env.device disk lba count sectorSize = .ok data

def Writable (env : RepairEnv) (disk : Disk) (sectorSize : UInt32) (lba count : UInt64) : Prop :=
  (RawDiskHandle.writeSectors env.device disk env.mode lba [] count sectorSize).1 = .ok ()

theorem succeeded_iff {outcome : Result Unit} : succeeded outcome = true ↔ outcome = .ok () := by
  cases outcome with
  | error e => simp [succeeded]
  | ok => simp [succeeded]

theorem writable_iff {env : RepairEnv} {disk : Disk} {sectorSize : UInt32} {lba count : UInt64} (data : List UInt8) :
    succeeded (RawDiskHandle.writeSectors env.device disk env.mode lba data count sectorSize).1 = true ↔
      Writable env disk sectorSize lba count := by
  rw [succeeded_iff,Writable,writeSectors_fst env.device env.mode lba count sectorSize rfl data []]

theorem writeTwo_succeeded (env : RepairEnv) (sectorSize : UInt32) (first second : SectorWrite)
    (firstMsg secondMsg : String) (s : RepairState) :
    succeeded (writeTwo env sectorSize first second firstMsg secondMsg s).1 = true ↔
      Writable env s.disk sectorSize first.lba first.count ∧ Writable env s.disk sectorSize second.lba second.count := by
  rw [← writable_iff first.data,← writable_iff second.data]
  unfold writeTwo
  simp only [RepairState.writeSectors]
  obtain ⟨⟨result,between⟩,outcome⟩ : ∃ outcome, RawDiskHandle.writeSectors env.device s.disk env.mode first.lba
    first.data first.count sectorSize = outcome := ⟨_,rfl⟩
  have size : between.totalBytes = s.disk.totalBytes := by
    have kept := writeSectors_size env.device s.disk env.mode first.lba first.data first.count sectorSize
    rwa [outcome] at kept
  rw [outcome,← writeSectors_fst env.device env.mode second.lba second.count sectorSize size second.data second.data]
  cases result with
  | error e => simp [succeeded,failed]
  | ok =>
    obtain ⟨⟨result,after⟩,outcome'⟩ : ∃ outcome, RawDiskHandle.writeSectors env.device between env.mode second.lba
      second.data second.count sectorSize = outcome := ⟨_,rfl⟩
    simp only [outcome']
    cases result with
    | error e => simp [succeeded,failed]
    | ok => simp [succeeded]

theorem forall_mem_ite {α : Type} {property : α → Prop} {condition : Bool} {a : α} :
    (∀ x ∈ (if condition then [a] else []), property x) ↔ (condition = true → property a) := by
  cases condition with
  | true => simp
  | false => simp

/-- An access that puts nothing on the disk. -/
def Idle : RepairAccess → Prop
  | .read _ _ => True
  | .write _ _ reached => reached = 0
  | .difference _ _ => True

theorem writeTwo_idle_iff {env : RepairEnv} {sectorSize : UInt32} {first second : SectorWrite}
    {firstMsg secondMsg : String} {s : RepairState} (idle : ∀ access ∈ s.accesses, Idle access) :
    (∀ access ∈ (writeTwo env sectorSize first second firstMsg secondMsg s).2.accesses, Idle access) ↔
      RepairState.reached env sectorSize s.disk first.lba first.count = 0 ∧
        (Writable env s.disk sectorSize first.lba first.count →
          RepairState.reached env sectorSize s.disk second.lba second.count = 0) := by
  rw [writeTwo_accesses,List.forall_mem_append,List.forall_mem_cons,forall_mem_ite,writable_iff]
  exact and_iff_right idle

theorem writeTwo_noisy {env : RepairEnv} {sectorSize : UInt32} {first second : SectorWrite}
    {firstMsg secondMsg : String} {s : RepairState}
    (touched : RepairState.reached env sectorSize s.disk first.lba first.count ≠ 0) :
    ¬ ∀ access ∈ (writeTwo env sectorSize first second firstMsg secondMsg s).2.accesses, Idle access := by
  rw [writeTwo_accesses]
  intro idle
  exact touched (idle _ (List.mem_append_right _ List.mem_cons_self))

section Fields

variable {header : List UInt8}

theorem readLE32_take {off : Nat} (inside : off + 4 ≤ 92) : readLE32 (header.take 92) off = readLE32 header off := by
  have read := readLE32_slice header 0 92 off inside
  rwa [Nat.zero_add] at read

theorem partitionEntryLba_take : partitionEntryLba (header.take 92) = partitionEntryLba header := by
  have read := readLE64_slice header 0 92 72 (by decide)
  rwa [Nat.zero_add] at read

theorem entryBytes_take : entryBytes (header.take 92) = entryBytes header := by
  rw [entryBytes,readLE32_take (by decide),readLE32_take (by decide),entryBytes]

theorem entrySectors_take (sectorSize : UInt32) :
    entrySectors sectorSize (header.take 92) = entrySectors sectorSize header := by
  rw [entrySectors,entryBytes_take,entrySectors]

end Fields

section Sizes

theorem entryBytes_toNat (header : List UInt8) :
    (entryBytes header).toNat = (readLE32 header 80).toNat * (readLE32 header 84).toNat := by
  have count := (readLE32 header 80).toNat_lt
  have size := (readLE32 header 84).toNat_lt
  have product := Nat.mul_lt_mul'' count size
  rw [entryBytes,UInt64.toNat_mul,UInt32.toNat_toUInt64,UInt32.toNat_toUInt64,Nat.mod_eq_of_lt (by omega)]

theorem entryBytes_le (header : List UInt8) : (entryBytes header).toNat ≤ (2 ^ 32 - 1) * (2 ^ 32 - 1) := by
  have count := (readLE32 header 80).toNat_lt
  have size := (readLE32 header 84).toNat_lt
  rw [entryBytes_toNat]
  exact Nat.mul_le_mul (by omega) (by omega)

theorem backupLba_bytes {sectorSize : UInt32} {disk : Disk} (large : 34 ≤ disk.totalBytes / sectorSize.toUInt64) :
    (backupLba disk sectorSize * sectorSize.toUInt64).toNat = (backupLba disk sectorSize).toNat * sectorSize.toNat ∧
      ((backupLba disk sectorSize).toNat + 1) * sectorSize.toNat ≤ disk.totalBytes.toNat ∧
      33 ≤ (backupLba disk sectorSize).toNat := by
  have one : (1 : UInt64).toNat = 1 := rfl
  have many : (34 : UInt64).toNat = 34 := rfl
  have bound := disk.totalBytes.toNat_lt
  have below := Nat.div_mul_le_self disk.totalBytes.toNat sectorSize.toNat
  have total : (disk.totalBytes / sectorSize.toUInt64).toNat = disk.totalBytes.toNat / sectorSize.toNat := by
    rw [UInt64.toNat_div,UInt32.toNat_toUInt64]
  rw [UInt64.le_iff_toNat_le,many,total] at large
  have last : (backupLba disk sectorSize).toNat = disk.totalBytes.toNat / sectorSize.toNat - 1 := by
    rw [backupLba,UInt64.toNat_sub_of_le _ _ (by rw [UInt64.le_iff_toNat_le,one,total]; omega),total,one]
  have next : (backupLba disk sectorSize).toNat + 1 = disk.totalBytes.toNat / sectorSize.toNat := by omega
  have inside : ((backupLba disk sectorSize).toNat + 1) * sectorSize.toNat ≤ disk.totalBytes.toNat := by rwa [next]
  have shorter := Nat.mul_le_mul_right sectorSize.toNat (Nat.le_succ (backupLba disk sectorSize).toNat)
  refine ⟨?_,inside,by omega⟩
  rw [UInt64.toNat_mul,UInt32.toNat_toUInt64,Nat.mod_eq_of_lt]
  exact Nat.lt_of_le_of_lt (shorter.trans inside) bound

variable {sectorSize : UInt32} (positive : 0 < sectorSize.toNat)
include positive

theorem entrySectors_bytes (header : List UInt8) :
    (entrySectors sectorSize header * sectorSize.toUInt64).toNat =
      roundUp (entryBytes header).toNat sectorSize.toNat := by
  have bound := entryBytes_le header
  have width := sectorSize.toNat_lt
  exact sector_bytes positive (by omega)

theorem entrySectors_mul (header : List UInt8) :
    (entrySectors sectorSize header).toNat * sectorSize.toNat = roundUp (entryBytes header).toNat sectorSize.toNat := by
  have one : (1 : UInt64).toNat = 1 := rfl
  have bound := entryBytes_le header
  have width := sectorSize.toNat_lt
  have last : (entryBytes header + sectorSize.toUInt64 - 1).toNat =
      (entryBytes header).toNat + sectorSize.toNat - 1 := by
    rw [UInt64.toNat_sub,UInt64.toNat_add,one,UInt32.toNat_toUInt64]
    omega
  rw [entrySectors,UInt64.toNat_div,last,UInt32.toNat_toUInt64,roundUp]

end Sizes

section Positions

variable {disk : Disk} {sectorSize : UInt32} {fromBackup : Bool}

theorem sector_bytes_one (sectorSize : UInt32) : ((1 : UInt64) * sectorSize.toUInt64).toNat = sectorSize.toNat := by
  rw [UInt64.one_mul,UInt32.toNat_toUInt64]

theorem sourceLba_start (large : 34 ≤ disk.totalBytes / sectorSize.toUInt64) :
    (sourceLba disk sectorSize fromBackup * sectorSize.toUInt64).toNat =
      (sourceLba disk sectorSize fromBackup).toNat * sectorSize.toNat := by
  cases fromBackup with
  | true => exact (backupLba_bytes large).1
  | false => exact (sector_bytes_one sectorSize).trans (Nat.one_mul _).symm

theorem targetLba_start (large : 34 ≤ disk.totalBytes / sectorSize.toUInt64) :
    (targetLba disk sectorSize fromBackup * sectorSize.toUInt64).toNat =
      (targetLba disk sectorSize fromBackup).toNat * sectorSize.toNat := by
  cases fromBackup with
  | true => exact (sector_bytes_one sectorSize).trans (Nat.one_mul _).symm
  | false => exact (backupLba_bytes large).1

theorem before_backup (positive : 0 < sectorSize.toNat) (large : 34 ≤ disk.totalBytes / sectorSize.toUInt64)
    {header : List UInt8}
    (room : roundUp (entryBytes header).toNat sectorSize.toNat ≤ disk.totalBytes.toNat -
      ((backupLba disk sectorSize - entrySectors sectorSize header) * sectorSize.toUInt64).toNat) :
    ((backupLba disk sectorSize - entrySectors sectorSize header) * sectorSize.toUInt64).toNat =
        (backupLba disk sectorSize - entrySectors sectorSize header).toNat * sectorSize.toNat ∧
      (backupLba disk sectorSize - entrySectors sectorSize header).toNat * sectorSize.toNat +
        roundUp (entryBytes header).toNat sectorSize.toNat = (backupLba disk sectorSize).toNat * sectorSize.toNat := by
  obtain ⟨start,_,_⟩ := backupLba_bytes large
  have bytes := entrySectors_bytes positive header
  have sectors := entrySectors_mul positive header
  have bound := disk.totalBytes.toNat_lt
  have joined : (backupLba disk sectorSize - entrySectors sectorSize header) * sectorSize.toUInt64 +
      entrySectors sectorSize header * sectorSize.toUInt64 = backupLba disk sectorSize * sectorSize.toUInt64 := by
    rw [← UInt64.add_mul,UInt64.sub_add_cancel]
  have ends := congrArg UInt64.toNat joined
  have first := ((backupLba disk sectorSize - entrySectors sectorSize header) * sectorSize.toUInt64).toNat_lt
  rw [UInt64.toNat_add,bytes,start,Nat.mod_eq_of_lt (by omega)] at ends
  have fits : (entrySectors sectorSize header).toNat ≤ (backupLba disk sectorSize).toNat := by
    refine Nat.le_of_mul_le_mul_right ?_ positive
    omega
  have place : (backupLba disk sectorSize - entrySectors sectorSize header).toNat =
      (backupLba disk sectorSize).toNat - (entrySectors sectorSize header).toNat :=
    UInt64.toNat_sub_of_le _ _ (UInt64.le_iff_toNat_le.mpr fits)
  rw [place,Nat.sub_mul]
  omega

end Positions

section Run

variable {env : RepairEnv} {disk : Disk} {sectorSize : UInt32} {fromBackup : Bool} {header entryData : List UInt8}
  {accesses : List RepairAccess}

def beforeEntries (disk : Disk) (sectorSize : UInt32) (fromBackup : Bool) (header : List UInt8) : List RepairAccess :=
  [.difference (disk.totalBytes / sectorSize.toUInt64) 1,.read (sourceLba disk sectorSize fromBackup) 1] ++
    (if fromBackup then [.difference (backupLba disk sectorSize) (entrySectors sectorSize header)] else []) ++
    [.read (arrayLba disk sectorSize fromBackup header) (entrySectors sectorSize header)]

def afterEntries (disk : Disk) (sectorSize : UInt32) (fromBackup : Bool) (header : List UInt8) : List RepairAccess :=
  beforeEntries disk sectorSize fromBackup header ++
    (if fromBackup then [] else [.difference (backupLba disk sectorSize) (entrySectors sectorSize header)])

theorem beforeEntries_idle : ∀ access ∈ beforeEntries disk sectorSize fromBackup header, Idle access := by
  cases fromBackup with
  | true => simp [beforeEntries,Idle]
  | false => simp [beforeEntries,Idle]

theorem afterEntries_idle : ∀ access ∈ afterEntries disk sectorSize fromBackup header, Idle access := by
  cases fromBackup with
  | true => simp [afterEntries,beforeEntries,Idle]
  | false => simp [afterEntries,beforeEntries,Idle]

theorem repairGpt_small (geometry : env.device.diskGeometry = none)
    (small : disk.totalBytes / sectorSize.toUInt64 < 34) (s : RepairState) (same : s.disk = disk) :
    repairGpt env sectorSize fromBackup s = (failed "Disk too small for GPT",s) := by
  simp [repairGpt,RawDiskHandle.getGeometry,checked,geometry,Except.map,same,small]

theorem repairGpt_large (geometry : env.device.diskGeometry = none)
    (large : ¬ disk.totalBytes / sectorSize.toUInt64 < 34) :
    repairGpt env sectorSize fromBackup ⟨disk,accesses⟩ =
      if fromBackup then rebuildPrimary env sectorSize (backupLba disk sectorSize)
        ⟨disk,accesses ++ [.difference (disk.totalBytes / sectorSize.toUInt64) 1]⟩
      else rebuildBackup env sectorSize (backupLba disk sectorSize)
        ⟨disk,accesses ++ [.difference (disk.totalBytes / sectorSize.toUInt64) 1]⟩ := by
  simp [repairGpt,RawDiskHandle.getGeometry,checked,geometry,Except.map,large,RepairState.subtract,
    RepairState.note,backupLba]

variable (geometry : env.device.diskGeometry = none) (large : ¬ disk.totalBytes / sectorSize.toUInt64 < 34)
include geometry large

theorem repairGpt_headless {error : ErrorInfo}
    (unread : RawDiskHandle.readSectors env.device disk (sourceLba disk sectorSize fromBackup) 1 sectorSize =
      .error error) :
    ∃ e, repairGpt env sectorSize fromBackup ⟨disk,accesses⟩ = (.error e,⟨disk,accesses ++
      [.difference (disk.totalBytes / sectorSize.toUInt64) 1,.read (sourceLba disk sectorSize fromBackup) 1]⟩) := by
  rw [repairGpt_large geometry large]
  cases fromBackup with
  | true =>
    simp only [sourceLba,if_true] at unread ⊢
    simp only [rebuildPrimary,RepairState.readSectors,RepairState.note,unread,List.append_assoc]
    exact ⟨_,rfl⟩
  | false =>
    simp only [sourceLba,Bool.false_eq_true,if_false] at unread ⊢
    simp only [rebuildBackup,RepairState.readSectors,RepairState.note,unread,List.append_assoc]
    exact ⟨_,rfl⟩

theorem repairGpt_invalid
    (read : RawDiskHandle.readSectors env.device disk (sourceLba disk sectorSize fromBackup) 1 sectorSize = .ok header)
    (invalid : validateGptHeader header = false) :
    ∃ e, repairGpt env sectorSize fromBackup ⟨disk,accesses⟩ = (.error e,⟨disk,accesses ++
      [.difference (disk.totalBytes / sectorSize.toUInt64) 1,.read (sourceLba disk sectorSize fromBackup) 1]⟩) := by
  rw [repairGpt_large geometry large]
  cases fromBackup with
  | true =>
    simp only [sourceLba,if_true] at read ⊢
    simp only [rebuildPrimary,RepairState.readSectors,RepairState.note,read,invalid,if_true,List.append_assoc]
    exact ⟨_,rfl⟩
  | false =>
    simp only [sourceLba,Bool.false_eq_true,if_false] at read ⊢
    simp only [rebuildBackup,RepairState.readSectors,RepairState.note,read,invalid,if_true,List.append_assoc]
    exact ⟨_,rfl⟩

variable (read : RawDiskHandle.readSectors env.device disk (sourceLba disk sectorSize fromBackup) 1 sectorSize = .ok header)
  (valid : validateGptHeader header = true)
include read valid

theorem repairGpt_unread {error : ErrorInfo}
    (unread : RawDiskHandle.readSectors env.device disk (arrayLba disk sectorSize fromBackup header)
      (entrySectors sectorSize header) sectorSize = .error error) :
    ∃ e, repairGpt env sectorSize fromBackup ⟨disk,accesses⟩ =
      (.error e,⟨disk,accesses ++ beforeEntries disk sectorSize fromBackup header⟩) := by
  rw [repairGpt_large geometry large]
  cases fromBackup with
  | true =>
    simp only [sourceLba,arrayLba,if_true] at read unread ⊢
    simp only [rebuildPrimary,RepairState.readSectors,RepairState.note,RepairState.subtract,read,valid,
      Bool.true_eq_false,if_false,entrySectors_take,unread,List.append_assoc]
    exact ⟨_,rfl⟩
  | false =>
    simp only [sourceLba,arrayLba,Bool.false_eq_true,if_false] at read unread ⊢
    simp only [rebuildBackup,RepairState.readSectors,RepairState.note,read,valid,
      Bool.true_eq_false,if_false,entrySectors_take,partitionEntryLba_take,unread,List.append_assoc]
    exact ⟨_,rfl⟩

theorem repairGpt_read
    (found : RawDiskHandle.readSectors env.device disk (arrayLba disk sectorSize fromBackup header)
      (entrySectors sectorSize header) sectorSize = .ok entryData) :
    ∃ firstMsg secondMsg, repairGpt env sectorSize fromBackup ⟨disk,accesses⟩ =
      writeTwo env sectorSize (firstWrite env disk sectorSize fromBackup header entryData)
        (secondWrite env disk sectorSize fromBackup header entryData) firstMsg secondMsg
        ⟨disk,accesses ++ afterEntries disk sectorSize fromBackup header⟩ := by
  rw [repairGpt_large geometry large]
  cases fromBackup with
  | true =>
    refine ⟨"Failed to write primary GPT header","Failed to write primary GPT entries",?_⟩
    simp only [sourceLba,arrayLba,if_true] at read found ⊢
    simp only [rebuildPrimary,RepairState.readSectors,RepairState.note,RepairState.subtract,read,valid,
      Bool.true_eq_false,if_false,entrySectors_take,found,List.append_assoc]
    rfl
  | false =>
    refine ⟨"Failed to write backup GPT entries","Failed to write backup GPT header",?_⟩
    simp only [sourceLba,arrayLba,Bool.false_eq_true,if_false] at read found ⊢
    simp only [rebuildBackup,RepairState.readSectors,RepairState.note,RepairState.subtract,read,valid,
      Bool.true_eq_false,if_false,entrySectors_take,partitionEntryLba_take,found,List.append_assoc]
    rfl

omit geometry large read valid

/-- A repair that succeeds has found a disk that is large enough and both parts of the
copy, and both of its writes have worked. -/
theorem repairGpt_ok (done : repairGpt env sectorSize fromBackup ⟨disk,[]⟩ = (.ok (),s')) :
    env.device.diskGeometry = none ∧ 34 ≤ disk.totalBytes / sectorSize.toUInt64 ∧ ∃ header entryData between,
      RawDiskHandle.readSectors env.device disk (sourceLba disk sectorSize fromBackup) 1 sectorSize = .ok header ∧
      validateGptHeader header = true ∧
      RawDiskHandle.readSectors env.device disk (arrayLba disk sectorSize fromBackup header)
        (entrySectors sectorSize header) sectorSize = .ok entryData ∧
      RawDiskHandle.writeSectors env.device disk env.mode
        (firstWrite env disk sectorSize fromBackup header entryData).lba
        (firstWrite env disk sectorSize fromBackup header entryData).data
        (firstWrite env disk sectorSize fromBackup header entryData).count sectorSize = (.ok (),between) ∧
      RawDiskHandle.writeSectors env.device between env.mode
        (secondWrite env disk sectorSize fromBackup header entryData).lba
        (secondWrite env disk sectorSize fromBackup header entryData).data
        (secondWrite env disk sectorSize fromBackup header entryData).count sectorSize = (.ok (),s'.disk) := by
  cases geometry : env.device.diskGeometry with
  | some lastErr => simp [repairGpt,RawDiskHandle.getGeometry,checked,geometry,Except.map] at done
  | none =>
    by_cases small : disk.totalBytes / sectorSize.toUInt64 < 34
    · rw [repairGpt_small geometry small _ rfl] at done
      cases done
    · refine ⟨rfl,UInt64.not_lt.mp small,?_⟩
      cases read : RawDiskHandle.readSectors env.device disk (sourceLba disk sectorSize fromBackup) 1 sectorSize with
      | error error =>
        obtain ⟨e,run⟩ := repairGpt_headless geometry small read
        rw [run] at done
        cases done
      | ok header =>
        cases valid : validateGptHeader header with
        | false =>
          obtain ⟨e,run⟩ := repairGpt_invalid geometry small read valid
          rw [run] at done
          cases done
        | true =>
          cases found : RawDiskHandle.readSectors env.device disk (arrayLba disk sectorSize fromBackup header)
              (entrySectors sectorSize header) sectorSize with
          | error error =>
            obtain ⟨e,run⟩ := repairGpt_unread geometry small read valid found
            rw [run] at done
            cases done
          | ok entryData =>
            obtain ⟨firstMsg,secondMsg,run⟩ := repairGpt_read geometry small read valid found
            rw [run] at done
            obtain ⟨between,first,second⟩ := writeTwo_ok done
            exact ⟨header,entryData,between,rfl,valid,found,first,second⟩

end Run

end SetecWizard.Core.BootRepair
