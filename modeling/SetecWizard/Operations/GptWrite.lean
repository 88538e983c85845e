import SetecWizard.Format.Slots
import SetecWizard.Gpt.Placement
import SetecWizard.Operations.Detection

/-! Writing a GPT back. The buffer holds both copies of the table one after the other and
goes to the first sectors of the disk as it is, so that the backup lands right
behind the primary copy, where partitions may be, and not at the end of the disk.
-/
namespace SetecWizard.Core
open SetecWizard.Library

/-- A sector of the disk. -/
def Disk.sector (disk : Disk) (sectorSize lba : Nat) : List UInt8 :=
  window disk.byte (lba * sectorSize) sectorSize

namespace GptPartitionTable

/-- The second disk holds what the first does in the usable area of the table. -/
def UsableKept (t : GptPartitionTable) (disk disk' : Disk) : Prop :=
  ∀ lba, t.firstUsableLba.toNat ≤ lba → lba ≤ t.lastUsableLba.toNat →
    disk'.sector 512 lba = disk.sector 512 lba

/-- A backup header of the table that names its own address and an entry array on the disk
that is the table's, given what its sectors hold. -/
structure Backs (t : GptPartitionTable) (totalBytes : Nat) (sectorAt : Nat → List UInt8) (own : UInt64)
    (header : List UInt8) : Prop where
  describes : Describes header t
  address : readLE64 header 24 = own
  inside : ((readLE64 header 72).toNat + 32) * 512 ≤ totalBytes
  entries : ∀ i < 32, sectorAt ((readLE64 header 72).toNat + i) = slice t.entryArray (i * 512) 512

/-- The backup header is where the primary header says, and the backup array is where the
backup header says. -/
def HasBackup (t : GptPartitionTable) (disk : Disk) : Prop :=
  let alternateLba := readLE64 (disk.sector 512 1) 32
  t.Backs disk.totalBytes.toNat (disk.sector 512) alternateLba (disk.sector 512 alternateLba.toNat)

def bufferSector (t : GptPartitionTable) (lba : Nat) : List UInt8 :=
  if lba = 0 then t.protMbr
  else if lba = 1 then t.primaryHeader
  else if lba < 34 then slice t.entryArray ((lba - 2) * 512) 512
  else if lba < 66 then slice t.entryArray ((lba - 34) * 512) 512
  else t.backupHeader

def overlaid (t : GptPartitionTable) (disk : Disk) (lba : Nat) : List UInt8 :=
  if lba < 67 then t.bufferSector lba else disk.sector 512 lba

/-- Every usable sector among the first 67 already holds what the buffer has there. -/
def Unharmed (t : GptPartitionTable) (disk : Disk) : Prop :=
  ∀ lba, t.firstUsableLba.toNat ≤ lba → lba ≤ t.lastUsableLba.toNat → lba < 67 →
    disk.sector 512 lba = t.bufferSector lba

/-- The last sector of the disk is a backup header of the table already. -/
def BackedBefore (t : GptPartitionTable) (disk : Disk) : Prop :=
  t.Backs disk.totalBytes.toNat (t.overlaid disk) (t.diskSectors - 1)
    (disk.sector 512 (t.diskSectors - 1).toNat)

/-- 128 entries of 128 bytes in 512-byte sectors, and the size of the disk. -/
structure Ordinary (disk : Disk) (t : GptPartitionTable) : Prop where
  std : t.Standard
  sector : t.sectorSize = 512
  size : t.diskSizeBytes = disk.totalBytes

theorem Ordinary.parsed {fuel : Nat} {os : Win32} {disk : Disk} {t : GptPartitionTable}
    (read : OperationUtils.readPartitionTable fuel os disk 512 = some (.ok (.gpt t)))
    (count : t.entryCount = 128) (size : t.entrySize = 128) : t.Ordinary disk := by
  obtain ⟨slotted,disk_size,sector⟩ :=
    parse_shape (PartitionTable.parse_gpt (OperationUtils.readPartitionTable_ok read))
  exact ⟨⟨count,size,slotted⟩,sector,disk_size⟩

theorem Ordinary.run {disk : Disk} {t : GptPartitionTable} (plain : t.Ordinary disk) (calls : List GptCall) :
    (calls.foldl GptCall.step t).Ordinary disk := by
  refine Run.trace_invariant GptCall.step (Ordinary disk) ?_ t calls plain _ (Run.foldl_mem_trace _ _ _)
  intro s call held
  have effect := step_effect s call
  obtain ⟨_,_,size,sector⟩ := effect_geometry effect
  exact ⟨held.std.kept effect,sector.trans held.sector,size.trans held.size⟩

theorem usableKept_iff {t : GptPartitionTable} {disk disk' : Disk}
    (same : ∀ lba, disk'.sector 512 lba = t.overlaid disk lba) :
    UsableKept t disk disk' ↔ Unharmed t disk := by
  constructor
  · intro kept lba low high below
    rw [← kept lba low high,same,overlaid,if_pos below]
  · intro unharmed lba low high
    rw [same,overlaid]
    split
    next below => exact (unharmed lba low high below).symm
    next => rfl

section Landing

variable {os : Win32} {disk disk' : Disk} {t : GptPartitionTable} (plain : t.Ordinary disk)
include plain

theorem Ordinary.shaped : t.Shaped := ⟨plain.std,.inl plain.sector⟩

theorem Ordinary.bytes : t.sectorSize.toNat = 512 := congrArg UInt32.toNat plain.sector

theorem Ordinary.slice_image {image : List UInt8} (serialized : t.serialize = .ok image) {lba : Nat}
    (bound : lba < 67) : slice image (lba * 512) 512 = t.bufferSector lba := by
  obtain ⟨_,mbr,header,array,copy,backup⟩ := plain.shaped.image_pieces serialized
  rw [plain.bytes] at mbr header array copy backup
  unfold bufferSector
  split
  next zero => rw [zero,Nat.zero_mul,mbr]
  next =>
    split
    next one => rw [one,Nat.one_mul,header]
    next =>
      split
      next low =>
        have start : 2 * 512 + (lba - 2) * 512 = lba * 512 := by omega
        rw [← array,slice_slice _ _ _ _ _ (by omega),start]
      next =>
        split
        next low =>
          have start : 2 * 512 + 16384 + (lba - 34) * 512 = lba * 512 := by omega
          rw [← copy,slice_slice _ _ _ _ _ (by omega),start]
        next =>
          have start : 2 * 512 + 2 * 16384 = lba * 512 := by omega
          rw [← backup,start]

theorem Ordinary.buffer {image : List UInt8} (serialized : t.serialize = .ok image) :
    image.length = 67 * 512 ∧ image ≠ [] ∧ OperationUtils.padded 512 image = image := by
  have length := (plain.shaped.image_pieces serialized).1
  rw [plain.bytes] at length
  have nonempty : image ≠ [] := by
    rintro rfl
    simp at length
  exact ⟨by omega,nonempty,(padded_whole 512 image 67 length (by decide) (by omega)).1⟩

theorem Ordinary.landed
    (written : OperationUtils.writePartitionTable os disk 512 (.gpt t) = (.ok (),disk')) :
    disk'.totalBytes = disk.totalBytes ∧ 67 * 512 ≤ disk.totalBytes.toNat ∧
      ∀ lba, disk'.sector 512 lba = t.overlaid disk lba := by
  obtain ⟨image,serialized⟩ : ∃ image, t.serialize = .ok image := ⟨_,rfl⟩
  obtain ⟨length,nonempty,whole⟩ := plain.buffer serialized
  obtain ⟨rfl,room⟩ := writePartitionTable_ok (by decide)
    (show (PartitionTable.gpt t).serialize = .ok image from serialized) nonempty (by omega) written
  rw [whole] at room ⊢
  refine ⟨rfl,by omega,?_⟩
  intro lba
  unfold Disk.sector overlaid
  split
  next low =>
    have read := window_patch_inside disk.byte 0 image (lba * 512) 512 (by omega)
    rw [Nat.zero_add] at read
    exact read.trans (plain.slice_image serialized low)
  next high => exact window_patch_apart disk.byte 0 image (lba * 512) 512 (by omega)

theorem Ordinary.geometry (room : 67 * 512 ≤ disk.totalBytes.toNat) : t.Geometry := by
  refine ⟨plain.shaped,?_⟩
  rw [plain.bytes,plain.size]
  omega

theorem hasBackup_iff (room : 67 * 512 ≤ disk.totalBytes.toNat) (size : disk'.totalBytes = disk.totalBytes)
    (same : ∀ lba, disk'.sector 512 lba = t.overlaid disk lba) :
    HasBackup t disk' ↔ t.diskSectors.toNat = 67 ∨ BackedBefore t disk := by
  have geo := plain.geometry room
  have many := geo.large
  rw [← t.diskSectors_toNat] at many
  have last := geo.last_toNat
  have sectors : disk'.sector 512 = t.overlaid disk := funext same
  have primary : readLE64 (t.overlaid disk 1) 32 = t.diskSectors - 1 :=
    (primaryHeader_addresses geo.long).other
  simp only [HasBackup,sectors,size,primary]
  by_cases exact_fit : t.diskSectors.toNat = 67
  · refine iff_of_true ?_ (.inl exact_fit)
    have array := geo.arraySectors
    rw [plain.bytes] at array
    have addresses := backupHeader_addresses geo.long
    have first := geo.backup_toNat
    have header : t.overlaid disk (t.diskSectors - 1).toNat = t.backupHeader := by
      rw [last,exact_fit]
      rfl
    have start : (readLE64 t.backupHeader 72).toNat = 34 := by
      rw [addresses.entries,first]
      omega
    rw [header]
    refine ⟨backupHeader_describes geo.long,addresses.own,by rw [start]; omega,?_⟩
    intro i bound
    rw [start,overlaid,if_pos (by omega),bufferSector,if_neg (by omega),if_neg (by omega),
      if_neg (by omega),if_pos (by omega),Nat.add_sub_cancel_left]
  · have beyond : t.overlaid disk (t.diskSectors - 1).toNat = disk.sector 512 (t.diskSectors - 1).toNat := by
      rw [overlaid,if_neg (by omega)]
    rw [beyond,or_iff_right exact_fit]
    rfl

end Landing

/-- Writing a GPT that was read and edited keeps the usable area and leaves a valid backup
exactly when the usable sectors the buffer runs over hold its contents already, and
the disk has just the 67 sectors of the buffer or had that backup before. -/
theorem write_kept_iff (fuel : Nat) (reading writing : Win32) (disk disk' : Disk) (parsed : GptPartitionTable)
    (read : OperationUtils.readPartitionTable fuel reading disk 512 = some (.ok (.gpt parsed)))
    (count : parsed.entryCount = 128) (size : parsed.entrySize = 128) (calls : List GptCall)
    (written : OperationUtils.writePartitionTable writing disk 512
      (.gpt (calls.foldl GptCall.step parsed)) = (.ok (),disk')) :
    UsableKept (calls.foldl GptCall.step parsed) disk disk' ∧
        HasBackup (calls.foldl GptCall.step parsed) disk' ↔
      Unharmed (calls.foldl GptCall.step parsed) disk ∧
        ((calls.foldl GptCall.step parsed).diskSectors.toNat = 67 ∨
          BackedBefore (calls.foldl GptCall.step parsed) disk) := by
  have plain := (Ordinary.parsed read count size).run calls
  obtain ⟨sameSize,room,same⟩ := plain.landed written
  rw [usableKept_iff same,hasBackup_iff plain room sameSize same]

section Detected

variable {t : GptPartitionTable}

theorem protMbr_field (long : 512 ≤ t.sectorSize.toNat) (off : Nat) (block : List UInt8)
    (member : (off,block) ∈ t.protFields) : slice t.protMbr off block.length = block := by
  rw [protMbr_eq]
  refine Fields.read ⟨fun field among => ?_,t.protFields_layout.apart⟩ t.length_preserved member
  have fit := t.protFields_layout.fit field among
  omega

theorem protMbr_signed (long : 512 ≤ t.sectorSize.toNat) : readLE16 t.protMbr 510 = MBR_SIGNATURE :=
  readLE16_of_slice (protMbr_field long 510 (le16 MBR_SIGNATURE) (by simp [protFields]))

theorem protMbr_type (long : 512 ≤ t.sectorSize.toNat) : t.protMbr.getD 450 0 = MbrTypes.GPT_Protective := by
  have field := protMbr_field long MBR_PARTITION_ENTRY_OFFSET t.protectiveEntry (by simp [protFields])
  rw [length_protectiveEntry] at field
  have byte := getD_slice t.protMbr MBR_PARTITION_ENTRY_OFFSET 16 4 (by decide)
  rw [field] at byte
  exact byte.symm

theorem protMbr_rest (long : 512 ≤ t.sectorSize.toNat) (i : Nat) (later : i = 1 ∨ i = 2 ∨ i = 3) :
    slotEmpty t.protMbr i = true := by
  have field := protMbr_field long (MBR_PARTITION_ENTRY_OFFSET + 16) (List.replicate 48 0)
    (by simp [protFields])
  rw [List.length_replicate] at field
  have base : MBR_PARTITION_ENTRY_OFFSET = 446 := rfl
  have block : slotBytes t.protMbr i = List.replicate 16 0 := by
    have part := slice_slice t.protMbr (MBR_PARTITION_ENTRY_OFFSET + 16) 48 ((i - 1) * 16) 16 (by omega)
    rw [field,slice_replicate _ _ _ _ (by omega)] at part
    have start : MBR_PARTITION_ENTRY_OFFSET + 16 + (i - 1) * 16 =
        MBR_PARTITION_ENTRY_OFFSET + i * MBR_PARTITION_ENTRY_SIZE := by
      have size : MBR_PARTITION_ENTRY_SIZE = 16 := rfl
      rw [base,size]
      omega
    rw [start] at part
    exact part.symm
  rw [slotEmpty_eq,block]
  decide

theorem protMbr_slots (long : 512 ≤ t.sectorSize.toNat) : occupiedSlots t.protMbr = [0] := by
  have first : slotEmpty t.protMbr 0 = false := by
    have type := protMbr_type long
    have other : (MbrTypes.GPT_Protective == MbrTypes.Empty) = false := by decide
    simp only [slotEmpty,Nat.zero_mul]
    rw [show MBR_PARTITION_ENTRY_OFFSET + 0 + 4 = 450 from rfl,type,other]
    rfl
  have slots : List.range MBR_MAX_PRIMARY_PARTITIONS = [0,1,2,3] := rfl
  rw [occupiedSlots,slots]
  simp [first,protMbr_rest long]

theorem reads_working (disk : Disk) {sectorSize : UInt32} (positive : 0 < sectorSize.toNat)
    (small : disk.totalBytes.toNat + sectorSize.toNat ≤ 2 ^ 32) :
    Reads (OperationUtils.readFunc .working disk sectorSize) sectorSize.toNat disk.byte
      disk.totalBytes.toNat := by
  rintro off n ⟨lba,start⟩ ⟨k,length⟩ inside
  rw [Nat.mul_comm] at start length
  have rounded : (n.toNat + sectorSize.toNat - 1) / sectorSize.toNat = k := by
    rw [length,Nat.add_sub_assoc positive,Nat.mul_comm,Nat.mul_add_div positive,
      Nat.div_eq_of_lt (by omega),Nat.add_zero]
  refine readFunc_working disk positive start rounded (Nat.le_of_eq length) (by omega) ?_
  rw [Nat.add_mul,← start,← length]
  exact inside

theorem protective_parse (long : 512 ≤ t.sectorSize.toNat) (blank : MbrPartitionTable) {readFunc : DiskReadCallback}
    (sector : readFunc 0 MBR_SIZE = .ok t.protMbr) (fuel : Nat) :
    ∃ table, blank.parse fuel readFunc = some (.ok table) ∧ table.hasGptProtective = true := by
  have bytes : MBR_SIZE.toNat = 512 := rfl
  have length := length_protMbr long
  have entries : primaryEntries blank.sectorSize t.protMbr = [primaryEntry blank.sectorSize t.protMbr 0] := by
    rw [primaryEntries,protMbr_slots long]
    rfl
  have type := protMbr_type long
  have whole : MBR_SIZE.toNat ≤ t.protMbr.length := by omega
  have signed := protMbr_signed long
  generalize t.protMbr = raw at sector entries type whole signed
  replace type : (primaryEntry blank.sectorSize raw 0).mbrType = MbrTypes.GPT_Protective := type
  have plain : (primaryEntry blank.sectorSize raw 0).isExtended =
    MbrTypes.isExtendedType (primaryEntry blank.sectorSize raw 0).mbrType := rfl
  have search : (primaryEntries blank.sectorSize raw).find? (·.isExtended) = none := by
    rw [entries,List.find?_singleton,plain,type]
    rfl
  have parsed := MbrPartitionTable.parse_of_no_container blank sector whole signed search fuel
  refine ⟨blank.scanned raw [],parsed,?_⟩
  rw [MbrPartitionTable.hasGptProtective,MbrPartitionTable.scanned,entries]
  simp [type]

theorem detected (fuel : Nat) (disk : Disk) (geo : t.Geometry) (placed : t.Placed disk.byte)
    (size : t.diskSizeBytes = disk.totalBytes) (sector : t.sectorSize = MBR_SIZE)
    (small : disk.totalBytes.toNat + 512 ≤ 2 ^ 32) (first : window disk.byte 0 512 = t.protMbr)
    (noMap : readBE16 t.protMbr 0 ≠ APM_DDM_SIGNATURE) :
    ∃ protectiveMbr, OperationUtils.readPartitionTable fuel .working disk MBR_SIZE =
      some (.ok (.gpt (parseEntries (t.adopted
        { diskSizeBytes := disk.totalBytes,sectorSize := MBR_SIZE } protectiveMbr) t.entryArray))) := by
  have bytes : MBR_SIZE.toNat = 512 := rfl
  have sectorBytes : t.sectorSize.toNat = 512 := congrArg UInt32.toNat sector
  have shape := geo.toShaped
  have reads : Reads (OperationUtils.readFunc .working disk MBR_SIZE) MBR_SIZE.toNat disk.byte
    disk.totalBytes.toNat := reads_working disk (by decide) small
  have many := geo.large
  have zero : (0 : UInt64).toNat = 0 := rfl
  rw [sectorBytes,size] at many
  have sector0 : OperationUtils.readFunc .working disk MBR_SIZE 0 MBR_SIZE = .ok t.protMbr := by
    rw [reads 0 MBR_SIZE (Nat.dvd_zero _) (Nat.dvd_refl _) (by omega),zero,bytes,first]
  have length : t.protMbr.length = 512 := shape.length_protMbr.trans sectorBytes
  obtain ⟨table,mbr,protective⟩ := protective_parse shape.whole
    { diskSizeBytes := disk.totalBytes,sectorSize := MBR_SIZE } sector0 fuel
  have blank : ({ diskSizeBytes := disk.totalBytes,sectorSize := MBR_SIZE } : GptPartitionTable).sectorSize =
    t.sectorSize := sector.symm
  rw [← size,← sector] at reads
  obtain ⟨protectiveMbr,backing⟩ := Placed.parse geo placed reads blank
  refine ⟨protectiveMbr,?_⟩
  have signed := protMbr_signed shape.whole
  rw [readPartitionTable_working,PartitionTable.parse,sector0]
  generalize t.protMbr = raw at length signed noMap
  simp only [length,signed,noMap,mbr,protective,lt_irrefl,if_false,if_true,ne_eq,not_true]
  rw [← sector] at backing ⊢
  rw [backing]

end Detected

/-- A table without entries for a disk of 200 sectors. -/
def smallTable : GptPartitionTable := { diskSizeBytes := 102400,sectorSize := 512,diskGuid := sampleGuid }

theorem smallTable_geometry : smallTable.Geometry :=
  ⟨⟨⟨rfl,rfl,⟨List.nodup_nil,by simp [smallTable]⟩⟩,.inl rfl⟩,by decide⟩

theorem smallTable_noMap : readBE16 smallTable.protMbr 0 ≠ APM_DDM_SIGNATURE := by
  decide

def smallDisk (image : List UInt8) : Disk where
  totalBytes := 102400
  byte := placePieces 512 image (fun _ => 0xAA)

section SmallDisk

variable {image : List UInt8} (serialized : smallTable.serialize = .ok image)
include serialized

theorem smallDisk_detected : ∃ parsed : GptPartitionTable,
    OperationUtils.readPartitionTable 0 .working (smallDisk image) 512 = some (.ok (.gpt parsed)) ∧
      parsed.entryCount = 128 ∧ parsed.entrySize = 128 ∧ parsed.firstUsableLba = 34 ∧
      parsed.lastUsableLba = 166 ∧ parsed.entries = [] := by
  have geo := smallTable_geometry
  have small : (smallDisk image).totalBytes.toNat + 512 ≤ 2 ^ 32 := by
    have size : (smallDisk image).totalBytes.toNat = 102400 := rfl
    omega
  obtain ⟨protectiveMbr,read⟩ := detected 0 (smallDisk image) geo
    (geo.placed serialized (fun _ => 0xAA)) rfl rfl small (geo.placed_first serialized (fun _ => 0xAA)) smallTable_noMap
  refine ⟨_,read,rfl,rfl,rfl,rfl,?_⟩
  refine List.eq_nil_iff_forall_not_mem.mpr (fun e member => ?_)
  obtain ⟨pe,among,_⟩ := (mem_parseEntries geo.std.arrayed (by simp [smallTable]) rfl rfl e).mp member
  simp [smallTable] at among

theorem smallDisk_data : ((smallDisk image).sector 512 34).head? = some 0xAA := by
  have between := smallTable_geometry.placed_between serialized (fun _ => 0xAA) (34 * 512) (by decide)
    (by decide)
  have first := getElem?_window (smallDisk image).byte (34 * 512) 512 0
  rw [if_pos (by decide),Nat.add_zero] at first
  rw [Disk.sector,List.head?_eq_getElem?,first]
  exact congrArg some between

end SmallDisk

theorem Ordinary.writes {disk : Disk} {t : GptPartitionTable} (plain : t.Ordinary disk)
    (room : 67 * 512 ≤ disk.totalBytes.toNat) :
    ∃ disk', OperationUtils.writePartitionTable .working disk 512 (.gpt t) = (.ok (),disk') := by
  obtain ⟨image,serialized⟩ : ∃ image, t.serialize = .ok image := ⟨_,rfl⟩
  obtain ⟨length,nonempty,whole⟩ := plain.buffer serialized
  exact ⟨_,writePartitionTable_working disk (show 0 < (512 : UInt32).toNat by decide)
    (show (PartitionTable.gpt t).serialize = .ok image from serialized) nonempty (by rw [whole]; omega)
    (by rw [whole]; omega)⟩

theorem smallDisk_written (image : List UInt8) {parsed : GptPartitionTable}
    (read : OperationUtils.readPartitionTable 0 .working (smallDisk image) 512 = some (.ok (.gpt parsed)))
    (count : parsed.entryCount = 128) (size : parsed.entrySize = 128) :
    ∃ disk', OperationUtils.writePartitionTable .working (smallDisk image) 512 (.gpt parsed) =
      (.ok (),disk') :=
  (Ordinary.parsed read count size).writes (show 67 * 512 ≤ (102400 : UInt64).toNat by decide)

/-- On the disk of 200 sectors. -/
theorem write_kept_sample :
    ∃ image parsed disk',
      OperationUtils.readPartitionTable 0 .working (smallDisk image) 512 = some (.ok (.gpt parsed)) ∧
      OperationUtils.writePartitionTable .working (smallDisk image) 512 (.gpt parsed) = (.ok (),disk') ∧
      (UsableKept parsed (smallDisk image) disk' ∧ HasBackup parsed disk' ↔
        Unharmed parsed (smallDisk image) ∧
          (parsed.diskSectors.toNat = 67 ∨ BackedBefore parsed (smallDisk image))) := by
  obtain ⟨image,serialized⟩ : ∃ image, smallTable.serialize = .ok image := ⟨_,rfl⟩
  obtain ⟨parsed,read,count,size,_⟩ := smallDisk_detected serialized
  obtain ⟨disk',written⟩ := smallDisk_written image read count size
  exact ⟨image,parsed,disk',read,written,
    write_kept_iff 0 .working .working (smallDisk image) disk' parsed read count size [] written⟩

theorem entryArray_blank {t : GptPartitionTable} (std : t.Standard) (none : t.entries = []) :
    t.entryArray = List.replicate 16384 0 := by
  rw [std.arrayed.entryArray_eq,none,std.bytes]
  rfl

/-- Writing back an empty table, as it was read, overwrites sector 34. -/
theorem backup_lands_on_data :
    ¬ ∀ (fuel : Nat) (reading writing : Win32) (disk disk' : Disk) (parsed : GptPartitionTable),
      OperationUtils.readPartitionTable fuel reading disk 512 = some (.ok (.gpt parsed)) →
      parsed.entryCount = 128 → parsed.entrySize = 128 → ∀ calls : List GptCall,
      OperationUtils.writePartitionTable writing disk 512 (.gpt (calls.foldl GptCall.step parsed)) =
        (.ok (),disk') →
      UsableKept (calls.foldl GptCall.step parsed) disk disk' ∧
        HasBackup (calls.foldl GptCall.step parsed) disk' := by
  intro always
  obtain ⟨image,serialized⟩ : ∃ image, smallTable.serialize = .ok image := ⟨_,rfl⟩
  obtain ⟨parsed,read,count,size,low,high,none⟩ := smallDisk_detected serialized
  obtain ⟨disk',written⟩ := smallDisk_written image read count size
  have plain := Ordinary.parsed read count size
  obtain ⟨kept,_⟩ := always 0 .working .working (smallDisk image) disk' parsed read count size [] written
  have unharmed := (usableKept_iff (plain.landed written).2.2).mp kept 34 (by rw [low]; decide)
    (by rw [high]; decide) (by decide)
  have blank : parsed.bufferSector 34 = List.replicate 512 0 := by
    rw [bufferSector,if_neg (by decide),if_neg (by decide),if_neg (by decide),if_pos (by decide),
      entryArray_blank plain.std none,slice_replicate _ _ _ _ (by decide)]
  have data := smallDisk_data serialized
  rw [unharmed,blank] at data
  exact absurd data (by decide)

end GptPartitionTable
end SetecWizard.Core
