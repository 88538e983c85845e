import SetecWizard.Filesystem.Fat32Extents

/-! The two FATs that a FAT32 format leaves on the disk. Their chunks follow each other, and
are one block as long as the bytes are counted. Beyond that the FATs are only begun, and
what was on the disk before shows in their last entries.
-/
namespace SetecWizard.Core.FormatEngine
open SetecWizard.Library

/-- The entries of a fresh FAT: two that are reserved, the end of the root directory, and free ones. -/
def fatEntry : Nat → UInt32
  | 0 => 0x0FFFFFF8
  | 1 => 0x0FFFFFFF
  | 2 => 0x0FFFFFF8
  | _ => 0

def fatStart (target : FormatTarget) (fatSize copy : Nat) : Nat :=
  target.partitionOffsetBytes.toNat + (32 + copy * fatSize) * 512

structure FatsInitialized (target : FormatTarget) (fatSize : Nat) (disk : Disk) : Prop where
  room : 3 ≤ fatSize * 128
  entries : ∀ copy < 2, ∀ k < fatSize * 128,
    window disk.byte (fatStart target fatSize copy + 4 * k) 4 = le32 (fatEntry k)
  same : window disk.byte (fatStart target fatSize 0) (fatSize * 512) =
    window disk.byte (fatStart target fatSize 1) (fatSize * 512)

section Data

def fatData (bytes : Nat) (first : Bool) : List UInt8 :=
  if first then le32 0x0FFFFFF8 ++ le32 0x0FFFFFFF ++ le32 0x0FFFFFF8 ++ List.replicate (bytes - 12) 0
  else List.replicate bytes 0

theorem fatData_length {bytes : Nat} (room : 12 ≤ bytes) (first : Bool) : (fatData bytes first).length = bytes := by
  unfold fatData
  split
  · simp only [List.length_append,length_le32,List.length_replicate]
    omega
  · exact List.length_replicate

theorem fatChunk_eq {chunkBytes : UInt32} (room : 12 ≤ chunkBytes.toNat) (first : Bool) :
    fatChunk chunkBytes first = fatData chunkBytes.toNat first := by
  unfold fatChunk fatData
  split
  · obtain ⟨rest,bytes⟩ := Nat.exists_eq_add_of_le room
    have zeros : List.replicate chunkBytes.toNat (0 : UInt8) = List.replicate 12 0 ++ List.replicate rest 0 := by
      rw [bytes,List.replicate_append_replicate]
    rw [zeros,bytes,Nat.add_sub_cancel_left]
    rfl
  · rfl

theorem fatData_append {chunk rest : Nat} (room : 12 ≤ chunk) (first : Bool) :
    fatData chunk first ++ fatData rest false = fatData (chunk + rest) first := by
  unfold fatData
  split
  · rw [if_neg Bool.false_ne_true,List.append_assoc,List.replicate_append_replicate,Nat.sub_add_comm room]
  · rw [if_neg Bool.false_ne_true,List.replicate_append_replicate]

theorem fatData_entry {bytes k : Nat} (inside : 4 * k + 4 ≤ bytes) (room : 12 ≤ bytes) :
    slice (fatData bytes true) (4 * k) 4 = le32 (fatEntry k) := by
  have front : (le32 0x0FFFFFF8 ++ le32 0x0FFFFFFF ++ le32 0x0FFFFFF8).length = 12 := rfl
  rw [fatData,if_pos rfl]
  match k with
  | 0 => exact slice_append_left _ _ _ _ (by rw [front]; decide)
  | 1 => exact slice_append_left _ _ _ _ (by rw [front]; decide)
  | 2 => exact slice_append_left _ _ _ _ (by rw [front])
  | k + 3 =>
    have behind : 4 * (k + 3) = (le32 0x0FFFFFF8 ++ le32 0x0FFFFFFF ++ le32 0x0FFFFFF8).length + 4 * k := by
      rw [front]
      omega
    have free : fatEntry (k + 3) = 0 := rfl
    rw [behind,slice_append_right,slice_replicate _ _ _ _ (by omega),free]
    rfl

end Data

section Laid

variable {target : FormatTarget} (placed : target.partitionOffsetBytes.toNat < 2 ^ 63)
include placed

theorem position_toNat {off : UInt64} (small : off.toNat < 2 ^ 63) :
    (position target off).toNat = target.partitionOffsetBytes.toNat + off.toNat := by
  rw [position,UInt64.toNat_add,Nat.mod_eq_of_lt (by omega)]

theorem laid_fatChunks (base_ pos : UInt64) (remaining : UInt32) (first : Bool) (positive : 0 < remaining.toNat)
    (whole : 512 ∣ remaining.toNat) (room : base_.toNat + pos.toNat + remaining.toNat < 2 ^ 63) (disk : Disk) :
    laid target (fatChunks base_ pos remaining first) disk =
      disk.patched (target.partitionOffsetBytes.toNat + base_.toNat + pos.toNat) (fatData remaining.toNat first) := by
  induction pos, remaining, first using fatChunks.induct generalizing disk with
  | case1 pos first => cases positive
  | case2 pos remaining first left chunkBytes ih =>
    have least : chunkBytes.toNat = min remaining.toNat 1048576 := UInt32.toNat_min _ _
    have start : (base_ + pos).toNat = base_.toNat + pos.toNat := by
      rw [UInt64.toNat_add,Nat.mod_eq_of_lt (by omega)]
    have next : (pos + chunkBytes.toUInt64).toNat = pos.toNat + chunkBytes.toNat := by
      rw [UInt64.toNat_add,UInt32.toNat_toUInt64,Nat.mod_eq_of_lt (by omega)]
    have rest : (remaining - chunkBytes).toNat = remaining.toNat - chunkBytes.toNat :=
      UInt32.toNat_sub_of_le _ _ (UInt32.le_iff_toNat_le.mpr (by omega))
    have enough : 12 ≤ chunkBytes.toNat := by omega
    have begun : laid target (fatChunks base_ pos remaining first) disk =
        laid target (fatChunks base_ (pos + chunkBytes.toUInt64) (remaining - chunkBytes) false)
          (disk.patched (target.partitionOffsetBytes.toNat + base_.toNat + pos.toNat)
            (fatData chunkBytes.toNat first)) := by
      rw [fatChunks,if_neg left,← fatChunk_eq enough,Nat.add_assoc,← start,← position_toNat placed (by omega)]
      rfl
    rw [begun]
    by_cases more : 0 < (remaining - chunkBytes).toNat
    · have both := @fatData_append chunkBytes.toNat (remaining.toNat - chunkBytes.toNat) enough first
      rw [Nat.add_sub_cancel' (by omega)] at both
      rw [ih more (by omega) (by omega),next,rest,← both,Disk.patched,Disk.patched,Disk.patched,← patch_append,
        fatData_length enough,← Nat.add_assoc]
    · have none : remaining - chunkBytes = 0 := UInt32.toNat_inj.mp (Nat.eq_zero_of_not_pos more)
      have all : chunkBytes.toNat = remaining.toNat := by omega
      rw [none,fatChunks,if_pos rfl,all]
      rfl

end Laid

theorem FatsInitialized.of_tables {target : FormatTarget} {fatSize : Nat} {disk : Disk} (positive : 0 < fatSize)
    (tables : ∀ copy < 2, window disk.byte (fatStart target fatSize copy) (fatSize * 512) = fatData (fatSize * 512) true) :
    FatsInitialized target fatSize disk where
  room := by omega
  entries copy low k inside := by
    rw [← slice_window disk.byte _ (fatSize * 512) (4 * k) 4 (by omega),tables copy low]
    exact fatData_entry (by omega) (by omega)
  same := (tables 0 (by decide)).trans (tables 1 (by decide)).symm

section Written

variable {target : FormatTarget} (placed : target.partitionOffsetBytes.toNat < 2 ^ 63) {bpb : Fat32Bpb}
  {fsInfo : Fat32FsInfo} {volumeLabel : List UInt8} (small : bpb.fatSize32.toNat < 2 ^ 26)
include placed small

theorem laid_initialized (positive : 0 < bpb.fatSize32.toNat) (counted : bpb.fatSize32.toNat < 2 ^ 23) (disk : Disk) :
    FatsInitialized target bpb.fatSize32.toNat (laid target (fat32Writes bpb fsInfo volumeLabel) disk) := by
  obtain ⟨first,second⟩ := fatBaseOffset_toNat small
  have root := rootOffset_toNat small
  have bytes := fatBytes_toNat bpb.fatSize32
  rw [Nat.mod_eq_of_lt (by omega)] at bytes
  have zero : (0 : UInt64).toNat = 0 := rfl
  have table (copy : UInt32) (start : (fatBaseOffset bpb.fatSize32 copy).toNat = (32 + copy.toNat * bpb.fatSize32.toNat) * 512)
      (low : copy.toNat ≤ 1) (disk : Disk) : laid target (fatWrites bpb.fatSize32 copy) disk =
        disk.patched (fatStart target bpb.fatSize32.toNat copy.toNat) (fatData (bpb.fatSize32.toNat * 512) true) := by
    have most : copy.toNat * bpb.fatSize32.toNat ≤ 1 * bpb.fatSize32.toNat := Nat.mul_le_mul_right _ low
    have block := laid_fatChunks placed (fatBaseOffset bpb.fatSize32 copy) 0 (bpb.fatSize32 * SECTOR_SIZE_512) true
      (by omega) (by omega) (by omega) disk
    rw [bytes,start,zero,Nat.add_zero] at block
    exact block
  have length := @fatData_length (bpb.fatSize32.toNat * 512) (by omega) true
  have last : (position target (dataStartSector bpb.fatSize32 * SECTOR_SIZE_512.toUInt64)).toNat =
      fatStart target bpb.fatSize32.toNat 1 + bpb.fatSize32.toNat * 512 := by
    rw [position_toNat placed (by omega),root,fatStart]
    omega
  have apart : fatStart target bpb.fatSize32.toNat 0 + bpb.fatSize32.toNat * 512 =
      fatStart target bpb.fatSize32.toNat 1 := by
    unfold fatStart
    omega
  obtain ⟨before,after⟩ : ∃ before : Disk, laid target (fat32Writes bpb fsInfo volumeLabel) disk =
      ((before.patched (fatStart target bpb.fatSize32.toNat 0) (fatData (bpb.fatSize32.toNat * 512) true)).patched
        (fatStart target bpb.fatSize32.toNat 1) (fatData (bpb.fatSize32.toNat * 512) true)).patched
        (fatStart target bpb.fatSize32.toNat 1 + bpb.fatSize32.toNat * 512)
        (rootCluster bpb.sectorsPerCluster volumeLabel) := by
    refine ⟨laid target [(0,bootSector bpb),(512,fsInfoSector fsInfo),(6 * 512,bootSector bpb),
      (7 * 512,fsInfoSector fsInfo)] disk,?_⟩
    rw [fat32Writes,laid_append,laid_append,laid_append,table 0 (by rw [first]; simp) (by decide),
      table 1 (by rw [second]; simp) (by decide),← last]
    rfl
  rw [after]
  refine FatsInitialized.of_tables positive (fun copy low => ?_)
  obtain rfl | rfl : copy = 0 ∨ copy = 1 := by omega
  · refine (window_patch_apart _ _ _ _ _ (.inl (by omega))).trans ?_
    refine (window_patch_apart _ _ _ _ _ (.inl (by omega))).trans ?_
    exact window_patch_whole _ _ length
  · refine (window_patch_apart _ _ _ _ _ (.inl (by omega))).trans ?_
    exact window_patch_whole _ _ length

/-- From eight million sectors on the bytes are not counted, and the last entry of the second FAT
is left as it was. -/
theorem laid_kept (boot : (bootSector bpb).length = 512) (large : 2 ^ 23 ≤ bpb.fatSize32.toNat) (disk : Disk) :
    (laid target (fat32Writes bpb fsInfo volumeLabel) disk).byte
        (fatStart target bpb.fatSize32.toNat 1 + 4 * (bpb.fatSize32.toNat * 128 - 1)) =
      disk.byte (fatStart target bpb.fatSize32.toNat 1 + 4 * (bpb.fatSize32.toNat * 128 - 1)) := by
  obtain ⟨first,second⟩ := fatBaseOffset_toNat small
  have root := rootOffset_toNat small
  have info := fsInfoSector_length fsInfo
  have bytes := fatBytes_toNat bpb.fatSize32
  have zero : (0 : UInt64).toNat = 0 := rfl
  have place : fatStart target bpb.fatSize32.toNat 1 + 4 * (bpb.fatSize32.toNat * 128 - 1) =
      target.partitionOffsetBytes.toNat + ((32 + 2 * bpb.fatSize32.toNat) * 512 - 4) := by
    unfold fatStart
    omega
  have offsets : (512 : UInt64).toNat = 512 ∧ (6 * 512 : UInt64).toNat = 3072 ∧ (7 * 512 : UInt64).toNat = 3584 :=
    ⟨rfl,rfl,rfl⟩
  refine laid_apart (fun w member => ?_)
  rw [place]
  suffices within : w.1.toNat + w.2.length ≤ (32 + 2 * bpb.fatSize32.toNat) * 512 - 4 ∨
      w.1.toNat = (32 + 2 * bpb.fatSize32.toNat) * 512 by
    rw [position_toNat placed (by omega)]
    omega
  simp only [fat32Writes,List.mem_append,List.mem_cons,List.not_mem_nil,or_false] at member
  rcases member with (rfl | rfl | rfl | rfl) | member | member | rfl
  · exact .inl (by simp only [zero,boot]; omega)
  · exact .inl (by simp only [offsets,info]; omega)
  · exact .inl (by simp only [offsets,boot]; omega)
  · exact .inl (by simp only [offsets,info]; omega)
  · have bounds := fatWrites_extents small first (by decide) w member
    exact .inl (by omega)
  · have bounds := fatChunks_extents (fatBaseOffset bpb.fatSize32 1) 0 (bpb.fatSize32 * SECTOR_SIZE_512) true (by omega)
      (by omega) w member
    exact .inl (by omega)
  · exact .inr root

theorem filled_uninitialized (boot : (bootSector bpb).length = 512) (large : 2 ^ 23 ≤ bpb.fatSize32.toNat)
    (totalBytes : UInt64) : ¬ FatsInitialized target bpb.fatSize32.toNat
      (laid target (fat32Writes bpb fsInfo volumeLabel) (filled totalBytes 0xFF)) := by
  intro initialized
  have kept := @laid_kept target placed bpb fsInfo volumeLabel small boot large (filled totalBytes 0xFF)
  obtain ⟨k,last⟩ : ∃ k, bpb.fatSize32.toNat * 128 - 1 = k + 3 := ⟨bpb.fatSize32.toNat * 128 - 4,by omega⟩
  have entry := initialized.entries 1 (by decide) (bpb.fatSize32.toNat * 128 - 1) (by omega)
  have first := congrArg (fun bytes => bytes[0]?) entry
  simp only [getElem?_window,last] at first kept
  change some ((laid target (fat32Writes bpb fsInfo volumeLabel) (filled totalBytes 0xFF)).byte
    (fatStart target bpb.fatSize32.toNat 1 + 4 * (k + 3))) = some 0 at first
  rw [kept] at first
  cases first

end Written

section Sizes

variable {totalSectors : UInt64} {sectorsPerCluster : UInt8} (accepted : sectorsPerCluster ∈ clusterSectors)
  (small : totalSectors.toNat < 2 ^ 32)
include accepted small

theorem fatSize32_range : (0 < (fatSize32 totalSectors sectorsPerCluster).toNat ↔
      32 ≤ totalSectors.toNat + sectorsPerCluster.toNat) ∧
    ((fatSize32 totalSectors sectorsPerCluster).toNat < 2 ^ 23 ↔
      totalSectors.toNat < 16777246 + 1073741695 * sectorsPerCluster.toNat) := by
  by_cases large : 34 ≤ totalSectors.toNat
  · have above := (@fatSize32_bounds _ sectorsPerCluster large small).1
    refine ⟨?_,fatSize32_counted_iff accepted large small⟩
    unfold nextFatSize at above
    omega
  · have tiny := fatSize32_tiny _ (Nat.not_le.mp large) _ accepted
    rw [UInt64.ofNat_toNat] at tiny
    split at tiny <;> omega

end Sizes

section Format

variable {os : Win32} {target : FormatTarget} {options : FormatOptions} {volumeSerial : UInt32} {disk : Disk}
  {bpb : Fat32Bpb} {fsInfo : Fat32FsInfo}

theorem layoutFat32_boot {partSize : UInt64} (layout : layoutFat32 partSize options volumeSerial = .ok (bpb,fsInfo)) :
    (bootSector bpb).length = 512 ∧ bpb.fatSize32.toNat < 2 ^ 26 ∧ 0 < bpb.sectorsPerCluster.toNat := by
  obtain ⟨small,accepted,_,boot⟩ := layoutFat32_ok layout
  rw [boot]
  exact ⟨bootSector_length rfl rfl rfl (fatLabel_length _),fatSize32_word accepted small,
    (clusterSectors_bounds _ accepted).1⟩

theorem zeroedFirst_quick (quick : options.quickFormat = true) (rest : Disk → FormatRun) :
    ((zeroedFirst os target options disk).next rest).result = (rest disk).result ∧
      ((zeroedFirst os target options disk).next rest).disk = (rest disk).disk := by
  rw [zeroedFirst,if_pos quick]
  exact ⟨rfl,rfl⟩

theorem formatFat32Large_laid (sector : target.sectorSize ∈ [512,1024,2048,4096]) (quick : options.quickFormat = true)
    (layout : layoutFat32 target.partitionSizeBytes options volumeSerial = .ok (bpb,fsInfo))
    (ok : (formatFat32Large os target options volumeSerial disk).result = .ok ()) :
    (formatFat32Large os target options volumeSerial disk).disk =
      laid target (fat32Writes bpb fsInfo options.volumeLabel) disk := by
  obtain ⟨boot,small,positive⟩ := layoutFat32_boot layout
  obtain ⟨bpb',fsInfo',layout',same⟩ := formatFat32Large_ok ok
  obtain ⟨rfl,rfl⟩ := Prod.mk.inj (Except.ok.inj (layout.symm.trans layout'))
  obtain ⟨result,left⟩ := @zeroedFirst_quick os target options disk quick
    (writeAll os target (fat32Writes bpb fsInfo options.volumeLabel))
  rw [same disk,result] at ok
  rw [same disk,left]
  refine writeAll_exact (sector_divides _ sector) (fun w member => ?_) ok
  have bounds := fat32Writes_extents boot small positive w member
  omega

end Format

/-- Of the volumes for which a quick format succeeds, those whose FATs are initialized whatever was on
the disk are the ones between two sizes. -/
theorem formatFat32Large_fats_iff (os : Win32) (target : FormatTarget) (options : FormatOptions) (volumeSerial : UInt32)
    (disk : Disk) (sector : target.sectorSize ∈ [512,1024,2048,4096])
    (placed : target.partitionOffsetBytes.toNat < 2 ^ 63) (quick : options.quickFormat = true)
    (ok : (formatFat32Large os target options volumeSerial disk).result = .ok ()) :
    ∃ bpb fsInfo, layoutFat32 target.partitionSizeBytes options volumeSerial = .ok (bpb,fsInfo) ∧
      ((∀ other : Disk, other.totalBytes = disk.totalBytes →
          (formatFat32Large os target options volumeSerial other).result = .ok () →
          FatsInitialized target bpb.fatSize32.toNat (formatFat32Large os target options volumeSerial other).disk) ↔
        32 ≤ target.partitionSizeBytes.toNat / 512 +
            (sectorsPerClusterOf target.partitionSizeBytes options).toNat ∧
          target.partitionSizeBytes.toNat / 512 <
            16777246 + 1073741695 * (sectorsPerClusterOf target.partitionSizeBytes options).toNat) := by
  obtain ⟨bpb,fsInfo,layout,same⟩ := formatFat32Large_ok ok
  refine ⟨bpb,fsInfo,layout,?_⟩
  obtain ⟨boot,word,_⟩ := layoutFat32_boot layout
  obtain ⟨small,accepted,_,recorded⟩ := layoutFat32_ok layout
  have total : (target.partitionSizeBytes / 512).toNat = target.partitionSizeBytes.toNat / 512 := UInt64.toNat_div _ _
  have range := fatSize32_range accepted small
  have size : fatSize32 (target.partitionSizeBytes / 512) (sectorsPerClusterOf target.partitionSizeBytes options) =
      bpb.fatSize32 := by rw [recorded]
  rw [total,size] at range
  rw [← range.1,← range.2]
  constructor
  · intro initialized
    have written : (formatFat32Large os target options volumeSerial (filled disk.totalBytes 0xFF)).result = .ok () := by
      rw [same,(zeroedFirst_quick quick _).1] at ok ⊢
      exact @writeAll_alike os target disk (filled disk.totalBytes 0xFF) rfl _ ok
    have fresh := initialized (filled disk.totalBytes 0xFF) rfl written
    refine ⟨by have room := fresh.room; omega,Nat.not_le.mp (fun large => ?_)⟩
    rw [formatFat32Large_laid sector quick layout written] at fresh
    exact filled_uninitialized placed word boot large _ fresh
  · rintro ⟨positive,counted⟩ other _ written
    rw [formatFat32Large_laid sector quick layout written]
    exact laid_initialized placed word positive counted other

section Sample

theorem fats_sample : ∃ bpb fsInfo, layoutFat32 (partitionOf 0x4000000).partitionSizeBytes {} 0x1234 = .ok (bpb,fsInfo) ∧
    ((∀ other : Disk, other.totalBytes = (filled 0x8000000 0xFF).totalBytes →
        (formatFat32Large .working (partitionOf 0x4000000) {} 0x1234 other).result = .ok () →
        FatsInitialized (partitionOf 0x4000000) bpb.fatSize32.toNat
          (formatFat32Large .working (partitionOf 0x4000000) {} 0x1234 other).disk) ↔
      32 ≤ (partitionOf 0x4000000).partitionSizeBytes.toNat / 512 +
          (sectorsPerClusterOf (partitionOf 0x4000000).partitionSizeBytes {}).toNat ∧
        (partitionOf 0x4000000).partitionSizeBytes.toNat / 512 <
          16777246 + 1073741695 * (sectorsPerClusterOf (partitionOf 0x4000000).partitionSizeBytes {}).toNat) := by
  obtain ⟨_,_,_,_,ok⟩ := @partitionOf_formatted 0x4000000 {} (filled 0x8000000 0xFF) rfl rfl (by decide)
    (by decide) (by decide) (by decide)
  exact formatFat32Large_fats_iff .working (partitionOf 0x4000000) {} 0x1234 (filled 0x8000000 0xFF) (by decide)
    (by decide) rfl ok

/-- A volume of a terabyte with clusters of 512 bytes, whose FATs have more than 4 GB each. -/
theorem fats_begun : ∃ bpb fsInfo,
    layoutFat32 (partitionOf 0x10000000000).partitionSizeBytes { clusterSize := 512 } 0x1234 = .ok (bpb,fsInfo) ∧
    (formatFat32Large .working (partitionOf 0x10000000000) { clusterSize := 512 } 0x1234
      (filled 0x20000000000 0xFF)).result = .ok () ∧
    ¬ FatsInitialized (partitionOf 0x10000000000) bpb.fatSize32.toNat
      (formatFat32Large .working (partitionOf 0x10000000000) { clusterSize := 512 } 0x1234
        (filled 0x20000000000 0xFF)).disk := by
  obtain ⟨bpb,fsInfo,layout,_,ok⟩ := @partitionOf_formatted 0x10000000000 { clusterSize := 512 }
    (filled 0x20000000000 0xFF) rfl rfl (by decide) (by decide) (by decide) (by decide)
  obtain ⟨boot,word,_⟩ := layoutFat32_boot layout
  obtain ⟨_,_,_,recorded⟩ := layoutFat32_ok layout
  have large : 2 ^ 23 ≤ bpb.fatSize32.toNat := by
    rw [recorded]
    decide
  have sized : (partitionOf 0x10000000000).partitionSizeBytes = 0x10000000000 := rfl
  rw [← sized] at layout
  refine ⟨bpb,fsInfo,layout,ok,?_⟩
  have written := formatFat32Large_laid (by decide) rfl layout ok
  rw [written]
  exact filled_uninitialized (by decide) word boot large _

end Sample

end SetecWizard.Core.FormatEngine
