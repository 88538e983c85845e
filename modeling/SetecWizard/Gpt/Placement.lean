import SetecWizard.Gpt.Header

/-! A GPT on a disk. `Placed` says which bytes stand where; whatever reads them back
through a callback gets the table that was written. The pieces of a serialized table,
each put where the two headers say, are placed.
-/
namespace SetecWizard.Core
open SetecWizard.Library

namespace GptPartitionTable

/-- A callback that returns the bytes of a store for whole sectors inside it. -/
def Reads (readFunc : DiskReadCallback) (sectorSize : Nat) (store : Nat → UInt8) (size : Nat) : Prop :=
  ∀ off n, sectorSize ∣ off.toNat → sectorSize ∣ n.toNat → off.toNat + n.toNat ≤ size →
    readFunc off n = .ok (window store off.toNat n.toNat)

/-- A table whose entry array fills whole sectors. -/
structure Shaped (t : GptPartitionTable) : Prop where
  std : t.Standard
  sector : t.sectorSize = 512 ∨ t.sectorSize = 4096

/-- The disk has room for both copies. -/
structure Geometry (t : GptPartitionTable) : Prop extends Shaped t where
  large : 67 ≤ t.diskSizeBytes.toNat / t.sectorSize.toNat

theorem sectors_inside (t : GptPartitionTable) (lba : Nat) (below : lba ≤ t.diskSectors.toNat) :
    lba * t.sectorSize.toNat ≤ t.diskSizeBytes.toNat := by
  rw [t.diskSectors_toNat] at below
  have whole := Nat.div_mul_le_self t.diskSizeBytes.toNat t.sectorSize.toNat
  exact (Nat.mul_le_mul_right _ below).trans whole

theorem sector_address (t : GptPartitionTable) (lba : UInt64) (below : lba.toNat < t.diskSectors.toNat) :
    (lba * t.sectorSize.toUInt64).toNat = lba.toNat * t.sectorSize.toNat := by
  have bound := t.sectors_inside _ (Nat.le_of_lt below)
  have small := t.diskSizeBytes.toNat_lt
  rw [UInt64.toNat_mul,UInt32.toNat_toUInt64,Nat.mod_eq_of_lt (by omega)]

section Shape

variable {t : GptPartitionTable} (geo : t.Shaped)
include geo

theorem Shaped.size : t.sectorSize.toNat = 512 ∨ t.sectorSize.toNat = 4096 := by
  rcases geo.sector with small | large
  · exact .inl (congrArg UInt32.toNat small)
  · exact .inr (congrArg UInt32.toNat large)

theorem Shaped.long : 92 ≤ t.sectorSize.toNat := by
  have size := geo.size
  omega

theorem Shaped.arraySectors : t.entryArraySectors.toNat * t.sectorSize.toNat = 16384 ∧
    t.entryArraySectors.toNat ≤ 32 := by
  have bytes := geo.std.bytes
  rcases geo.sector with small | large
  · rw [entryArraySectors,bytes,small]
    decide
  · rw [entryArraySectors,bytes,large]
    decide

theorem Shaped.paddedEntries_eq : t.paddedEntries = t.entryArray := by
  have length := geo.std.length_entryArray
  have bytes : (t.entryArraySectors * t.sectorSize).toNat = 16384 := by
    rw [UInt32.toNat_mul,geo.arraySectors.1]
  have zeros : (List.replicate 16384 (0 : UInt8)).length = 16384 := List.length_replicate
  rw [paddedEntries,bytes,splice,length,Nat.zero_add,List.take_zero,List.nil_append,
    List.drop_eq_nil_of_le (Nat.le_of_eq zeros),List.append_nil]

end Shape

section Sizes

variable {t : GptPartitionTable} (geo : t.Geometry)
include geo

theorem Geometry.last_toNat : (t.diskSectors - 1).toNat = t.diskSectors.toNat - 1 := by
  have many := geo.large
  rw [← t.diskSectors_toNat] at many
  have one : (1 : UInt64).toNat = 1 := rfl
  rw [UInt64.toNat_sub_of_le _ _ (by rw [UInt64.le_iff_toNat_le,one]; omega),one]

theorem Geometry.backup_toNat : (t.diskSectors - 1 - t.entryArraySectors.toUInt64).toNat =
    t.diskSectors.toNat - 1 - t.entryArraySectors.toNat := by
  have many := geo.large
  have few := geo.arraySectors.2
  rw [← t.diskSectors_toNat] at many
  have wide : t.entryArraySectors.toUInt64.toNat = t.entryArraySectors.toNat := UInt32.toNat_toUInt64 _
  rw [UInt64.toNat_sub_of_le _ _ (by rw [UInt64.le_iff_toNat_le,geo.last_toNat,wide]; omega),
    geo.last_toNat,wide]

end Sizes

/-- Where the two headers and the two entry arrays of a table stand. -/
structure Placed (t : GptPartitionTable) (store : Nat → UInt8) : Prop where
  header : window store t.sectorSize.toNat t.sectorSize.toNat = t.primaryHeader
  entries : window store (2 * t.sectorSize.toNat) 16384 = t.entryArray
  backupEntries : window store ((t.diskSectors.toNat - 1 - t.entryArraySectors.toNat) * t.sectorSize.toNat)
    16384 = t.entryArray
  backupHeader : window store ((t.diskSectors.toNat - 1) * t.sectorSize.toNat) t.sectorSize.toNat =
    t.backupHeader

/-- What `parse` takes from the primary header of a table. -/
def adopted (t self : GptPartitionTable) (protectiveMbr : Bytes 512) : GptPartitionTable :=
  { self with
    protectiveMbr := protectiveMbr
    revision := t.revision
    alternateLba := t.diskSectors - 1
    firstUsableLba := t.firstUsableLba
    lastUsableLba := t.writtenLast
    diskGuid := t.diskGuid
    entryCount := t.entryCount
    entrySize := t.entrySize }

section ReadBack

variable {t self : GptPartitionTable} {store : Nat → UInt8} {readFunc : DiskReadCallback}
  (geo : t.Geometry) (placed : t.Placed store) (reads : Reads readFunc t.sectorSize.toNat store t.diskSizeBytes.toNat)
  (disk : self.diskSizeBytes = t.diskSizeBytes) (sector : self.sectorSize = t.sectorSize)

include reads

theorem Reads.sectors {lba : UInt64} {n : UInt32} {sectors : Nat} (exact : n.toNat = sectors * t.sectorSize.toNat)
    (positive : 0 < sectors) (below : lba.toNat + sectors ≤ t.diskSectors.toNat) :
    readFunc (lba * t.sectorSize.toUInt64) n =
      .ok (window store (lba.toNat * t.sectorSize.toNat) n.toNat) := by
  have address := t.sector_address lba (by omega)
  have bound := t.sectors_inside _ below
  rw [Nat.add_mul,← exact] at bound
  have aligned : t.sectorSize.toNat ∣ (lba * t.sectorSize.toUInt64).toNat :=
    address ▸ Nat.dvd_mul_left _ _
  rw [reads _ _ aligned (exact ▸ Nat.dvd_mul_left _ _) (by rw [address]; exact bound),address]

theorem Reads.oneSector (lba : UInt64) (below : lba.toNat < t.diskSectors.toNat) :
    readFunc (lba * t.sectorSize.toUInt64) t.sectorSize =
      .ok (window store (lba.toNat * t.sectorSize.toNat) t.sectorSize.toNat) :=
  reads.sectors (Nat.one_mul _).symm (by decide) below

include geo

theorem Geometry.read_array (lba : UInt64)
    (below : lba.toNat + t.entryArraySectors.toNat ≤ t.diskSectors.toNat) :
    readFunc (lba * t.sectorSize.toUInt64) (t.entryCount * t.entrySize) =
      .ok (window store (lba.toNat * t.sectorSize.toNat) 16384) := by
  have bytes : (t.entryCount * t.entrySize).toNat = 16384 := congrArg UInt32.toNat geo.std.bytes
  have sectors := geo.arraySectors
  have positive : 0 < t.entryArraySectors.toNat := by
    rcases Nat.eq_zero_or_pos t.entryArraySectors.toNat with zero | positive
    · rw [zero,Nat.zero_mul] at sectors
      exact absurd sectors.1 (by decide)
    · exact positive
  rw [reads.sectors (bytes.trans sectors.1.symm) positive below,bytes]

include placed

theorem Placed.read_header :
    readFunc t.sectorSize.toUInt64 t.sectorSize = .ok t.primaryHeader := by
  have many := geo.large
  rw [← t.diskSectors_toNat] at many
  have one : (1 : UInt64).toNat = 1 := rfl
  have read := reads.oneSector 1 (by rw [one]; omega)
  rw [UInt64.one_mul,one,Nat.one_mul,placed.header] at read
  exact read

theorem Placed.read_entries :
    readFunc (2 * t.sectorSize.toUInt64) (t.entryCount * t.entrySize) = .ok t.entryArray := by
  have many := geo.large
  rw [← t.diskSectors_toNat] at many
  have few := geo.arraySectors.2
  have two : (2 : UInt64).toNat = 2 := rfl
  have read := geo.read_array reads 2 (by rw [two]; omega)
  rw [two,placed.entries] at read
  exact read

theorem Placed.read_backup :
    readFunc ((t.diskSectors - 1) * t.sectorSize.toUInt64) t.sectorSize = .ok t.backupHeader := by
  have many := geo.large
  rw [← t.diskSectors_toNat] at many
  have last := geo.last_toNat
  rw [reads.oneSector _ (by omega),last,placed.backupHeader]

theorem Placed.read_backupEntries :
    readFunc ((t.diskSectors - 1 - t.entryArraySectors.toUInt64) * t.sectorSize.toUInt64)
      (t.entryCount * t.entrySize) = .ok t.entryArray := by
  have many := geo.large
  rw [← t.diskSectors_toNat] at many
  have few := geo.arraySectors.2
  have first := geo.backup_toNat
  rw [geo.read_array reads _ (by omega),first,placed.backupEntries]

include sector

theorem Placed.parse : ∃ protectiveMbr, self.parse readFunc =
    .ok (parseEntries (t.adopted self protectiveMbr) t.entryArray) := by
  have describes := primaryHeader_describes geo.long
  have addresses := primaryHeader_addresses geo.long
  have long := geo.long
  have minimum : ¬ t.primaryHeader.length < GPT_HEADER_SIZE.toNat := by
    rw [describes.size]
    exact Nat.not_lt.mpr long
  have wide : ¬ t.entrySize < GPT_ENTRY_SIZE := by
    rw [geo.std.size]
    decide
  have few : ¬ 1024 < t.entryCount := by
    rw [geo.std.count]
    decide
  have first := reads 0 t.sectorSize (Nat.dvd_zero _) (Nat.dvd_refl _) (by
    have many := geo.large
    have one := t.sectors_inside 1 (by rw [t.diskSectors_toNat]; omega)
    have zero : (0 : UInt64).toNat = 0 := rfl
    omega)
  refine ⟨if 512 ≤ (window store (0 : UInt64).toNat t.sectorSize.toNat).length then
    .copy (window store (0 : UInt64).toNat t.sectorSize.toNat) 0 512 else self.protectiveMbr,?_⟩
  simp only [GptPartitionTable.parse,sector,first,placed.read_header geo reads,bind,Except.bind,refuse,
    minimum,describes.signature,describes.revision,describes.firstUsable,describes.lastUsable,
    describes.diskGuid,describes.entryCount,describes.entrySize,addresses.other,addresses.entries,
    wide,few,placed.read_entries geo reads,if_false,ne_eq,not_true]
  simp only [adopted,sector]
  rfl

theorem Placed.validateCrcs : self.validateCrcs readFunc = .ok () := by
  have describes := primaryHeader_describes geo.long
  have addresses := primaryHeader_addresses geo.long
  have bytes : (t.entryCount * t.entrySize).toNat = 16384 := congrArg UInt32.toNat geo.std.bytes
  have whole : t.entryArray.take 16384 = t.entryArray :=
    List.take_of_length_le (Nat.le_of_eq geo.std.length_entryArray)
  simp only [GptPartitionTable.validateCrcs,sector,placed.read_header geo reads,bind,Except.bind,refuse,
    describes.headerSize,describes.crc,describes.entryCount,describes.entrySize,describes.entryCrc,
    addresses.entries,placed.read_entries geo reads,bytes,whole,ne_eq,not_true,if_false]

theorem Placed.parseBackup (disk : self.diskSizeBytes = t.diskSizeBytes)
    (known : self.alternateLba = 0 ∨ self.alternateLba = t.diskSectors - 1) :
    self.parseBackup readFunc = .ok (parseEntries { self with
      alternateLba := t.diskSectors - 1
      entryCount := t.entryCount
      entrySize := t.entrySize } t.entryArray) := by
  have describes := backupHeader_describes geo.long
  have addresses := backupHeader_addresses geo.long
  have long := geo.long
  have minimum : ¬ t.backupHeader.length < GPT_HEADER_SIZE.toNat := by
    rw [describes.size]
    exact Nat.not_lt.mpr long
  have last : (if self.alternateLba = 0 then self.diskSizeBytes / self.sectorSize.toUInt64 - 1
      else self.alternateLba) = t.diskSectors - 1 := by
    split
    · rw [disk,sector,diskSectors]
    next nonzero => exact known.resolve_left nonzero
  have read := placed.read_backup geo reads
  have array := placed.read_backupEntries geo reads
  rw [← sector] at read array
  simp only [GptPartitionTable.parseBackup,last,read,bind,Except.bind,refuse,minimum,describes.signature,
    describes.entryCount,describes.entrySize,addresses.entries,array,if_false,ne_eq,not_true]
  rfl

end ReadBack

/-- The serialized image cut into its five pieces, each put at the address that the
headers name. -/
def placePieces (sectorSize : Nat) (image : List UInt8) (base : Nat → UInt8) : Nat → UInt8 :=
  let array := (image.length - 3 * sectorSize) / 2
  let header := slice image sectorSize sectorSize
  let backup := slice image (2 * sectorSize + 2 * array) sectorSize
  let store := patch base 0 (slice image 0 sectorSize)
  let store := patch store ((readLE64 header 24).toNat * sectorSize) header
  let store := patch store ((readLE64 header 72).toNat * sectorSize) (slice image (2 * sectorSize) array)
  let store := patch store ((readLE64 backup 72).toNat * sectorSize)
    (slice image (2 * sectorSize + array) array)
  patch store ((readLE64 header 32).toNat * sectorSize) backup

def protFields (t : GptPartitionTable) : List (Nat × List UInt8) :=
  [(MBR_PARTITION_ENTRY_OFFSET,t.protectiveEntry),(MBR_PARTITION_ENTRY_OFFSET + 16,List.replicate 48 0),
    (510,le16 MBR_SIGNATURE)]

def preserved (t : GptPartitionTable) : List UInt8 :=
  splice (List.replicate t.sectorSize.toNat 0) 0 (t.protectiveMbr.data.take (min 512 t.sectorSize.toNat))

theorem protMbr_eq (t : GptPartitionTable) : t.protMbr = overwrite t.preserved t.protFields := rfl

theorem length_protectiveEntry (t : GptPartitionTable) : t.protectiveEntry.length = 16 := rfl

theorem protFields_layout (t : GptPartitionTable) : Fields 512 t.protFields := by
  have base : MBR_PARTITION_ENTRY_OFFSET = 446 := rfl
  constructor <;> simp [protFields,Outside,base,length_protectiveEntry]

theorem length_preserved (t : GptPartitionTable) : t.preserved.length = t.sectorSize.toNat := by
  rw [preserved,length_splice,List.length_replicate]
  rw [List.length_take,List.length_replicate]
  omega

theorem length_protMbr {t : GptPartitionTable} (long : 512 ≤ t.sectorSize.toNat) :
    t.protMbr.length = t.sectorSize.toNat := by
  rw [protMbr_eq]
  refine length_overwrite (fun field member => ?_) t.length_preserved
  have fit := t.protFields_layout.fit field member
  omega

section Image

variable {t : GptPartitionTable} (geo : t.Shaped)
include geo

theorem Shaped.whole : 512 ≤ t.sectorSize.toNat := by
  have size := geo.size
  omega

theorem Shaped.length_protMbr : t.protMbr.length = t.sectorSize.toNat :=
  GptPartitionTable.length_protMbr geo.whole

theorem Shaped.image_pieces {image : List UInt8} (serialized : t.serialize = .ok image) :
    image.length = 3 * t.sectorSize.toNat + 2 * 16384 ∧
    slice image 0 t.sectorSize.toNat = t.protMbr ∧
    slice image t.sectorSize.toNat t.sectorSize.toNat = t.primaryHeader ∧
    slice image (2 * t.sectorSize.toNat) 16384 = t.entryArray ∧
    slice image (2 * t.sectorSize.toNat + 16384) 16384 = t.entryArray ∧
    slice image (2 * t.sectorSize.toNat + 2 * 16384) t.sectorSize.toNat = t.backupHeader := by
  have mbr := geo.length_protMbr
  have header := length_primaryHeader geo.long
  have array := geo.std.length_entryArray
  have backup := length_backupHeader geo.long
  simp only [serialize,geo.paddedEntries_eq,List.append_assoc,Except.ok.injEq] at serialized
  rw [← serialized]
  have at_mbr := slice_middle [] t.protMbr (t.primaryHeader ++ (t.entryArray ++ (t.entryArray ++ t.backupHeader)))
  have at_header := slice_middle t.protMbr t.primaryHeader (t.entryArray ++ (t.entryArray ++ t.backupHeader))
  have at_array := slice_middle (t.protMbr ++ t.primaryHeader) t.entryArray (t.entryArray ++ t.backupHeader)
  have at_copy := slice_middle (t.protMbr ++ t.primaryHeader ++ t.entryArray) t.entryArray t.backupHeader
  have at_backup := slice_middle (t.protMbr ++ t.primaryHeader ++ t.entryArray ++ t.entryArray) t.backupHeader []
  simp only [List.append_assoc,List.append_nil,List.nil_append,List.length_append,List.length_nil,mbr,header,
    array,backup] at at_mbr at_header at_array at_copy at_backup
  refine ⟨?_,at_mbr,at_header,?_,?_,?_⟩
  · simp only [List.length_append,mbr,header,array,backup]
    omega
  · rw [Nat.two_mul]
    exact at_array
  · rw [Nat.two_mul,Nat.add_assoc]
    exact at_copy
  · rw [Nat.two_mul,Nat.two_mul,Nat.add_assoc]
    exact at_backup

end Image

section Pieces

variable {t : GptPartitionTable} (geo : t.Geometry)
include geo

theorem Geometry.backup_adjacent :
    (t.diskSectors.toNat - 1 - t.entryArraySectors.toNat) * t.sectorSize.toNat + 16384 =
      (t.diskSectors.toNat - 1) * t.sectorSize.toNat := by
  have many := geo.large
  rw [← t.diskSectors_toNat] at many
  have few := geo.arraySectors
  rw [← few.1,← Nat.add_mul]
  congr 1
  omega

theorem Geometry.primary_before :
    2 * t.sectorSize.toNat + 16384 ≤
      (t.diskSectors.toNat - 1 - t.entryArraySectors.toNat) * t.sectorSize.toNat := by
  have many := geo.large
  rw [← t.diskSectors_toNat] at many
  have few := geo.arraySectors
  rw [← few.1,← Nat.add_mul]
  exact Nat.mul_le_mul_right _ (by omega)

theorem Geometry.placePieces_eq {image : List UInt8} (serialized : t.serialize = .ok image)
    (base : Nat → UInt8) : placePieces t.sectorSize.toNat image base =
      patch (patch (patch (patch (patch base 0 t.protMbr) t.sectorSize.toNat t.primaryHeader)
        (2 * t.sectorSize.toNat) t.entryArray)
        ((t.diskSectors.toNat - 1 - t.entryArraySectors.toNat) * t.sectorSize.toNat) t.entryArray)
        ((t.diskSectors.toNat - 1) * t.sectorSize.toNat) t.backupHeader := by
  obtain ⟨length,mbr,header,array,copy,backup⟩ := geo.image_pieces serialized
  have half : (image.length - 3 * t.sectorSize.toNat) / 2 = 16384 := by omega
  have primary := primaryHeader_addresses geo.long
  have secondary := backupHeader_addresses geo.long
  have one : (1 : UInt64).toNat = 1 := rfl
  have two : (2 : UInt64).toNat = 2 := rfl
  simp only [placePieces,half,mbr,header,array,copy,backup,primary.own,primary.other,primary.entries,
    secondary.entries,geo.last_toNat,geo.backup_toNat,one,two,Nat.one_mul]

theorem Geometry.placed {image : List UInt8} (serialized : t.serialize = .ok image)
    (base : Nat → UInt8) : t.Placed (placePieces t.sectorSize.toNat image base) := by
  have mbr := geo.length_protMbr
  have header := length_primaryHeader geo.long
  have array := geo.std.length_entryArray
  have backup := length_backupHeader geo.long
  have adjacent := geo.backup_adjacent
  have before := geo.primary_before
  rw [geo.placePieces_eq serialized]
  constructor
  · rw [window_patch_apart _ _ _ _ _ (by omega),window_patch_apart _ _ _ _ _ (by omega),
      window_patch_apart _ _ _ _ _ (by omega)]
    exact window_patch_whole _ _ header
  · rw [window_patch_apart _ _ _ _ _ (by omega),window_patch_apart _ _ _ _ _ (by omega)]
    exact window_patch_whole _ _ array
  · rw [window_patch_apart _ _ _ _ _ (by omega)]
    exact window_patch_whole _ _ array
  · exact window_patch_whole _ _ backup

theorem Geometry.placed_first {image : List UInt8} (serialized : t.serialize = .ok image)
    (base : Nat → UInt8) :
    window (placePieces t.sectorSize.toNat image base) 0 t.sectorSize.toNat = t.protMbr := by
  have mbr := geo.length_protMbr
  have adjacent := geo.backup_adjacent
  have before := geo.primary_before
  rw [geo.placePieces_eq serialized,window_patch_apart _ _ _ _ _ (by omega),
    window_patch_apart _ _ _ _ _ (by omega),window_patch_apart _ _ _ _ _ (by omega),
    window_patch_apart _ _ _ _ _ (by omega)]
  exact window_patch_whole _ _ mbr

theorem Geometry.placed_between {image : List UInt8} (serialized : t.serialize = .ok image)
    (base : Nat → UInt8) (i : Nat) (low : 2 * t.sectorSize.toNat + 16384 ≤ i)
    (high : i < (t.diskSectors.toNat - 1 - t.entryArraySectors.toNat) * t.sectorSize.toNat) :
    placePieces t.sectorSize.toNat image base i = base i := by
  have mbr := geo.length_protMbr
  have header := length_primaryHeader geo.long
  have array := geo.std.length_entryArray
  have adjacent := geo.backup_adjacent
  rw [geo.placePieces_eq serialized,patch_apart _ _ _ _ (.inl (by omega)),
    patch_apart _ _ _ _ (.inl (by omega)),patch_apart _ _ _ _ (.inr (by omega)),
    patch_apart _ _ _ _ (.inr (by omega)),patch_apart _ _ _ _ (.inr (by omega))]

end Pieces

end GptPartitionTable
end SetecWizard.Core
