import SetecWizard.Gpt.EntryArray

/-! The two GPT headers. Both are records of fields at fixed offsets, sealed with a CRC
over the record in which the CRC field counts as zero; the backup is the primary
header with three fields replaced.
-/
namespace SetecWizard.Core
open SetecWizard.Library

namespace GptPartitionTable

section Seal

variable {header : List UInt8}

theorem sealHeader_eq (long : 92 ≤ header.length) : sealHeader header =
    splice header 16 (le32 (crc32 ((splice header 16 (le32 0)).take GPT_HEADER_SIZE.toNat))) := by
  rw [sealHeader,writeLE32,writeLE32]
  exact splice_splice_same header (le32 0) (le32 _) 16 rfl (by rw [length_le32]; omega)

theorem length_sealHeader (long : 92 ≤ header.length) : (sealHeader header).length = header.length := by
  rw [sealHeader_eq long,length_splice _ _ _ (by rw [length_le32]; omega)]

theorem slice_sealHeader (long : 92 ≤ header.length) {off n : Nat} (apart : off + n ≤ 16 ∨ 20 ≤ off) :
    slice (sealHeader header) off n = slice header off n := by
  rw [sealHeader_eq long,slice_splice_apart]
  · rw [length_le32]
    omega
  · rw [length_le32]
    omega

theorem sealHeader_valid (long : 92 ≤ header.length) :
    readLE32 (sealHeader header) 16 = crc32 (crcInput (sealHeader header) GPT_HEADER_SIZE) := by
  have size : GPT_HEADER_SIZE.toNat = 92 := rfl
  generalize sealed : crc32 ((splice header 16 (le32 0)).take GPT_HEADER_SIZE.toNat) = crc
  have stored : readLE32 (sealHeader header) 16 = crc := by
    apply readLE32_of_slice
    have field := slice_splice_same header (le32 crc) 16 (by rw [length_le32]; omega)
    rw [length_le32] at field
    rw [sealHeader_eq long,sealed,field]
  have zeroed : crcInput (sealHeader header) GPT_HEADER_SIZE =
      (splice header 16 (le32 0)).take GPT_HEADER_SIZE.toNat := by
    rw [sealHeader_eq long,sealed,crcInput,writeLE32,size,
      ← take_splice _ (le32 0) 16 92 (by rw [length_le32]; omega)
        (by rw [length_splice _ _ _ (by rw [length_le32]; omega)]; omega),
      splice_splice_same _ (le32 crc) (le32 0) 16 rfl (by rw [length_le32]; omega)]
  rw [stored,zeroed,sealed]

end Seal

def writtenLast (t : GptPartitionTable) : UInt64 :=
  if t.lastUsableLba = 0 then t.diskSectors - t.entryArraySectors.toUInt64 - 2 else t.lastUsableLba

def headerFields (t : GptPartitionTable) : List (Nat × List UInt8) :=
  [(0,le64 GPT_HEADER_SIGNATURE),(8,le32 t.revision),(12,le32 GPT_HEADER_SIZE),(20,le32 0),(24,le64 1),
    (32,le64 (t.diskSectors - 1)),(40,le64 t.firstUsableLba),(48,le64 t.writtenLast),(56,t.diskGuid.data),
    (72,le64 2),(80,le32 t.entryCount),(84,le32 t.entrySize),(88,le32 (crc32 t.entryArray))]

def backupFields (t : GptPartitionTable) : List (Nat × List UInt8) :=
  [(24,le64 (t.diskSectors - 1)),(32,le64 1),(72,le64 (t.diskSectors - 1 - t.entryArraySectors.toUInt64))]

section Headers

variable (t : GptPartitionTable)

theorem primaryHeader_eq :
    t.primaryHeader = sealHeader (overwrite (List.replicate t.sectorSize.toNat 0) t.headerFields) := rfl

theorem backupHeader_eq : t.backupHeader = sealHeader (overwrite t.primaryHeader t.backupFields) := rfl

theorem headerFields_layout : Fields 92 t.headerFields := by
  constructor <;> simp [headerFields,Outside,t.diskGuid.size]

theorem backupFields_layout : Fields 92 t.backupFields := by
  constructor <;> simp [backupFields,Outside]

end Headers

/-- A header that describes a table: everything a reader finds in it apart from the three
addresses that depend on which of the two headers it is. -/
structure Describes (header : List UInt8) (t : GptPartitionTable) : Prop where
  size : header.length = t.sectorSize.toNat
  signature : readLE64 header 0 = GPT_HEADER_SIGNATURE
  revision : readLE32 header 8 = t.revision
  headerSize : readLE32 header 12 = GPT_HEADER_SIZE
  crc : readLE32 header 16 = crc32 (crcInput header GPT_HEADER_SIZE)
  firstUsable : readLE64 header 40 = t.firstUsableLba
  lastUsable : readLE64 header 48 = t.writtenLast
  diskGuid : guidFromBytes header 56 = t.diskGuid
  entryCount : readLE32 header 80 = t.entryCount
  entrySize : readLE32 header 84 = t.entrySize
  entryCrc : readLE32 header 88 = crc32 t.entryArray

/-- The address of a header, of its sibling and of its entry array. -/
structure Addresses (header : List UInt8) (own other entries : UInt64) : Prop where
  own : readLE64 header 24 = own
  other : readLE64 header 32 = other
  entries : readLE64 header 72 = entries

section Reads

variable {t : GptPartitionTable} (long : 92 ≤ t.sectorSize.toNat)
include long

theorem fit_primary : ∀ field ∈ t.headerFields, field.1 + field.2.length ≤ t.sectorSize.toNat :=
  fun field member => (t.headerFields_layout.fit field member).trans long

theorem fit_backup : ∀ field ∈ t.backupFields, field.1 + field.2.length ≤ t.sectorSize.toNat :=
  fun field member => (t.backupFields_layout.fit field member).trans long

theorem length_primaryHeader : t.primaryHeader.length = t.sectorSize.toNat := by
  have whole := length_overwrite (fit_primary long) (List.length_replicate (a := (0 : UInt8)))
  rw [primaryHeader_eq,length_sealHeader (by omega),whole]

theorem length_backupHeader : t.backupHeader.length = t.sectorSize.toNat := by
  have whole := length_overwrite (fit_backup long) (length_primaryHeader long)
  rw [backupHeader_eq,length_sealHeader (by omega),whole]

theorem primaryHeader_field (off : Nat) (block : List UInt8) (member : (off,block) ∈ t.headerFields) :
    slice t.primaryHeader off block.length = block := by
  have beside : ∀ field ∈ t.headerFields, field.1 + field.2.length ≤ 16 ∨ 20 ≤ field.1 := by
    simp [headerFields,t.diskGuid.size]
  have whole := length_overwrite (fit_primary long) (List.length_replicate (a := (0 : UInt8)))
  rw [primaryHeader_eq,slice_sealHeader (by omega) (beside _ member)]
  exact Fields.read ⟨fit_primary long,t.headerFields_layout.apart⟩ List.length_replicate member

theorem backupHeader_field (off : Nat) (block : List UInt8) (member : (off,block) ∈ t.backupFields) :
    slice t.backupHeader off block.length = block := by
  have beside : ∀ field ∈ t.backupFields, field.1 + field.2.length ≤ 16 ∨ 20 ≤ field.1 := by
    simp [backupFields]
  have whole := length_overwrite (fit_backup long) (length_primaryHeader long)
  rw [backupHeader_eq,slice_sealHeader (by omega) (beside _ member)]
  exact Fields.read ⟨fit_backup long,t.backupFields_layout.apart⟩ (length_primaryHeader long) member

theorem backupHeader_kept (off : Nat) (block : List UInt8) (member : (off,block) ∈ t.headerFields)
    (apart : ∀ field ∈ t.backupFields, Outside field off block.length) :
    slice t.backupHeader off block.length = block := by
  have beside : ∀ field ∈ t.headerFields, field.1 + field.2.length ≤ 16 ∨ 20 ≤ field.1 := by
    simp [headerFields,t.diskGuid.size]
  have whole := length_overwrite (fit_backup long) (length_primaryHeader long)
  rw [backupHeader_eq,slice_sealHeader (by omega) (beside _ member),
    slice_overwrite_apart (fit_backup long) (length_primaryHeader long) apart]
  exact primaryHeader_field long off block member

/-- Whatever holds the common fields and a valid CRC describes the table. -/
theorem describes_of_fields {header : List UInt8} (size : header.length = t.sectorSize.toNat)
    (field : ∀ off block, (off,block) ∈ t.headerFields → off ∉ [24,32,72] →
      slice header off block.length = block)
    (crc : readLE32 header 16 = crc32 (crcInput header GPT_HEADER_SIZE)) : Describes header t where
  size := size
  signature := readLE64_of_slice (field 0 (le64 GPT_HEADER_SIGNATURE) (by simp [headerFields]) (by decide))
  revision := readLE32_of_slice (field 8 (le32 t.revision) (by simp [headerFields]) (by decide))
  headerSize := readLE32_of_slice (field 12 (le32 GPT_HEADER_SIZE) (by simp [headerFields]) (by decide))
  crc := crc
  firstUsable := readLE64_of_slice (field 40 (le64 t.firstUsableLba) (by simp [headerFields]) (by decide))
  lastUsable := readLE64_of_slice (field 48 (le64 t.writtenLast) (by simp [headerFields]) (by decide))
  diskGuid := by
    have guid := field 56 t.diskGuid.data (by simp [headerFields]) (by decide)
    rw [t.diskGuid.size] at guid
    exact Bytes.copy_of_slice _ (by omega) guid
  entryCount := readLE32_of_slice (field 80 (le32 t.entryCount) (by simp [headerFields]) (by decide))
  entrySize := readLE32_of_slice (field 84 (le32 t.entrySize) (by simp [headerFields]) (by decide))
  entryCrc := readLE32_of_slice (field 88 (le32 (crc32 t.entryArray)) (by simp [headerFields]) (by decide))

theorem primaryHeader_describes : Describes t.primaryHeader t := by
  refine describes_of_fields long (length_primaryHeader long)
    (fun off block member _ => primaryHeader_field long off block member) ?_
  have whole := length_overwrite (fit_primary long) (List.length_replicate (a := (0 : UInt8)))
  rw [primaryHeader_eq]
  exact sealHeader_valid (by omega)

theorem backupHeader_describes : Describes t.backupHeader t := by
  have clear : ∀ header ∈ t.headerFields, header.1 ∉ [24,32,72] →
      ∀ field ∈ t.backupFields, Outside field header.1 header.2.length := by
    simp [headerFields,backupFields,Outside,t.diskGuid.size]
  refine describes_of_fields long (length_backupHeader long)
    (fun off block member other => backupHeader_kept long off block member (clear _ member other)) ?_
  have whole := length_overwrite (fit_backup long) (length_primaryHeader long)
  rw [backupHeader_eq]
  exact sealHeader_valid (by omega)

theorem primaryHeader_addresses : Addresses t.primaryHeader 1 (t.diskSectors - 1) 2 where
  own := readLE64_of_slice (primaryHeader_field long 24 (le64 1) (by simp [headerFields]))
  other := readLE64_of_slice (primaryHeader_field long 32 (le64 (t.diskSectors - 1)) (by simp [headerFields]))
  entries := readLE64_of_slice (primaryHeader_field long 72 (le64 2) (by simp [headerFields]))

theorem backupHeader_addresses : Addresses t.backupHeader (t.diskSectors - 1) 1
    (t.diskSectors - 1 - t.entryArraySectors.toUInt64) where
  own := readLE64_of_slice (backupHeader_field long 24 (le64 (t.diskSectors - 1)) (by simp [backupFields]))
  other := readLE64_of_slice (backupHeader_field long 32 (le64 1) (by simp [backupFields]))
  entries := readLE64_of_slice (backupHeader_field long 72
    (le64 (t.diskSectors - 1 - t.entryArraySectors.toUInt64)) (by simp [backupFields]))

end Reads

end GptPartitionTable
end SetecWizard.Core
