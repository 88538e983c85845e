import SetecWizard.Core.BootRepair
import SetecWizard.Format.Crc32
import SetecWizard.Format.Integers

/-! The headers a repair reads and writes. A header with a new position keeps every other
field, and is valid unless its CRC covers bytes that are not its own.
-/
namespace SetecWizard.Core.BootRepair
open SetecWizard.Library

/-- What the validation of a header asks for, its CRC apart. -/
structure ProperHeader (header : List UInt8) : Prop where
  long : 92 ≤ header.length
  signature : readLE64 header 0 = GPT_HEADER_SIGNATURE
  revision : 0x00010000 ≤ readLE32 header 8
  sizeLow : 92 ≤ readLE32 header 12
  sizeHigh : readLE32 header 12 ≤ 512

structure ValidHeader (header : List UInt8) : Prop extends ProperHeader header where
  crc : crc32 (GptPartitionTable.crcInput header (readLE32 header 12)) = readLE32 header 16

theorem validateGptHeader_iff {header : List UInt8} : validateGptHeader header = true ↔ ValidHeader header := by
  have size : GPT_HEADER_SIZE.toNat = 92 := rfl
  simp only [validateGptHeader,size,Bool.and_eq_true,decide_eq_true_eq]
  constructor
  · rintro ⟨⟨⟨⟨long,signature⟩,revision⟩,low,high⟩,crc⟩
    exact ⟨⟨long,signature,revision,low,high⟩,crc⟩
  · rintro ⟨⟨long,signature,revision,low,high⟩,crc⟩
    exact ⟨⟨⟨⟨long,signature⟩,revision⟩,low,high⟩,crc⟩

/-- The bytes in memory behind the copy of a header count in its CRC as zeros would. -/
def ZeroBehind (env : RepairEnv) (headerSize : UInt32) : Prop :=
  crc32 (env.behindHeader.data.take (headerSize.toNat - 92)) = crc32 (List.replicate (headerSize.toNat - 92) 0)

instance (env : RepairEnv) (headerSize : UInt32) : Decidable (ZeroBehind env headerSize) :=
  inferInstanceAs (Decidable (_ = _))

theorem zeroBehind_92 (env : RepairEnv) : ZeroBehind env 92 := rfl

section Moved

variable (env : RepairEnv) (hdr : List UInt8) (myLba alternateLba entryLba : UInt64)

def movedFields : List (Nat × List UInt8) :=
  [(24,le64 myLba),(32,le64 alternateLba),(72,le64 entryLba),(16,le32 0)]

/-- The header in its new position, before its CRC is known. -/
def blankHeader : List UInt8 := overwrite hdr (movedFields myLba alternateLba entryLba)

theorem moveHeader_eq : moveHeader env hdr myLba alternateLba entryLba =
    splice (blankHeader hdr myLba alternateLba entryLba) 16 (le32
      (crc32 ((blankHeader hdr myLba alternateLba entryLba ++ env.behindHeader.data).take
        (readLE32 (blankHeader hdr myLba alternateLba entryLba) 12).toNat))) := rfl

theorem movedFields_layout : Fields 92 (movedFields myLba alternateLba entryLba) := by
  constructor <;> simp [movedFields,Outside]

variable {hdr}

theorem length_blankHeader (size : hdr.length = 92) :
    (blankHeader hdr myLba alternateLba entryLba).length = 92 :=
  length_overwrite (movedFields_layout myLba alternateLba entryLba).fit size

theorem length_moveHeader (size : hdr.length = 92) :
    (moveHeader env hdr myLba alternateLba entryLba).length = 92 := by
  have blank := length_blankHeader myLba alternateLba entryLba size
  rw [moveHeader_eq,length_splice _ _ _ (by rw [blank,length_le32]; decide),blank]

theorem slice_blankHeader (size : hdr.length = 92) {off n : Nat}
    (apart : ∀ field ∈ movedFields myLba alternateLba entryLba, Outside field off n) :
    slice (blankHeader hdr myLba alternateLba entryLba) off n = slice hdr off n :=
  slice_overwrite_apart (movedFields_layout myLba alternateLba entryLba).fit size apart

theorem slice_moveHeader (size : hdr.length = 92) {off n : Nat} (apart : off + n ≤ 16 ∨ 20 ≤ off) :
    slice (moveHeader env hdr myLba alternateLba entryLba) off n =
      slice (blankHeader hdr myLba alternateLba entryLba) off n := by
  have blank := length_blankHeader myLba alternateLba entryLba size
  rw [moveHeader_eq,slice_splice_apart]
  · rw [blank,length_le32]
    decide
  · rwa [length_le32]

variable {sectorSize : UInt32}

theorem headerSector_eq {header : List UInt8} (size : header.length = 92) :
    headerSector sectorSize header = header ++ List.replicate (sectorSize.toNat - 92) 0 := by
  rw [headerSector,splice,List.take_zero,List.nil_append,List.drop_replicate,size,Nat.zero_add]

theorem length_headerSector (long : 512 ≤ sectorSize.toNat) {header : List UInt8} (size : header.length = 92) :
    (headerSector sectorSize header).length = sectorSize.toNat := by
  rw [headerSector_eq size,List.length_append,List.length_replicate,size]
  omega

def movedSector (sectorSize : UInt32) (header : List UInt8) : List UInt8 :=
  headerSector sectorSize (moveHeader env (header.take 92) myLba alternateLba entryLba)

theorem take_92 {header : List UInt8} (long : 92 ≤ header.length) : (header.take 92).length = 92 := by
  rw [List.length_take]
  omega

section Kept

variable {header : List UInt8} (long : 92 ≤ header.length)
include long

theorem length_movedSector (wide : 512 ≤ sectorSize.toNat) :
    (movedSector env myLba alternateLba entryLba sectorSize header).length = sectorSize.toNat :=
  length_headerSector wide (length_moveHeader env myLba alternateLba entryLba (take_92 long))

theorem slice_movedSector {off n : Nat} (inside : off + n ≤ 92) :
    slice (movedSector env myLba alternateLba entryLba sectorSize header) off n =
      slice (moveHeader env (header.take 92) myLba alternateLba entryLba) off n := by
  have size := length_moveHeader env myLba alternateLba entryLba (take_92 long)
  rw [movedSector,headerSector_eq size,slice_append_left _ _ _ _ (by omega)]

/-- Every field but the three positions and the CRC is that of the header copied. -/
theorem movedSector_kept {off n : Nat} (inside : off + n ≤ 92) (beside : off + n ≤ 16 ∨ 20 ≤ off)
    (apart : ∀ field ∈ movedFields myLba alternateLba entryLba, Outside field off n) :
    slice (movedSector env myLba alternateLba entryLba sectorSize header) off n = slice header off n := by
  rw [slice_movedSector env myLba alternateLba entryLba long inside,
    slice_moveHeader env myLba alternateLba entryLba (take_92 long) beside,
    slice_blankHeader myLba alternateLba entryLba (take_92 long) apart]
  exact slice_slice header 0 92 off n inside |>.trans (by rw [Nat.zero_add])

theorem partitionEntryLba_movedSector :
    partitionEntryLba (movedSector env myLba alternateLba entryLba sectorSize header) = entryLba := by
  refine readLE64_of_slice ?_
  rw [slice_movedSector env myLba alternateLba entryLba long (by decide),
    slice_moveHeader env myLba alternateLba entryLba (take_92 long) (.inr (by decide))]
  exact (movedFields_layout myLba alternateLba entryLba).read (take_92 long)
    (by simp [movedFields] : (72,le64 entryLba) ∈ movedFields myLba alternateLba entryLba)

theorem readLE32_movedSector {off : Nat} (inside : off + 4 ≤ 92) (beside : off + 4 ≤ 16 ∨ 20 ≤ off)
    (apart : ∀ field ∈ movedFields myLba alternateLba entryLba, Outside field off 4) :
    readLE32 (movedSector env myLba alternateLba entryLba sectorSize header) off = readLE32 header off := by
  apply UInt32.toNat_inj.mp
  rw [readLE32_toNat,readLE32_toNat,
    movedSector_kept env myLba alternateLba entryLba long inside beside apart]

theorem readLE64_movedSector {off : Nat} (inside : off + 8 ≤ 92) (beside : off + 8 ≤ 16 ∨ 20 ≤ off)
    (apart : ∀ field ∈ movedFields myLba alternateLba entryLba, Outside field off 8) :
    readLE64 (movedSector env myLba alternateLba entryLba sectorSize header) off = readLE64 header off := by
  apply UInt64.toNat_inj.mp
  rw [readLE64_toNat,readLE64_toNat,
    movedSector_kept env myLba alternateLba entryLba long inside beside apart]

theorem entryField_movedSector {off : Nat} (low : 80 ≤ off) (high : off + 4 ≤ 92) :
    readLE32 (movedSector env myLba alternateLba entryLba sectorSize header) off = readLE32 header off := by
  refine readLE32_movedSector env myLba alternateLba entryLba long high (.inr (by omega)) ?_
  intro field member
  simp only [movedFields,List.mem_cons,List.not_mem_nil,or_false] at member
  rcases member with rfl | rfl | rfl | rfl <;> exact .inr (by simp; omega)

theorem entryBytes_movedSector :
    entryBytes (movedSector env myLba alternateLba entryLba sectorSize header) = entryBytes header := by
  rw [entryBytes,entryBytes,entryField_movedSector env myLba alternateLba entryLba long (by decide) (by decide),
    entryField_movedSector env myLba alternateLba entryLba long (by decide) (by decide)]

theorem crc_movedSector {headerSize : UInt32} (size : readLE32 header 12 = headerSize)
    (low : 92 ≤ headerSize.toNat) (high : headerSize.toNat ≤ sectorSize.toNat) :
    readLE32 (movedSector env myLba alternateLba entryLba sectorSize header) 16 =
        crc32 (blankHeader (header.take 92) myLba alternateLba entryLba ++
          env.behindHeader.data.take (headerSize.toNat - 92)) ∧
      GptPartitionTable.crcInput (movedSector env myLba alternateLba entryLba sectorSize header) headerSize =
        blankHeader (header.take 92) myLba alternateLba entryLba ++ List.replicate (headerSize.toNat - 92) 0 := by
  have blank := length_blankHeader myLba alternateLba entryLba (take_92 long)
  have moved := length_moveHeader env myLba alternateLba entryLba (take_92 long)
  have zero : slice (blankHeader (header.take 92) myLba alternateLba entryLba) 16 (le32 0).length = le32 0 :=
    (movedFields_layout myLba alternateLba entryLba).read (take_92 long) (by simp [movedFields])
  have fits : 16 + (le32 0).length ≤ (blankHeader (header.take 92) myLba alternateLba entryLba).length := by
    rw [blank,length_le32]
    decide
  have named : readLE32 (blankHeader (header.take 92) myLba alternateLba entryLba) 12 = headerSize := by
    rw [← size]
    apply UInt32.toNat_inj.mp
    rw [readLE32_toNat,readLE32_toNat,slice_blankHeader myLba alternateLba entryLba (take_92 long)]
    · exact congrArg ofLE ((slice_slice header 0 92 12 4 (by decide)).trans (by rw [Nat.zero_add]))
    · intro field member
      simp only [movedFields,List.mem_cons,List.not_mem_nil,or_false] at member
      rcases member with rfl | rfl | rfl | rfl <;> exact .inl (by simp)
  have covered (behind : List UInt8) :
      (blankHeader (header.take 92) myLba alternateLba entryLba ++ behind).take headerSize.toNat =
        blankHeader (header.take 92) myLba alternateLba entryLba ++ behind.take (headerSize.toNat - 92) := by
    rw [List.take_append,blank,List.take_of_length_le (by omega)]
  constructor
  · refine readLE32_of_slice ?_
    rw [slice_movedSector env myLba alternateLba entryLba long (by decide),moveHeader_eq,named,covered]
    exact slice_splice_same _ _ _ fits
  · have rest : (List.replicate (sectorSize.toNat - 92) (0 : UInt8)).take (headerSize.toNat - 92) =
        List.replicate (headerSize.toNat - 92) 0 := by
      rw [List.take_replicate,Nat.min_eq_left (by omega)]
    rw [GptPartitionTable.crcInput,movedSector,headerSector_eq moved,List.take_append,moved,rest,
      List.take_of_length_le (by omega),writeLE32,splice_append_left _ _ _ _ (by rw [moved,length_le32]; decide),
      moveHeader_eq,splice_splice_same _ _ _ _ (by rw [length_le32,length_le32]) (by rw [blank,length_le32]; decide),
      splice_slice zero]

theorem movedSector_valid_iff (wide : 512 ≤ sectorSize.toNat) (proper : ProperHeader header) :
    validateGptHeader (movedSector env myLba alternateLba entryLba sectorSize header) = true ↔
      ZeroBehind env (readLE32 header 12) := by
  have low : 92 ≤ (readLE32 header 12).toNat := UInt32.le_iff_toNat_le.mp proper.sizeLow
  have high : (readLE32 header 12).toNat ≤ 512 := UInt32.le_iff_toNat_le.mp proper.sizeHigh
  have before (off n : Nat) (early : off + n ≤ 16) :
      ∀ field ∈ movedFields myLba alternateLba entryLba, Outside field off n := by
    intro field member
    simp only [movedFields,List.mem_cons,List.not_mem_nil,or_false] at member
    rcases member with rfl | rfl | rfl | rfl <;> exact .inl (by omega)
  have signature : readLE64 (movedSector env myLba alternateLba entryLba sectorSize header) 0 = readLE64 header 0 :=
    readLE64_movedSector env myLba alternateLba entryLba long (by decide) (.inl (by decide)) (before 0 8 (by decide))
  have revision : readLE32 (movedSector env myLba alternateLba entryLba sectorSize header) 8 = readLE32 header 8 :=
    readLE32_movedSector env myLba alternateLba entryLba long (by decide) (.inl (by decide)) (before 8 4 (by decide))
  have size : readLE32 (movedSector env myLba alternateLba entryLba sectorSize header) 12 = readLE32 header 12 :=
    readLE32_movedSector env myLba alternateLba entryLba long (by decide) (.inl (by decide)) (before 12 4 (by decide))
  have whole := length_movedSector env myLba alternateLba entryLba long wide
  obtain ⟨stored,input⟩ := crc_movedSector env myLba alternateLba entryLba long rfl low (high.trans wide)
  have behind : (env.behindHeader.data.take ((readLE32 header 12).toNat - 92)).length =
      (List.replicate ((readLE32 header 12).toNat - 92) (0 : UInt8)).length := by
    rw [List.length_take,List.length_replicate,env.behindHeader.size]
    omega
  rw [validateGptHeader_iff]
  constructor
  · intro moved
    have crc := moved.crc
    rw [size,input,stored] at crc
    exact (crc32_append_iff _ behind).mp crc.symm
  · intro zero
    refine ⟨⟨by omega,signature.trans proper.signature,by rw [revision]; exact proper.revision,
      by rw [size]; exact proper.sizeLow,by rw [size]; exact proper.sizeHigh⟩,?_⟩
    rw [size,input,stored]
    exact ((crc32_append_iff _ behind).mpr zero).symm

end Kept
end Moved
end SetecWizard.Core.BootRepair
