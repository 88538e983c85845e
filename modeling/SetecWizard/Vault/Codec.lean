import SetecWizard.Core.EncryptedVault
import SetecWizard.Format.Integers

/-! The header of a vault container: its fields read back as they were written, and
the HMAC covers the same bytes for the writer and for the reader.
-/
namespace SetecWizard.Core
open SetecWizard.Library

theorem VaultAlgorithm.ofId_id (algorithm : VaultAlgorithm) : ofId algorithm.id = some algorithm := by
  cases algorithm <;> rfl

theorem getD_of_slice {p : List UInt8} {off : Nat} {b : UInt8} (field : slice p off 1 = [b]) :
    p.getD off 0 = b := by
  have read := getD_slice p off 1 0 (by decide)
  rw [field] at read
  exact read.symm

namespace VaultHeader

def fields (h : VaultHeader) : List (Nat × List UInt8) :=
  [(0x00,VAULT_MAGIC),(0x09,[h.version]),(0x0A,[h.algorithm.id]),(0x0B,[h.flags]),
    (0x0C,le32 h.pbkdf2Iterations),(0x10,h.salt.data),(0x30,h.iv.data),(0x40,le64 h.volumeSize),
    (0x48,le64 h.dataOffset),(0x50,h.hmac.data)]

theorem serialize_eq (h : VaultHeader) :
    h.serialize = overwrite (List.replicate VAULT_HEADER_SIZE 0) h.fields := rfl

theorem fields_layout (h : VaultHeader) : Fields VAULT_HEADER_SIZE h.fields := by
  constructor <;> simp [fields,Outside,h.salt.size,h.iv.size,h.hmac.size,VAULT_MAGIC,VAULT_HEADER_SIZE]

@[simp] theorem length_serialize (h : VaultHeader) : h.serialize.length = 512 := by
  rw [serialize_eq]
  exact length_overwrite h.fields_layout.fit List.length_replicate

theorem field (h : VaultHeader) (off n : Nat) (block : List UInt8) (member : (off,block) ∈ h.fields)
    (size : block.length = n) : slice h.serialize off n = block := by
  rw [serialize_eq,← size]
  exact h.fields_layout.read List.length_replicate member

theorem deserialize_serialize (h : VaultHeader) (current : h.version = VAULT_VERSION)
    (many : ¬ h.pbkdf2Iterations < 10000) : deserialize h.serialize = .ok h := by
  have magic := h.field 0x00 9 VAULT_MAGIC (by simp [fields]) rfl
  have version := getD_of_slice (h.field 0x09 1 [h.version] (by simp [fields]) rfl)
  have algorithm := getD_of_slice (h.field 0x0A 1 [h.algorithm.id] (by simp [fields]) rfl)
  have flags := getD_of_slice (h.field 0x0B 1 [h.flags] (by simp [fields]) rfl)
  have iterations := readLE32_of_slice (h.field 0x0C 4 (le32 h.pbkdf2Iterations) (by simp [fields]) rfl)
  have salt := Bytes.copy_of_slice h.salt (by simp) (h.field 0x10 32 h.salt.data (by simp [fields]) h.salt.size)
  have iv := Bytes.copy_of_slice h.iv (by simp) (h.field 0x30 16 h.iv.data (by simp [fields]) h.iv.size)
  have volumeSize := readLE64_of_slice (h.field 0x40 8 (le64 h.volumeSize) (by simp [fields]) rfl)
  have dataOffset := readLE64_of_slice (h.field 0x48 8 (le64 h.dataOffset) (by simp [fields]) rfl)
  have hmac := Bytes.copy_of_slice h.hmac (by simp) (h.field 0x50 32 h.hmac.data (by simp [fields]) h.hmac.size)
  have whole : ¬ h.serialize.length < VAULT_HEADER_SIZE := by simp [VAULT_HEADER_SIZE]
  generalize h.serialize = data at *
  simp only [deserialize,refuse,if_neg whole,magic,version,algorithm,flags,iterations,salt,iv,volumeSize,
    dataOffset,hmac,current,VaultAlgorithm.ofId_id,if_neg many,ne_eq,not_true_eq_false,if_false]
  rw [← current]
  rfl

theorem deserialize_few (h : VaultHeader) (few : h.pbkdf2Iterations < 10000) :
    ∃ e, deserialize h.serialize = .error e := by
  have iterations := readLE32_of_slice (h.field 0x0C 4 (le32 h.pbkdf2Iterations) (by simp [fields]) rfl)
  cases read : deserialize h.serialize with
  | error e => exact ⟨e,rfl⟩
  | ok other =>
    exfalso
    unfold deserialize at read
    obtain ⟨_,read⟩ := bind_unit_ok.mp read
    obtain ⟨_,read⟩ := bind_unit_ok.mp read
    obtain ⟨_,read⟩ := bind_unit_ok.mp read
    split at read
    · cases read
    · obtain ⟨enough,_⟩ := bind_unit_ok.mp read
      rw [iterations,refuse_ok] at enough
      exact enough few

/-- The header before its HMAC is stored. -/
def body (h : VaultHeader) : List UInt8 :=
  overwrite (List.replicate VAULT_HEADER_SIZE 0) (h.fields.take 9)

theorem length_body (h : VaultHeader) : h.body.length = 512 :=
  length_overwrite (fun field member => h.fields_layout.fit field (List.mem_of_mem_take member))
    List.length_replicate

theorem authenticated_hmac (h : VaultHeader) (hmac : Bytes 32) :
    ({ h with hmac := hmac } : VaultHeader).authenticated =
      ({ h with hmac := .zero 32 } : VaultHeader).serialize.take (VAULT_HEADER_SIZE - VAULT_HMAC_LEN) := by
  have fits : 0x50 + hmac.data.length ≤ h.body.length := by
    rw [hmac.size,length_body]
    decide
  have zeroed := splice_splice_same h.body hmac.data (List.replicate VAULT_HMAC_LEN 0) 0x50 hmac.size fits
  exact congrArg (List.take (VAULT_HEADER_SIZE - VAULT_HMAC_LEN)) zeroed

end VaultHeader

/-! The header of a vault container as a format: which buffers are read as one, and what
is written for a header that was read.
-/

/-- A header with the magic it was read with, which is not what is written. -/
structure MagicHeader extends VaultHeader where
  magic : Bytes 9 := .zero 9
deriving DecidableEq

def MagicHeader.serialize (h : MagicHeader) : List UInt8 := h.toVaultHeader.serialize

def MagicHeader.deserialize (data : List UInt8) : Result MagicHeader := do
  let header ← VaultHeader.deserialize data
  return { toVaultHeader := header,magic := .copy data 0 9 }

theorem VaultAlgorithm.ofId_some {id : UInt8} {algorithm : VaultAlgorithm} :
    ofId id = some algorithm ↔ algorithm.id = id := by
  constructor
  · unfold ofId
    intro found
    split at found
    next same => cases found; exact same.symm
    next =>
      split at found
      next same => cases found; exact same.symm
      next =>
        split at found
        next same => cases found; exact same.symm
        next => cases found
  · rintro rfl
    exact ofId_id algorithm

theorem VaultAlgorithm.ofId_isSome (id : UInt8) : (ofId id).isSome ↔ 1 ≤ id ∧ id ≤ 3 := by
  rw [UInt8.le_iff_toNat_le,UInt8.le_iff_toNat_le]
  unfold ofId
  split
  next same => subst same; decide
  next first =>
    split
    next same => subst same; decide
    next second =>
      split
      next same => subst same; decide
      next third =>
        rw [← UInt8.toNat_inj] at first second third
        simp only [UInt8.toNat_ofNat] at *
        simp
        omega

theorem slice_one {p : List UInt8} {off : Nat} (inside : off < p.length) : slice p off 1 = [p.getD off 0] := by
  simp [slice,List.take_one,inside]

namespace VaultHeader

/-- What the reader asks of a buffer besides its length. -/
structure Acceptable (b : List UInt8) : Prop where
  magic : slice b 0 9 = VAULT_MAGIC
  version : b.getD 0x09 0 = VAULT_VERSION
  algorithm : 1 ≤ b.getD 0x0A 0 ∧ b.getD 0x0A 0 ≤ 3
  iterations : 10000 ≤ readLE32 b 0x0C

theorem deserialize_ok_iff {b : List UInt8} (long : VAULT_HEADER_SIZE ≤ b.length) {h : VaultHeader} :
    deserialize b = .ok h ↔ Acceptable b ∧ VaultAlgorithm.ofId (b.getD 0x0A 0) = some h.algorithm ∧
      h.version = b.getD 0x09 0 ∧ h.flags = b.getD 0x0B 0 ∧ h.pbkdf2Iterations = readLE32 b 0x0C ∧
      h.salt = .copy b 0x10 32 ∧ h.iv = .copy b 0x30 16 ∧ h.volumeSize = readLE64 b 0x40 ∧
      h.dataOffset = readLE64 b 0x48 ∧ h.hmac = .copy b 0x50 32 := by
  unfold deserialize
  simp only [bind_unit_ok,refuse_ok,Nat.not_lt,not_not,ne_eq]
  constructor
  · rintro ⟨_,magic,version,rest⟩
    split at rest
    next => cases rest
    next algorithm found =>
      obtain ⟨many,same⟩ := bind_unit_ok.mp rest
      cases same
      have known : (VaultAlgorithm.ofId (b.getD 0x0A 0)).isSome := by rw [found]; rfl
      exact ⟨⟨magic,version,(VaultAlgorithm.ofId_isSome _).mp known,UInt32.not_lt.mp (refuse_ok.mp many)⟩,
        found,rfl,rfl,rfl,rfl,rfl,rfl,rfl,rfl⟩
  · rintro ⟨⟨magic,version,_,many⟩,found,rest⟩
    refine ⟨long,magic,version,?_⟩
    rw [found]
    refine bind_unit_ok.mpr ⟨refuse_ok.mpr (UInt32.not_lt.mpr many),?_⟩
    obtain ⟨version',flags,iterations,salt,iv,volumeSize,dataOffset,hmac⟩ := rest
    cases h
    simp only at version' flags iterations salt iv volumeSize dataOffset hmac
    subst version' flags iterations salt iv volumeSize dataOffset hmac
    rfl

theorem deserialize_some_iff {b : List UInt8} (long : VAULT_HEADER_SIZE ≤ b.length) :
    (∃ h, deserialize b = .ok h) ↔ Acceptable b := by
  constructor
  · rintro ⟨h,read⟩
    exact ((deserialize_ok_iff long).mp read).1
  · intro acceptable
    obtain ⟨algorithm,found⟩ := Option.isSome_iff_exists.mp ((VaultAlgorithm.ofId_isSome _).mpr acceptable.algorithm)
    exact ⟨⟨_,algorithm,_,_,_,_,_,_,_⟩,(deserialize_ok_iff long).mpr
      ⟨acceptable,found,rfl,rfl,rfl,rfl,rfl,rfl,rfl,rfl⟩⟩

theorem take_fields (b : List UInt8) :
    b.take 0x70 = slice b 0 9 ++ slice b 0x09 1 ++ slice b 0x0A 1 ++ slice b 0x0B 1 ++ slice b 0x0C 4 ++
      slice b 0x10 32 ++ slice b 0x30 16 ++ slice b 0x40 8 ++ slice b 0x48 8 ++ slice b 0x50 32 := by
  have first : b.take 0x70 = slice b 0 (9 + 1 + 1 + 1 + 4 + 32 + 16 + 8 + 8 + 32) := rfl
  rw [first]
  simp only [slice_add,Nat.zero_add]

theorem take_serialize (h : VaultHeader) :
    h.serialize.take 0x70 = VAULT_MAGIC ++ [h.version] ++ [h.algorithm.id] ++ [h.flags] ++
      le32 h.pbkdf2Iterations ++ h.salt.data ++ h.iv.data ++ le64 h.volumeSize ++ le64 h.dataOffset ++
      h.hmac.data := by
  rw [take_fields,h.field 0 9 VAULT_MAGIC (by simp [fields]) rfl,
    h.field 0x09 1 [h.version] (by simp [fields]) rfl,
    h.field 0x0A 1 [h.algorithm.id] (by simp [fields]) rfl,
    h.field 0x0B 1 [h.flags] (by simp [fields]) rfl,
    h.field 0x0C 4 (le32 h.pbkdf2Iterations) (by simp [fields]) rfl,
    h.field 0x10 32 h.salt.data (by simp [fields]) h.salt.size,
    h.field 0x30 16 h.iv.data (by simp [fields]) h.iv.size,
    h.field 0x40 8 (le64 h.volumeSize) (by simp [fields]) rfl,
    h.field 0x48 8 (le64 h.dataOffset) (by simp [fields]) rfl,
    h.field 0x50 32 h.hmac.data (by simp [fields]) h.hmac.size]

theorem drop_serialize (h : VaultHeader) : h.serialize.drop 0x70 = List.replicate 400 0 := by
  have tail : h.serialize.drop 0x70 = slice h.serialize 0x70 400 := by
    rw [slice,List.take_of_length_le]
    simp
  rw [tail,serialize_eq,slice_overwrite_apart h.fields_layout.fit List.length_replicate]
  · exact slice_replicate 0 VAULT_HEADER_SIZE 0x70 400 (by decide)
  · simp [fields,Outside,h.salt.size,h.iv.size,h.hmac.size,VAULT_MAGIC]

theorem serialize_deserialize {b : List UInt8} (long : VAULT_HEADER_SIZE ≤ b.length) {h : VaultHeader}
    (read : deserialize b = .ok h) : h.serialize = b.take 0x70 ++ List.replicate 400 0 := by
  obtain ⟨acceptable,found,version,flags,iterations,salt,iv,volumeSize,dataOffset,hmac⟩ :=
    (deserialize_ok_iff long).mp read
  have inside : 0x70 ≤ b.length := Nat.le_trans (by decide) long
  rw [← List.take_append_drop 0x70 h.serialize,drop_serialize,take_serialize,take_fields b,acceptable.magic,
    VaultAlgorithm.ofId_some.mp found,version,flags,iterations,salt,iv,volumeSize,dataOffset,hmac,
    le32_readLE32 (by omega),le64_readLE64 (by omega),le64_readLE64 (by omega),
    Bytes.copy_data _ _ _ (by omega),Bytes.copy_data _ _ _ (by omega),Bytes.copy_data _ _ _ (by omega),
    slice_one (by omega),slice_one (by omega),slice_one (by omega)]

end VaultHeader

theorem MagicHeader.deserialize_ok_iff {b : List UInt8} {h : MagicHeader} :
    deserialize b = .ok h ↔ VaultHeader.deserialize b = .ok h.toVaultHeader ∧ h.magic = .copy b 0 9 := by
  unfold deserialize
  constructor
  · intro read
    cases inner : VaultHeader.deserialize b with
    | error e => rw [inner] at read; cases read
    | ok header => rw [inner] at read; cases read; exact ⟨rfl,rfl⟩
  · rintro ⟨inner,magic⟩
    rw [inner]
    cases h
    cases magic
    rfl

/-- A header survives being written and read, and a buffer is read exactly when its four
checked fields are right; written again it is the same up to the padding. -/
theorem vault_header_codec :
    (∀ h : MagicHeader, h.magic.data = VAULT_MAGIC → h.version = VAULT_VERSION →
      10000 ≤ h.pbkdf2Iterations → MagicHeader.deserialize h.serialize = .ok h) ∧
    ∀ b : List UInt8, 512 ≤ b.length →
      ((∃ h, MagicHeader.deserialize b = .ok h) ↔ VaultHeader.Acceptable b) ∧
      ∀ h, MagicHeader.deserialize b = .ok h → h.serialize = b.take 0x70 ++ List.replicate 400 0 := by
  refine ⟨?_,fun b long => ⟨?_,?_⟩⟩
  · intro h magic current many
    refine MagicHeader.deserialize_ok_iff.mpr
      ⟨h.toVaultHeader.deserialize_serialize current (UInt32.not_lt.mpr many),?_⟩
    have written := h.toVaultHeader.field 0x00 9 VAULT_MAGIC (by simp [VaultHeader.fields]) rfl
    refine (Bytes.copy_of_slice h.magic ?_ (written.trans magic.symm)).symm
    simp
  · rw [← VaultHeader.deserialize_some_iff long]
    constructor
    · rintro ⟨h,read⟩
      exact ⟨h.toVaultHeader,(MagicHeader.deserialize_ok_iff.mp read).1⟩
    · rintro ⟨h,read⟩
      exact ⟨⟨h,.copy b 0 9⟩,MagicHeader.deserialize_ok_iff.mpr ⟨read,rfl⟩⟩
  · intro h read
    exact VaultHeader.serialize_deserialize long (MagicHeader.deserialize_ok_iff.mp read).1

def blankHeader : MagicHeader := { magic := .copy VAULT_MAGIC 0 9 }

theorem vault_header_codec_blank :
    MagicHeader.deserialize blankHeader.serialize = .ok blankHeader ∧
      VaultHeader.Acceptable blankHeader.serialize ∧
      blankHeader.serialize = blankHeader.serialize.take 0x70 ++ List.replicate 400 0 := by
  have kept := vault_header_codec.1 blankHeader (by decide) rfl (by decide)
  have long : 512 ≤ blankHeader.serialize.length := (VaultHeader.length_serialize _).ge
  obtain ⟨accepted,again⟩ := vault_header_codec.2 blankHeader.serialize long
  exact ⟨kept,accepted.mp ⟨_,kept⟩,again _ kept⟩

end SetecWizard.Core
