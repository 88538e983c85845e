import SetecWizard.Core.FilesystemDetector
import Mathlib.Data.List.TakeWhile

/-! What the probes do on volumes of any content, with reads that fail or come short. All but
three keep to the bytes they were given and to shifts and products that are defined: exFAT takes
the shift of a cluster as it is on the volume, RomFS looks for the end of a name behind the bytes
that arrived, and the block size of a PS2 memory card is a product of two 16-bit numbers.
-/
namespace SetecWizard.Core.FilesystemDetector
open SetecWizard.Library Traced FormatEngine

/-- Every step of a probe is defined. -/
abbrev Safe {α : Type} (probe : Probe α) : Prop := probe.Holds Operation.Defined

section Rules

variable {data : List UInt8} {off : Nat}

theorem safe_touch {α : Type} {length : Nat} (value : α) (inside : off + length ≤ data.length) :
    Safe (touch data off length value) := (holds_tell _ _ _).mpr inside

@[simp] theorem safe_byteAt (inside : off + 1 ≤ data.length) : Safe (byteAt data off) := safe_touch _ inside
@[simp] theorem safe_le16At (inside : off + 2 ≤ data.length) : Safe (le16At data off) := safe_touch _ inside
@[simp] theorem safe_le32At (inside : off + 4 ≤ data.length) : Safe (le32At data off) := safe_touch _ inside
@[simp] theorem safe_le64At (inside : off + 8 ≤ data.length) : Safe (le64At data off) := safe_touch _ inside
@[simp] theorem safe_be16At (inside : off + 2 ≤ data.length) : Safe (be16At data off) := safe_touch _ inside
@[simp] theorem safe_be32At (inside : off + 4 ≤ data.length) : Safe (be32At data off) := safe_touch _ inside
@[simp] theorem safe_uuidAt (inside : off + 16 ≤ data.length) : Safe (uuidAt data off) := safe_touch _ inside

@[simp] theorem safe_memEqual {magic : String} {len : Nat} (inside : off + len ≤ data.length) :
    Safe (memEqual data off magic len) := safe_touch _ inside

@[simp] theorem safe_extractString {maxLen : Nat} (inside : off + maxLen ≤ data.length) :
    Safe (extractString data off maxLen) := safe_touch _ (by omega)

theorem safe_memEqualAny {magics : List (String × Nat)} (inside : ∀ magic ∈ magics, off + magic.2 ≤ data.length) :
    Safe (memEqualAny data off magics) := by
  induction magics with
  | nil => exact holds_pure _ _
  | cons magic rest ih =>
    obtain ⟨here,later⟩ := List.forall_mem_cons.mp inside
    simp only [memEqualAny,Safe,holds_bind,holds_ite]
    exact ⟨safe_memEqual here,fun _ => holds_pure _ _,fun _ => ih later⟩

theorem safe_shiftLeft {v amount : UInt32} (small : amount.toNat < 32) : Safe (shiftLeft v amount) :=
  (holds_tell _ _ _).mpr small

theorem safe_mulInt {a b : Nat} : Safe (mulInt a b) ↔ a * b < 2 ^ 31 := holds_tell _ _ _

@[simp] theorem safe_clusterSize (a : UInt16) (b : UInt8) : Safe (mulInt a.toNat b.toNat) :=
  safe_mulInt.mpr (Nat.lt_trans (Nat.mul_lt_mul_of_lt_of_lt a.toNat_lt b.toNat_lt) (by decide))

theorem safe_bind {α β : Type} {first : Probe α} {rest : α → Probe β} (here : Safe first)
    (later : Safe (rest first.value)) : Safe (first >>= rest) := (holds_bind _ _ _).mpr ⟨here,later⟩

theorem safe_refuse {α : Type} {c : Prop} [Decidable c] {run : Probe (Option α)} (passed : Safe run) :
    Safe (if c then pure none else run) := (holds_ite _ _ _ _).mpr ⟨fun _ => holds_pure _ _,fun _ => passed⟩

theorem safe_firstSome {probes : List Detector} (each : ∀ probe ∈ probes, Safe probe) : Safe (firstSome probes) := by
  induction probes with
  | nil => exact holds_pure _ _
  | cons probe rest ih =>
    obtain ⟨here,later⟩ := List.forall_mem_cons.mp each
    exact (holds_firstSome_cons _ _ _).mpr ⟨here,fun _ => ih later⟩

theorem safe_probeAt {readFunc : DiskReadCallback} {offset : UInt64} {size : UInt32} {least : Nat}
    {probe : List UInt8 → Detector} (enough : ∀ data : List UInt8, least ≤ data.length → Safe (probe data)) :
    Safe (probeAt readFunc offset size least probe) := by
  simp only [probeAt,Safe,holds_ite]
  exact ⟨fun _ => holds_pure _ _,fun long => enough _ (Nat.not_lt.mp long)⟩

end Rules

variable (readFunc : DiskReadCallback)

section Probes

theorem detectNtfs_safe : Safe (detectNtfs readFunc) := by
  apply safe_probeAt
  intro data enough
  simp (disch := omega) [Safe,holds_ite]

theorem detectReFs_safe : Safe (detectReFs readFunc) := by
  apply safe_probeAt
  intro data enough
  simp (disch := omega) [Safe,holds_ite]

theorem reportFat_safe {data : List UInt8} (enough : 512 ≤ data.length) (isFat32Bpb : Bool) (layout : FatLayout) :
    Safe (reportFat data isFat32Bpb layout) := by
  cases isFat32Bpb with
  | true => simp (disch := omega) [reportFat,Safe,holds_ite]
  | false => simp (disch := omega) [reportFat,Safe,holds_ite]

theorem detectFat_safe : Safe (detectFat readFunc) := by
  apply safe_probeAt
  intro data enough
  refine safe_bind (safe_le16At (by omega)) (safe_refuse ?_)
  refine safe_bind (safe_byteAt (by omega)) (safe_refuse ?_)
  refine safe_bind (safe_le16At (by omega)) (safe_bind (safe_byteAt (by omega)) ?_)
  refine safe_bind (safe_le16At (by omega)) (safe_bind (safe_byteAt (by omega)) ?_)
  refine safe_bind (safe_le16At (by omega)) (safe_bind (safe_le16At (by omega)) ?_)
  refine safe_bind (safe_byteAt (by omega)) (safe_bind (safe_le16At (by omega)) ?_)
  refine safe_bind (safe_le32At (by omega)) (safe_refuse (safe_refuse (safe_refuse ?_)))
  refine safe_refuse (safe_refuse (safe_refuse ((holds_ite _ _ _ _).mpr ⟨fun _ => ?_,fun _ => ?_⟩)))
  · exact safe_bind (safe_le32At (by omega)) (reportFat_safe enough _ _)
  · exact safe_bind (holds_pure _ _) (reportFat_safe enough _ _)

theorem detectExt_safe : Safe (detectExt readFunc) := by
  apply safe_probeAt
  intro data enough
  simp (disch := omega) only [holds_bind,holds_ite,holds_pure,safe_le16At,safe_le32At,safe_extractString,safe_uuidAt,
    implies_true,true_and,and_true]
  intro _ small
  exact safe_shiftLeft (Nat.lt_trans (UInt32.lt_iff_toNat_lt.mp small) (by decide))

theorem detectBtrfs_safe : Safe (detectBtrfs readFunc) := by
  apply safe_probeAt
  intro data enough
  simp (disch := omega) only [holds_bind,holds_ite,holds_pure,safe_memEqual,safe_le32At,implies_true,true_and,and_true]
  intro _
  constructor
  · exact fun more => ⟨safe_extractString (by omega),fun more => safe_uuidAt (by omega)⟩
  · exact fun _ more => safe_uuidAt (by omega)

theorem detectXfs_safe : Safe (detectXfs readFunc) := by
  apply safe_probeAt
  intro data enough
  simp (disch := omega) [Safe,holds_ite]

theorem detectJfs_safe : Safe (detectJfs readFunc) := by
  apply safe_probeAt
  intro data enough
  simp (disch := omega) [Safe,holds_ite]

theorem detectHfsPlus_safe : Safe (detectHfsPlus readFunc) := by
  apply safe_probeAt
  intro data enough
  simp (disch := omega) [Safe,holds_ite]

theorem detectApfs_safe : Safe (detectApfs readFunc) := by
  apply safe_probeAt
  intro data enough
  simp (disch := omega) [Safe,holds_ite]

theorem detectIso9660_safe : Safe (detectIso9660 readFunc) := by
  apply safe_probeAt
  intro data enough
  simp (disch := omega) [Safe,holds_ite]

theorem nsrAt_safe (offset : UInt64) : Safe (nsrAt readFunc offset) := by
  simp only [nsrAt,holds_ite,holds_pure,implies_true,and_true]
  intro more
  apply safe_memEqualAny
  simp only [List.forall_mem_cons]
  exact ⟨more,more,fun _ member => absurd member List.not_mem_nil⟩

theorem detectUdf_safe : Safe (detectUdf readFunc) := by
  have nsr := nsrAt_safe readFunc
  apply safe_probeAt
  intro data enough
  simp (disch := omega) [holds_ite,nsr]

theorem detectSquashFs_safe : Safe (detectSquashFs readFunc) := by
  apply safe_probeAt
  intro data enough
  simp (disch := omega) [Safe,holds_ite]

theorem detectCramFs_safe : Safe (detectCramFs readFunc) := by
  apply safe_probeAt
  intro data enough
  simp (disch := omega) [Safe,holds_ite]

theorem detectHpfs_safe : Safe (detectHpfs readFunc) := by
  apply safe_probeAt
  intro data enough
  simp (disch := omega) only [holds_bind,holds_ite,holds_pure,safe_le32At,implies_true,true_and,and_true]
  exact fun _ more => safe_le32At (by omega)

theorem detectMinix_safe : Safe (detectMinix readFunc) := by
  apply safe_probeAt
  intro data enough
  simp (disch := omega) [Safe,holds_ite]

theorem detectBfs_safe : Safe (detectBfs readFunc) := by
  apply safe_probeAt
  intro data enough
  simp (disch := omega) [Safe,holds_ite]

theorem detectQnx4_safe : Safe (detectQnx4 readFunc) := by
  apply safe_probeAt
  intro data enough
  simp (disch := omega) [Safe,holds_ite]

theorem safe_utf16Label {data : List UInt8} (ends : UInt16 → Bool) {off left : Nat}
    (inside : off + 2 * left ≤ data.length) : Safe (utf16Label data ends off left) := by
  induction left generalizing off with
  | zero => exact holds_pure _ _
  | succ left ih =>
    simp (disch := omega) only [utf16Label,holds_bind,holds_ite,holds_pure,safe_le16At,implies_true,true_and,and_true]
    exact fun _ => ih (by omega)

theorem safe_blockShift {logBlock : UInt32} (range : 10 ≤ logBlock ∧ logBlock ≤ 16) : Safe (shiftLeft 1 logBlock) :=
  safe_shiftLeft (Nat.lt_of_le_of_lt (UInt32.le_iff_toNat_le.mp range.2) (by decide))

theorem detectF2fs_safe : Safe (detectF2fs readFunc) := by
  apply safe_probeAt
  intro data enough
  simp (disch := omega) only [holds_bind,holds_ite,holds_pure,safe_le16At,safe_le32At,safe_uuidAt,implies_true,
    true_and,and_true]
  intro _
  constructor
  · exact fun range => ⟨safe_blockShift range,fun more => safe_utf16Label _ (by omega)⟩
  · exact fun _ more => safe_utf16Label _ (by omega)

theorem detectJffs2_safe : Safe (detectJffs2 readFunc) := by
  apply safe_probeAt
  intro data enough
  simp (disch := omega) [Safe,holds_ite]

theorem detectNilfs2_safe : Safe (detectNilfs2 readFunc) := by
  apply safe_probeAt
  intro data enough
  simp (disch := omega) only [holds_bind,holds_ite,holds_pure,safe_le16At,safe_le32At,implies_true,true_and,and_true]
  exact fun _ range => safe_blockShift range

theorem detectFatx_safe : Safe (detectFatx readFunc) := by
  apply safe_probeAt
  intro data enough
  simp (disch := omega) only [holds_bind,holds_ite,holds_pure,safe_memEqual,safe_le32At,safe_utf16Label,implies_true,
    true_and,and_true]
  intro _ checked
  have small : (le32At data 0x08).value.toNat ≤ 0x80 :=
    UInt32.le_iff_toNat_le.mp (UInt32.not_lt.mp (not_or.mp checked).2)
  exact (holds_tell _ _ _).mpr (Nat.lt_of_le_of_lt (Nat.mul_le_mul_right 512 small) (by decide))

theorem detectStfs_safe : Safe (detectStfs readFunc) := by
  apply safe_probeAt
  intro data enough
  simp (disch := omega) [Safe,holds_ite]

theorem detectVhdx_safe : Safe (detectVhdx readFunc) := by
  apply safe_probeAt
  intro data enough
  simp (disch := omega) [Safe,holds_ite]

theorem detectVmdk_safe : Safe (detectVmdk readFunc) := by
  apply safe_probeAt
  intro data enough
  simp (disch := omega) only [holds_bind,holds_ite,holds_pure,safe_le32At,implies_true,true_and,and_true]
  exact fun _ more => safe_memEqual (by omega)

theorem detectQcow2_safe : Safe (detectQcow2 readFunc) := by
  apply safe_probeAt
  intro data enough
  simp (disch := omega) [Safe,holds_ite]

theorem detectVdi_safe : Safe (detectVdi readFunc) := by
  apply safe_probeAt
  intro data enough
  simp (disch := omega) [Safe,holds_ite]

theorem vhdFooter_safe (volumeSize : UInt64) : Safe (vhdFooter readFunc volumeSize) := by
  simp only [vhdFooter,holds_ite,holds_pure,implies_true,true_and]
  intro _
  apply safe_probeAt
  intro footer enough
  simp (disch := omega) [holds_ite]

theorem detectVhd_safe (volumeSize : UInt64) : Safe (detectVhd readFunc volumeSize) := by
  have footer := vhdFooter_safe readFunc volumeSize
  apply safe_probeAt
  intro data enough
  simp (disch := omega) [holds_ite,footer]

theorem detectRvz_safe : Safe (detectRvz readFunc) := by
  apply safe_probeAt
  intro data enough
  simp (disch := omega) [Safe,holds_ite]

theorem detectWbfs_safe : Safe (detectWbfs readFunc) := by
  apply safe_probeAt
  intro data enough
  simp (disch := omega) [Safe,holds_ite]

theorem detectReiserFs_safe : Safe (detectReiserFs readFunc) := by
  have older : Safe (probeAt readFunc (0x2000 + 0x34) 12 8 fun data => do
      if ← memEqual data 0 "ReIsErFs" 8 then return some { type := .reiserFs,description := "ReiserFS 3.5" }
      return none) := by
    apply safe_probeAt
    intro data enough
    simp (disch := omega) [holds_ite]
  have size : 0x30 ≤ (safeRead readFunc 0x10000 0x100).length → Safe (le16At (safeRead readFunc 0x10000 0x100) 0x2C) :=
    fun more => safe_le16At (by omega)
  have magics : 12 ≤ (safeRead readFunc REISERFS_MAGIC_OFFSET 64).length →
      Safe (memEqualAny (safeRead readFunc REISERFS_MAGIC_OFFSET 64) 0 [("ReIsErFs",8),("ReIsEr2Fs",9),("ReIsEr3Fs",9)]) := by
    intro more
    apply safe_memEqualAny
    simp only [List.forall_mem_cons]
    exact ⟨by omega,by omega,by omega,fun _ member => absurd member List.not_mem_nil⟩
  simp only [detectReiserFs,holds_bind,holds_ite,holds_pure,older,implies_true,true_and,and_true]
  exact ⟨fun more => ⟨magics more,fun _ => size⟩,fun _ _ => size⟩

theorem searchVersion_safe {data : List UInt8} {positions : List Nat} (inside : ∀ i ∈ positions, i + 7 ≤ data.length) :
    Safe (searchVersion data positions) := by
  induction positions with
  | nil => exact holds_pure _ _
  | cons i rest ih =>
    obtain ⟨here,later⟩ := List.forall_mem_cons.mp inside
    simp only [searchVersion,holds_bind,holds_ite]
    exact ⟨safe_memEqual here,fun _ => holds_pure _ _,fun _ => ih later⟩

theorem detectZfs_safe : Safe (detectZfs readFunc) := by
  have names : Safe (probeAt readFunc 0x4000 0x4000 16 fun nvData => do
      if ← searchVersion nvData (List.range (nvData.length + 1 - 8)) then
        return some { type := .zfs,description := "ZFS" }
      return none) := by
    apply safe_probeAt
    intro nvData enough
    have search : Safe (searchVersion nvData (List.range (nvData.length + 1 - 8))) :=
      searchVersion_safe (fun i member => by have below := List.mem_range.mp member; omega)
    simp only [holds_bind,holds_ite,holds_pure,search,implies_true,and_self]
  simp only [detectZfs,holds_bind,holds_ite,holds_pure,names,implies_true,and_true]
  exact fun more => safe_le64At (by omega)

theorem ufsAt_safe (offset : UInt64) (description : String) : Safe (ufsAt readFunc offset description) := by
  apply safe_probeAt
  intro data enough
  simp (disch := omega) [holds_ite]

theorem detectUfs_safe : Safe (detectUfs readFunc) := by
  apply safe_firstSome
  simp only [List.forall_mem_cons]
  exact ⟨ufsAt_safe _ _ _,ufsAt_safe _ _ _,fun _ member => absurd member List.not_mem_nil⟩

theorem gdfxAt_safe (off : UInt64) : Safe (gdfxAt readFunc off) := by
  apply safe_probeAt
  intro data enough
  simp (disch := omega) [holds_ite]

theorem detectGdfx_safe : Safe (detectGdfx readFunc) := by
  apply safe_firstSome
  intro probe member
  obtain ⟨off,_,rfl⟩ := List.mem_map.mp member
  exact gdfxAt_safe readFunc off

theorem nrgFooter_safe (offset : UInt64) (size : UInt32) (magic description : String) :
    Safe (nrgFooter readFunc offset size magic description) := by
  apply safe_probeAt
  intro data enough
  simp (disch := omega) [holds_ite]

theorem detectNrg_safe (volumeSize : UInt64) : Safe (detectNrg readFunc volumeSize) := by
  simp only [detectNrg,holds_ite,holds_pure,implies_true,true_and]
  intro _
  apply safe_firstSome
  simp only [List.forall_mem_cons]
  exact ⟨nrgFooter_safe _ _ _ _ _,nrgFooter_safe _ _ _ _ _,fun _ member => absurd member List.not_mem_nil⟩

theorem swapAt_safe (volumeSize : UInt64) (pages : List UInt32) : Safe (swapAt readFunc volumeSize pages) := by
  induction pages with
  | nil => exact holds_pure _ _
  | cons pageSize rest ih =>
    have uuid : 0x41C ≤ (safeRead readFunc 0 4096).length → Safe (uuidAt (safeRead readFunc 0 4096) 0x40C) :=
      fun more => safe_uuidAt (by omega)
    have label : 0x42C ≤ (safeRead readFunc 0 4096).length → Safe (extractString (safeRead readFunc 0 4096) 0x41C 16) :=
      fun more => safe_extractString (by omega)
    have magics : 10 ≤ (safeRead readFunc (pageSize - 10).toUInt64 10).length →
        Safe (memEqualAny (safeRead readFunc (pageSize - 10).toUInt64 10) 0 [("SWAPSPACE2",10),("SWAP-SPACE",10)]) := by
      intro more
      apply safe_memEqualAny
      simp only [List.forall_mem_cons]
      exact ⟨more,more,fun _ member => absurd member List.not_mem_nil⟩
    simp only [swapAt,holds_bind,holds_ite,holds_pure,ih,implies_true,true_and,and_true]
    exact ⟨fun tried => ⟨magics tried.2,fun _ => ⟨fun more => ⟨uuid more,label⟩,fun _ => label⟩⟩,
      fun _ _ => ⟨fun more => ⟨uuid more,label⟩,fun _ => label⟩⟩

end Probes

section Hazards

variable (data : List UInt8)

/-- The clusters of an exFAT volume are of 2^32 bytes or more. -/
def ExfatOverflow : Prop :=
  512 ≤ data.length ∧ slice data 3 8 = asciiBytes "EXFAT   " ∧ 9 ≤ data.getD 0x6C 0 ∧ data.getD 0x6C 0 ≤ 12 ∧
    32 ≤ (data.getD 0x6C 0).toNat + (data.getD 0x6D 0).toNat

def UnterminatedName : Prop :=
  32 ≤ data.length ∧ data.length < 48 ∧ slice data 0 8 = asciiBytes "-rom1fs-" ∧ 0 ∉ data.drop 16

def ClusterOverflow : Prop :=
  0x2C ≤ data.length ∧ slice data 0 28 = asciiBytes "Sony PS2 Memory Card Format " ∧
    2 ^ 31 ≤ (readLE16 data 0x28).toNat * (readLE16 data 0x2A).toNat

variable {data}

theorem memEqual_value {off len : Nat} {magic : String} (whole : (asciiBytes magic).length = len) :
    (memEqual data off magic len).value = true ↔ slice data off len = asciiBytes magic := by
  rw [memEqual,touch,value_tell,List.take_of_length_le (Nat.le_of_eq whole)]
  exact beq_iff_eq

theorem memEqual_passed {off len : Nat} {magic : String} (whole : (asciiBytes magic).length = len) :
    ¬ (!(memEqual data off magic len).value) = true ↔ slice data off len = asciiBytes magic := by
  rw [Bool.not_eq_true',Bool.not_eq_false,memEqual_value whole]

theorem shiftLeft_one {amount : UInt8} (small : amount.toNat < 32) :
    (shiftLeft 1 amount.toUInt32).value.toNat = 2 ^ amount.toNat := by
  have one : (1 : UInt32).toNat = 1 := rfl
  have bound : 2 ^ amount.toNat < 2 ^ 32 := Nat.pow_lt_pow_right Nat.one_lt_two small
  rw [shiftLeft,value_tell,UInt32.toNat_shiftLeft,UInt8.toNat_toUInt32,Nat.mod_eq_of_lt small,one,Nat.one_shiftLeft,
    Nat.mod_eq_of_lt bound]

theorem exfatSize_safe_iff {bytes cluster : UInt8} (range : 9 ≤ bytes ∧ bytes ≤ 12) :
    (Safe (shiftLeft 1 bytes.toUInt32) ∧ Safe (shiftLeft 1 cluster.toUInt32) ∧
      Safe (mulUInt32 (shiftLeft 1 bytes.toUInt32).value (shiftLeft 1 cluster.toUInt32).value)) ↔
    bytes.toNat + cluster.toNat < 32 := by
  have high : bytes.toNat ≤ 12 := UInt8.le_iff_toNat_le.mp range.2
  have shift (amount : UInt8) : Safe (shiftLeft 1 amount.toUInt32) ↔ amount.toNat < 32 := by
    rw [Safe,shiftLeft,holds_tell,Operation.Defined,UInt8.toNat_toUInt32]
  have product (small : cluster.toNat < 32) :
      Safe (mulUInt32 (shiftLeft 1 bytes.toUInt32).value (shiftLeft 1 cluster.toUInt32).value) ↔
        bytes.toNat + cluster.toNat < 32 := by
    rw [Safe,mulUInt32,holds_tell,Operation.Defined,shiftLeft_one small,shiftLeft_one (by omega),← Nat.pow_add]
    exact Nat.pow_lt_pow_iff_right Nat.one_lt_two
  rw [shift,shift]
  constructor
  · rintro ⟨_,small,safe⟩
    exact (product small).mp safe
  · intro small
    exact ⟨by omega,by omega,(product (by omega)).mpr small⟩

theorem detectExfat_safe_iff (readFunc : DiskReadCallback) :
    Safe (detectExfat readFunc) ↔ ¬ ExfatOverflow (safeRead readFunc 0 512) := by
  simp only [detectExfat,probeAt,Safe,holds_ite,holds_pure,implies_true,true_and]
  generalize safeRead readFunc 0 512 = data
  have magic := @memEqual_passed data 3 8 "EXFAT   " (by decide)
  simp only [holds_bind,holds_ite]
  constructor
  · rintro safe ⟨long,name,low,high,big⟩
    obtain ⟨first,second,third,_⟩ := ((safe (Nat.not_lt.mpr long)).2.2 (magic.mpr name)).2.2.1 ⟨low,high⟩
    exact Nat.not_lt.mpr big ((exfatSize_safe_iff ⟨low,high⟩).mp ⟨first,second,third⟩)
  · intro harmless long
    refine ⟨safe_memEqual (by omega),fun _ => holds_pure _ _,fun name => ⟨safe_byteAt (by omega),safe_byteAt (by omega),
      fun range => ?_,fun _ => ⟨holds_pure _ _,safe_le32At (by omega),holds_pure _ _⟩⟩⟩
    have small : (data.getD 0x6C 0).toNat + (data.getD 0x6D 0).toNat < 32 := by
      by_contra big
      exact harmless ⟨by omega,magic.mp name,range.1,range.2,by omega⟩
    obtain ⟨first,second,third⟩ := (exfatSize_safe_iff range).mpr small
    exact ⟨first,second,third,safe_le32At (by omega),holds_pure _ _⟩

theorem extractString_safe_iff {off maxLen : Nat} (inside : off ≤ data.length) (short : data.length < off + maxLen) :
    Safe (extractString data off maxLen) ↔ 0 ∈ data.drop off := by
  have whole : slice data off maxLen = data.drop off :=
    List.take_of_length_le (by rw [List.length_drop]; omega)
  have size : (data.drop off).length = data.length - off := List.length_drop
  have scanned := (List.takeWhile_prefix (· ≠ (0 : UInt8)) (l := data.drop off))
  rw [Safe,extractString,touch,holds_tell,Operation.Defined,Access.Inside,whole]
  dsimp only
  constructor
  · intro within
    by_contra absent
    have all : (data.drop off).takeWhile (· ≠ 0) = data.drop off :=
      List.takeWhile_eq_self_iff.mpr (fun b member => decide_eq_true (fun zero => absent (zero ▸ member)))
    rw [all,size] at within
    omega
  · intro present
    have shorter : ((data.drop off).takeWhile (· ≠ 0)).length ≠ (data.drop off).length := by
      intro same
      have all := List.takeWhile_eq_self_iff.mp (scanned.eq_of_length same) 0 present
      exact of_decide_eq_true all rfl
    have bound := scanned.length_le
    omega

theorem detectRomFs_safe_iff (readFunc : DiskReadCallback) :
    Safe (detectRomFs readFunc) ↔ ¬ UnterminatedName (safeRead readFunc 0 512) := by
  simp only [detectRomFs,probeAt,Safe,holds_ite,holds_pure,implies_true,true_and]
  generalize safeRead readFunc 0 512 = data
  have magic := @memEqual_passed data 0 8 "-rom1fs-" (by decide)
  simp only [holds_bind,holds_ite]
  constructor
  · rintro safe ⟨long,short,name,absent⟩
    exact absent ((extractString_safe_iff (by omega) (by omega)).mp
      ((safe (Nat.not_lt.mpr long)).2.2 (magic.mpr name)).1)
  · intro harmless long
    refine ⟨safe_memEqual (by omega),fun _ => holds_pure _ _,fun name => ⟨?_,holds_pure _ _⟩⟩
    by_cases short : data.length < 48
    · apply (extractString_safe_iff (by omega) (by omega)).mpr
      by_contra absent
      exact harmless ⟨by omega,short,magic.mp name,absent⟩
    · exact safe_extractString (by omega)

theorem detectPs2mc_safe_iff (readFunc : DiskReadCallback) :
    Safe (detectPs2mc readFunc) ↔ ¬ ClusterOverflow (safeRead readFunc 0 128) := by
  simp only [detectPs2mc,probeAt,Safe,holds_ite,holds_pure,implies_true,true_and]
  generalize safeRead readFunc 0 128 = data
  have magic := @memEqual_passed data 0 28 "Sony PS2 Memory Card Format " (by decide)
  simp only [holds_bind,holds_ite,holds_pure,and_true,implies_true,true_and]
  constructor
  · rintro safe ⟨long,name,big⟩
    have positive : 0 < (readLE16 data 0x28).toNat * (readLE16 data 0x2A).toNat :=
      Nat.lt_of_lt_of_le (by decide) big
    have product := ((safe (by omega)).2 (magic.mpr name) long).2.2
      ⟨UInt16.lt_iff_toNat_lt.mpr (Nat.pos_of_mul_pos_right positive),
        UInt16.lt_iff_toNat_lt.mpr (Nat.pos_of_mul_pos_left positive)⟩
    exact Nat.not_lt.mpr big (safe_mulInt.mp product)
  · intro harmless long
    refine ⟨safe_memEqual (by omega),fun name more => ⟨safe_le16At (by omega),safe_le16At (by omega),fun _ => ?_⟩⟩
    apply safe_mulInt.mpr
    by_contra big
    exact harmless ⟨more,magic.mp name,Nat.not_lt.mp big⟩

end Hazards

section Detection

variable (readFunc : DiskReadCallback) (volumeSize : UInt64)

def Passed (count : Nat) : Prop := ∀ probe ∈ (probes readFunc volumeSize).take count, probe.value = none

/-- No exFAT volume has clusters that are too large; and when the probes before them have passed, a
RomFS volume has the end of its name among the bytes that arrive, and a PS2 memory card has no
clusters that are too large. -/
structure Harmless : Prop where
  exfat : ¬ ExfatOverflow (safeRead readFunc 0 512)
  romFs : Passed readFunc volumeSize 15 → ¬ UnterminatedName (safeRead readFunc 0 512)
  ps2mc : Passed readFunc volumeSize 28 → ¬ ClusterOverflow (safeRead readFunc 0 128)

def beforeRomFs : List Detector :=
  [detectBtrfs readFunc,detectXfs readFunc,detectApfs readFunc,detectReFs readFunc,detectExt readFunc,
    detectHfsPlus readFunc,detectReiserFs readFunc,detectJfs readFunc,detectZfs readFunc,detectIso9660 readFunc,
    detectUdf readFunc,detectSquashFs readFunc,detectCramFs readFunc]

def beforePs2mc : List Detector :=
  [detectHpfs readFunc,detectMinix readFunc,detectUfs readFunc,detectBfs readFunc,detectQnx4 readFunc,
    detectLinuxSwap readFunc volumeSize,detectF2fs readFunc,detectJffs2 readFunc,detectNilfs2 readFunc,
    detectFatx readFunc,detectStfs readFunc,detectGdfx readFunc]

def behindPs2mc : List Detector :=
  [detectVhdx readFunc,detectVmdk readFunc,detectQcow2 readFunc,detectVdi readFunc,detectVhd readFunc volumeSize,
    detectRvz readFunc,detectNrg readFunc volumeSize,detectWbfs readFunc,detectFat readFunc]

theorem probes_eq : probes readFunc volumeSize = [detectNtfs readFunc] ++ (detectExfat readFunc ::
    (beforeRomFs readFunc ++ (detectRomFs readFunc ::
      (beforePs2mc readFunc volumeSize ++ (detectPs2mc readFunc :: behindPs2mc readFunc volumeSize))))) := rfl

theorem beforeRomFs_safe : ∀ probe ∈ beforeRomFs readFunc, Safe probe := by
  simp only [beforeRomFs,List.forall_mem_cons]
  exact ⟨detectBtrfs_safe _,detectXfs_safe _,detectApfs_safe _,detectReFs_safe _,detectExt_safe _,detectHfsPlus_safe _,
    detectReiserFs_safe _,detectJfs_safe _,detectZfs_safe _,detectIso9660_safe _,detectUdf_safe _,detectSquashFs_safe _,
    detectCramFs_safe _,fun _ member => absurd member List.not_mem_nil⟩

theorem beforePs2mc_safe : ∀ probe ∈ beforePs2mc readFunc volumeSize, Safe probe := by
  simp only [beforePs2mc,List.forall_mem_cons]
  exact ⟨detectHpfs_safe _,detectMinix_safe _,detectUfs_safe _,detectBfs_safe _,detectQnx4_safe _,
    swapAt_safe _ _ _,detectF2fs_safe _,detectJffs2_safe _,detectNilfs2_safe _,detectFatx_safe _,
    detectStfs_safe _,detectGdfx_safe _,fun _ member => absurd member List.not_mem_nil⟩

theorem behindPs2mc_safe : Safe (firstSome (behindPs2mc readFunc volumeSize)) := by
  apply safe_firstSome
  simp only [behindPs2mc,List.forall_mem_cons]
  exact ⟨detectVhdx_safe _,detectVmdk_safe _,detectQcow2_safe _,detectVdi_safe _,detectVhd_safe _ _,detectRvz_safe _,
    detectNrg_safe _ _,detectWbfs_safe _,detectFat_safe _,fun _ member => absurd member List.not_mem_nil⟩

theorem passed_romFs : Passed readFunc volumeSize 15 ↔
    (detectNtfs readFunc).value = none ∧ (detectExfat readFunc).value = none ∧
      ∀ probe ∈ beforeRomFs readFunc, probe.value = none := by
  have first : (probes readFunc volumeSize).take 15 =
      detectNtfs readFunc :: detectExfat readFunc :: beforeRomFs readFunc := rfl
  rw [Passed,first,List.forall_mem_cons,List.forall_mem_cons]

theorem passed_ps2mc : Passed readFunc volumeSize 28 ↔
    Passed readFunc volumeSize 15 ∧ (detectRomFs readFunc).value = none ∧
      ∀ probe ∈ beforePs2mc readFunc volumeSize, probe.value = none := by
  have first : (probes readFunc volumeSize).take 28 = (probes readFunc volumeSize).take 15 ++
      (detectRomFs readFunc :: beforePs2mc readFunc volumeSize) := rfl
  rw [Passed,first,List.forall_mem_append,List.forall_mem_cons]
  rfl

theorem ntfs_passes (overflow : ExfatOverflow (safeRead readFunc 0 512)) : (detectNtfs readFunc).value = none := by
  have other : (!(memEqual (safeRead readFunc 0 512) 3 "NTFS    " 8).value) = true := by
    rw [Bool.not_eq_true',← Bool.not_eq_true,memEqual_value (by decide),overflow.2.1]
    decide
  simp only [detectNtfs,probeAt,value_ite,value_bind]
  rw [if_pos other,value_pure,ite_self]

theorem detect_safe : Safe (detect readFunc volumeSize) ↔ Safe (firstSome (probes readFunc volumeSize)) := by
  rw [detect,Safe,holds_bind]
  refine and_iff_left ?_
  split
  · exact holds_pure _ _
  · exact holds_pure _ _

theorem detect_safe_exfat : Safe (detect readFunc volumeSize) ↔ ((detectNtfs readFunc).value = none →
    Safe (detectExfat readFunc) ∧ ((detectExfat readFunc).value = none → Safe (firstSome (beforeRomFs readFunc ++
      (detectRomFs readFunc :: (beforePs2mc readFunc volumeSize ++
        (detectPs2mc readFunc :: behindPs2mc readFunc volumeSize))))))) := by
  have ntfs : ∀ probe ∈ [detectNtfs readFunc], Safe probe := List.forall_mem_singleton.mpr (detectNtfs_safe readFunc)
  rw [detect_safe,probes_eq,Safe,holds_firstSome_append _ ntfs,holds_firstSome_cons,List.forall_mem_singleton]

variable {readFunc} {volumeSize} in
theorem exfat_of_safe (safe : Safe (detect readFunc volumeSize)) : ¬ ExfatOverflow (safeRead readFunc 0 512) := by
  intro overflow
  have reached := (detect_safe_exfat readFunc volumeSize).mp safe (ntfs_passes readFunc overflow)
  exact (detectExfat_safe_iff readFunc).mp reached.1 overflow

/-- The detection is safe exactly for harmless volumes. -/
theorem detect_safe_iff : Safe (detect readFunc volumeSize) ↔ Harmless readFunc volumeSize := by
  have rest := behindPs2mc_safe readFunc volumeSize
  have romFs := detectRomFs_safe_iff readFunc
  have ps2mc := detectPs2mc_safe_iff readFunc
  have first := passed_romFs readFunc volumeSize
  have second := passed_ps2mc readFunc volumeSize
  have reached := detect_safe_exfat readFunc volumeSize
  rw [Safe,Safe,Safe,holds_firstSome_append _ (beforeRomFs_safe readFunc),holds_firstSome_cons,
    holds_firstSome_append _ (beforePs2mc_safe readFunc volumeSize),holds_firstSome_cons] at reached
  constructor
  · intro safe
    refine ⟨exfat_of_safe safe,?_,?_⟩
    · intro passed
      obtain ⟨noNtfs,noExfat,others⟩ := first.mp passed
      exact romFs.mp ((reached.mp safe noNtfs).2 noExfat others).1
    · intro passed
      obtain ⟨before,noRomFs,others⟩ := second.mp passed
      obtain ⟨noNtfs,noExfat,earlier⟩ := first.mp before
      exact ps2mc.mp (((reached.mp safe noNtfs).2 noExfat earlier).2 noRomFs others).1
  · intro harmless
    refine reached.mpr fun noNtfs => ⟨(detectExfat_safe_iff readFunc).mpr harmless.exfat,fun noExfat earlier => ?_⟩
    have before := first.mpr ⟨noNtfs,noExfat,earlier⟩
    refine ⟨romFs.mpr (harmless.romFs before),fun noRomFs others => ?_⟩
    exact ⟨ps2mc.mpr (harmless.ps2mc (second.mpr ⟨before,noRomFs,others⟩)),fun _ => rest⟩

/-- An exFAT boot sector with sectors of 2^12 bytes and clusters of 2^32 of them. -/
def hugeClusters : List UInt8 :=
  [0xEB,0x76,0x90] ++ asciiBytes "EXFAT   " ++ List.replicate 97 0 ++ [12,32] ++ List.replicate 402 0

theorem hugeClusters_unsafe : ¬ Safe (detect (fun _ _ => .ok hugeClusters) 0) := by
  intro safe
  have length : hugeClusters.length = 512 := by
    simp only [hugeClusters,List.length_append,List.length_replicate]
    rfl
  exact exfat_of_safe safe ⟨Nat.le_of_eq length.symm,rfl,by decide,by decide,by decide⟩

end Detection

end SetecWizard.Core.FilesystemDetector
