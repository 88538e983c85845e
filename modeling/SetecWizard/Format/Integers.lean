import SetecWizard.Core.PartitionEntry

/-! Integers in a buffer. A little-endian integer is the number its bytes stand for
in base 256, so that writing and reading are inverse, and what is read depends on
no byte outside its field.
-/
namespace SetecWizard.Core
open SetecWizard.Library

theorem or_shiftLeft (low high i : Nat) (bound : low < 2 ^ i) : low ||| (high <<< i) = low + high * 2 ^ i := by
  rw [Nat.or_comm,← Nat.shiftLeft_add_eq_or_of_lt bound,Nat.shiftLeft_eq,Nat.add_comm]

theorem readLE16_toNat (p : List UInt8) (off : Nat) : (readLE16 p off).toNat = ofLE (slice p off 2) := by
  have first := (p.getD off 0).toNat_lt
  have second := (p.getD (off + 1) 0).toNat_lt
  simp only [ofLE_slice_succ,ofLE_slice_zero,readLE16,UInt16.toNat_or,UInt16.toNat_shiftLeft,
    UInt8.toNat_toUInt16]
  change (p.getD off 0).toNat ||| (p.getD (off + 1) 0).toNat <<< 8 % 2 ^ 16 = _
  rw [Nat.mod_eq_of_lt (by rw [Nat.shiftLeft_eq]; omega),or_shiftLeft _ _ 8 (by omega)]
  omega

theorem readLE32_toNat (p : List UInt8) (off : Nat) : (readLE32 p off).toNat = ofLE (slice p off 4) := by
  have first := (p.getD off 0).toNat_lt
  have second := (p.getD (off + 1) 0).toNat_lt
  have third := (p.getD (off + 2) 0).toNat_lt
  have fourth := (p.getD (off + 3) 0).toNat_lt
  simp only [ofLE_slice_succ,ofLE_slice_zero,Nat.add_assoc,Nat.reduceAdd,readLE32,UInt32.toNat_or,UInt32.toNat_shiftLeft,
    UInt8.toNat_toUInt32]
  change (p.getD off 0).toNat ||| (p.getD (off + 1) 0).toNat <<< 8 % 2 ^ 32
    ||| (p.getD (off + 2) 0).toNat <<< 16 % 2 ^ 32 ||| (p.getD (off + 3) 0).toNat <<< 24 % 2 ^ 32 = _
  rw [Nat.mod_eq_of_lt (by rw [Nat.shiftLeft_eq]; omega),
    Nat.mod_eq_of_lt (by rw [Nat.shiftLeft_eq]; omega),
    Nat.mod_eq_of_lt (by rw [Nat.shiftLeft_eq]; omega),or_shiftLeft _ _ 8 (by omega),
    or_shiftLeft _ _ 16 (by omega),or_shiftLeft _ _ 24 (by omega)]
  omega

theorem readLE64_toNat (p : List UInt8) (off : Nat) : (readLE64 p off).toNat = ofLE (slice p off 8) := by
  have low := (readLE32 p off).toNat_lt
  have high := (readLE32 p (off + 4)).toNat_lt
  simp only [readLE64,UInt64.toNat_or,UInt64.toNat_shiftLeft,UInt32.toNat_toUInt64]
  change (readLE32 p off).toNat ||| (readLE32 p (off + 4)).toNat <<< 32 % 2 ^ 64 = _
  rw [Nat.mod_eq_of_lt (by rw [Nat.shiftLeft_eq]; omega),or_shiftLeft _ _ 32 (by omega),
    readLE32_toNat,readLE32_toNat]
  simp only [ofLE_slice_succ,ofLE_slice_zero,Nat.add_assoc,Nat.reduceAdd]
  omega

theorem le16_eq (v : UInt16) : le16 v = toLE 2 v.toNat := by
  have bound := v.toNat_lt
  simp only [le16,toLE,List.cons.injEq,and_true]
  refine ⟨UInt8.toNat_inj.mp ?_,UInt8.toNat_inj.mp ?_⟩
  · simp
  · simp [Nat.shiftRight_eq_div_pow]

theorem le32_eq (v : UInt32) : le32 v = toLE 4 v.toNat := by
  simp only [le32,toLE,List.cons.injEq,and_true]
  refine ⟨UInt8.toNat_inj.mp ?_,UInt8.toNat_inj.mp ?_,UInt8.toNat_inj.mp ?_,UInt8.toNat_inj.mp ?_⟩
  · simp
  · simp [Nat.shiftRight_eq_div_pow]
  · simp [Nat.shiftRight_eq_div_pow,Nat.div_div_eq_div_mul]
  · simp [Nat.shiftRight_eq_div_pow,Nat.div_div_eq_div_mul]

theorem le64_eq (v : UInt64) : le64 v = toLE 8 v.toNat := by
  rw [le64,le32_eq,le32_eq]
  simp only [toLE,List.cons_append,List.nil_append,List.cons.injEq,and_true]
  refine ⟨?_,?_,?_,?_,?_,?_,?_,?_⟩ <;> apply UInt8.toNat_inj.mp <;>
    simp [Nat.shiftRight_eq_div_pow,Nat.div_div_eq_div_mul] <;> omega

@[simp] theorem length_le16 (v : UInt16) : (le16 v).length = 2 := rfl

@[simp] theorem length_le32 (v : UInt32) : (le32 v).length = 4 := rfl

@[simp] theorem length_le64 (v : UInt64) : (le64 v).length = 8 := rfl

theorem readLE16_of_slice {p : List UInt8} {off : Nat} {v : UInt16} (field : slice p off 2 = le16 v) :
    readLE16 p off = v := by
  have bound : v.toNat < 256 ^ 2 := v.toNat_lt
  apply UInt16.toNat_inj.mp
  rw [readLE16_toNat,field,le16_eq,ofLE_toLE,Nat.mod_eq_of_lt bound]

theorem readLE32_of_slice {p : List UInt8} {off : Nat} {v : UInt32} (field : slice p off 4 = le32 v) :
    readLE32 p off = v := by
  have bound : v.toNat < 256 ^ 4 := v.toNat_lt
  apply UInt32.toNat_inj.mp
  rw [readLE32_toNat,field,le32_eq,ofLE_toLE,Nat.mod_eq_of_lt bound]

theorem readLE64_of_slice {p : List UInt8} {off : Nat} {v : UInt64} (field : slice p off 8 = le64 v) :
    readLE64 p off = v := by
  have bound : v.toNat < 256 ^ 8 := v.toNat_lt
  apply UInt64.toNat_inj.mp
  rw [readLE64_toNat,field,le64_eq,ofLE_toLE,Nat.mod_eq_of_lt bound]

theorem le16_readLE16 {p : List UInt8} {off : Nat} (fits : off + 2 ≤ p.length) :
    le16 (readLE16 p off) = slice p off 2 := by
  have whole := toLE_ofLE (slice p off 2)
  rw [length_slice _ _ _ fits] at whole
  rw [le16_eq,readLE16_toNat,whole]

theorem le32_readLE32 {p : List UInt8} {off : Nat} (fits : off + 4 ≤ p.length) :
    le32 (readLE32 p off) = slice p off 4 := by
  have whole := toLE_ofLE (slice p off 4)
  rw [length_slice _ _ _ fits] at whole
  rw [le32_eq,readLE32_toNat,whole]

theorem le64_readLE64 {p : List UInt8} {off : Nat} (fits : off + 8 ≤ p.length) :
    le64 (readLE64 p off) = slice p off 8 := by
  have whole := toLE_ofLE (slice p off 8)
  rw [length_slice _ _ _ fits] at whole
  rw [le64_eq,readLE64_toNat,whole]

theorem getD_slice (p : List UInt8) (off n i : Nat) (inside : i < n) :
    (slice p off n).getD i 0 = p.getD (off + i) 0 := by
  rw [List.getD_eq_getElem?_getD,List.getD_eq_getElem?_getD,getElem?_slice,if_pos inside]

theorem getD_window (store : Nat → UInt8) (off n i : Nat) (inside : i < n) :
    (window store off n).getD i 0 = store (off + i) := by
  rw [List.getD_eq_getElem?_getD,getElem?_window,if_pos inside,Option.getD_some]

theorem readLE32_slice (p : List UInt8) (off n i : Nat) (inside : i + 4 ≤ n) :
    readLE32 (slice p off n) i = readLE32 p (off + i) := by
  apply UInt32.toNat_inj.mp
  rw [readLE32_toNat,readLE32_toNat,slice_slice _ _ _ _ _ inside]

theorem readLE64_slice (p : List UInt8) (off n i : Nat) (inside : i + 8 ≤ n) :
    readLE64 (slice p off n) i = readLE64 p (off + i) := by
  apply UInt64.toNat_inj.mp
  rw [readLE64_toNat,readLE64_toNat,slice_slice _ _ _ _ _ inside]

theorem readLE16_slice (p : List UInt8) (off n i : Nat) (inside : i + 2 ≤ n) :
    readLE16 (slice p off n) i = readLE16 p (off + i) := by
  apply UInt16.toNat_inj.mp
  rw [readLE16_toNat,readLE16_toNat,slice_slice _ _ _ _ _ inside]

theorem Bytes.ext {n : Nat} {a b : Bytes n} (same : a.data = b.data) : a = b := by
  cases a
  cases b
  cases same
  rfl

theorem Bytes.copy_data (raw : List UInt8) (off n : Nat) (fits : off + n ≤ raw.length) :
    (Bytes.copy raw off n).data = slice raw off n := by
  apply List.ext_getElem?
  intro i
  rw [getElem?_slice]
  simp only [Bytes.copy,List.getElem?_ofFn]
  by_cases inside : i < n
  · rw [dif_pos inside,if_pos inside,List.getElem?_eq_getElem (by omega),
      List.getD_eq_getElem?_getD,List.getElem?_eq_getElem (by omega),Option.getD_some]
  · rw [dif_neg inside,if_neg inside]

theorem Bytes.copy_of_slice {n : Nat} {raw : List UInt8} {off : Nat} (b : Bytes n)
    (fits : off + n ≤ raw.length) (field : slice raw off n = b.data) : Bytes.copy raw off n = b :=
  Bytes.ext ((Bytes.copy_data raw off n fits).trans field)

end SetecWizard.Core
