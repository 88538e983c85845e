import Mathlib.Data.List.Basic
import Mathlib.Tactic.Ring
import SetecWizard.Library.Block

/-! Little-endian digits in base 256: the number a list of bytes stands for and
the bytes of a number, inverse to each other up to the width.
-/
namespace SetecWizard.Library

def ofLE : List UInt8 → Nat
  | [] => 0
  | b :: rest => b.toNat + 256 * ofLE rest

def toLE : Nat → Nat → List UInt8
  | 0, _ => []
  | w + 1, n => UInt8.ofNat n :: toLE w (n / 256)

@[simp] theorem length_toLE (w n : Nat) : (toLE w n).length = w := by
  induction w generalizing n with
  | zero => rfl
  | succ w ih => rw [toLE,List.length_cons,ih]

theorem ofLE_toLE (w n : Nat) : ofLE (toLE w n) = n % 256 ^ w := by
  induction w generalizing n with
  | zero => simp [toLE,ofLE,Nat.mod_one]
  | succ w ih =>
    have low : (UInt8.ofNat n).toNat = n % 256 := by simp
    rw [toLE,ofLE,ih,low,pow_succ',Nat.mod_mul]

theorem toLE_ofLE (bytes : List UInt8) : toLE bytes.length (ofLE bytes) = bytes := by
  induction bytes with
  | nil => rfl
  | cons b rest ih =>
    have bound : b.toNat < 256 := b.toNat_lt
    have low : UInt8.ofNat (b.toNat + 256 * ofLE rest) = b := by
      apply UInt8.toNat_inj.mp
      simp only [UInt8.toNat_ofNat']
      omega
    have high : (b.toNat + 256 * ofLE rest) / 256 = ofLE rest := by omega
    rw [List.length_cons,ofLE,toLE,low,high,ih]

theorem ofLE_lt (bytes : List UInt8) : ofLE bytes < 256 ^ bytes.length := by
  induction bytes with
  | nil => simp [ofLE]
  | cons b rest ih =>
    have bound : b.toNat < 256 := b.toNat_lt
    rw [ofLE,List.length_cons,pow_succ]
    omega

theorem ofLE_slice_succ (bytes : List UInt8) (off w : Nat) :
    ofLE (slice bytes off (w + 1)) =
      (bytes.getD off 0).toNat + 256 * ofLE (slice bytes (off + 1) w) := by
  by_cases inside : off < bytes.length
  · have split : bytes.drop off = bytes[off] :: bytes.drop (off + 1) :=
      List.drop_eq_getElem_cons inside
    have head : bytes.getD off 0 = bytes[off] := by
      rw [List.getD_eq_getElem?_getD,List.getElem?_eq_getElem inside,Option.getD_some]
    simp only [slice,split,List.take_succ_cons,ofLE,head]
  · have beyond : bytes.length ≤ off := Nat.le_of_not_lt inside
    have first : bytes.drop off = [] := List.drop_eq_nil_of_le beyond
    have rest : bytes.drop (off + 1) = [] := List.drop_eq_nil_of_le (by omega)
    have head : bytes.getD off 0 = 0 := by
      rw [List.getD_eq_getElem?_getD,List.getElem?_eq_none beyond,Option.getD_none]
    rw [head]
    simp [slice,first,rest,ofLE]

@[simp] theorem ofLE_slice_zero (bytes : List UInt8) (off : Nat) : ofLE (slice bytes off 0) = 0 := by
  simp [slice,ofLE]

end SetecWizard.Library
