import Mathlib.Data.List.Basic

/-! Cipher block chaining over an arbitrary block cipher, and the padding that
makes a message fit it. Each ciphertext block is mixed into the next plaintext
block, so a prefix of the ciphertext decrypts to a prefix of the plaintext.
-/
namespace SetecWizard.Library

structure Chaining (β : Type*) where
  encrypt : β → β
  decrypt : β → β
  mix : β → β → β

namespace Chaining

variable {β : Type*}

structure Lawful (c : Chaining β) : Prop where
  decrypt_encrypt : ∀ b, c.decrypt (c.encrypt b) = b
  mix_mix : ∀ p b, c.mix (c.mix p b) b = p

def chain (c : Chaining β) : β → List β → List β
  | _,[] => []
  | prev,p :: rest => c.encrypt (c.mix p prev) :: c.chain (c.encrypt (c.mix p prev)) rest

def unchain (c : Chaining β) : β → List β → List β
  | _,[] => []
  | prev,x :: rest => c.mix (c.decrypt x) prev :: c.unchain x rest

@[simp] theorem length_chain (c : Chaining β) (iv : β) (blocks : List β) :
    (c.chain iv blocks).length = blocks.length := by
  induction blocks generalizing iv with
  | nil => rfl
  | cons p rest ih => rw [chain,List.length_cons,List.length_cons,ih]

theorem unchain_chain {c : Chaining β} (lawful : c.Lawful) (iv : β) (blocks : List β) :
    c.unchain iv (c.chain iv blocks) = blocks := by
  induction blocks generalizing iv with
  | nil => rfl
  | cons p rest ih => rw [chain,unchain,lawful.decrypt_encrypt,lawful.mix_mix,ih]

theorem unchain_take (c : Chaining β) (iv : β) (blocks : List β) (n : Nat) :
    c.unchain iv (blocks.take n) = (c.unchain iv blocks).take n := by
  induction blocks generalizing iv n with
  | nil => simp [unchain]
  | cons x rest ih =>
    cases n with
    | zero => rfl
    | succ n => rw [List.take_succ_cons,unchain,unchain,List.take_succ_cons,ih]

end Chaining

namespace Padding

/-- As many bytes as are missing to the next multiple, each holding their number. -/
def pad (width : Nat) (data : List UInt8) : List UInt8 :=
  data ++ List.replicate (width - data.length % width) (UInt8.ofNat (width - data.length % width))

/-- The data before the padding, unless the last bytes are no padding. -/
def unpad (width : Nat) (data : List UInt8) : Option (List UInt8) :=
  let last := data.getLast?.getD 0
  if 1 ≤ last.toNat ∧ last.toNat ≤ width ∧ data.drop (data.length - last.toNat) = List.replicate last.toNat last
    then some (data.take (data.length - last.toNat)) else none

theorem length_pad {width : Nat} (positive : 0 < width) (data : List UInt8) :
    (pad width data).length = (data.length / width + 1) * width := by
  have rest := Nat.mod_lt data.length positive
  have whole := Nat.div_add_mod data.length width
  rw [pad,List.length_append,List.length_replicate,Nat.add_mul,Nat.one_mul,Nat.mul_comm]
  omega

theorem unpad_zero (width : Nat) (data : List UInt8) : unpad width (data ++ [0]) = none := by
  have ending : (data ++ [0]).getLast?.getD 0 = (0 : UInt8) := by
    rw [List.getLast?_append]
    rfl
  simp only [unpad]
  rw [ending]
  exact if_neg (fun padded => absurd padded.1 (by decide))

end Padding
end SetecWizard.Library
