import SetecWizard.Library.LittleEndian

/-! Concise binary objects: the data items, how they are encoded with the shortest heads and
their lengths in front, and what it means that bytes stand at a place of a buffer.
-/
namespace SetecWizard.Library

inductive Cbor where
  | unsigned (n : Nat)
  /-- It stands for -1 - n. -/
  | negative (n : Nat)
  | bytes (data : List UInt8)
  | text (data : List UInt8)
  | array (items : List Cbor)
  | map (entries : List (Cbor × Cbor))
  | tag (n : Nat) (content : Cbor)
  | simple (n : Nat)
  | float16 (bits : UInt16)
  | float32 (bits : UInt32)
  | float64 (bits : UInt64)

namespace Cbor

/-- The low five bits of a head: its number, or how many bytes behind it hold the number. -/
def additional (n : Nat) : Nat :=
  if n < 24 then n else if n < 2 ^ 8 then 24 else if n < 2 ^ 16 then 25 else if n < 2 ^ 32 then 26 else 27

def argument (n : Nat) : List UInt8 := if n < 24 then [] else (toLE (2 ^ (additional n - 24)) n).reverse

def head (major n : Nat) : List UInt8 := UInt8.ofNat (major * 32 + additional n) :: argument n

mutual
def encode : Cbor → List UInt8
  | unsigned n => head 0 n
  | negative n => head 1 n
  | bytes data => head 2 data.length ++ data
  | text data => head 3 data.length ++ data
  | array items => head 4 items.length ++ encodeItems items
  | map entries => head 5 entries.length ++ encodeEntries entries
  | tag n content => head 6 n ++ encode content
  | simple n => head 7 n
  | float16 bits => 0xF9 :: (toLE 2 bits.toNat).reverse
  | float32 bits => 0xFA :: (toLE 4 bits.toNat).reverse
  | float64 bits => 0xFB :: (toLE 8 bits.toNat).reverse

def encodeItems : List Cbor → List UInt8
  | [] => []
  | item :: rest => encode item ++ encodeItems rest

def encodeEntries : List (Cbor × Cbor) → List UInt8
  | [] => []
  | (key,value) :: rest => encode key ++ (encode value ++ encodeEntries rest)
end

mutual
/-- Numbers and lengths have heads, and a simple value is not one that a shorter head has. -/
def WellFormed : Cbor → Prop
  | unsigned n => n < 2 ^ 64
  | negative n => n < 2 ^ 64
  | bytes data => data.length < 2 ^ 64
  | text data => data.length < 2 ^ 64
  | array items => items.length < 2 ^ 64 ∧ ItemsWellFormed items
  | map entries => entries.length < 2 ^ 64 ∧ EntriesWellFormed entries
  | tag n content => n < 2 ^ 64 ∧ WellFormed content
  | simple n => n < 24 ∨ 32 ≤ n ∧ n < 2 ^ 8
  | _ => True

def ItemsWellFormed : List Cbor → Prop
  | [] => True
  | item :: rest => WellFormed item ∧ ItemsWellFormed rest

def EntriesWellFormed : List (Cbor × Cbor) → Prop
  | [] => True
  | (key,value) :: rest => WellFormed key ∧ WellFormed value ∧ EntriesWellFormed rest
end

theorem additional_lt (n : Nat) : additional n < 28 := by
  rw [additional]
  split
  · omega
  · split
    · decide
    · split
      · decide
      · split <;> decide

theorem first_byte {major : Nat} (kind : major < 8) (n : Nat) :
    (UInt8.ofNat (major * 32 + additional n) >>> 5).toNat = major ∧
      (UInt8.ofNat (major * 32 + additional n) &&& 0x1F).toNat = additional n := by
  have small := additional_lt n
  have whole : (UInt8.ofNat (major * 32 + additional n)).toNat = major * 32 + additional n := by
    rw [UInt8.toNat_ofNat']
    omega
  have mask : (0x1F : UInt8).toNat = 2 ^ 5 - 1 := rfl
  have five : (5 : UInt8).toNat % 8 = 5 := rfl
  rw [UInt8.toNat_shiftRight,UInt8.toNat_and,whole,mask,five,Nat.shiftRight_eq_div_pow,Nat.and_two_pow_sub_one_eq_mod]
  omega

end Cbor

/-- A block stands at a place of a buffer, whatever is behind it. -/
def Stands {α : Type*} (data : List α) (p : Nat) (block : List α) : Prop := block <+: data.drop p

section Places

variable {α : Type*} {data : List α} {p : Nat}

theorem stands_append {first second : List α} :
    Stands data p (first ++ second) ↔ Stands data p first ∧ Stands data (p + first.length) second := by
  rw [Stands,Stands,Stands,← List.drop_drop]
  constructor
  · rintro ⟨rest,whole⟩
    rw [← whole,List.append_assoc,List.drop_left]
    exact ⟨List.prefix_append _ _,List.prefix_append _ _⟩
  · rintro ⟨⟨rest,whole⟩,behind⟩
    rw [← whole,List.drop_left] at behind
    rw [← whole,List.prefix_append_right_inj]
    exact behind

theorem stands_cons {a : α} {rest : List α} (here : Stands data p (a :: rest)) :
    p < data.length ∧ (∀ other, data.getD p other = a) ∧ Stands data (p + 1) rest := by
  obtain ⟨⟨behind,whole⟩,later⟩ := stands_append.mp (show Stands data p ([a] ++ rest) from here)
  have first : data[p]? = some a := by
    have same := congrArg (·[0]?) whole.symm
    rwa [List.getElem?_drop] at same
  obtain ⟨inside,_⟩ := List.getElem?_eq_some_iff.mp first
  refine ⟨inside,fun other => ?_,later⟩
  rw [List.getD_eq_getElem?_getD,first,Option.getD_some]

theorem Stands.slice {block : List α} (here : Stands data p block) : slice data p block.length = block :=
  List.prefix_iff_eq_take.mp here |>.symm

theorem Stands.inside {block : List α} (here : Stands data p block) (start : p ≤ data.length) :
    p + block.length ≤ data.length := by
  have fits := here.length_le
  rw [List.length_drop] at fits
  omega

end Places

example : (Cbor.map [(.unsigned 1,.array [.text [0x61],.simple 21]),(.unsigned 500,.tag 1 (.negative 9))]).encode =
    [0xA2,0x01,0x82,0x61,0x61,0xF5,0x19,0x01,0xF4,0xC1,0x29] := by decide

end SetecWizard.Library
