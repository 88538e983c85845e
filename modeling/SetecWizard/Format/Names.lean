import Mathlib.Data.List.TakeWhile
import SetecWizard.Format.Integers

/-! Partition names. A name of characters of the basic plane survives the way to
UTF-16 and back: the three lengths of a UTF-8 sequence are told apart by the lead
byte, and a sequence and its code unit determine each other.
-/
namespace SetecWizard.Core
open SetecWizard.Library

theorem lead_two (k : Nat) (bound : k < 32) :
    ¬ UInt8.ofNat (k + 192) < 0x80 ∧ UInt8.ofNat (k + 192) &&& 0xE0 = 0xC0 ∧
      (UInt8.ofNat (k + 192) &&& 0x1F).toUInt16 = UInt16.ofNat k := by
  revert k
  decide

theorem lead_three (k : Nat) (bound : k < 16) :
    ¬ UInt8.ofNat (k + 224) < 0x80 ∧ UInt8.ofNat (k + 224) &&& 0xE0 ≠ 0xC0 ∧
      UInt8.ofNat (k + 224) &&& 0xF0 = 0xE0 ∧
      (UInt8.ofNat (k + 224) &&& 0x0F).toUInt16 = UInt16.ofNat k := by
  revert k
  decide

theorem continuation (k : Nat) (bound : k < 64) :
    (UInt8.ofNat (k + 128) &&& 0x3F).toUInt16 = UInt16.ofNat k := by
  revert k
  decide

theorem toNat_ofNat16 {n : Nat} (bound : n < 65536) : (UInt16.ofNat n).toNat = n := by
  rw [UInt16.toNat_ofNat']
  omega

theorem join_six (high low : Nat) (highBound : high < 1024) (lowBound : low < 64) :
    (UInt16.ofNat high <<< 6) ||| UInt16.ofNat low = UInt16.ofNat (low + high * 64) := by
  apply UInt16.toNat_inj.mp
  rw [UInt16.toNat_or,UInt16.toNat_shiftLeft,toNat_ofNat16 (by omega),toNat_ofNat16 (by omega),
    toNat_ofNat16 (by omega)]
  change high <<< 6 % 2 ^ 16 ||| low = _
  rw [Nat.mod_eq_of_lt (by rw [Nat.shiftLeft_eq]; omega),Nat.or_comm,or_shiftLeft _ _ 6 lowBound]
  rfl

theorem join_twelve (high low : Nat) (highBound : high < 16) (lowBound : low < 4096) :
    (UInt16.ofNat high <<< 12) ||| UInt16.ofNat low = UInt16.ofNat (low + high * 4096) := by
  apply UInt16.toNat_inj.mp
  rw [UInt16.toNat_or,UInt16.toNat_shiftLeft,toNat_ofNat16 (by omega),toNat_ofNat16 (by omega),
    toNat_ofNat16 (by omega)]
  change high <<< 12 % 2 ^ 16 ||| low = _
  rw [Nat.mod_eq_of_lt (by rw [Nat.shiftLeft_eq]; omega),Nat.or_comm,or_shiftLeft _ _ 12 lowBound]
  rfl

theorem loop_one (c : UInt8) (rest : List UInt8) (room : Nat) (ascii : c < 0x80) :
    utf8ToUtf16leLoop (c :: rest) (room + 1) = c.toUInt16 :: utf8ToUtf16leLoop rest room := by
  rw [utf8ToUtf16leLoop.eq_def]
  simp only [ascii,if_true]

theorem loop_two (c d : UInt8) (rest : List UInt8) (room : Nat) (high : ¬ c < 0x80)
    (marker : c &&& 0xE0 = 0xC0) :
    utf8ToUtf16leLoop (c :: d :: rest) (room + 1) =
      (((c &&& 0x1F).toUInt16 <<< 6) ||| (d &&& 0x3F).toUInt16) :: utf8ToUtf16leLoop rest room := by
  rw [utf8ToUtf16leLoop.eq_def]
  cases rest <;> simp only [high,marker,if_true,if_false]

theorem loop_three (c d e : UInt8) (rest : List UInt8) (room : Nat) (high : ¬ c < 0x80)
    (short : c &&& 0xE0 ≠ 0xC0) (marker : c &&& 0xF0 = 0xE0) :
    utf8ToUtf16leLoop (c :: d :: e :: rest) (room + 1) =
      (((c &&& 0x0F).toUInt16 <<< 12) ||| ((d &&& 0x3F).toUInt16 <<< 6) ||| (e &&& 0x3F).toUInt16)
        :: utf8ToUtf16leLoop rest room := by
  rw [utf8ToUtf16leLoop.eq_def]
  simp only [high,short,marker,if_true,if_false]

/-- The bytes of a number below 2^16 in UTF-8, surrogates not excluded. -/
def sequence (v : Nat) : List UInt8 :=
  if v ≤ 127 then [UInt8.ofNat v]
  else if v ≤ 2047 then [UInt8.ofNat (v / 64 % 32 + 192),UInt8.ofNat (v % 64 + 128)]
  else [UInt8.ofNat (v / 4096 % 16 + 224),UInt8.ofNat (v / 64 % 64 + 128),UInt8.ofNat (v % 64 + 128)]

theorem utf8ToUtf16leLoop_sequence {v : Nat} (plane : v < 65536) (rest : List UInt8) (room : Nat) :
    utf8ToUtf16leLoop (sequence v ++ rest) (room + 1) = UInt16.ofNat v :: utf8ToUtf16leLoop rest room := by
  unfold sequence
  split
  next one =>
    have ascii : UInt8.ofNat v < 0x80 := by
      rw [UInt8.lt_iff_toNat_lt,UInt8.toNat_ofNat']
      have bound : (0x80 : UInt8).toNat = 128 := rfl
      omega
    have unit : (UInt8.ofNat v).toUInt16 = UInt16.ofNat v := by
      apply UInt16.toNat_inj.mp
      rw [UInt8.toNat_toUInt16,UInt8.toNat_ofNat',toNat_ofNat16 plane]
      omega
    rw [List.singleton_append,loop_one _ _ _ ascii,unit]
  next =>
    split
    next two =>
      obtain ⟨high,marker,bits⟩ := lead_two (v / 64 % 32) (by omega)
      have tail := continuation (v % 64) (by omega)
      have unit : (UInt16.ofNat (v / 64 % 32) <<< 6) ||| UInt16.ofNat (v % 64) = UInt16.ofNat v := by
        rw [join_six _ _ (by omega) (by omega)]
        congr 1
        omega
      rw [List.cons_append,List.singleton_append,loop_two _ _ _ _ high marker,bits,tail,unit]
    next =>
      obtain ⟨high,short,marker,bits⟩ := lead_three (v / 4096 % 16) (by omega)
      have middle := continuation (v / 64 % 64) (by omega)
      have tail := continuation (v % 64) (by omega)
      have unit : ((UInt16.ofNat (v / 4096 % 16) <<< 12) ||| (UInt16.ofNat (v / 64 % 64) <<< 6))
          ||| UInt16.ofNat (v % 64) = UInt16.ofNat v := by
        rw [UInt16.or_assoc,join_six _ _ (by omega) (by omega),join_twelve _ _ (by omega) (by omega)]
        congr 1
        omega
      rw [List.cons_append,List.cons_append,List.singleton_append,loop_three _ _ _ _ _ high short marker,
        bits,middle,tail,unit]

/-- A character of the basic plane other than NUL. -/
def Basic (c : Char) : Prop := c.val.toNat ≠ 0 ∧ c.val.toNat < 65536

def codeUnit (c : Char) : UInt16 := UInt16.ofNat c.val.toNat

theorem utf8EncodeChar_sequence (c : Char) (basic : Basic c) :
    String.utf8EncodeChar c = sequence c.val.toNat := by
  obtain ⟨_,plane⟩ := basic
  unfold String.utf8EncodeChar sequence
  generalize c.val.toNat = v at plane
  have three : v ≤ 65535 := by omega
  simp only [three,if_true]

theorem utf8ToUtf16leLoop_char (c : Char) (basic : Basic c) (rest : List UInt8) (room : Nat) :
    utf8ToUtf16leLoop (String.utf8EncodeChar c ++ rest) (room + 1) =
      codeUnit c :: utf8ToUtf16leLoop rest room := by
  rw [utf8EncodeChar_sequence c basic]
  exact utf8ToUtf16leLoop_sequence basic.2 rest room

def nameBytes (chars : List Char) : List UInt8 := chars.flatMap String.utf8EncodeChar

theorem utf8ToUtf16leLoop_name (chars : List Char) (basic : ∀ c ∈ chars, Basic c) (room : Nat)
    (fits : chars.length ≤ room) : utf8ToUtf16leLoop (nameBytes chars) room = chars.map codeUnit := by
  induction chars generalizing room with
  | nil => cases room <;> rfl
  | cons c rest ih =>
    rw [List.length_cons] at fits
    obtain ⟨room,rfl⟩ : ∃ n, room = n + 1 := ⟨room - 1,by omega⟩
    have later := ih (fun d member => basic d (by simp [member])) room (by omega)
    rw [nameBytes] at later
    rw [nameBytes,List.flatMap_cons,utf8ToUtf16leLoop_char c (basic c (by simp)),later,List.map_cons]

theorem low_six (v : Nat) (plane : v < 65536) : UInt16.ofNat v &&& 0x3F = UInt16.ofNat (v % 64) := by
  apply UInt16.toNat_inj.mp
  rw [UInt16.toNat_and,toNat_ofNat16 plane,toNat_ofNat16 (by omega)]
  exact Nat.and_two_pow_sub_one_eq_mod v 6

theorem shift_six (v : Nat) (plane : v < 65536) : UInt16.ofNat v >>> 6 = UInt16.ofNat (v / 64) := by
  apply UInt16.toNat_inj.mp
  rw [UInt16.toNat_shiftRight,toNat_ofNat16 plane,toNat_ofNat16 (by omega)]
  exact Nat.shiftRight_eq_div_pow v 6

theorem shift_twelve (v : Nat) (plane : v < 65536) : UInt16.ofNat v >>> 12 = UInt16.ofNat (v / 4096) := by
  apply UInt16.toNat_inj.mp
  rw [UInt16.toNat_shiftRight,toNat_ofNat16 plane,toNat_ofNat16 (by omega)]
  exact Nat.shiftRight_eq_div_pow v 12

theorem marked (k : Nat) (marker : Nat) (i : Nat) (bound : k < 2 ^ i) (small : k < 65536)
    (above : marker * 2 ^ i < 65536) :
    (UInt16.ofNat k ||| UInt16.ofNat (marker * 2 ^ i)).toUInt8 = UInt8.ofNat (k + marker * 2 ^ i) := by
  apply UInt8.toNat_inj.mp
  rw [UInt16.toNat_toUInt8,UInt16.toNat_or,toNat_ofNat16 small,toNat_ofNat16 above,← Nat.shiftLeft_eq,
    or_shiftLeft _ _ _ bound,UInt8.toNat_ofNat',Nat.shiftLeft_eq]

theorem utf8Unit_ofNat {v : Nat} (plane : v < 65536) : utf8Unit (UInt16.ofNat v) = sequence v := by
  unfold utf8Unit sequence
  have one : UInt16.ofNat v < 0x80 ↔ v ≤ 127 := by
    rw [UInt16.lt_iff_toNat_lt,toNat_ofNat16 plane]
    exact Nat.lt_succ_iff
  have two : UInt16.ofNat v < 0x800 ↔ v ≤ 2047 := by
    rw [UInt16.lt_iff_toNat_lt,toNat_ofNat16 plane]
    exact Nat.lt_succ_iff
  simp only [one,two]
  split
  next =>
    congr 1
    apply UInt8.toNat_inj.mp
    rw [UInt16.toNat_toUInt8,toNat_ofNat16 plane,UInt8.toNat_ofNat']
  next =>
    rw [low_six v plane,shift_six v plane]
    split
    next short =>
      have high : v / 64 % 32 = v / 64 := by omega
      rw [high]
      have first := marked (v / 64) 3 6 (by omega) (by omega) (by decide)
      have last := marked (v % 64) 2 6 (by omega) (by omega) (by decide)
      exact congrArg₂ (fun a b => [a,b]) first last
    next =>
      have high : v / 4096 % 16 = v / 4096 := by omega
      rw [low_six (v / 64) (by omega),shift_twelve v plane,high]
      have first := marked (v / 4096) 7 5 (by omega) (by omega) (by decide)
      have middle := marked (v / 64 % 64) 2 6 (by omega) (by omega) (by decide)
      have last := marked (v % 64) 2 6 (by omega) (by omega) (by decide)
      exact congrArg₂ List.cons first (congrArg₂ (fun a b => [a,b]) middle last)

theorem utf8Unit_codeUnit (c : Char) (basic : Basic c) :
    utf8Unit (codeUnit c) = String.utf8EncodeChar c := by
  rw [utf8EncodeChar_sequence c basic,codeUnit,utf8Unit_ofNat basic.2]

theorem utf8ToUtf16leLoop_unit (u : UInt16) (rest : List UInt8) (room : Nat) :
    utf8ToUtf16leLoop (utf8Unit u ++ rest) (room + 1) = u :: utf8ToUtf16leLoop rest room := by
  have whole : UInt16.ofNat u.toNat = u := UInt16.ofNat_toNat
  have plane : u.toNat < 65536 := u.toNat_lt
  have read := utf8ToUtf16leLoop_sequence plane rest room
  rwa [← utf8Unit_ofNat plane,whole] at read

theorem utf8ToUtf16leLoop_units (units : List UInt16) (room : Nat) :
    utf8ToUtf16leLoop (units.flatMap utf8Unit) room = units.take room := by
  induction units generalizing room with
  | nil =>
    rw [List.take_nil]
    cases room <;> rfl
  | cons u rest ih =>
    cases room with
    | zero =>
      rw [List.take_zero]
      cases List.flatMap utf8Unit (u :: rest) <;> rfl
    | succ room => rw [List.flatMap_cons,utf8ToUtf16leLoop_unit,ih,List.take_succ_cons]

theorem codeUnit_nonzero (c : Char) (basic : Basic c) : codeUnit c ≠ 0 := by
  intro zero
  have value := congrArg UInt16.toNat zero
  rw [codeUnit,toNat_ofNat16 basic.2] at value
  exact basic.1 value

theorem length_utf8ToUtf16leLoop (src : List UInt8) (room : Nat) :
    (utf8ToUtf16leLoop src room).length ≤ room := by
  fun_induction utf8ToUtf16leLoop src room <;> simp_all

theorem utf16leToUtf8_name (chars : List Char) (basic : ∀ c ∈ chars, Basic c) (fits : chars.length ≤ 35) :
    utf16leToUtf8 (utf8ToUtf16le (nameBytes chars) 36) 36 = nameBytes chars := by
  have units : utf8ToUtf16leLoop (nameBytes chars) 35 = chars.map codeUnit :=
    utf8ToUtf16leLoop_name chars basic 35 fits
  have nonzero : ∀ u ∈ chars.map codeUnit, decide (u ≠ 0) = true := by
    intro u member
    obtain ⟨c,among,rfl⟩ := List.mem_map.mp member
    exact decide_eq_true (codeUnit_nonzero c (basic c among))
  have taken : ((utf8ToUtf16le (nameBytes chars) 36).take 36).takeWhile (· ≠ 0) = chars.map codeUnit := by
    have length : (utf8ToUtf16le (nameBytes chars) 36).length = 36 := by
      simp only [utf8ToUtf16le,Nat.reduceSub,units,List.length_append,List.length_map,List.length_replicate]
      omega
    rw [List.take_of_length_le (by omega)]
    obtain ⟨pad,more⟩ : ∃ pad, 36 - chars.length = pad + 1 := ⟨35 - chars.length,by omega⟩
    simp only [utf8ToUtf16le,Nat.reduceSub,units,List.length_map,more,List.replicate_succ]
    rw [List.takeWhile_append_of_pos nonzero]
    simp
  unfold utf16leToUtf8
  rw [taken,List.flatMap_map,nameBytes]
  exact List.flatMap_congr (fun c member => utf8Unit_codeUnit c (basic c member))

def fieldOf (units : List UInt16) : List UInt16 := units ++ List.replicate (36 - units.length) 0

section Field

variable {units : List UInt16}

theorem length_fieldOf (few : units.length ≤ 36) : (fieldOf units).length = 36 := by
  rw [fieldOf,List.length_append,List.length_replicate]
  omega

theorem utf16leToUtf8_fieldOf (nonzero : ∀ u ∈ units, u ≠ 0) (few : units.length ≤ 36) :
    utf16leToUtf8 (fieldOf units) 36 = units.flatMap utf8Unit := by
  have all : ∀ u ∈ units, decide (u ≠ 0) = true := fun u member => decide_eq_true (nonzero u member)
  have units_only : (fieldOf units).takeWhile (· ≠ 0) = units := by
    rw [fieldOf,List.takeWhile_append_of_pos all]
    cases 36 - units.length with
    | zero => exact List.append_nil _
    | succ pad =>
      rw [List.replicate_succ,List.takeWhile_cons_of_neg (by decide)]
      exact List.append_nil _
  rw [utf16leToUtf8,List.take_of_length_le (length_fieldOf few).le,units_only]

/-- A field comes back but for a code unit in its last place. -/
theorem fieldOf_recoded_iff (nonzero : ∀ u ∈ units, u ≠ 0) (few : units.length ≤ 36) :
    utf8ToUtf16le (utf16leToUtf8 (fieldOf units) 36) 36 = fieldOf units ↔ units.length ≤ 35 := by
  rw [utf16leToUtf8_fieldOf nonzero few,utf8ToUtf16le,utf8ToUtf16leLoop_units,Nat.add_one_sub_one]
  constructor
  · intro same
    by_contra full
    obtain ⟨front,last,rfl⟩ : ∃ front last, units = front ++ [last] :=
      ⟨_,_,(List.dropLast_append_getLast (List.ne_nil_of_length_pos (by omega))).symm⟩
    rw [List.length_append,List.length_singleton] at few full
    have count : front.length = 35 := by omega
    have ends := congrArg (·[35]?) same
    simp [fieldOf,count] at ends
    exact nonzero last (by simp) ends.symm
  · intro short
    rw [List.take_of_length_le short,fieldOf]

end Field

/-- A name after it was recorded and read again. -/
def renamed (name : List UInt8) : List UInt8 := utf16leToUtf8 (utf8ToUtf16le name 36) 36

theorem renamed_renamed (name : List UInt8) : renamed (renamed name) = renamed name := by
  have few := length_utf8ToUtf16leLoop name 35
  have cut (units : List UInt16) (short : units.length ≤ 35) :
      ((units ++ List.replicate (36 - units.length) (0 : UInt16)).take 36).takeWhile (· ≠ 0) =
        units.takeWhile (· ≠ 0) := by
    obtain ⟨pad,more⟩ : ∃ pad, 36 - units.length = pad + 1 := ⟨35 - units.length,by omega⟩
    rw [List.take_of_length_le (by rw [List.length_append,List.length_replicate]; omega),more,
      List.replicate_succ,List.takeWhile_append]
    split
    next all =>
      have whole := (List.takeWhile_sublist (l := units) (fun u => decide (u ≠ 0))).eq_of_length all
      rw [List.takeWhile_cons_of_neg (by decide),List.append_nil,whole]
    next => rfl
  have form (name : List UInt8) : renamed name =
      ((utf8ToUtf16leLoop name 35).takeWhile (· ≠ 0)).flatMap utf8Unit := by
    rw [renamed,utf16leToUtf8,utf8ToUtf16le,Nat.add_one_sub_one,cut _ (length_utf8ToUtf16leLoop name 35)]
  have shorter := (List.takeWhile_sublist (l := utf8ToUtf16leLoop name 35) (fun u => decide (u ≠ 0))).length_le
  rw [form (renamed name),form name,utf8ToUtf16leLoop_units,List.take_of_length_le (by omega),List.takeWhile_idem]

end SetecWizard.Core
