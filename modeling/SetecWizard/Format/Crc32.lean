import SetecWizard.Core.Checksums
import Mathlib.Logic.Function.Iterate
import SetecWizard.Core.ByteOrder

/-! The remainder of CRC-32 is linear in exclusive or. What bytes add to a checksum
therefore does not depend on the bytes before them.
-/
namespace SetecWizard.Core

theorem and_one_cases (x : UInt32) : x &&& 1 = 0 ∨ x &&& 1 = 1 := by
  have value : (x &&& 1).toNat = x.toNat % 2 := by
    rw [UInt32.toNat_and]
    exact Nat.and_one_is_mod _
  rcases Nat.mod_two_eq_zero_or_one x.toNat with even | odd
  · exact .inl (UInt32.toNat_inj.mp (value.trans even))
  · exact .inr (UInt32.toNat_inj.mp (value.trans odd))

theorem xor_and_distrib (a b mask : UInt32) : (a ^^^ b) &&& mask = (a &&& mask) ^^^ (b &&& mask) := by
  apply UInt32.toNat_inj.mp
  simp only [UInt32.toNat_and,UInt32.toNat_xor]
  exact Nat.and_xor_distrib_right

theorem xor_cancel (a b p : UInt32) : (a ^^^ p) ^^^ (b ^^^ p) = a ^^^ b := by
  calc (a ^^^ p) ^^^ (b ^^^ p) = (a ^^^ b) ^^^ (p ^^^ p) := by ac_rfl
    _ = a ^^^ b := by rw [UInt32.xor_self,UInt32.xor_zero]

theorem crc32Shift_xor (a b : UInt32) : crc32Shift (a ^^^ b) = crc32Shift a ^^^ crc32Shift b := by
  have high : (a ^^^ b) >>> 1 = (a >>> 1) ^^^ (b >>> 1) := UInt32.shiftRight_xor
  unfold crc32Shift
  rw [xor_and_distrib,high]
  rcases and_one_cases a with clear | set <;> rcases and_one_cases b with clear' | set'
  · simp [clear,clear']
  · simp [clear,set',UInt32.xor_assoc]
  · simp [set,clear']
    ac_rfl
  · simp only [set,set',UInt32.xor_self,if_true,xor_cancel]
    rfl

theorem crc32Table_xor (a b : UInt32) : crc32Table (a ^^^ b) = crc32Table a ^^^ crc32Table b := by
  unfold crc32Table
  induction List.range 8 generalizing a b with
  | nil => rfl
  | cons _ rest ih => rw [List.foldl_cons,List.foldl_cons,List.foldl_cons,crc32Shift_xor,ih]

/-- One byte of the sum, from the remainder so far. -/
def crc32Step (crc : UInt32) (b : UInt8) : UInt32 :=
  crc32Table ((crc ^^^ b.toUInt32) &&& 0xFF) ^^^ (crc >>> 8)

def remainder (crc : UInt32) (data : List UInt8) : UInt32 := data.foldl crc32Step crc

theorem crc32_eq_remainder (data : List UInt8) : crc32 data = remainder 0xFFFFFFFF data ^^^ 0xFFFFFFFF := rfl

theorem crc32Step_xor (crc other : UInt32) (b : UInt8) :
    crc32Step (crc ^^^ other) b = crc32Step crc b ^^^ crc32Step other 0 := by
  have zero : (0 : UInt8).toUInt32 = 0 := rfl
  have swap : (crc ^^^ other) ^^^ b.toUInt32 = (crc ^^^ b.toUInt32) ^^^ other := by ac_rfl
  have high : (crc ^^^ other) >>> 8 = (crc >>> 8) ^^^ (other >>> 8) := UInt32.shiftRight_xor
  unfold crc32Step
  rw [swap,xor_and_distrib,crc32Table_xor,high,zero,UInt32.xor_zero]
  ac_rfl

theorem remainder_xor (crc other : UInt32) (data : List UInt8) :
    remainder (crc ^^^ other) data = remainder crc data ^^^ remainder other (List.replicate data.length 0) := by
  induction data generalizing crc other with
  | nil => rfl
  | cons b rest ih =>
    change remainder (crc32Step (crc ^^^ other) b) rest = remainder (crc32Step crc b) rest ^^^ _
    rw [crc32Step_xor,ih]
    rfl

theorem crc32_append_iff (front : List UInt8) {first second : List UInt8} (same : first.length = second.length) :
    crc32 (front ++ first) = crc32 (front ++ second) ↔ crc32 first = crc32 second := by
  have split (crc : UInt32) (data : List UInt8) :
      remainder crc data = remainder 0 data ^^^ remainder crc (List.replicate data.length 0) := by
    rw [← remainder_xor,UInt32.zero_xor]
  have joined (data : List UInt8) :
      remainder 0xFFFFFFFF (front ++ data) = remainder (remainder 0xFFFFFFFF front) data := List.foldl_append
  simp only [crc32_eq_remainder,UInt32.xor_left_inj,joined]
  rw [split (remainder 0xFFFFFFFF front) first,split (remainder 0xFFFFFFFF front) second,
    split 0xFFFFFFFF first,split 0xFFFFFFFF second,same,UInt32.xor_left_inj,UInt32.xor_left_inj]

end SetecWizard.Core

/-! CRC-32 bit by bit: the division by the reflected polynomial, which takes in the bits of
each byte from the lowest on. One step of a table is eight of its steps, so that the two
implementations compute the same sum, over any pieces of the data.
-/
namespace SetecWizard.Core.Checksums

/-- A step of the division: the next bit of the data decides with the lowest of the register. -/
def crcBit (crc bit : UInt32) : UInt32 :=
  if (crc ^^^ bit) &&& 1 = 1 then (crc >>> 1) ^^^ 0xEDB88320 else crc >>> 1

/-- The lowest bits of a number, the lowest first. -/
def lowBits : Nat → UInt32 → List UInt32
  | 0,_ => []
  | n + 1,v => (v &&& 1) :: lowBits n (v >>> 1)

def crc32Bits (data : List UInt8) : UInt32 :=
  (data.flatMap (fun b => lowBits 8 b.toUInt32)).foldl crcBit 0xFFFFFFFF ^^^ 0xFFFFFFFF

theorem and_one_xor (v : UInt32) : (v ^^^ (v &&& 1)) &&& 1 = 0 := by
  rw [xor_and_distrib,UInt32.and_assoc,UInt32.and_self,UInt32.xor_self]

theorem and_one_shift (v : UInt32) : (v &&& 1) >>> 1 = 0 := by
  rcases and_one_cases v with clear | set
  · rw [clear]
    rfl
  · rw [set]
    rfl

theorem crc32Shift_even {v : UInt32} (even : v &&& 1 = 0) : crc32Shift v = v >>> 1 := by
  unfold crc32Shift
  rw [even,if_neg (by decide)]

theorem crc32Shift_rest (v : UInt32) : crc32Shift (v ^^^ (v &&& 1)) = v >>> 1 := by
  rw [crc32Shift_even (and_one_xor v),UInt32.shiftRight_xor,and_one_shift,UInt32.xor_zero]

theorem crcBit_eq_shift (crc v : UInt32) : crcBit crc (v &&& 1) = crc32Shift (crc ^^^ (v &&& 1)) := by
  unfold crcBit crc32Shift
  rw [UInt32.shiftRight_xor,and_one_shift,UInt32.xor_zero]

theorem foldl_lowBits (n : Nat) {v : UInt32} (small : v.toNat < 2 ^ n) (crc : UInt32) :
    (lowBits n v).foldl crcBit crc = crc32Shift^[n] (crc ^^^ v) := by
  induction n generalizing v crc with
  | zero =>
    have zero : v = 0 := UInt32.toNat_inj.mp (by rw [UInt32.toNat_zero]; omega)
    rw [zero,UInt32.xor_zero]
    rfl
  | succ n ih =>
    have half : (v >>> 1).toNat < 2 ^ n := by
      have one : (1 : UInt32).toNat % 32 = 1 := rfl
      rw [UInt32.toNat_shiftRight,one,Nat.shiftRight_eq_div_pow]
      omega
    have parts : crc ^^^ v = (crc ^^^ (v &&& 1)) ^^^ (v ^^^ (v &&& 1)) := (xor_cancel crc v (v &&& 1)).symm
    rw [lowBits,List.foldl_cons,ih half,crcBit_eq_shift,Function.iterate_succ_apply,parts,
      crc32Shift_xor (crc ^^^ (v &&& 1)),crc32Shift_rest]

theorem crc32Table_eq_iterate (i : UInt32) : crc32Table i = crc32Shift^[8] i := rfl

theorem iterate_xor (n : Nat) (a b : UInt32) :
    crc32Shift^[n] (a ^^^ b) = crc32Shift^[n] a ^^^ crc32Shift^[n] b := by
  induction n generalizing a b with
  | zero => rfl
  | succ n ih => rw [Function.iterate_succ_apply,crc32Shift_xor,ih,← Function.iterate_succ_apply,← Function.iterate_succ_apply]

theorem iterate_high (n : Nat) {v : UInt32} (clear : 2 ^ n ∣ v.toNat) :
    (crc32Shift^[n] v).toNat = v.toNat / 2 ^ n := by
  induction n generalizing v with
  | zero => simp
  | succ n ih =>
    obtain ⟨k,multiple⟩ := clear
    have even : v &&& 1 = 0 := by
      apply UInt32.toNat_inj.mp
      have one : (1 : UInt32).toNat = 1 := rfl
      rw [UInt32.toNat_and,one,Nat.and_one_is_mod,multiple,Nat.pow_succ,Nat.mul_assoc,Nat.mul_left_comm,
        Nat.mul_mod_right]
      rfl
    have half : (v >>> 1).toNat = 2 ^ n * k := by
      have one : (1 : UInt32).toNat % 32 = 1 := rfl
      rw [UInt32.toNat_shiftRight,one,Nat.shiftRight_eq_div_pow,multiple,Nat.pow_succ]
      have swap : 2 ^ n * 2 * k = 2 ^ 1 * (2 ^ n * k) := by ring
      rw [swap,Nat.mul_div_cancel_left _ (by decide)]
    rw [Function.iterate_succ_apply,crc32Shift_even even,ih (by rw [half]; exact Nat.dvd_mul_right _ _),half,multiple,
      Nat.mul_div_cancel_left _ (Nat.two_pow_pos _),Nat.mul_div_cancel_left _ (Nat.two_pow_pos _)]

theorem crc32Step_eq_shifts (crc : UInt32) (b : UInt8) :
    crc32Step crc b = crc32Shift^[8] (crc ^^^ b.toUInt32) := by
  generalize added : crc ^^^ b.toUInt32 = x
  have eight : (8 : UInt32).toNat % 32 = 8 := rfl
  have byte : crc >>> 8 = x >>> 8 := by
    have none : b.toUInt32 >>> 8 = 0 := by
      apply UInt32.toNat_inj.mp
      have width := b.toNat_lt
      rw [UInt32.toNat_shiftRight,eight,UInt8.toNat_toUInt32,Nat.shiftRight_eq_div_pow,Nat.div_eq_of_lt (by omega)]
      rfl
    rw [← added,UInt32.shiftRight_xor,none,UInt32.xor_zero]
  have split : x = (x &&& 0xFF) ^^^ (x ^^^ (x &&& 0xFF)) := by
    rw [UInt32.xor_comm x,← UInt32.xor_assoc,UInt32.xor_self,UInt32.zero_xor]
  have high : crc32Shift^[8] (x ^^^ (x &&& 0xFF)) = x >>> 8 := by
    have mask (v : UInt32) : (v &&& 0xFF).toNat = v.toNat % 2 ^ 8 := by
      have ones : (0xFF : UInt32).toNat = 2 ^ 8 - 1 := rfl
      rw [UInt32.toNat_and,ones,Nat.and_two_pow_sub_one_eq_mod]
    have clear : (x ^^^ (x &&& 0xFF)) &&& 0xFF = 0 := by
      rw [xor_and_distrib,UInt32.and_assoc,UInt32.and_self,UInt32.xor_self]
    have low : (x &&& 0xFF) >>> 8 = 0 := by
      apply UInt32.toNat_inj.mp
      rw [UInt32.toNat_shiftRight,eight,mask,Nat.shiftRight_eq_div_pow,Nat.div_eq_of_lt (Nat.mod_lt _ (by decide))]
      rfl
    have multiple : 2 ^ 8 ∣ (x ^^^ (x &&& 0xFF)).toNat := by
      have zero := congrArg UInt32.toNat clear
      rw [mask,UInt32.toNat_zero] at zero
      exact Nat.dvd_of_mod_eq_zero zero
    have shifted : (x ^^^ (x &&& 0xFF)) >>> 8 = x >>> 8 := by
      rw [UInt32.shiftRight_xor,low,UInt32.xor_zero]
    apply UInt32.toNat_inj.mp
    rw [iterate_high 8 multiple,← shifted,UInt32.toNat_shiftRight,eight,Nat.shiftRight_eq_div_pow]
  rw [crc32Step,added,byte,crc32Table_eq_iterate]
  conv_rhs => rw [split,iterate_xor,high]

theorem tableEntry_eq (i : UInt32) : tableEntry i = crc32Table i := by
  unfold tableEntry crc32Table
  congr 1
  funext crc _
  unfold crc32Shift kCrc32Polynomial
  rcases and_one_cases crc with clear | set
  · rw [clear,if_neg (by decide),if_neg (by decide)]
  · rw [set,if_pos (by decide),if_pos rfl]

theorem kCrc32Table_get (crc : UInt32) :
    kCrc32Table.getD crc.toUInt8.toNat 0 = crc32Table (crc &&& 0xFF) := by
  have bound := crc.toUInt8.toNat_lt
  have index : UInt32.ofNat crc.toUInt8.toNat = crc &&& 0xFF := by
    have ones : (0xFF : UInt32).toNat = 2 ^ 8 - 1 := rfl
    apply UInt32.toNat_inj.mp
    rw [UInt32.toNat_ofNat',Nat.mod_eq_of_lt (by omega),UInt32.toNat_and,ones,Nat.and_two_pow_sub_one_eq_mod,
      UInt32.toNat_toUInt8]
  rw [kCrc32Table,List.getD_eq_getElem?_getD,List.getElem?_map,List.getElem?_range bound,Option.map_some,
    Option.getD_some,index,tableEntry_eq]

theorem crc32Update_eq (previousCrc : UInt32) (data : List UInt8) :
    crc32Update previousCrc data = remainder (previousCrc ^^^ 0xFFFFFFFF) data ^^^ 0xFFFFFFFF := by
  have step : (fun (crc : UInt32) (b : UInt8) =>
      (crc >>> 8) ^^^ kCrc32Table.getD (crc ^^^ b.toUInt32).toUInt8.toNat 0) = crc32Step := by
    funext crc b
    rw [kCrc32Table_get,crc32Step,UInt32.xor_comm]
  unfold crc32Update remainder
  simp only [step]

theorem crc32Update_append (previousCrc : UInt32) (first second : List UInt8) :
    crc32Update (crc32Update previousCrc first) second = crc32Update previousCrc (first ++ second) := by
  rw [crc32Update_eq,crc32Update_eq,crc32Update_eq,UInt32.xor_assoc,UInt32.xor_self,UInt32.xor_zero,remainder,
    remainder,remainder,List.foldl_append]

theorem foldl_crc32Update (previousCrc : UInt32) (pieces : List (List UInt8)) :
    pieces.foldl crc32Update previousCrc = crc32Update previousCrc pieces.flatten := by
  induction pieces generalizing previousCrc with
  | nil =>
    rw [List.foldl_nil,List.flatten_nil,crc32Update_eq,remainder,List.foldl_nil,UInt32.xor_assoc,UInt32.xor_self,
      UInt32.xor_zero]
  | cons piece rest ih => rw [List.foldl_cons,ih,List.flatten_cons,crc32Update_append]

theorem crc32Buffer_eq (data : List UInt8) : crc32Buffer data = crc32 data := by
  rw [crc32Buffer,crc32Update_eq,UInt32.zero_xor,crc32_eq_remainder]

theorem crc32_eq_bits (data : List UInt8) : crc32 data = crc32Bits data := by
  have bytes (crc : UInt32) : remainder crc data = (data.flatMap (fun b => lowBits 8 b.toUInt32)).foldl crcBit crc := by
    induction data generalizing crc with
    | nil => rfl
    | cons b rest ih =>
      have width := b.toNat_lt
      rw [List.flatMap_cons,List.foldl_append,foldl_lowBits 8 (by rw [UInt8.toNat_toUInt32]; omega),
        ← crc32Step_eq_shifts,← ih]
      rfl
  rw [crc32_eq_remainder,bytes,crc32Bits]

/-- The sum does not depend on the pieces the data comes in, nor on which of the two
implementations computes it, and is that of the division bit by bit. -/
theorem crc32_agreement (a b : List UInt8) (pieces : List (List UInt8)) :
    crc32Update (crc32Update 0 a) b = crc32Buffer (a ++ b) ∧
      pieces.foldl crc32Update 0 = crc32Buffer pieces.flatten ∧
      crc32Buffer a = crc32 a ∧ crc32Buffer a = crc32Bits a ∧ crc32 a = crc32Bits a :=
  ⟨crc32Update_append 0 a b,foldl_crc32Update 0 pieces,crc32Buffer_eq a,
    (crc32Buffer_eq a).trans (crc32_eq_bits a),crc32_eq_bits a⟩

end SetecWizard.Core.Checksums
