import Mathlib.Data.Nat.Bitwise
import SetecWizard.Imaging.XzStreamRuns

/-! The numbers of an .xz stream, seven bits to a byte, and the index that is made of them. However the input
is cut, a number is accepted when it is written in as few bytes as it takes, and in no more than nine. The padding
of the index is taken for as long as there are zeros, so that a checksum may not begin with one.
-/
namespace SetecWizard.Core.Xz
open SetecWizard.Library

section Encoding

/-- The fewest bytes of a number, the lowest bits first. -/
def vliBytes (n : Nat) : List UInt8 :=
  if n < 128 then [UInt8.ofNat n] else UInt8.ofNat (n % 128 + 128) :: vliBytes (n / 128)
termination_by n

theorem vliBytes_small {n : Nat} (small : n < 128) : vliBytes n = [UInt8.ofNat n] := by
  rw [vliBytes,if_pos small]

theorem vliBytes_large {n : Nat} (large : 128 ≤ n) : vliBytes n = UInt8.ofNat (n % 128 + 128) :: vliBytes (n / 128) := by
  rw [vliBytes,if_neg (Nat.not_lt.mpr large)]

def Written (input : Nat → UInt8) (pos left n : Nat) : Prop :=
  (vliBytes n).length ≤ left ∧ window input pos (vliBytes n).length = vliBytes n

variable {input : Nat → UInt8} {pos left n : Nat}

theorem window_succ (store : Nat → UInt8) (off n : Nat) : window store off (n + 1) = store off :: window store (off + 1) n := by
  rw [Nat.add_comm,window_append]
  rfl

theorem not_written_zero : ¬ Written input pos 0 n := by
  intro written
  have none := written.1
  by_cases small : n < 128
  · rw [vliBytes_small small] at none
    exact absurd none (Nat.not_succ_le_zero 0)
  · rw [vliBytes_large (Nat.le_of_not_lt small)] at none
    exact absurd none (Nat.not_succ_le_zero _)

theorem written_small (small : n < 128) : Written input pos (left + 1) n ↔ (input pos).toNat = n := by
  have byte : (UInt8.ofNat n).toNat = n := UInt8.toNat_ofNat_of_lt' (Nat.lt_trans small (by decide))
  unfold Written
  rw [vliBytes_small small]
  constructor
  · intro written
    have same : [input pos] = [UInt8.ofNat n] := written.2
    rw [List.cons.inj same |>.1,byte]
  · intro same
    refine ⟨Nat.le_add_left _ _,?_⟩
    change [input pos] = _
    rw [← same,UInt8.ofNat_toNat]

theorem written_large (large : 128 ≤ n) :
    Written input pos (left + 1) n ↔ (input pos).toNat = n % 128 + 128 ∧ Written input (pos + 1) left (n / 128) := by
  have byte : (UInt8.ofNat (n % 128 + 128)).toNat = n % 128 + 128 := by
    apply UInt8.toNat_ofNat_of_lt'
    change _ < 256
    omega
  unfold Written
  rw [vliBytes_large large,List.length_cons,window_succ]
  constructor
  · rintro ⟨short,same⟩
    obtain ⟨first,rest⟩ := List.cons.inj same
    exact ⟨by rw [first,byte],Nat.le_of_succ_le_succ short,rest⟩
  · rintro ⟨first,short,rest⟩
    refine ⟨Nat.succ_le_succ short,?_⟩
    rw [rest,← first,UInt8.ofNat_toNat]

end Encoding

section Decoding

variable {input : Nat → UInt8} {left pos count : Nat} {value : UInt64}

theorem step_value (byte : UInt8) (least : 1 ≤ count) (most : count ≤ 9) (small : value.toNat < 2 ^ (7 * (count - 1))) :
    (value ||| ((byte &&& 0x7F).toUInt64 <<< ((UInt32.ofNat count - 1) * 7).toUInt64)).toNat =
      value.toNat + 2 ^ (7 * (count - 1)) * (byte.toNat % 128) := by
  have shift : (((UInt32.ofNat count - 1) * 7).toUInt64).toNat = 7 * (count - 1) := by
    have number : (UInt32.ofNat count).toNat = count := UInt32.toNat_ofNat_of_lt' (by change _ < 2 ^ 32; omega)
    have before : (UInt32.ofNat count - 1).toNat = count - 1 := by
      rw [UInt32.toNat_sub_of_le _ _ (UInt32.le_iff_toNat_le.mpr (by rw [number]; exact least)),number]
      rfl
    rw [UInt32.toNat_toUInt64,UInt32.toNat_mul,before]
    change (count - 1) * 7 % 2 ^ 32 = _
    omega
  have bits : (byte &&& 0x7F).toUInt64.toNat = byte.toNat % 128 := by
    rw [UInt8.toNat_toUInt64,UInt8.toNat_and]
    exact Nat.and_two_pow_sub_one_eq_mod byte.toNat 7
  have low : byte.toNat % 128 < 2 ^ 7 := Nat.mod_lt _ (by decide)
  have power : 2 ^ (7 * (count - 1)) ≤ 2 ^ 56 := Nat.pow_le_pow_right (by decide) (by omega)
  have room : byte.toNat % 128 * 2 ^ (7 * (count - 1)) < 2 ^ 64 := by
    have scaled := Nat.mul_le_mul (Nat.le_of_lt_succ low) power
    omega
  rw [UInt64.toNat_or,UInt64.toNat_shiftLeft,shift,bits,Nat.mod_eq_of_lt (by omega : 7 * (count - 1) < 64),Nat.shiftLeft_eq,
    Nat.mod_eq_of_lt room,Nat.or_comm,Nat.mul_comm,← Nat.two_pow_add_eq_or_of_lt small,Nat.add_comm]

theorem high_clear (byte : UInt8) : byte &&& 0x80 = 0 ↔ byte.toNat < 128 := by
  have bit : (byte &&& 0x80).toNat = (byte.toNat.testBit 7).toNat * 128 := by
    rw [UInt8.toNat_and]
    exact Nat.and_two_pow byte.toNat 7
  have width := byte.toNat_lt
  have set : byte.toNat.testBit 7 = decide (128 ≤ byte.toNat) := by
    rw [Nat.testBit_eq_decide_div_mod_eq]
    congr 1
    apply propext
    constructor <;> intro h <;> omega
  constructor
  · intro clear
    rw [clear,set] at bit
    by_contra large
    rw [decide_eq_true (Nat.le_of_not_lt large)] at bit
    exact absurd bit (by decide)
  · intro small
    apply UInt8.toNat_inj.mp
    rw [bit,set,decide_eq_false (Nat.not_le.mpr small)]
    rfl

theorem decVliLoop_iff (least : 1 ≤ count) (most : count ≤ 9) (small : value.toNat < 2 ^ (7 * (count - 1))) (w : UInt64) (after : Nat) :
    decVliLoop input left ⟨value,UInt32.ofNat count⟩ pos = (.streamEnd,⟨w,0⟩,after) ↔ ∃ n, (count = 1 ∨ n ≠ 0) ∧
      n < 2 ^ (7 * (10 - count)) ∧ Written input pos left n ∧ after = pos + (vliBytes n).length ∧
      w.toNat = value.toNat + 2 ^ (7 * (count - 1)) * n := by
  induction left generalizing value count pos with
  | zero =>
    constructor
    · intro ended
      exact XzRet.noConfusion (Prod.mk.inj ended).1
    · rintro ⟨n,_,_,written,_⟩
      exact absurd written not_written_zero
  | succ left ih =>
    obtain ⟨next,named⟩ : ∃ next, next = value ||| ((input pos &&& 0x7F).toUInt64 <<< ((UInt32.ofNat count - 1) * 7).toUInt64) := ⟨_,rfl⟩
    have step := step_value (input pos) least most small
    have counted : (UInt32.ofNat count).toNat = count := UInt32.toNat_ofNat_of_lt' (by change _ < 2 ^ 32; omega)
    rw [← named] at step
    rw [decVliLoop]
    dsimp only
    rw [← named]
    by_cases last : (input pos).toNat < 128
    · rw [if_pos ((high_clear _).mpr last)]
      have only {n : Nat} (written : Written input pos (left + 1) n) : n = (input pos).toNat := by
        by_cases few : n < 128
        · exact ((written_small few).mp written).symm
        · have first := ((written_large (Nat.le_of_not_lt few)).mp written).1
          omega
      split
      · rename_i padded
        have several : 1 < count := counted.symm ▸ UInt32.lt_iff_toNat_lt.mp padded.2
        constructor
        · intro ended
          exact XzRet.noConfusion (Prod.mk.inj ended).1
        · rintro ⟨n,minimal,_,written,_⟩
          have zero : n = 0 := by
            rw [only written,padded.1]
            rfl
          omega
      · rename_i minimal
        have low : (input pos).toNat % 128 = (input pos).toNat := Nat.mod_eq_of_lt last
        rw [low] at step
        have length : (vliBytes (input pos).toNat).length = 1 := by
          rw [vliBytes_small last]
          rfl
        constructor
        · intro ended
          cases ended
          refine ⟨(input pos).toNat,?_,?_,(written_small last).mpr rfl,by rw [length],step⟩
          · by_contra neither
            obtain ⟨several,zero⟩ := not_or.mp neither
            apply minimal
            refine ⟨UInt8.toNat_inj.mp (not_not.mp zero),UInt32.lt_iff_toNat_lt.mpr ?_⟩
            rw [counted]
            change 1 < count
            omega
          · exact Nat.lt_of_lt_of_le last (Nat.pow_le_pow_right Nat.two_pos (by omega : 7 ≤ 7 * (10 - count)))
        · rintro ⟨n,_,_,written,rfl,same⟩
          rw [only written,length] at *
          rw [UInt64.toNat_inj.mp (same.trans step.symm)]
    · rw [if_neg fun clear => last ((high_clear _).mp clear)]
      have byte := (input pos).toNat_lt
      have several {n : Nat} (written : Written input pos (left + 1) n) : 128 ≤ n := by
        by_contra few
        exact last ((written_small (Nat.lt_of_not_le few)).mp written ▸ Nat.lt_of_not_le few)
      split
      · rename_i full
        have nine : count = 9 := by
          have reached := UInt32.le_iff_toNat_le.mp full
          rw [counted] at reached
          change 9 ≤ count at reached
          omega
        constructor
        · intro ended
          exact XzRet.noConfusion (Prod.mk.inj ended).1
        · rintro ⟨n,_,few,written,_⟩
          have large := several written
          rw [nine] at few
          omega
      · rename_i going
        have more : count ≤ 8 := by
          by_contra reached
          apply going
          rw [ge_iff_le,UInt32.le_iff_toNat_le,counted]
          change 9 ≤ count
          omega
        have wider : 2 ^ (7 * (count + 1 - 1)) = 2 ^ (7 * (count - 1)) * 128 := by
          have split : 7 * (count + 1 - 1) = 7 * (count - 1) + 7 := by omega
          rw [split,pow_add]
          rfl
        have low : (input pos).toNat % 128 < 128 := Nat.mod_lt _ (by decide)
        have room : next.toNat < 2 ^ (7 * (count + 1 - 1)) := by
          have scaled := Nat.mul_le_mul_left (2 ^ (7 * (count - 1))) (Nat.le_of_lt_succ low : (input pos).toNat % 128 ≤ 127)
          rw [step,wider]
          omega
        have deeper : 2 ^ (7 * (10 - count)) = 2 ^ (7 * (10 - (count + 1))) * 128 := by
          have split : 7 * (10 - count) = 7 * (10 - (count + 1)) + 7 := by omega
          rw [split,pow_add]
          rfl
        have total (n : Nat) : next.toNat + 2 ^ (7 * (count + 1 - 1)) * n =
            value.toNat + 2 ^ (7 * (count - 1)) * ((input pos).toNat % 128 + 128 * n) := by
          rw [step,wider,Nat.mul_add,Nat.mul_assoc,Nat.add_assoc]
        have counting : UInt32.ofNat count + 1 = UInt32.ofNat (count + 1) := (UInt32.ofNat_add count 1).symm
        rw [counting,@ih (pos + 1) (count + 1) next (by omega) (by omega) room]
        constructor
        · rintro ⟨n,some,few,written,rfl,same⟩
          have positive : n ≠ 0 := some.resolve_left (by omega)
          have large : 128 ≤ (input pos).toNat % 128 + 128 * n := by omega
          have rest : ((input pos).toNat % 128 + 128 * n) / 128 = n := by omega
          refine ⟨(input pos).toNat % 128 + 128 * n,.inr (by omega),by omega,(written_large large).mpr ⟨by omega,rest.symm ▸ written⟩,?_,
            same.trans (total n)⟩
          rw [vliBytes_large large,rest,List.length_cons]
          omega
        · rintro ⟨n,_,few,written,rfl,same⟩
          have large := several written
          obtain ⟨first,later⟩ := (written_large large).mp written
          have parts : (input pos).toNat % 128 + 128 * (n / 128) = n := by omega
          refine ⟨n / 128,.inr (by omega),by omega,later,?_,?_⟩
          · rw [vliBytes_large large,List.length_cons]
            omega
          · rw [total,parts,same]

theorem decVliLoop_waits {vli after : Vli} {last : Nat} (least : 1 ≤ vli.count.toNat) (most : vli.count.toNat ≤ 9)
    (waits : decVliLoop input left vli pos = (.ok,after,last)) : last = pos + left ∧ 1 ≤ after.count.toNat ∧ after.count.toNat ≤ 9 := by
  induction left generalizing vli pos with
  | zero =>
    cases waits
    exact ⟨rfl,least,most⟩
  | succ left ih =>
    rw [decVliLoop] at waits
    dsimp only at waits
    split at waits
    · split at waits <;> cases waits
    · split at waits
      · cases waits
      · rename_i going
        have below : vli.count.toNat < 9 := Nat.lt_of_not_le fun full => going (UInt32.le_iff_toNat_le.mpr full)
        have next : (vli.count + 1).toNat = vli.count.toNat + 1 := by
          rw [UInt32.toNat_add]
          change (vli.count.toNat + 1) % 2 ^ 32 = _
          omega
        obtain ⟨whole,rest⟩ := ih (by dsimp only; omega) (by dsimp only; omega) waits
        exact ⟨by omega,rest⟩

theorem decVliLoop_add (more : Nat) (vli : Vli) : decVliLoop input (left + more) vli pos =
    if (decVliLoop input left vli pos).1 = .ok then
      decVliLoop input more (decVliLoop input left vli pos).2.1 (decVliLoop input left vli pos).2.2
    else decVliLoop input left vli pos := by
  induction left generalizing vli pos with
  | zero =>
    rw [Nat.zero_add]
    exact (if_pos rfl).symm
  | succ left ih =>
    rw [Nat.succ_add,decVliLoop,decVliLoop]
    dsimp only
    split
    · split <;> exact (if_neg fun same => XzRet.noConfusion same).symm
    · split
      · exact (if_neg fun same => XzRet.noConfusion same).symm
      · exact ih _

/-- The calls for a number whose bytes come in pieces: where each piece ends. -/
def decVliPieces (input : Nat → UInt8) : List Nat → Vli → Nat → XzRet × Vli × Nat
  | [],vli,inPos => (.ok,vli,inPos)
  | inSize :: rest,vli,inPos =>
    if (decVli vli input inPos inSize).1 = .ok then
      decVliPieces input rest (decVli vli input inPos inSize).2.1 (decVli vli input inPos inSize).2.2
    else decVli vli input inPos inSize

theorem decVliPieces_eq {ends : List Nat} {inSize : Nat} (vli : Vli) (few : vli.count.toNat ≤ 9)
    (ordered : (pos :: (ends ++ [inSize])).Pairwise (· ≤ ·)) :
    decVliPieces input (ends ++ [inSize]) vli pos = decVli vli input pos inSize := by
  induction ends generalizing vli pos with
  | nil =>
    rw [List.nil_append,decVliPieces,decVliPieces]
    split
    · rename_i waits
      exact Prod.ext waits.symm rfl
    · rfl
  | cons cut ends ih =>
    obtain ⟨first,rest⟩ := List.pairwise_cons.mp ordered
    have here : pos ≤ cut := first cut List.mem_cons_self
    have there : cut ≤ inSize := (List.pairwise_cons.mp rest).1 inSize (by simp)
    have start : 1 ≤ (if vli.count = 0 then ⟨0,1⟩ else vli : Vli).count.toNat ∧
        (if vli.count = 0 then ⟨0,1⟩ else vli : Vli).count.toNat ≤ 9 := by
      split
      · exact ⟨(by decide : 1 ≤ (1 : UInt32).toNat),(by decide : (1 : UInt32).toNat ≤ 9)⟩
      · rename_i some
        exact ⟨Nat.pos_of_ne_zero fun zero => some (UInt32.toNat_inj.mp zero),few⟩
    have whole := @decVliLoop_add input (cut - pos) pos (inSize - cut) (if vli.count = 0 then ⟨0,1⟩ else vli)
    have size : cut - pos + (inSize - cut) = inSize - pos := by omega
    rw [size] at whole
    rw [List.cons_append,decVliPieces]
    split
    · rename_i waits
      obtain ⟨⟨code,after,last⟩,read⟩ : ∃ read, decVli vli input pos cut = read := ⟨_,rfl⟩
      rw [read] at waits ⊢
      cases waits
      obtain ⟨place,least,most⟩ := decVliLoop_waits start.1 start.2 read
      have place : last = cut := by omega
      subst place
      rw [ih after most rest]
      unfold decVli at read ⊢
      rw [whole,read,if_pos rfl,if_neg (fun zero => by rw [zero] at least; exact absurd least (by decide))]
    · rename_i ended
      unfold decVli at ended ⊢
      rw [whole,if_neg ended]

/-- However the input is cut, the numbers that are accepted are those below two to the 63, in the fewest bytes. -/
theorem vli_accepted_iff {vli : Vli} (fresh : vli.count = 0) {ends : List Nat} {inSize : Nat}
    (ordered : (pos :: (ends ++ [inSize])).Pairwise (· ≤ ·)) (n : UInt64) (after : Nat) :
    decVliPieces input (ends ++ [inSize]) vli pos = (.streamEnd,⟨n,0⟩,after) ↔ n.toNat < 2 ^ 63 ∧
      after = pos + (vliBytes n.toNat).length ∧ after ≤ inSize ∧
      window input pos (vliBytes n.toNat).length = vliBytes n.toNat := by
  have room : pos ≤ inSize := (List.pairwise_cons.mp ordered).1 inSize (by simp)
  rw [decVliPieces_eq vli (by rw [fresh]; exact Nat.zero_le _) ordered,decVli,if_pos fresh]
  refine (@decVliLoop_iff input (inSize - pos) pos 1 0 (by decide) (by decide) (by decide) n after).trans ?_
  constructor
  · rintro ⟨m,_,below,⟨short,written⟩,rfl,same⟩
    have value : n.toNat = m := by
      rw [same]
      change 0 + 1 * m = m
      omega
    subst value
    exact ⟨below,rfl,by omega,written⟩
  · rintro ⟨below,rfl,fits,written⟩
    refine ⟨n.toNat,.inl rfl,below,⟨by omega,written⟩,rfl,?_⟩
    change _ = 0 + 1 * n.toNat
    omega

/-- The number 300 in two bytes, which come one at a time. -/
theorem cut_number : decVliPieces (fun i => [0xAC,0x02].getD i 0) [1,2] ⟨7,0⟩ 0 = (.streamEnd,⟨300,0⟩,2) := by
  have bytes : vliBytes 300 = [0xAC,0x02] := by
    rw [vliBytes_large (by decide),vliBytes_small (by decide)]
    decide
  apply (@vli_accepted_iff (fun i => [0xAC,0x02].getD i 0) 0 ⟨7,0⟩ rfl [1] 2 (by decide) 300 2).mpr
  rw [(by decide : (300 : UInt64).toNat = 300),bytes]
  decide

end Decoding

section Records

variable {input : Nat → UInt8} {inSize pos last k : Nat} {s : XzDec} {b b' : XzBuf}

theorem decVliLoop_count {left : Nat} {vli after : Vli} (ended : decVliLoop input left vli pos = (.streamEnd,after,last)) :
    after.count = 0 := by
  induction left generalizing vli pos with
  | zero => cases ended
  | succ left ih =>
    rw [decVliLoop] at ended
    dsimp only at ended
    split at ended
    · split at ended <;> cases ended
      rfl
    · split at ended
      · cases ended
      · exact ih ended

theorem decVli_ended {vli after : Vli} (fresh : vli.count = 0) (ended : decVli vli input pos inSize = (.streamEnd,after,last)) :
    ∃ n < 2 ^ 63, Written input pos (inSize - pos) n ∧ last = pos + (vliBytes n).length ∧ after.value.toNat = n := by
  rw [decVli,if_pos fresh] at ended
  obtain ⟨value,count⟩ := after
  have none : count = 0 := decVliLoop_count ended
  subst none
  obtain ⟨n,_,small,written,place,same⟩ := (decVliLoop_iff (by decide) (by decide) (by decide) value last).mp ended
  refine ⟨n,small,written,place,?_⟩
  rw [same]
  change 0 + 1 * n = n
  omega

theorem decVli_written {vli : Vli} (fresh : vli.count = 0) {n : Nat} (small : n < 2 ^ 63) (written : Written input pos (inSize - pos) n) :
    decVli vli input pos inSize = (.streamEnd,⟨UInt64.ofNat n,0⟩,pos + (vliBytes n).length) := by
  rw [decVli,if_pos fresh]
  apply (decVliLoop_iff (by decide) (by decide) (by decide) _ _).mpr
  refine ⟨n,.inl rfl,small,written,rfl,?_⟩
  rw [UInt64.toNat_ofNat_of_lt' (Nat.lt_trans small (by decide))]
  change n = 0 + 1 * n
  omega

theorem written_unique {left n m : Nat} (small : n < 2 ^ 63) (small' : m < 2 ^ 63) (first : Written input pos left n)
    (second : Written input pos left m) : n = m := by
  have size : left = pos + left - pos := (Nat.add_sub_cancel_left _ _).symm
  rw [size] at first second
  have same := (@decVli_written input _ pos ⟨0,0⟩ rfl n small first).symm.trans (decVli_written rfl small' second)
  have value : UInt64.ofNat n = UInt64.ofNat m := congrArg (fun read => read.2.1.value) same
  rw [← UInt64.toNat_ofNat_of_lt' (Nat.lt_trans small (by decide)),value,UInt64.toNat_ofNat_of_lt' (Nat.lt_trans small' (by decide))]

theorem vliBytes_positive (n : Nat) : 0 < (vliBytes n).length := by
  by_cases small : n < 128
  · rw [vliBytes_small small]
    exact Nat.one_pos
  · rw [vliBytes_large (Nat.le_of_not_lt small)]
    exact Nat.succ_pos _

def Numbers (input : Nat → UInt8) (inSize : Nat) : Nat → Nat → Nat → Prop
  | 0,pos,last => last = pos
  | k + 1,pos,last => ∃ n < 2 ^ 63, Written input pos (inSize - pos) n ∧ Numbers input inSize k (pos + (vliBytes n).length) last

theorem numbers_iff (inside : pos ≤ inSize) : Numbers input inSize k pos last ↔ ∃ numbers : List Nat, numbers.length = k ∧
    (∀ n ∈ numbers, n < 2 ^ 63) ∧ last = pos + (numbers.flatMap vliBytes).length ∧ last ≤ inSize ∧
    window input pos (numbers.flatMap vliBytes).length = numbers.flatMap vliBytes := by
  induction k generalizing pos with
  | zero =>
    constructor
    · rintro rfl
      exact ⟨[],rfl,fun _ none => absurd none List.not_mem_nil,rfl,inside,rfl⟩
    · rintro ⟨numbers,none,_,place,_⟩
      rw [List.eq_nil_of_length_eq_zero none] at place
      exact place
  | succ k ih =>
    constructor
    · rintro ⟨n,small,⟨fits,written⟩,rest⟩
      obtain ⟨numbers,count,each,place,within,there⟩ := (ih (by omega)).mp rest
      refine ⟨n :: numbers,congrArg (· + 1) count,List.forall_mem_cons.mpr ⟨small,each⟩,?_,within,?_⟩
      · rw [List.flatMap_cons,List.length_append]
        omega
      · rw [List.flatMap_cons,List.length_append,window_append,written,there]
    · rintro ⟨numbers,count,each,place,within,there⟩
      cases numbers with
      | nil => exact absurd count (Nat.succ_ne_zero k).symm
      | cons n numbers =>
        obtain ⟨small,each⟩ := List.forall_mem_cons.mp each
        rw [List.flatMap_cons,List.length_append] at place there
        rw [window_append] at there
        obtain ⟨first,rest⟩ := List.append_inj there (length_window _ _ _)
        refine ⟨n,small,⟨by omega,first⟩,(ih (by omega)).mpr ⟨numbers,Nat.succ.inj count,each,by omega,within,rest⟩⟩

theorem numbers_unique {other : Nat} (first : Numbers input inSize k pos last) (second : Numbers input inSize k pos other) : last = other := by
  induction k generalizing pos with
  | zero => exact Eq.trans first (Eq.symm second)
  | succ k ih =>
    obtain ⟨n,small,written,first⟩ := first
    obtain ⟨m,small',written',second⟩ := second
    have same := written_unique small small' written written'
    subst same
    exact ih first second

/-- How many numbers the index still holds. -/
def XzDec.Left (s : XzDec) (k : Nat) : Prop :=
  2 * s.indexHashCount.toNat + s.pos.toNat + k = 2 * s.indexCount.toNat ∧ s.pos.toNat ≤ 1

/-- The padding is next. -/
structure XzDec.Padding (s after : XzDec) : Prop where
  here : after.sequence = .indexPadding
  none : after.pos = 0
  flags : after.streamFlags = s.streamFlags

theorem XzDec.Left.done (left : s.Left k) (all : ¬ s.indexHashCount < s.indexCount) : k = 0 := by
  have reached := UInt32.lt_iff_toNat_lt.not.mp all
  have total := left.1
  omega

theorem XzDec.Left.next (left : s.Left k) (some : s.indexHashCount < s.indexCount) : ∃ rest, k = rest + 1 ∧
    ∀ vli, (s.pos = 0 → XzDec.Left { s with vli := vli,pos := 1 } rest) ∧
      (s.pos ≠ 0 → XzDec.Left { s with vli := vli,pos := 0,indexHashCount := s.indexHashCount + 1 } rest) := by
  have some := UInt32.lt_iff_toNat_lt.mp some
  have bound := s.indexCount.toNat_lt
  obtain ⟨total,most⟩ := left
  have zero : (0 : UInt32).toNat = 0 := rfl
  have one : (1 : UInt32).toNat = 1 := rfl
  refine ⟨k - 1,by omega,fun vli => ⟨fun first => ?_,fun second => ?_⟩⟩
  · rw [first] at total
    exact ⟨by dsimp only; omega,Nat.le_refl 1⟩
  · have place : s.pos.toNat ≠ 0 := fun none => second (UInt32.toNat_inj.mp none)
    have counted : (s.indexHashCount + 1).toNat = s.indexHashCount.toNat + 1 := by
      rw [UInt32.toNat_add,one]
      omega
    exact ⟨by dsimp only; omega,Nat.zero_le 1⟩

theorem indexRecordsLoop_again {rounds : Nat} {after : XzDec} (left : s.Left k) (done : indexRecordsLoop rounds s b = .again after b') :
    ∃ last, Numbers b.input b.inSize k b.inPos last ∧ b' = { b with inPos := last } ∧ s.Padding after := by
  induction rounds generalizing s b k with
  | zero => cases done
  | succ rounds ih =>
    rw [indexRecordsLoop] at done
    by_cases some : s.indexHashCount < s.indexCount
    · rw [if_pos some] at done
      obtain ⟨rest,rfl,next⟩ := left.next some
      obtain ⟨⟨ret,vli,inPos⟩,read⟩ : ∃ read, decVli ⟨s.vli.value,0⟩ b.input b.inPos b.inSize = read := ⟨_,rfl⟩
      rw [read] at done
      dsimp only at done
      split at done
      · cases done
      · rename_i ended
        have ended : ret = .streamEnd := by simpa using ended
        subst ended
        obtain ⟨n,small,written,place,_⟩ := decVli_ended rfl read
        have onward : ∃ last, Numbers b.input b.inSize rest inPos last ∧ b' = { b with inPos := last } ∧ s.Padding after := by
          split at done
          · rename_i first
            obtain ⟨last,numbers,same,padding⟩ := ih ((next vli).1 first) done
            exact ⟨last,numbers,same,padding.here,padding.none,padding.flags⟩
          · rename_i second
            obtain ⟨last,numbers,same,padding⟩ := ih ((next vli).2 second) done
            exact ⟨last,numbers,same,padding.here,padding.none,padding.flags⟩
        obtain ⟨last,numbers,same⟩ := onward
        exact ⟨last,⟨n,small,written,place ▸ numbers⟩,same⟩
    · rw [if_neg some] at done
      cases done
      rw [left.done some]
      exact ⟨_,rfl,rfl,rfl,rfl,rfl⟩

theorem indexRecordsLoop_numbers {rounds : Nat} (left : s.Left k) (enough : k < rounds)
    (numbers : Numbers b.input b.inSize k b.inPos last) :
    ∃ after, indexRecordsLoop rounds s b = .again after { b with inPos := last } ∧ s.Padding after := by
  induction rounds generalizing s b k with
  | zero => exact absurd enough (Nat.not_lt_zero k)
  | succ rounds ih =>
    rw [indexRecordsLoop]
    by_cases some : s.indexHashCount < s.indexCount
    · rw [if_pos some]
      obtain ⟨rest,rfl,next⟩ := left.next some
      obtain ⟨n,small,written,numbers⟩ := numbers
      rw [decVli_written rfl small written]
      dsimp only
      rw [if_neg (not_not.mpr rfl)]
      split
      · rename_i first
        obtain ⟨after,done,padding⟩ := @ih rest _ { b with inPos := b.inPos + (vliBytes n).length }
          ((next ⟨UInt64.ofNat n,0⟩).1 first) (Nat.lt_of_succ_lt_succ enough) numbers
        exact ⟨after,done,padding.here,padding.none,padding.flags⟩
      · rename_i second
        obtain ⟨after,done,padding⟩ := @ih rest _ { b with inPos := b.inPos + (vliBytes n).length }
          ((next ⟨UInt64.ofNat n,0⟩).2 second) (Nat.lt_of_succ_lt_succ enough) numbers
        exact ⟨after,done,padding.here,padding.none,padding.flags⟩
    · rw [if_neg some]
      rw [left.done some] at numbers
      rw [numbers]
      exact ⟨_,rfl,rfl,rfl,rfl⟩

theorem indexRecordsLoop_cases (rounds : Nat) (s : XzDec) (b : XzBuf) :
    (∃ after b', indexRecordsLoop rounds s b = .again after b') ∨
      ∃ ret after b', indexRecordsLoop rounds s b = .ret ret after b' ∧ ret ≠ .streamEnd := by
  induction rounds generalizing s b with
  | zero => exact .inr ⟨_,_,_,rfl,fun ended => XzRet.noConfusion ended⟩
  | succ rounds ih =>
    rw [indexRecordsLoop]
    split
    · dsimp only
      split
      · rename_i other
        exact .inr ⟨_,_,_,rfl,other⟩
      · split <;> exact ih _ _
    · exact .inl ⟨_,_,rfl⟩

theorem numbers_length (inside : pos ≤ inSize) (numbers : Numbers input inSize k pos last) : pos + k ≤ last ∧ last ≤ inSize := by
  induction k generalizing pos with
  | zero =>
    have same : last = pos := numbers
    rw [same]
    exact ⟨Nat.le_refl _,inside⟩
  | succ k ih =>
    obtain ⟨n,_,⟨fits,_⟩,rest⟩ := numbers
    have some := vliBytes_positive n
    obtain ⟨least,within⟩ := ih (by omega) rest
    exact ⟨by omega,within⟩

end Records

section Tail

variable {s : XzDec} {b : XzBuf} {memory : Nat → UInt8}

theorem decStreamFooter_iff : decStreamFooter s = .streamEnd ↔
    ∃ backward, backward.length = 4 ∧ window s.temp.buf 0 12 = streamFooter backward s.streamFlags.toUInt8 := by
  constructor
  · exact fun done => ⟨_,length_window _ _ _,decStreamFooter_end done⟩
  · rintro ⟨backward,four,whole⟩
    have split : window s.temp.buf 0 12 = window s.temp.buf 0 4 ++ window s.temp.buf 4 4 ++ window s.temp.buf 8 2 ++
        window s.temp.buf 10 2 := by
      rw [← window_append,← window_append,← window_append]
    rw [split] at whole
    obtain ⟨whole,magic⟩ := List.append_inj whole (by simp [four])
    obtain ⟨whole,pair⟩ := List.append_inj whole (by simp [four])
    obtain ⟨sum,size⟩ := List.append_inj whole (by simp)
    have first : s.temp.buf 10 = 0x59 := (List.cons.inj magic).1
    have second : s.temp.buf 11 = 0x5A := (List.cons.inj (List.cons.inj magic).2).1
    have zero : s.temp.buf 8 = 0 := (List.cons.inj pair).1
    have flags : s.temp.buf 9 = s.streamFlags.toUInt8 := (List.cons.inj (List.cons.inj pair).2).1
    have covered : window s.temp.buf 4 6 = window s.temp.buf 4 4 ++ window s.temp.buf 8 2 := window_append s.temp.buf 4 4 2
    have read : getLE32 s.temp.buf 0 = crc32 (backward ++ [0,s.streamFlags.toUInt8]) := by
      apply readLE32_of_slice
      rw [slice_window _ _ _ _ _ (by omega)]
      exact sum
    unfold decStreamFooter
    rw [first,second,if_neg (by decide),read,covered,size,pair,xzCrc32_eq,if_neg (not_not.mpr rfl),if_neg (not_not.mpr zero),
      if_neg (not_not.mpr flags)]

theorem XzBuf.available_eq (inside : b.inPos ≤ b.inSize) (narrow : b.inSize < 2 ^ 64) : b.available = b.inSize - b.inPos := by
  unfold XzBuf.available
  omega

theorem withTemp_empty (full : XzDec → XzBuf → StreamPass) (inside : b.inPos ≤ b.inSize) (narrow : b.inSize < 2 ^ 64)
    (empty : s.temp.pos = 0) {size : Nat} (sized : s.temp.size = size) (room : size ≤ BLOCK_HEADER_SIZE_MAX) :
    (b.inPos + size ≤ b.inSize ∧ ∃ buf, window buf 0 size = window b.input b.inPos size ∧
      withTemp s b full = full { s with temp := ⟨buf,0,size⟩ } { b with inPos := b.inPos + size }) ∨
    (b.inSize < b.inPos + size ∧ ∃ after b', withTemp s b full = .ret .ok after b') := by
  have small : BLOCK_HEADER_SIZE_MAX = 1024 := rfl
  have left : (s.temp.size + (2 ^ 64 - s.temp.pos)) % 2 ^ 64 = size := by omega
  have there := XzBuf.available_eq inside narrow
  unfold withTemp fillTemp
  dsimp only
  rw [left,there,empty,sized,Nat.zero_add]
  by_cases enough : b.inPos + size ≤ b.inSize
  · have count : min size (b.inSize - b.inPos) = size := by omega
    refine .inl ⟨enough,patch s.temp.buf 0 (window b.input b.inPos size),window_patch_whole _ _ (length_window _ _ _),?_⟩
    rw [count,if_pos room,if_pos rfl]
  · have count : min size (b.inSize - b.inPos) = b.inSize - b.inPos := by omega
    refine .inr ⟨Nat.lt_of_not_le enough,?_⟩
    rw [count,if_pos (by omega),if_neg (by omega)]
    exact ⟨_,_,rfl⟩

theorem crc32_footer_run (here : s.sequence = .indexCrc32) (empty : s.temp.pos = 0) (size : s.temp.size = 4)
    (inside : b.inPos ≤ b.inSize) (narrow : b.inSize < 2 ^ 64) (fuel : Nat) :
    (b.inPos + 16 ≤ b.inSize ∧ ∃ after : XzDec, window after.temp.buf 0 12 = window b.input (b.inPos + 4) 12 ∧
      after.streamFlags = s.streamFlags ∧
      xzDecRun memory (fuel + 2) s b = some (.returned (decStreamFooter after) after { b with inPos := b.inPos + 16 })) ∨
    (b.inSize < b.inPos + 16 ∧ ∃ after b', xzDecRun memory (fuel + 2) s b = some (.returned .ok after b')) := by
  have first : streamPass memory (fuel + 1) s b = indexCrc32Pass s b := by
    rw [streamPass,here]
  rw [xzDecRun,first,indexCrc32Pass]
  rcases withTemp_empty (fun s b => .again { s with temp := { s.temp with size := 12,pos := 0 },sequence := .streamFooter } b)
    inside narrow empty size (by decide) with ⟨room,buf,_,filled⟩ | ⟨short,after,b',waits⟩
  · rw [filled]
    dsimp only
    rw [if_neg (by omega),xzDecRun]
    dsimp only [streamPass]
    rw [streamFooterPass]
    rcases @withTemp_empty { s with
        temp := ⟨buf,0,12⟩
        sequence := .streamFooter
        allowBufError := false } { b with inPos := b.inPos + 4 } (fun s b => .ret (decStreamFooter s) s b) room narrow rfl 12 rfl (by decide)
      with ⟨room,buf,bytes,filled⟩ | ⟨short,after,b',waits⟩
    · rw [filled]
      refine .inl ⟨by dsimp only at room; omega,_,?_,?_,rfl⟩
      · exact bytes
      · rfl
    · rw [waits]
      exact .inr ⟨by dsimp only at short; omega,_,_,rfl⟩
  · rw [waits]
    exact .inr ⟨by omega,_,_,rfl⟩

theorem indexPaddingLoop_zeros {left : Nat} (due : s.pos.toNat + left = 3) :
    ∃ zeros ≤ left, window b.input b.inPos zeros = List.replicate zeros 0 ∧
      (b.inPos ≤ b.inSize → b.inPos + zeros ≤ b.inSize) ∧
      (zeros < left → b.inPos + zeros < b.inSize → b.input (b.inPos + zeros) ≠ 0) ∧
      (indexPaddingLoop left s b).2 = { b with inPos := b.inPos + zeros } ∧
      (indexPaddingLoop left s b).1.streamFlags = s.streamFlags ∧ (indexPaddingLoop left s b).1.allowBufError = s.allowBufError := by
  induction left generalizing s b with
  | zero => exact ⟨0,Nat.le_refl 0,rfl,id,fun none => absurd none (Nat.lt_irrefl 0),rfl,rfl,rfl⟩
  | succ left ih =>
    rw [indexPaddingLoop]
    split
    · rename_i zero
      have next : (s.pos + 1).toNat = s.pos.toNat + 1 := by
        rw [UInt32.toNat_add]
        change (s.pos.toNat + 1) % 2 ^ 32 = _
        omega
      obtain ⟨zeros,most,window_,within,stops,rest⟩ := @ih { s with pos := s.pos + 1 } { b with inPos := b.inPos + 1 }
        (by dsimp only; omega)
      dsimp only at window_ within stops rest
      have place : b.inPos + 1 + zeros = b.inPos + (zeros + 1) := by omega
      rw [place] at within stops rest
      refine ⟨zeros + 1,Nat.succ_le_succ most,?_,fun _ => within zero.1,fun fewer => stops (Nat.lt_of_succ_lt_succ fewer),rest⟩
      rw [window_succ,window_,zero.2.2]
      rfl
    · rename_i stops
      refine ⟨0,Nat.zero_le _,rfl,id,fun _ inside zero => stops ⟨inside,?_,zero⟩,rfl,rfl,rfl⟩
      apply UInt32.lt_iff_toNat_lt.mpr
      change s.pos.toNat < 3
      omega

/-- What may follow the records of an index: up to three zeros, and if there are fewer the checksum begins with something
else, four bytes for the checksum, and the footer. -/
def IndexTail (flags : UInt8) (bytes : List UInt8) : Prop :=
  ∃ zeros crc backward, zeros ≤ 3 ∧ crc.length = 4 ∧ (zeros < 3 → crc.head? ≠ some 0) ∧ backward.length = 4 ∧
    bytes = List.replicate zeros 0 ++ crc ++ streamFooter backward flags

theorem tail_accepted_iff (here : s.sequence = .indexPadding) (start : s.pos = 0) (ready : s.allowBufError = false)
    (inside : b.inPos ≤ b.inSize) (narrow : b.inSize < 2 ^ 64) (fuel last : Nat) :
    (∃ after, xzDecRun memory (fuel + 3) s b = some (.returned .streamEnd after { b with inPos := last })) ↔
      last ≤ b.inSize ∧ ∃ count, last = b.inPos + count ∧ IndexTail s.streamFlags.toUInt8 (window b.input b.inPos count) := by
  obtain ⟨zeros,most,skipped,within,stops,place,flags,allow⟩ := @indexPaddingLoop_zeros s b 3 (by rw [start]; rfl)
  have within := within inside
  have first : streamPass memory (fuel + 2) s b = indexPaddingPass s b := by
    rw [streamPass,here]
  obtain ⟨⟨padded,b'⟩,loop⟩ : ∃ loop, indexPaddingLoop 3 s b = loop := ⟨_,rfl⟩
  rw [loop] at place flags allow
  dsimp only at place flags allow
  subst place
  have onward : ∃ allow, xzDecRun memory (fuel + 3) s b = xzDecRun memory (fuel + 2) { padded with
      temp := { padded.temp with size := 4,pos := 0 }
      sequence := .indexCrc32
      allowBufError := allow } { b with inPos := b.inPos + zeros } := by
    rw [xzDecRun,first,indexPaddingPass,loop]
    dsimp only
    rw [allow,ready]
    split
    · exact ⟨true,if_neg Bool.false_ne_true⟩
    · exact ⟨false,rfl⟩
  obtain ⟨allow,onward⟩ := onward
  rw [onward]
  obtain ⟨next,named⟩ : ∃ next : XzDec, next = { padded with
    temp := { padded.temp with size := 4,pos := 0 }
    sequence := .indexCrc32
    allowBufError := allow } := ⟨_,rfl⟩
  have same : next.streamFlags = s.streamFlags := by rw [named]; exact flags
  have run := @crc32_footer_run next { b with inPos := b.inPos + zeros } memory (by rw [named]) (by rw [named]) (by rw [named])
    within narrow fuel
  rw [← named]
  dsimp only at run
  have split (zeros : Nat) : window b.input b.inPos (zeros + 16) =
      window b.input b.inPos zeros ++ window b.input (b.inPos + zeros) 4 ++ window b.input (b.inPos + zeros + 4) 12 := by
    rw [Nat.add_assoc b.inPos,← window_append,← window_append]
  constructor
  · rintro ⟨after,accepted⟩
    rcases run with ⟨room,footed,footer,kept,run⟩ | ⟨_,_,_,run⟩
    · rw [run] at accepted
      obtain ⟨ended,_,moved⟩ := Called.returned.inj (Option.some.inj accepted)
      have moved : b.inPos + zeros + 16 = last := congrArg XzBuf.inPos moved
      obtain ⟨backward,four,bytes⟩ := decStreamFooter_iff.mp ended
      refine ⟨by omega,zeros + 16,by omega,zeros,window b.input (b.inPos + zeros) 4,backward,most,length_window _ _ _,fun fewer => ?_,four,?_⟩
      · have nonzero := stops fewer (by omega)
        exact fun zero => nonzero (Option.some.inj zero)
      · rw [split,skipped,← footer,bytes,kept,same]
    · rw [run] at accepted
      exact XzRet.noConfusion (Called.returned.inj (Option.some.inj accepted)).1
  · rintro ⟨room,count,rfl,zeros',crc,backward,most',four,first',four',bytes⟩
    have size : count = zeros' + 16 := by
      have lengths := congrArg List.length bytes
      rw [length_window,List.length_append,List.length_append,List.length_replicate,four] at lengths
      have footer : (streamFooter backward s.streamFlags.toUInt8).length = 12 := by simp [streamFooter,four',XZ_FOOTER_MAGIC]
      omega
    subst size
    rw [split] at bytes
    obtain ⟨bytes,last⟩ := List.append_inj bytes (by simp [four])
    obtain ⟨skipped',middle⟩ := List.append_inj bytes (by simp)
    have equal : zeros' = zeros := by
      by_contra other
      rcases Nat.lt_or_gt_of_ne other with fewer | more
      · apply first' (by omega)
        rw [← middle]
        have zero := congrArg (·[zeros']?) skipped
        simp only [getElem?_window,List.getElem?_replicate,fewer,if_true] at zero
        exact zero
      · apply stops (by omega) (by omega)
        have zero := congrArg (·[zeros]?) skipped'
        simp only [getElem?_window,List.getElem?_replicate,more,if_true] at zero
        exact Option.some.inj zero
    subst equal
    rcases run with ⟨_,footed,footer,kept,run⟩ | ⟨short,_⟩
    · refine ⟨footed,?_⟩
      have ended : decStreamFooter footed = .streamEnd := by
        apply decStreamFooter_iff.mpr
        exact ⟨backward,four',by rw [footer,last,kept,same]⟩
      rw [run,ended,Nat.add_assoc]
    · omega

end Tail

section Index

variable {s after : XzDec} {b b' : XzBuf} {memory : Nat → UInt8}

def Index (flags : UInt8) (bytes : List UInt8) : Prop :=
  ∃ n numbers tail, (∀ m ∈ n :: numbers, m < 2 ^ 63) ∧ numbers.length = 2 * (n % 2 ^ 32) ∧ IndexTail flags tail ∧
    bytes = (n :: numbers).flatMap vliBytes ++ tail

theorem left_counted {n : Nat} {vli : Vli} (value : vli.value.toNat = n) (s : XzDec) :
    XzDec.Left { s with vli := vli,indexCount := vli.value.toUInt32,indexHashCount := 0,pos := 0 } (2 * (n % 2 ^ 32)) := by
  refine ⟨?_,Nat.zero_le 1⟩
  dsimp only
  rw [UInt64.toNat_toUInt32,value]
  change 2 * 0 + 0 + _ = _
  omega

def Counted (b : XzBuf) (last : Nat) : Prop :=
  ∃ n < 2 ^ 63, Written b.input b.inPos (b.inSize - b.inPos) n ∧
    Numbers b.input b.inSize (2 * (n % 2 ^ 32)) (b.inPos + (vliBytes n).length) last

theorem indexPass_cases (none : s.indexCount = 0) (fresh : s.vli.count = 0) (b : XzBuf) :
    (∃ last, Counted b last ∧ ∃ after, indexPass s b = .again after { b with inPos := last } ∧ s.Padding after) ∨
    (∀ last, ¬ Counted b last) ∧ ∃ ret after b', indexPass s b = .ret ret after b' ∧ ret ≠ .streamEnd := by
  unfold indexPass
  rw [if_pos ⟨none,fresh⟩]
  obtain ⟨⟨ret,vli,inPos⟩,read⟩ : ∃ read, decVli s.vli b.input b.inPos b.inSize = read := ⟨_,rfl⟩
  rw [read]
  dsimp only
  by_cases ended : ret = .streamEnd
  · subst ended
    rw [if_neg (not_not.mpr rfl)]
    obtain ⟨n,small,written,place,value⟩ := decVli_ended fresh read
    have left := left_counted value s
    rcases indexRecordsLoop_cases (b.inSize - inPos + 1)
        { s with vli := vli,indexCount := vli.value.toUInt32,indexHashCount := 0,pos := 0 } { b with inPos := inPos } with
      ⟨after,b',done⟩ | ⟨ret,after,b',done,other⟩
    · obtain ⟨last,numbers,rfl,padding⟩ := indexRecordsLoop_again left done
      refine .inl ⟨last,⟨n,small,written,place ▸ numbers⟩,after,done,padding.here,padding.none,padding.flags⟩
    · refine .inr ⟨?_,ret,after,b',done,other⟩
      rintro last ⟨m,small',written',numbers⟩
      have same := written_unique small' small written' written
      subst same
      rw [← place] at numbers
      have inside : inPos ≤ b.inSize := by
        have fits := written.1
        have some := vliBytes_positive m
        omega
      have count := numbers_length inside numbers
      have enough : 2 * (m % 2 ^ 32) < b.inSize - inPos + 1 := by omega
      obtain ⟨_,again,_⟩ := @indexRecordsLoop_numbers last _ _ { b with inPos := inPos } _ left enough numbers
      exact StreamPass.noConfusion (done.symm.trans again)
  · rw [if_pos ended]
    refine .inr ⟨?_,_,_,_,rfl,ended⟩
    rintro last ⟨n,small,written,_⟩
    rw [decVli_written fresh small written] at read
    exact ended (Prod.mk.inj read).1.symm

theorem counted_iff (inside : b.inPos ≤ b.inSize) {last : Nat} : Counted b last ↔ ∃ n numbers, (∀ m ∈ n :: numbers, m < 2 ^ 63) ∧
    numbers.length = 2 * (n % 2 ^ 32) ∧ last = b.inPos + ((n :: numbers).flatMap vliBytes).length ∧ last ≤ b.inSize ∧
    window b.input b.inPos ((n :: numbers).flatMap vliBytes).length = (n :: numbers).flatMap vliBytes := by
  constructor
  · rintro ⟨n,small,⟨fits,written⟩,rest⟩
    obtain ⟨numbers,count,each,place,within,there⟩ := (numbers_iff (by omega)).mp rest
    refine ⟨n,numbers,List.forall_mem_cons.mpr ⟨small,each⟩,count,?_,within,?_⟩
    · rw [List.flatMap_cons,List.length_append]
      omega
    · rw [List.flatMap_cons,List.length_append,window_append,written,there]
  · rintro ⟨n,numbers,each,count,place,within,there⟩
    rw [List.flatMap_cons,List.length_append] at place there
    rw [window_append] at there
    obtain ⟨first,rest⟩ := List.append_inj there (length_window _ _ _)
    obtain ⟨small,each⟩ := List.forall_mem_cons.mp each
    exact ⟨n,small,⟨by omega,first⟩,(numbers_iff (by omega)).mpr ⟨numbers,count,each,by omega,within,rest⟩⟩

theorem counted_unique {last other : Nat} (first : Counted b last) (second : Counted b other) : last = other := by
  obtain ⟨n,small,written,first⟩ := first
  obtain ⟨m,small',written',second⟩ := second
  have same := written_unique small small' written written'
  subst same
  exact numbers_unique first second

/-- A call that has all of an index and the footer accepts what is written in that form, and nothing else. -/
theorem index_accepted_iff (here : s.sequence = .index) (none : s.indexCount = 0) (fresh : s.vli.count = 0)
    (inside : b.inPos ≤ b.inSize) (narrow : b.inSize < 2 ^ 64) (fuel count : Nat) :
    (∃ after, xzDecRun memory (fuel + 4) s b = some (.returned .streamEnd after { b with inPos := b.inPos + count })) ↔
      b.inPos + count ≤ b.inSize ∧ Index s.streamFlags.toUInt8 (window b.input b.inPos count) := by
  have first : streamPass memory (fuel + 3) s b = indexPass s b := by
    rw [streamPass,here]
  rw [xzDecRun,first]
  rcases indexPass_cases none fresh b with ⟨last,counted,after,done,padding⟩ | ⟨uncounted,ret,after,b',done,other⟩
  · rw [done]
    dsimp only
    have later : b.inPos < last ∧ last ≤ b.inSize := by
      obtain ⟨n,_,⟨fits,_⟩,numbers⟩ := counted
      have some := vliBytes_positive n
      have length := numbers_length (by omega) numbers
      exact ⟨by omega,length.2⟩
    rw [if_neg (by omega)]
    have rest := @tail_accepted_iff { after with allowBufError := false } { b with inPos := last } memory padding.here padding.none rfl
      later.2 narrow fuel (b.inPos + count)
    dsimp only at rest
    rw [rest,padding.flags]
    constructor
    · rintro ⟨room,length,place,tail⟩
      obtain ⟨n,numbers,each,size,reached,_,written⟩ := (counted_iff inside).mp counted
      refine ⟨room,n,numbers,_,each,size,tail,?_⟩
      have split : count = ((n :: numbers).flatMap vliBytes).length + length := by omega
      rw [split,window_append,written,← reached]
    · rintro ⟨room,n,numbers,tail,each,size,tailed,bytes⟩
      have split := congrArg List.length bytes
      rw [length_window,List.length_append] at split
      rw [split,window_append] at bytes
      obtain ⟨written,behind⟩ := List.append_inj bytes (length_window _ _ _)
      have place := counted_unique counted ((counted_iff inside).mpr ⟨n,numbers,each,size,rfl,by omega,written⟩)
      refine ⟨room,tail.length,by omega,?_⟩
      rw [place,behind]
      exact tailed
  · rw [done]
    constructor
    · rintro ⟨_,accepted⟩
      exact absurd (Called.returned.inj (Option.some.inj accepted)).1 other
    · rintro ⟨room,n,numbers,tail,each,length,_,bytes⟩
      have split := congrArg List.length bytes
      rw [length_window,List.length_append] at split
      refine absurd ((counted_iff inside).mpr ⟨n,numbers,each,length,rfl,by omega,?_⟩) (uncounted _)
      rw [split,window_append] at bytes
      exact (List.append_inj bytes (length_window _ _ _)).1

def indexDecoder : XzDec := { xzDecInit 67108864 with sequence := .index,streamFlags := 1 }

/-- An index with the record of one block: its size without the padding, and that of its bytes. -/
theorem sampleStream_index : ∃ after, xzDecRun (fun _ => 0) 4 indexDecoder { sampleStreamBuf with inPos := 49 } =
    some (.returned .streamEnd after { sampleStreamBuf with inPos := 68 }) := by
  apply (@index_accepted_iff indexDecoder { sampleStreamBuf with inPos := 49 } (fun _ => 0) rfl rfl rfl (by decide) (by decide) 0 19).mpr
  refine ⟨by decide,1,[0x21,0x1B],sampleStream.drop 52,?_,rfl,⟨0,[0x24,0x69,0x7C,0x26],[1,0,0,0],by decide,rfl,fun _ => by decide,rfl,?_⟩,?_⟩
  · simp only [List.mem_cons,List.not_mem_nil,or_false]
    rintro n (rfl | rfl | rfl) <;> decide
  · decide +kernel
  · simp only [List.flatMap_cons,List.flatMap_nil,vliBytes_small (by decide : 1 < 128),vliBytes_small (by decide : 0x21 < 128),
      vliBytes_small (by decide : 0x1B < 128)]
    decide

end Index
end SetecWizard.Core.Xz
