import SetecWizard.Imaging.LzmaHistory

/-! What can be said to the range decoder. As long as the answers it would get wrong are not needed, it
reads the path that a number in its range stands for, and every token up to a distance of 128 has such
a path, of a bounded length. So every parse of that kind is the one of some input of a bounded size.
-/
namespace SetecWizard.Core.Xz
open SetecWizard.Library

section RangeDecoder

def lzmaCoder : Coder Prob where
  base := 256
  top := 2 ^ 24
  bound prob width := width / 2048 * prob.val
  adapt prob bit := if bit then prob.lowered else prob.raised
  positive := by decide
  split prob width reached := by
    have parts : 8192 ≤ width / 2048 := (Nat.le_div_iff_mul_le (by decide)).mpr reached
    have whole := Nat.div_mul_le_self width 2048
    have least := Nat.mul_le_mul parts prob.lower
    have most := Nat.mul_le_mul_left (width / 2048) prob.upper
    exact ⟨by omega,by omega⟩
  halved width reached := by omega

/-- The range decoder is where the reader is. -/
structure RcDec.Reads (rc : RcDec) (probs : Slot → Prob) (reader : Coder.Reader Slot Prob) : Prop where
  code : rc.code.toNat = reader.code
  width : rc.range.toNat = reader.width
  pos : rc.inPos = reader.pos
  odds : probs = reader.odds
  within : reader.code < reader.width
  wide : 2 ^ 24 ≤ 256 * reader.width

variable {input : Nat → UInt8} {rc : RcDec} {probs : Slot → Prob} {reader : Coder.Reader Slot Prob}

theorem shifted {x : UInt32} (small : x.toNat < 2 ^ 24) : (x <<< RC_SHIFT_BITS).toNat = x.toNat * 256 := by
  rw [UInt32.toNat_shiftLeft]
  change (x.toNat <<< 8) % 2 ^ 32 = _
  rw [Nat.shiftLeft_eq]
  omega

theorem shifted_or {x : UInt32} (small : x.toNat < 2 ^ 24) (byte : UInt8) :
    ((x <<< RC_SHIFT_BITS) ||| byte.toUInt32).toNat = x.toNat * 256 + byte.toNat := by
  rw [UInt32.toNat_or,shifted small]
  change x.toNat * 2 ^ 8 ||| byte.toNat = _
  rw [← Nat.shiftLeft_eq,← Nat.shiftLeft_add_eq_or_of_lt byte.toNat_lt,Nat.shiftLeft_eq]

theorem rcNormalize_reads (reads : rc.Reads probs reader) :
    (rcNormalize input rc).Reads probs (reader.renew lzmaCoder fun i => (input i).toNat) ∧
      2 ^ 24 ≤ (reader.renew lzmaCoder fun i => (input i).toNat).width := by
  have wide := reads.wide
  have within := reads.within
  by_cases low : rc.range < RC_TOP_VALUE
  · have small : rc.range.toNat < 2 ^ 24 := UInt32.lt_iff_toNat_lt.mp low
    have below : reader.width < 2 ^ 24 := reads.width ▸ small
    have owed : lzmaCoder.owed reader.width = 1 := if_pos below
    have byte := (input rc.inPos).toNat_lt
    have width : (reader.renew lzmaCoder fun i => (input i).toNat).width = reader.width * 256 := by
      simp only [Coder.Reader.renew,Coder.renewed,owed,pow_one]
      rfl
    have code : (reader.renew lzmaCoder fun i => (input i).toNat).code = reader.code * 256 + (input reader.pos).toNat := by
      simp only [Coder.Reader.renew,owed,pow_one,number,pow_zero,Nat.mul_one,Nat.add_zero]
      rfl
    have next : reader.code * 256 + (input reader.pos).toNat < reader.width * 256 := by
      have byte := (input reader.pos).toNat_lt
      omega
    rw [rcNormalize,if_pos low]
    refine ⟨⟨?_,?_,?_,reads.odds,?_,?_⟩,by rw [width]; omega⟩
    · rw [code,shifted_or (by rw [reads.code]; omega),reads.code,reads.pos]
    · rw [width,shifted small,reads.width]
    · simp only [Coder.Reader.renew,owed,reads.pos]
    · rw [width,code]
      exact next
    · rw [width]
      omega
  · have reached : 2 ^ 24 ≤ reader.width := reads.width ▸ Nat.le_of_not_lt fun small => low (UInt32.lt_iff_toNat_lt.mpr small)
    have owed : lzmaCoder.owed reader.width = 0 := if_neg (Nat.not_lt.mpr reached)
    have same : reader.renew lzmaCoder (fun i => (input i).toNat) = reader := by
      simp [Coder.Reader.renew,Coder.renewed,owed,number]
    rw [rcNormalize,if_neg low,same]
    exact ⟨reads,reached⟩

theorem bound_toNat (range : UInt32) (prob : Prob) :
    ((range >>> RC_BIT_MODEL_TOTAL_BITS) * UInt32.ofNat prob.val).toNat = lzmaCoder.bound prob range.toNat := by
  have most := prob.upper
  have width := range.toNat_lt
  have parts := Nat.mul_le_mul_left (range.toNat / 2048) (Nat.le_trans most (by decide : 2017 ≤ 2048))
  have whole := Nat.div_mul_le_self range.toNat 2048
  have shift : (range >>> RC_BIT_MODEL_TOTAL_BITS).toNat = range.toNat / 2048 := by
    rw [UInt32.toNat_shiftRight]
    exact Nat.shiftRight_eq_div_pow range.toNat 11
  rw [UInt32.toNat_mul,shift,UInt32.toNat_ofNat_of_lt' (Nat.lt_of_le_of_lt most (by decide))]
  exact Nat.mod_eq_of_lt (Nat.lt_of_le_of_lt (Nat.le_trans parts whole) width)

theorem rcBit_reads (reads : rc.Reads probs reader) (slot : Slot) {renewed : Coder.Reader Slot Prob}
    (next : renewed = reader.renew lzmaCoder fun i => (input i).toNat) {bound : Nat} {bit : Bool}
    (bounded : bound = lzmaCoder.bound (renewed.odds slot) renewed.width) (answer : bit = decide (bound ≤ renewed.code)) :
    ∃ rc', rcBit input rc (probs slot) = (bit,rc',lzmaCoder.adapt (probs slot) bit) ∧
      rc'.Reads (lzmaCoder.adapted probs slot bit) (renewed.narrow (Coder.start bound bit)
        (Coder.part renewed.width bound bit) (lzmaCoder.adapted renewed.odds slot bit)) := by
  obtain ⟨there,reached⟩ := next ▸ @rcNormalize_reads input _ _ _ reads
  have within := there.within
  have machine : ((rcNormalize input rc).range >>> RC_BIT_MODEL_TOTAL_BITS * UInt32.ofNat (probs slot).val).toNat = bound := by
    rw [bound_toNat,there.width,there.odds,bounded]
  have wide := @Coder.part_wide _ lzmaCoder (renewed.odds slot) _ reached bit
  rw [← bounded] at wide
  have least : bound < renewed.width := bounded ▸ Coder.bound_within reached
  unfold rcBit
  dsimp only
  by_cases below : (rcNormalize input rc).code < (rcNormalize input rc).range >>> RC_BIT_MODEL_TOTAL_BITS * UInt32.ofNat (probs slot).val
  · have under : renewed.code < bound := by
      rw [← there.code,← machine]
      exact UInt32.lt_iff_toNat_lt.mp below
    have no : bit = false := answer ▸ decide_eq_false (Nat.not_le.mpr under)
    subst no
    rw [if_pos below]
    refine ⟨_,rfl,⟨there.code,machine,there.pos,?_,under,wide⟩⟩
    rw [there.odds]
    rfl
  · have least_code : bound ≤ renewed.code := by
      rw [← there.code,← machine]
      exact Nat.le_of_not_lt fun under => below (UInt32.lt_iff_toNat_lt.mpr under)
    have yes : bit = true := answer ▸ decide_eq_true least_code
    subst yes
    rw [if_neg below]
    refine ⟨_,rfl,⟨?_,?_,there.pos,?_,?_,wide⟩⟩
    · rw [UInt32.toNat_sub_of_le _ _ (UInt32.not_lt.mp below),machine,there.code]
      rfl
    · have order : (rcNormalize input rc).range >>> RC_BIT_MODEL_TOTAL_BITS * UInt32.ofNat (probs slot).val ≤ (rcNormalize input rc).range := by
        rw [UInt32.le_iff_toNat_le,machine,there.width]
        exact Nat.le_of_lt least
      rw [UInt32.toNat_sub_of_le _ _ order,machine,there.width]
      rfl
    · rw [there.odds]
      rfl
    · change renewed.code - bound < renewed.width - bound
      omega

theorem rcDirectBit_reads (reads : rc.Reads probs reader) {renewed : Coder.Reader Slot Prob}
    (next : renewed = reader.renew lzmaCoder fun i => (input i).toNat) (one : renewed.width / 2 ≤ renewed.code)
    (whole : renewed.code < 2 * (renewed.width / 2)) :
    ∃ rc', rcDirectBit input rc = (true,rc') ∧
      rc'.Reads probs (renewed.narrow (renewed.width / 2) (renewed.width / 2) renewed.odds) := by
  obtain ⟨there,reached⟩ := next ▸ @rcNormalize_reads input _ _ _ reads
  have width := (rcNormalize input rc).range.toNat_lt
  have half : ((rcNormalize input rc).range >>> 1).toNat = renewed.width / 2 := by
    rw [UInt32.toNat_shiftRight,there.width]
    exact Nat.shiftRight_eq_div_pow renewed.width 1
  have order : (rcNormalize input rc).range >>> 1 ≤ (rcNormalize input rc).code := by
    rw [UInt32.le_iff_toNat_le,half,there.code]
    exact one
  have code : ((rcNormalize input rc).code - (rcNormalize input rc).range >>> 1).toNat = renewed.code - renewed.width / 2 := by
    rw [UInt32.toNat_sub_of_le _ _ order,half,there.code]
  have sign : ((rcNormalize input rc).code - (rcNormalize input rc).range >>> 1) >>> 31 = 0 := by
    apply UInt32.toNat_inj.mp
    rw [UInt32.toNat_shiftRight,code]
    change (renewed.code - renewed.width / 2) >>> 31 = 0
    rw [Nat.shiftRight_eq_div_pow]
    rw [there.width] at width
    omega
  unfold rcDirectBit
  dsimp only
  rw [sign,UInt32.and_zero,UInt32.add_zero]
  refine ⟨_,rfl,⟨code,half,there.pos,there.odds,?_,?_⟩⟩
  · change renewed.code - renewed.width / 2 < renewed.width / 2
    omega
  · change 2 ^ 24 ≤ 256 * (renewed.width / 2)
    omega

end RangeDecoder

section Paths

variable {α β : Type}

/-- The paths that the range decoder can be told: a direct bit is 1. -/
inductive Told : Asking Slot α → List Bool → α → Prop
  | done (value : α) : Told (.done value) [] value
  | ask (slot : Slot) {next : Bool → Asking Slot α} {bit : Bool} {bits : List Bool} {value : α}
      (rest : Told (next bit) bits value) : Told (.ask slot next) (bit :: bits) value
  | toss {next : Bool → Asking Slot α} {bits : List Bool} {value : α}
      (rest : Told (next true) bits value) : Told (.toss next) (true :: bits) value

variable {q : Asking Slot α} {rest : α → Asking Slot β} {bits more : List Bool} {value : α} {result : β}

theorem Told.leads (told : Told q bits value) : q.Leads bits value := by
  induction told with
  | done value => exact .done value
  | ask slot _ ih => exact .ask slot ih
  | toss _ ih => exact .toss ih

theorem Told.bind (first : Told q bits value) (second : Told (rest value) more result) :
    Told (q >>= rest) (bits ++ more) result := by
  induction first with
  | done value => exact second
  | ask slot _ ih => exact .ask slot (ih second)
  | toss _ ih => exact .toss (ih second)

def Tells (count : Nat) (q : Asking Slot α) (value : α) : Prop := ∃ bits, bits.length ≤ count ∧ Told q bits value

theorem Tells.done (value : α) : Tells 0 (.done value) value := ⟨[],Nat.le_refl _,.done value⟩

theorem Tells.holds {count : Nat} {P : Slot → Prop} {Q : α → Prop} (tells : Tells count q value) (sound : q.Sound P Q) : Q value := by
  obtain ⟨_,_,told⟩ := tells
  exact sound.leads told.leads

theorem Tells.mono {count count' : Nat} (tells : Tells count q value) (more : count ≤ count') : Tells count' q value := by
  obtain ⟨bits,few,told⟩ := tells
  exact ⟨bits,Nat.le_trans few more,told⟩

theorem Tells.bind {count count' : Nat} (first : Tells count q value) (second : Tells count' (rest value) result) :
    Tells (count + count') (q >>= rest) result := by
  obtain ⟨bits,few,told⟩ := first
  obtain ⟨more,few',told'⟩ := second
  refine ⟨bits ++ more,?_,told.bind told'⟩
  rw [List.length_append]
  exact Nat.add_le_add few few'

theorem Tells.last {count : Nat} (first : Tells count q value) (found : rest value = .done result) :
    Tells count (q >>= rest) result := by
  have second : Tells 0 (rest value) result := found ▸ .done result
  exact first.bind second

theorem Tells.answer {count : Nat} {slot : Slot} {next : Bool → Asking Slot α} (bit : Bool) (tells : Tells count (next bit) value) :
    Tells (count + 1) (.ask slot next) value := by
  obtain ⟨bits,few,told⟩ := tells
  exact ⟨bit :: bits,Nat.succ_le_succ few,.ask slot told⟩

theorem Tells.one {count : Nat} {next : Bool → Asking Slot α} (tells : Tells count (next true) value) :
    Tells (count + 1) (.toss next) value := by
  obtain ⟨bits,few,told⟩ := tells
  exact ⟨true :: bits,Nat.succ_le_succ few,.toss told⟩

theorem Tells.cases {count : Nat} {slot : Slot} {yes no : Asking Slot α} (bit : Bool) (rest : Tells count (if bit then yes else no) value) :
    Tells (count + 1) (ask slot >>= fun bit => if bit then yes else no) value := .answer bit rest

variable {input : Nat → UInt8} {rc : RcDec} {probs : Slot → Prob} {reader after : Coder.Reader Slot Prob}

theorem answered_eq {bit other : Bool} {read : Option (α × List Bool × Coder.Reader Slot Prob)}
    (same : read.map (Coder.answered bit) = some (value,other :: bits,after)) : bit = other ∧ read = some (value,bits,after) := by
  cases read with
  | none => cases same
  | some read =>
    obtain ⟨value',bits',after'⟩ := read
    cases same
    exact ⟨rfl,rfl⟩

theorem answers_told {Q : α → Prop} (sound : q.Sound Slot.Declared Q) (told : Told q bits value) (reads : rc.Reads probs reader)
    (found : lzmaCoder.read (fun i => (input i).toNat) q reader = some (value,bits,after)) :
    ∃ rc', answers input q rc probs = some (value,rc',after.odds) ∧ rc'.Reads after.odds after := by
  induction told generalizing rc probs reader with
  | done value =>
    cases found
    exact ⟨rc,congrArg (fun probs => some (value,rc,probs)) reads.odds,reads.odds ▸ reads⟩
  | @ask slot next bit bits value _ ih =>
    obtain ⟨answer,found⟩ := answered_eq found
    obtain ⟨rc',run,there⟩ := rcBit_reads reads slot rfl rfl answer.symm
    obtain ⟨rc'',rest,last⟩ := ih (sound.2 bit) there (answer ▸ found)
    refine ⟨rc'',?_,last⟩
    rw [answers,if_pos sound.1,run]
    exact rest
  | @toss next bits value _ ih =>
    rw [Coder.read] at found
    split at found
    · rename_i whole
      obtain ⟨answer,found⟩ := answered_eq found
      obtain ⟨rc',run,there⟩ := rcDirectBit_reads reads rfl (of_decide_eq_true answer) whole
      rw [answer] at found
      obtain ⟨rc'',rest,last⟩ := ih (sound true) there found
      refine ⟨rc'',?_,last⟩
      rw [answers,run]
      exact rest
    · cases found

theorem answers_bind : answers input (q >>= rest) rc probs =
    (answers input q rc probs).bind fun read => answers input (rest read.1) read.2.1 read.2.2 := by
  induction q generalizing rc probs with
  | done value => rfl
  | stray => rfl
  | ask slot next ih =>
    by_cases declared : slot.Declared
    · rw [Asking.ask_bind,answers,answers,if_pos declared,if_pos declared]
      exact ih _
    · rw [Asking.ask_bind,answers,answers,if_neg declared,if_neg declared]
      rfl
  | toss next ih => exact ih _

end Paths

section Trees

variable {probs : Nat → Slot}

theorem rcBittreeLoop_told {m rounds symbol target k : Nat} (here : target / 2 ^ k = symbol) (below : symbol < 2 ^ m)
    (inside : 2 ^ m ≤ target) (above : target < 2 ^ (m + 1)) (enough : k ≤ rounds) :
    Tells k (rcBittreeLoop probs (2 ^ m) rounds symbol) target := by
  induction k generalizing rounds symbol with
  | zero =>
    rw [pow_zero,Nat.div_one] at here
    omega
  | succ k ih =>
    obtain ⟨rounds,rfl⟩ := Nat.exists_eq_add_of_lt (Nat.lt_of_lt_of_le (Nat.succ_pos k) enough)
    have doubled : symbol <<< 1 = 2 * symbol := Nat.shiftLeft_eq symbol 1 ▸ Nat.mul_comm _ _
    have halved : target / 2 ^ k / 2 = symbol := by rw [Nat.div_div_eq_div_mul,← pow_succ,here]
    obtain ⟨bit,low⟩ : ∃ bit : Bool, target / 2 ^ k = if bit then symbol <<< 1 + 1 else symbol <<< 1 := by
      rcases Nat.mod_two_eq_zero_or_one (target / 2 ^ k) with even | odd
      · exact ⟨false,by rw [if_neg (by decide)]; omega⟩
      · exact ⟨true,by rw [if_pos rfl]; omega⟩
    have rest : Tells k (if target / 2 ^ k < 2 ^ m then rcBittreeLoop probs (2 ^ m) (0 + rounds) (target / 2 ^ k)
        else pure (target / 2 ^ k)) target := by
      split
      · exact ih rfl ‹_› (by omega)
      · rename_i last
        have whole : k = 0 := by
          cases k with
          | zero => rfl
          | succ k =>
            have small : target / 2 ^ (k + 1) < 2 ^ m := by
              apply Nat.div_lt_of_lt_mul
              rw [← pow_add]
              exact Nat.lt_of_lt_of_le above (Nat.pow_le_pow_right (by decide) (by omega))
            exact absurd small last
        rw [whole,pow_zero,Nat.div_one]
        exact .done target
    rw [low] at rest
    exact rest.answer bit

theorem rcBittree_told {m limit target : Nat} (power : limit = 2 ^ m) (several : 1 < limit) (inside : limit ≤ target)
    (above : target < 2 * limit) : Tells m (rcBittree probs limit) target := by
  subst power
  have doubled : 2 ^ (m + 1) = 2 * 2 ^ m := by rw [pow_succ,Nat.mul_comm]
  apply rcBittreeLoop_told _ several inside (by omega) (Nat.le_of_lt Nat.lt_two_pow_self)
  exact (Nat.div_eq_iff (Nat.two_pow_pos m)).mpr (by omega)

theorem rcBittreeReverseLoop_told {left i symbol result rest : Nat} (small : result < 2 ^ i) (below : rest < 2 ^ left) :
    Tells left (rcBittreeReverseLoop probs left i symbol result) (result + rest * 2 ^ i) := by
  induction left generalizing i symbol result rest with
  | zero =>
    rw [Nat.lt_one_iff.mp below,Nat.zero_mul,Nat.add_zero]
    exact .done result
  | succ left ih =>
    have high : rest / 2 < 2 ^ left := Nat.div_lt_of_lt_mul (by rwa [pow_succ,Nat.mul_comm] at below)
    have next : 2 ^ (i + 1) = 2 * 2 ^ i := by rw [pow_succ,Nat.mul_comm]
    have scaled : rest * 2 ^ i = rest % 2 * 2 ^ i + rest / 2 * 2 ^ (i + 1) := by
      rw [next,← Nat.mul_assoc,← Nat.add_mul,Nat.mul_comm (rest / 2),Nat.mod_add_div]
    apply Tells.cases (decide (rest % 2 = 1))
    rcases Nat.mod_two_eq_zero_or_one rest with even | odd
    · have tells := @ih (i + 1) (symbol <<< 1) result (rest / 2) (by omega) high
      rw [scaled,even,Nat.zero_mul,Nat.zero_add]
      exact tells
    · have set : result ||| (1 <<< i) = result + 2 ^ i := by
        have apart := Nat.two_pow_add_eq_or_of_lt small 1
        rw [Nat.mul_one] at apart
        rw [Nat.or_comm,Nat.shiftLeft_eq,Nat.one_mul,← apart,Nat.add_comm]
      have tells := @ih (i + 1) (symbol <<< 1 + 1) (result ||| (1 <<< i)) (rest / 2) (by rw [set]; omega) high
      rw [scaled,odd,Nat.one_mul,← Nat.add_assoc,← set]
      exact tells

theorem rcBittreeReverse_told {count result : Nat} (below : result < 2 ^ count) :
    Tells count (rcBittreeReverse probs count) result := by
  have tells := @rcBittreeReverseLoop_told probs count 0 1 0 result Nat.one_pos below
  rwa [pow_zero,Nat.mul_one,Nat.zero_add] at tells

theorem rcDirect_told (count result : Nat) :
    Tells count (rcDirect count result) (result * 2 ^ count + (2 ^ count - 1)) := by
  induction count generalizing result with
  | zero =>
    rw [pow_zero,Nat.mul_one]
    exact .done result
  | succ count ih =>
    have tells := ih ((result <<< 1) + 0 + 1)
    apply Tells.one
    have power : 0 < 2 ^ count := Nat.two_pow_pos count
    have same : result * 2 ^ (count + 1) + (2 ^ (count + 1) - 1) = ((result <<< 1) + 0 + 1) * 2 ^ count + (2 ^ count - 1) := by
      rw [Nat.shiftLeft_eq,pow_succ,pow_one,Nat.add_zero,Nat.succ_mul,Nat.mul_assoc result,Nat.mul_comm 2]
      omega
    rw [same]
    exact tells

theorem lzmaLenDecode_told (coder : LenCoder) (posState : Nat) {len : Nat} (least : 2 ≤ len) (most : len ≤ 273) :
    Tells 10 (lzmaLenDecode coder posState) len := by
  have finish {limit m target : Nat} {probs : Nat → Slot} {value : Nat → Nat} (power : limit = 2 ^ m) (several : 1 < limit)
      (inside : limit ≤ target) (above : target < 2 * limit) (found : value target = len) :
      Tells m (do let symbol ← rcBittree probs limit; return value symbol) len :=
    (@rcBittree_told probs m limit target power several inside above).last (congrArg Asking.done found)
  by_cases low : len < 10
  · have tells : Tells (3 + 1) (lzmaLenDecode coder posState) len := by
      apply Tells.cases false
      apply @finish LEN_LOW_SYMBOLS 3 (len + 6) <;> simp only [LEN_LOW_SYMBOLS,MATCH_LEN_MIN] <;> omega
    exact tells.mono (by decide)
  · by_cases mid : len < 18
    · have tells : Tells (3 + 1 + 1) (lzmaLenDecode coder posState) len := by
        apply Tells.cases true
        apply Tells.cases false
        apply @finish LEN_MID_SYMBOLS 3 (len - 2) <;> simp only [LEN_LOW_SYMBOLS,LEN_MID_SYMBOLS,MATCH_LEN_MIN] <;> omega
      exact tells.mono (by decide)
    · apply Tells.cases true
      apply Tells.cases true
      apply @finish LEN_HIGH_SYMBOLS 8 (len + 238) <;>
        simp only [LEN_LOW_SYMBOLS,LEN_MID_SYMBOLS,LEN_HIGH_SYMBOLS,MATCH_LEN_MIN] <;> omega

def DirectOnes (dist : Nat) : Prop := dist < 128 ∨ dist < 2 ^ 32 ∧ 2 ^ (dist.log2 - 5) ∣ dist / 16 + 1

theorem slot_of {dist : Nat} (several : 4 ≤ dist) :
    ∃ slot, slot >>> 1 = dist.log2 ∧ 4 ≤ slot ∧ (2 ||| (slot &&& 1)) = dist / 2 ^ (dist.log2 - 1) := by
  have some : dist ≠ 0 := by omega
  have least := Nat.log2_self_le some
  have most := Nat.lt_log2_self (n := dist)
  have high : 2 ≤ dist.log2 := (Nat.le_log2 some).mpr several
  obtain ⟨n,named⟩ : ∃ n, dist.log2 = n + 1 := Nat.exists_eq_succ_of_ne_zero (by omega)
  rw [named] at least most high ⊢
  have first : 2 * 2 ^ n = 2 ^ (n + 1) := by rw [pow_succ,Nat.mul_comm]
  have twice : 4 * 2 ^ n = 2 ^ (n + 1 + 1) := by
    rw [pow_succ,← first]
    omega
  have lower : 2 ≤ dist / 2 ^ n := (Nat.le_div_iff_mul_le (Nat.two_pow_pos n)).mpr (by omega)
  have upper : dist / 2 ^ n < 4 := Nat.div_lt_of_lt_mul (by rw [Nat.mul_comm]; omega)
  refine ⟨2 * (n + 1) + (dist / 2 ^ n - 2),?_,by omega,?_⟩
  · rw [Nat.shiftRight_eq_div_pow]
    omega
  · rw [Nat.and_one_is_mod]
    have bit : (2 * (n + 1) + (dist / 2 ^ n - 2)) % 2 = dist / 2 ^ n - 2 := by omega
    rw [bit]
    change 2 ||| _ = dist / 2 ^ n
    have either : dist / 2 ^ n = 2 ∨ dist / 2 ^ n = 3 := by omega
    rcases either with two | three
    · rw [two]
      decide
    · rw [three]
      decide

theorem last_before {n m : Nat} (divides : m ∣ n + 1) : n % m = m - 1 := by
  obtain ⟨k,whole⟩ := divides
  have positive : 0 < m := Nat.pos_of_ne_zero fun zero => by simp [zero] at whole
  cases k with
  | zero => omega
  | succ k =>
    have split : n = m - 1 + m * k := by
      rw [Nat.mul_succ] at whole
      omega
    rw [split,Nat.add_mul_mod_self_left]
    exact Nat.mod_eq_of_lt (by omega)

theorem distance_told (len : Nat) {dist : Nat} (sayable : DirectOnes dist) : Tells 36 (distance len) dist := by
  have narrow : dist < 2 ^ 32 := by
    rcases sayable with small | large
    · omega
    · exact large.1
  have start {slot : Nat} (small : slot < 64) (rest : Tells 30 (if slot < DIST_MODEL_START then pure slot
      else
        let limit := (slot >>> 1) - 1
        let dist := (2 ||| (slot &&& 1)) <<< limit
        if slot < DIST_MODEL_END then do
          return dist + (← rcBittreeReverse (fun symbol => .distSpecial (dist + symbol - slot - 1)) limit)
        else do
          let direct ← rcDirect (limit - ALIGN_BITS) 0
          let aligned ← rcBittreeReverse (fun symbol => .distAlign symbol) ALIGN_BITS
          return (dist + (direct <<< ALIGN_BITS) + aligned) % 2 ^ 32 : Asking Slot Nat) dist) :
      Tells 36 (distance len) dist := by
    have tells := @rcBittree_told (fun symbol => .distSlot (lzmaGetDistState len) (symbol - 1)) 6 DIST_SLOTS (DIST_SLOTS + slot)
      rfl (by decide) (Nat.le_add_right _ _) (by simp only [DIST_SLOTS]; omega)
    change Tells (6 + 30) _ _
    apply tells.bind
    dsimp only
    rw [Nat.add_sub_cancel_left]
    exact rest
  by_cases few : dist < 4
  · apply @start dist (by omega)
    rw [if_pos (show dist < DIST_MODEL_START from few)]
    exact (Tells.done dist).mono (Nat.zero_le _)
  · obtain ⟨slot,half,least,lead⟩ := slot_of (Nat.le_of_not_lt few)
    have width : dist.log2 < 32 := (Nat.log2_lt (by omega)).mpr narrow
    have most : slot < 64 := by
      rw [Nat.shiftRight_eq_div_pow] at half
      omega
    have whole : (2 ||| (slot &&& 1)) <<< (slot >>> 1 - 1) + dist % 2 ^ (slot >>> 1 - 1) = dist := by
      rw [half,lead,Nat.shiftLeft_eq]
      exact Nat.div_add_mod' dist _
    have below : dist % 2 ^ (slot >>> 1 - 1) < 2 ^ (slot >>> 1 - 1) := Nat.mod_lt _ (Nat.two_pow_pos _)
    apply start most
    rw [if_neg (by simp only [DIST_MODEL_START]; omega)]
    dsimp only
    split
    · rename_i modelled
      have tells := @rcBittreeReverse_told (fun symbol => .distSpecial
        ((2 ||| (slot &&& 1)) <<< (slot >>> 1 - 1) + symbol - slot - 1)) _ _ below
      have few : slot >>> 1 - 1 ≤ 30 := by
        simp only [DIST_MODEL_END] at modelled
        rw [Nat.shiftRight_eq_div_pow]
        omega
      refine Tells.mono ?_ few
      apply tells.last
      exact congrArg Asking.done whole
    · rename_i direct
      have large : 7 ≤ dist.log2 := by
        simp only [DIST_MODEL_END] at direct
        rw [Nat.shiftRight_eq_div_pow] at half
        omega
      have ones : 2 ^ (dist.log2 - 5) ∣ dist / 16 + 1 := by
        rcases sayable with small | large'
        · have := (Nat.le_log2 (by omega)).mp large
          omega
        · exact large'.2
      have tells := rcDirect_told (slot >>> 1 - 1 - ALIGN_BITS) 0
      have aligned := @rcBittreeReverse_told (fun symbol => .distAlign symbol) ALIGN_BITS (dist % 16) (Nat.mod_lt _ (by decide))
      have power : 2 ^ (slot >>> 1 - 1) = 16 * 2 ^ (dist.log2 - 5) := by
        have split : dist.log2 - 1 = 4 + (dist.log2 - 5) := by omega
        rw [half,split,pow_add]
        rfl
      have apart : dist % 2 ^ (slot >>> 1 - 1) = 16 * (2 ^ (dist.log2 - 5) - 1) + dist % 16 := by
        rw [power,Nat.mod_mul,last_before ones,Nat.add_comm]
      have shift : (0 * 2 ^ (slot >>> 1 - 1 - ALIGN_BITS) + (2 ^ (slot >>> 1 - 1 - ALIGN_BITS) - 1)) <<< ALIGN_BITS =
          16 * (2 ^ (dist.log2 - 5) - 1) := by
        have left : slot >>> 1 - 1 - ALIGN_BITS = dist.log2 - 5 := by
          simp only [half,ALIGN_BITS]
          omega
        rw [left,Nat.zero_mul,Nat.zero_add,Nat.shiftLeft_eq,Nat.mul_comm]
        rfl
      have answer : ((2 ||| (slot &&& 1)) <<< (slot >>> 1 - 1) +
          ((0 * 2 ^ (slot >>> 1 - 1 - ALIGN_BITS) + (2 ^ (slot >>> 1 - 1 - ALIGN_BITS) - 1)) <<< ALIGN_BITS) + dist % 16) % 2 ^ 32 = dist := by
        rw [shift,Nat.add_assoc,← apart,whole,Nat.mod_eq_of_lt narrow]
      have few : slot >>> 1 - 1 - ALIGN_BITS + ALIGN_BITS ≤ 30 := by
        simp only [half,ALIGN_BITS]
        omega
      refine Tells.mono ?_ few
      apply tells.bind
      apply aligned.last
      exact congrArg Asking.done answer

end Trees

section Turns

variable {lzma : LzmaDec} {dict : Dictionary} {history : List UInt8}

theorem matchedLiteralLoop_told (coder : Nat) {rounds k target : Nat} {matchByte offset symbol : UInt32}
    (here : target / 2 ^ k = symbol.toNat) (below : symbol.toNat < 256) (inside : 256 ≤ target) (above : target < 512)
    (enough : k ≤ rounds) :
    Tells k (matchedLiteralLoop coder rounds matchByte offset symbol) (UInt32.ofNat target) := by
  induction k generalizing rounds matchByte offset symbol with
  | zero =>
    rw [pow_zero,Nat.div_one] at here
    omega
  | succ k ih =>
    obtain ⟨rounds,rfl⟩ := Nat.exists_eq_add_of_lt (Nat.lt_of_lt_of_le (Nat.succ_pos k) enough)
    have doubled : (symbol <<< 1).toNat = symbol.toNat <<< 1 := by
      rw [UInt32.toNat_shiftLeft]
      change (symbol.toNat <<< 1) % 2 ^ 32 = _
      rw [Nat.shiftLeft_eq]
      omega
    have halved : target / 2 ^ k / 2 = symbol.toNat := by rw [Nat.div_div_eq_div_mul,← pow_succ,here]
    obtain ⟨bit,low⟩ : ∃ bit : Bool, target / 2 ^ k = ((symbol <<< 1) ||| (if bit then 1 else 0)).toNat := by
      rcases Nat.mod_two_eq_zero_or_one (target / 2 ^ k) with even | odd
      · refine ⟨false,?_⟩
        rw [if_neg (by decide),UInt32.or_zero,doubled,Nat.shiftLeft_eq]
        omega
      · refine ⟨true,?_⟩
        rw [if_pos rfl,UInt32.toNat_or,doubled]
        change _ = _ ||| 1
        rw [← Nat.shiftLeft_add_eq_or_of_lt (by decide : 1 < 2 ^ 1),Nat.shiftLeft_eq]
        omega
    have rest (matchByte offset next : UInt32) (low : target / 2 ^ k = next.toNat) : Tells k (if next < 0x100 then
        matchedLiteralLoop coder (0 + rounds) matchByte offset next else pure next) (UInt32.ofNat target) := by
      split
      · rename_i again
        exact ih low (UInt32.lt_iff_toNat_lt.mp again) (by omega)
      · rename_i last
        have reached : 256 ≤ target / 2 ^ k := low ▸ Nat.le_of_not_lt fun small => last (UInt32.lt_iff_toNat_lt.mpr small)
        have scaled := (Nat.le_div_iff_mul_le (Nat.two_pow_pos k)).mp reached
        have whole : 2 ^ k = 1 := by
          have positive := Nat.two_pow_pos k
          by_contra more
          have twice : 2 ≤ 2 ^ k := by omega
          omega
        rw [whole,Nat.div_one] at low
        rw [low,UInt32.ofNat_toNat]
        exact (Tells.done _).mono (Nat.zero_le _)
    exact (rest (matchByte <<< 1) (offset &&& (~~~((matchByte <<< 1) ^^^ (if bit then ~~~0 else 0)) &&& 0x100)) _ low).answer bit

theorem literalSymbol_told (sound : dict.Sound) (fits : lzma.Sound dict.full) (coder : Nat) (byte : UInt8) :
    ∃ symbol, Tells 8 (literalSymbol lzma dict coder) symbol ∧ symbol.toUInt8 = byte := by
  have small := byte.toNat_lt
  have low : (UInt32.ofNat (256 + byte.toNat)).toUInt8 = byte := by
    apply UInt8.toNat_inj.mp
    rw [UInt32.toNat_toUInt8,UInt32.toNat_ofNat_of_lt' (by change _ < 2 ^ 32; omega)]
    omega
  refine ⟨_,?_,low⟩
  unfold literalSymbol
  split
  · apply (@rcBittree_told (fun symbol => .literal coder (symbol - 1)) 8 0x100 (256 + byte.toNat) rfl
      (by decide) (Nat.le_add_right _ _) (by omega)).last
    rfl
  · rename_i matched
    have behind : 0 < dict.full := fits.behind (Nat.le_of_not_lt fun below => matched (decide_eq_true below))
    have rep := fits.rep0
    rw [dictGet_sound sound (by omega)]
    exact @matchedLiteralLoop_told coder 0x100 8 (256 + byte.toNat)
      (dict.buf (dict.back lzma.rep0)).toUInt32 0x100 1 (by change _ = 1; omega) (by decide) (by omega) (by omega) (by decide)

/-- The tokens that the decoder can be told. -/
def Sayable : Token UInt8 → Prop
  | .literal _ => True
  | .copy dist len => DirectOnes dist ∧ 2 ≤ len ∧ len ≤ 273

/-- The most answers that a token takes. -/
def answersOf : Token UInt8 → Nat
  | .literal _ => 9
  | .copy _ _ => 48

theorem lzmaDecodeTurn_told (opened : dict.Open) (fits : lzma.Sound dict.full) (holds : dict.Holds history)
    {token : Token UInt8} (sayable : Sayable token) (valid : token.Valid history)
    (room : token.length ≤ dict.limit - dict.pos) :
    ∃ after dict', Tells (answersOf token) (lzmaDecodeTurn lzma dict) (.next after dict') ∧ dict.Grown token.length dict' ∧
      dict'.Holds (token.extend history) := by
  have space := opened.space
  have limit := opened.limit
  cases token with
  | literal byte =>
    obtain ⟨symbol,read,rfl⟩ := @literalSymbol_told lzma dict opened.sound fits (literalRow lzma history) byte
    obtain ⟨dict',put,grown,kept⟩ := dictPut_sound opened.sound (by omega) symbol.toUInt8
    have literal : Tells 8 (lzmaLiteral lzma dict) ({ lzma with state := lzmaStateLiteral lzma.state },dict') := by
      rw [lzmaLiteral,literalCoder_holds opened.sound holds]
      apply read.last
      rw [put]
      rfl
    have turn : Tells (8 + 1) (lzmaDecodeTurn lzma dict) (.next { lzma with state := lzmaStateLiteral lzma.state } dict') := by
      apply Tells.cases false
      exact literal.last rfl
    exact ⟨_,dict',turn,grown,kept history holds⟩
  | copy dist len =>
    have within : dist < dict.full := holds.full ▸ valid
    have inside := opened.sound.inside
    have size := opened.sound.size
    have whole : min (dict.limit - dict.pos) len = len := Nat.min_eq_right room
    have said := lzmaLenDecode_told .matchLen (dict.pos &&& lzma.posMask) sayable.2.1 sayable.2.2
    have found := distance_told len sayable.1
    obtain ⟨dict',repeated,grown,kept⟩ := dictRepeat_sound opened.sound within limit len
    rw [whole] at grown kept
    have matched : Tells (10 + 36) (normalMatch lzma dict (dict.pos &&& lzma.posMask)) (.next { lzma with
        rep0 := dist
        rep1 := lzma.rep0
        rep2 := lzma.rep1
        rep3 := lzma.rep2
        state := lzmaStateMatch lzma.state } dict') := by
      apply said.bind
      apply found.last
      rw [if_neg (by omega),repeatMatch,repeated]
      rfl
    have turn : Tells (46 + 1 + 1) (lzmaDecodeTurn lzma dict) _ := .cases true (.cases false matched)
    exact ⟨_,dict',turn,grown,kept history holds⟩

/-- Turns for as long as there is space, unless one fails. -/
def turns : Nat → LzmaDec → Dictionary → Asking Slot (Option (LzmaDec × Dictionary))
  | 0,lzma,dict => pure (some (lzma,dict))
  | rounds + 1,lzma,dict =>
    if dictHasSpace dict then lzmaDecodeTurn lzma dict >>= fun
      | .next lzma dict => turns rounds lzma dict
      | .leftover _ _ _ => pure none
      | .bad _ _ => pure none
    else pure (some (lzma,dict))

theorem turns_sound (rounds : Nat) (fits : lzma.Sound dict.full) (limited : dict.Limited) :
    (turns rounds lzma dict).Sound Slot.Declared fun _ => True := by
  induction rounds generalizing lzma dict with
  | zero => trivial
  | succ rounds ih =>
    rw [turns]
    split
    · rename_i space
      apply (lzmaDecodeTurn_sound ⟨limited.sound,of_decide_eq_true space,limited.limit⟩ fits).bind
      intro turn follows
      cases turn with
      | next lzma' dict' =>
        obtain ⟨fits',count,_,short,grown⟩ := follows
        exact ih fits' (limited.grown grown short)
      | leftover lzma' dict' len => trivial
      | bad lzma' dict' => trivial
    · trivial

theorem turns_told {tokens : List (Token UInt8)} {rounds : Nat} (enough : dict.limit - dict.pos ≤ rounds)
    (fits : lzma.Sound dict.full) (limited : dict.Limited) (holds : dict.Holds history)
    (sayable : ∀ token ∈ tokens, Sayable token) (parses : Parses history tokens)
    (fills : dict.pos + (tokens.map Token.length).sum = dict.limit) :
    ∃ after dict', Tells (tokens.map answersOf).sum (turns rounds lzma dict) (some (after,dict')) ∧
      dict'.Holds (expand history tokens) := by
  induction tokens generalizing rounds lzma dict history with
  | nil =>
    have full : dict.pos = dict.limit := fills
    have none : dictHasSpace dict = false := decide_eq_false (by omega)
    refine ⟨lzma,dict,?_,holds⟩
    cases rounds with
    | zero => exact .done _
    | succ rounds =>
      rw [turns,none]
      exact .done _
  | cons token tokens ih =>
    have sum : (List.map Token.length (token :: tokens)).sum = token.length + (tokens.map Token.length).sum := List.sum_cons
    rw [sum] at fills
    have mine := sayable token List.mem_cons_self
    have positive : 0 < token.length := by
      cases token with
      | literal byte => exact Nat.one_pos
      | copy dist len => exact Nat.lt_of_lt_of_le Nat.two_pos mine.2.1
    have opened : dict.Open := ⟨limited.sound,by omega,limited.limit⟩
    obtain ⟨after,dict',tells,grown,held⟩ := lzmaDecodeTurn_told opened fits holds mine parses.1 (by omega)
    obtain ⟨fits',_⟩ := tells.holds (lzmaDecodeTurn_sound opened fits)
    have space : dictHasSpace dict = true := decide_eq_true opened.space
    obtain ⟨rounds,rfl⟩ := Nat.exists_eq_add_of_lt (show 0 < rounds by have := opened.space; omega)
    have pos := grown.pos
    have limit := grown.limit
    obtain ⟨last,dict'',rest,kept⟩ := @ih after dict' (token.extend history) rounds (by omega) fits'
      (limited.grown grown (by omega)) held (fun token member => sayable token (List.mem_cons_of_mem _ member)) parses.2 (by omega)
    refine ⟨last,dict'',?_,kept⟩
    rw [turns,if_pos space,Nat.zero_add,List.map_cons,List.sum_cons]
    exact tells.bind rest

end Turns

section Chunks

variable {s : XzDecLzma2} {history : List UInt8} {tokens : List (Token UInt8)}

theorem decodeTurns_turns {input : Nat → UInt8} {inLimit rounds : Nat} {lzma : LzmaDec} {dict : Dictionary} {rc : RcDec}
    {probs : Slot → Prob} (run : answers input (turns rounds s.lzma s.dict) s.rc s.probs = some (some (lzma,dict),rc,probs))
    (before : rc.inPos < inLimit) :
    decodeTurns input inLimit rounds s = some (true,{ s with lzma := lzma,dict := dict,rc := rc,probs := probs }) := by
  induction rounds generalizing s with
  | zero =>
    cases run
    rfl
  | succ rounds ih =>
    rw [turns] at run
    by_cases space : dictHasSpace s.dict = true
    · have go : dictHasSpace s.dict ∧ s.rc.inPos < inLimit := ⟨space,Nat.lt_of_le_of_lt (answers_inPos input run) before⟩
      rw [if_pos space,answers_bind] at run
      rw [decodeTurns,if_pos go]
      obtain ⟨turn,found⟩ : ∃ turn, answers input (lzmaDecodeTurn s.lzma s.dict) s.rc s.probs = turn := ⟨_,rfl⟩
      rw [found] at run ⊢
      cases turn with
      | none => cases run
      | some read =>
        obtain ⟨turn,rc₁,probs₁⟩ := read
        cases turn with
        | next lzma₁ dict₁ => exact @ih { s with lzma := lzma₁,dict := dict₁,rc := rc₁,probs := probs₁ } run
        | leftover lzma₁ dict₁ len => cases run
        | bad lzma₁ dict₁ => cases run
    · rw [if_neg space] at run
      cases run
      rw [decodeTurns,if_neg fun go => space go.1]

/-- Behind its initialization the range decoder can be told any path, by a code and the bytes that follow: one
for an answer, at most. -/
theorem told_coded {α : Type} {Q : α → Prop} {q : Asking Slot α} {value : α} {count : Nat} (sound : q.Sound Slot.Declared Q)
    (tells : Tells count q value) (probs : Slot → Prob) :
    ∃ (code : UInt32) (bytes : List UInt8), bytes.length ≤ count ∧ ∀ input pos left, window input pos bytes.length = bytes →
      ∃ rc' probs', answers input q ⟨0xFFFFFFFF,code,left,pos⟩ probs = some (value,rc',probs') ∧ rc'.inPos = pos + bytes.length := by
  obtain ⟨bits,few,told⟩ := tells
  have wide : lzmaCoder.top ≤ lzmaCoder.base * (2 ^ 32 - 1) := by decide
  have short := @Coder.span_digits _ _ _ lzmaCoder _ _ _ _ told.leads (2 ^ 32 - 1) probs
  obtain ⟨code,digits,below,small,coded⟩ := Coder.exists_coded told.leads wide probs
  obtain ⟨span,spanned⟩ : ∃ span, lzmaCoder.span q bits (2 ^ 32 - 1) probs = span := ⟨_,rfl⟩
  rw [spanned] at coded short
  have number : (UInt32.ofNat code).toNat = code := UInt32.toNat_ofNat_of_lt' (Nat.lt_of_lt_of_le below (Nat.sub_le _ _))
  have length : ((List.range span.digits).map fun i => UInt8.ofNat (digits i)).length = span.digits := by
    rw [List.length_map,List.length_range]
  refine ⟨UInt32.ofNat code,(List.range span.digits).map fun i => UInt8.ofNat (digits i),by omega,fun input pos left here => ?_⟩
  rw [length] at here ⊢
  have read := coded (fun i => (input i).toNat) pos (fun i => (input i).toNat_lt) fun i inside => by
    have same := List.map_inj_left.mp here i (List.mem_range.mpr inside)
    rw [same]
    exact UInt8.toNat_ofNat_of_lt' (small i)
  have start : RcDec.Reads ⟨0xFFFFFFFF,UInt32.ofNat code,left,pos⟩ probs ⟨code,2 ^ 32 - 1,pos,probs⟩ :=
    ⟨number,rfl,rfl,rfl,below,(by decide : 2 ^ 24 ≤ 256 * (2 ^ 32 - 1))⟩
  obtain ⟨rc',run,reads⟩ := answers_told sound told start read
  exact ⟨rc',_,run,reads.pos⟩

def codeBytes (code : UInt32) : List UInt8 :=
  [0,(code >>> 24).toUInt8,(code >>> 16).toUInt8,(code >>> 8).toUInt8,code.toUInt8]

theorem rcReadInit_enough (input : Nat → UInt8) {inSize left : Nat} {rc : RcDec} (due : rc.initBytesLeft = left)
    (room : rc.inPos + left ≤ inSize) :
    rcReadInit input inSize left rc = { rc with
      code := (window input rc.inPos left).foldl (fun code byte => (code <<< 8) + byte.toUInt32) rc.code
      inPos := rc.inPos + left
      initBytesLeft := 0 } := by
  induction left generalizing rc with
  | zero =>
    obtain ⟨range,code,last,pos⟩ := rc
    cases due
    rfl
  | succ left ih =>
    rw [rcReadInit,if_neg (by omega),ih rfl (by dsimp only; omega),Nat.add_comm left 1,window_append]
    simp only [Nat.add_assoc]
    rfl

theorem codeBytes_code (code : UInt32) :
    (codeBytes code).foldl (fun (code : UInt32) byte => (code <<< 8) + byte.toUInt32) 0 = code := by
  have small := code.toNat_lt
  have step (x : UInt32) (byte : UInt8) : ((x <<< 8) + byte.toUInt32).toNat = (x.toNat * 256 + byte.toNat) % 2 ^ 32 := by
    rw [UInt32.toNat_add,UInt32.toNat_shiftLeft]
    change ((x.toNat <<< 8) % 2 ^ 32 + byte.toNat) % 2 ^ 32 = _
    rw [Nat.shiftLeft_eq,Nat.mod_add_mod]
  have byte (count : UInt32) (few : count.toNat < 32) : (code >>> count).toUInt8.toNat = code.toNat / 2 ^ count.toNat % 256 := by
    rw [UInt32.toNat_toUInt8,UInt32.toNat_shiftRight,Nat.mod_eq_of_lt few,Nat.shiftRight_eq_div_pow]
  apply UInt32.toNat_inj.mp
  simp only [codeBytes,List.foldl_cons,List.foldl_nil]
  rw [step,step,step,step,step,byte 24 (by decide),byte 16 (by decide),byte 8 (by decide),UInt32.toNat_toUInt8]
  change ((((((0 * 256 + 0) % 2 ^ 32) * 256 + code.toNat / 2 ^ 24 % 256) % 2 ^ 32 * 256 + code.toNat / 2 ^ 16 % 256) % 2 ^ 32 * 256 +
    code.toNat / 2 ^ 8 % 256) % 2 ^ 32 * 256 + code.toNat % 256) % 2 ^ 32 = _
  omega

theorem lzmaDecodeLoop_told (fits : s.lzma.Sound s.dict.full) (limited : s.dict.Limited) (fresh : s.matchLen = 0)
    (holds : s.dict.Holds history) (parses : Parses history tokens) (sayable : ∀ token ∈ tokens, Sayable token)
    (fills : s.dict.pos + (tokens.map Token.length).sum = s.dict.limit) :
    ∃ (code : UInt32) (bytes : List UInt8), bytes.length ≤ (tokens.map answersOf).sum ∧
      ∀ b inAvail pos, window b.input b.inPos bytes.length = bytes → bytes.length < inAvail →
      ∃ after, lzmaDecodeLoop { s with rc := ⟨0xFFFFFFFF,code,0,pos⟩ } b inAvail =
          some (true,after,{ b with inPos := b.inPos + bytes.length }) ∧
        after.dict.Holds (expand history tokens) ∧ after.uncompressed = s.uncompressed := by
  obtain ⟨lzma,dict,tells,held⟩ := turns_told (Nat.le_refl _) fits limited holds sayable parses fills
  obtain ⟨code,bytes,few,coded⟩ := told_coded (turns_sound _ fits limited) tells s.probs
  refine ⟨code,bytes,few,fun b inAvail pos here enough => ?_⟩
  obtain ⟨rc,probs,run,moved⟩ := coded b.input b.inPos 0 here
  have decoded := @decodeTurns_turns { s with rc := ⟨0xFFFFFFFF,code,0,b.inPos⟩,matchLen := 0 } b.input (b.inPos + inAvail) _
    lzma dict rc probs run (by omega)
  refine ⟨{ s with
    lzma := lzma
    dict := dict
    rc := rc
    probs := probs
    matchLen := 0
    compressed := s.compressed - UInt32.ofNat (rc.inPos - b.inPos) },?_,held,rfl⟩
  rw [lzmaDecodeLoop]
  dsimp only
  rw [if_neg (by omega)]
  simp only [bind,Option.bind,if_true,decoded]
  rw [moved]
  rfl

/-- A chunk whose range decoder has been initialized. -/
def XzDecLzma2.begin (s : XzDecLzma2) (code : UInt32) (pos : Nat) : XzDecLzma2 := { s with
  lzma := { s.lzma with state := 0,rep0 := 0,rep1 := 0,rep2 := 0,rep3 := 0 }
  probs := fun _ => .initial
  rc := ⟨0xFFFFFFFF,code,0,pos⟩
  needLzmaInit := false
  compressed := s.compressed - 5
  matchLen := 0
  sequence := .lzmaRun }

theorem preparePass_coded (init : s.needLzmaInit = true) {b : XzBuf} {code : UInt32}
    (here : window b.input b.inPos 5 = codeBytes code) (room : b.inPos + 5 ≤ b.inSize) :
    preparePass s b = .again (s.begin code (b.inPos + 5)) { b with inPos := b.inPos + 5 } := by
  have read := @rcReadInit_enough b.input b.inSize 5 { rcReset s.rc with inPos := b.inPos } rfl room
  unfold preparePass
  rw [if_pos init]
  dsimp only [rcReset] at read ⊢
  rw [read,here,codeBytes_code]
  rfl

theorem dictLimit_limit {dict : Dictionary} {outMax : Nat} (fits : dict.pos + outMax ≤ dict.finish) :
    (dictLimit dict outMax).limit = dict.pos + outMax := by
  unfold dictLimit
  split
  · dsimp only
    omega
  · rfl

theorem dictFlush_whole {dict : Dictionary} (holds : dict.Holds history) {b : XzBuf}
    (room : b.out.length + history.length ≤ b.outSize) :
    ∃ after, dictFlush dict b = (after,{ b with out := b.out ++ history },history.length) := by
  have whole : min (b.outSize - b.out.length) dict.pos = history.length := by
    rw [holds.pos]
    exact Nat.min_eq_right (by omega)
  unfold dictFlush
  dsimp only
  rw [whole,holds.bytes]
  exact ⟨_,rfl⟩

/-- Behind a reset of the dictionary, any parse that fits into it has a chunk, if its answers fit into the size that
the chunk announces: bytes that the decoder, which has the chunk's header, decodes to what the parse expands to. -/
theorem every_parse_is_decoded (sound : s.Sound) (prepare : s.sequence = .lzmaPrepare) (init : s.needLzmaInit = true)
    (empty : s.dict.full = 0) (parses : Parses [] tokens) (sayable : ∀ token ∈ tokens, Sayable token)
    (size : s.uncompressed.toNat = (tokens.map Token.length).sum) (fits : s.uncompressed.toNat ≤ s.dict.finish)
    (short : 5 + (tokens.map answersOf).sum < s.compressed.toNat) :
    ∃ bytes : List UInt8, bytes.length < s.compressed.toNat ∧ ∀ (b : XzBuf) (fuel : Nat),
      window b.input b.inPos bytes.length = bytes → b.inPos + bytes.length < b.inSize → b.inSize < 2 ^ 64 →
      b.out.length + s.uncompressed.toNat ≤ b.outSize →
      ∃ after, after.Sound ∧ after.sequence = .control ∧ xzDecLzma2Run (fuel + 2) s b =
        xzDecLzma2Run fuel after { b with inPos := b.inPos + bytes.length,out := b.out ++ expand [] tokens } := by
  have begun := sound.begun (by rw [prepare]; decide)
  have bounds := sound.dict begun
  have written := bounds.written
  have start : s.dict.pos = 0 := by omega
  obtain ⟨dict,named⟩ : ∃ dict, dictLimit s.dict s.uncompressed.toNat = dict := ⟨_,rfl⟩
  have limited : dict.Limited := named ▸ dictLimit_limited bounds s.uncompressed.toNat
  obtain ⟨pos,full,_⟩ := named ▸ @dictLimit_same s.dict s.uncompressed.toNat
  have limit : dict.limit = s.dict.pos + s.uncompressed.toNat := named ▸ dictLimit_limit (by omega)
  have holds : dict.Holds [] := ⟨pos.trans start,full.trans empty,rfl⟩
  obtain ⟨code,payload,few,coded⟩ := @lzmaDecodeLoop_told { s.begin 0 0 with dict := dict } [] tokens
    (LzmaDec.sound_init sound.posMask _) limited rfl holds parses sayable (by dsimp only; omega)
  have length : (codeBytes code ++ payload).length = 5 + payload.length := List.length_append
  refine ⟨codeBytes code ++ payload,by omega,fun b fuel here room narrow space => ?_⟩
  rw [length] at here room ⊢
  rw [window_append] at here
  obtain ⟨head,tail⟩ := List.append_inj here (length_window _ _ _)
  have total : (expand [] tokens).length = s.uncompressed.toNat := by
    rw [length_expand parses,size]
    exact Nat.zero_add _
  have prepared := preparePass_coded init head (by omega)
  have available : { b with inPos := b.inPos + 5 : XzBuf }.available = b.inSize - (b.inPos + 5) := by
    unfold XzBuf.available
    dsimp only
    omega
  have counted : (s.compressed - 5).toNat = s.compressed.toNat - 5 :=
    UInt32.toNat_sub_of_le _ _ (UInt32.le_iff_toNat_le.mpr (by change 5 ≤ s.compressed.toNat; omega))
  obtain ⟨after,loop,held,same⟩ := coded { b with inPos := b.inPos + 5 } (min (b.inSize - (b.inPos + 5)) (s.compressed.toNat - 5))
    (b.inPos + 5) tail (by omega)
  obtain ⟨flushed,flush⟩ := @dictFlush_whole _ after.dict held { b with inPos := b.inPos + 5 + payload.length }
    (by dsimp only; omega)
  have first : lzma2Pass s b = some (.again (s.begin code (b.inPos + 5)) { b with inPos := b.inPos + 5 }) := by
    rw [lzma2Pass,prepare]
    exact congrArg some prepared
  have second : lzma2Pass (s.begin code (b.inPos + 5)) { b with inPos := b.inPos + 5 } = some (.again
      { after with dict := flushed,uncompressed := after.uncompressed - UInt32.ofNat (expand [] tokens).length,sequence := .control }
      { b with inPos := b.inPos + (5 + payload.length),out := b.out ++ expand [] tokens }) := by
    change runPass (s.begin code (b.inPos + 5)) { b with inPos := b.inPos + 5 } = _
    dsimp only [XzDecLzma2.begin] at loop ⊢
    rw [runPass]
    dsimp only
    rw [named,available,counted]
    have zero : after.uncompressed - UInt32.ofNat (expand [] tokens).length = 0 := by
      rw [same,total]
      exact (congrArg (s.uncompressed - ·) UInt32.ofNat_toNat).trans (UInt32.sub_self _)
    simp only [bind,Option.bind,loop,flush,not_true_eq_false,if_false,zero,if_true]
    rw [Nat.add_assoc]
    rfl
  obtain ⟨pass,passed,then_⟩ := lzma2Pass_sound sound b
  rw [first] at passed
  cases passed
  obtain ⟨pass,passed,last⟩ := lzma2Pass_sound then_ { b with inPos := b.inPos + 5 }
  rw [second] at passed
  cases passed
  refine ⟨_,last,rfl,?_⟩
  rw [xzDecLzma2Run,first]
  dsimp only
  rw [xzDecLzma2Run,second]

/-- A decoder that has read the header of a chunk of five bytes. -/
def preparedDecoder : XzDecLzma2 where
  sequence := .lzmaPrepare
  control := 0xE0
  compressed := 100
  uncompressed := 5
  needLzmaInit := true
  dict := { finish := 4096,size := 4096,allocated := 4096 }

theorem preparedDecoder_sound : preparedDecoder.Sound where
  positive := (by decide : 0 < 4096)
  finish := Nat.le_refl _
  narrow := (by decide : 4096 < 2 ^ 32)
  size := Nat.le_refl _
  posMask := (by decide : 0 < POS_STATES_MAX)
  dict _ := ⟨Nat.le_refl _,Nat.zero_le _,Nat.le_refl _,(by decide : 4096 < 2 ^ 32),Nat.le_refl _⟩
  begun _ := rfl
  ready _ prepared := Bool.noConfusion prepared
  waiting left := absurd left (Nat.lt_irrefl 0)
  running run := Lzma2Seq.noConfusion run
  low run := Lzma2Seq.noConfusion run
  middle run := Lzma2Seq.noConfusion run
  left _ := (by decide : (5 : UInt32) ≠ 0)

/-- Five times the same byte, as a literal and a copy of it. -/
theorem five_bytes_are_decoded : ∃ bytes : List UInt8, bytes.length < 100 ∧ ∀ (b : XzBuf) (fuel : Nat),
    window b.input b.inPos bytes.length = bytes → b.inPos + bytes.length < b.inSize → b.inSize < 2 ^ 64 →
    b.out.length + 5 ≤ b.outSize →
    ∃ after, after.Sound ∧ after.sequence = .control ∧ xzDecLzma2Run (fuel + 2) preparedDecoder b =
      xzDecLzma2Run fuel after { b with inPos := b.inPos + bytes.length,out := b.out ++ [7,7,7,7,7] } := by
  have sayable : ∀ token ∈ [Token.literal 7,Token.copy 0 4], Sayable token := by
    intro token member
    rcases List.mem_pair.mp member with rfl | rfl
    · trivial
    · exact ⟨.inl (by decide),by decide,by decide⟩
  exact @every_parse_is_decoded preparedDecoder [.literal 7,.copy 0 4] preparedDecoder_sound rfl rfl rfl
    ⟨trivial,Nat.one_pos,trivial⟩ sayable rfl (by decide) (by decide)

end Chunks

end SetecWizard.Core.Xz
