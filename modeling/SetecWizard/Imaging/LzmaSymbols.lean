import Mathlib.Data.Nat.Bitwise
import Mathlib.Tactic.IntervalCases
import SetecWizard.Core.LzmaDecoder

/-! The symbols of LZMA. Whatever the range decoder answers, the slots asked for are declared ones,
the lengths and distances are in their ranges and the dictionary is accessed inside.
-/
namespace SetecWizard.Core.Xz
open SetecWizard.Library

variable {α : Type} {Q : α → Prop}

theorem sound_ask {slot : Slot} {rest : Bool → Asking Slot α} (declared : slot.Declared)
    (each : ∀ bit, (rest bit).Sound Slot.Declared Q) : (ask slot >>= rest).Sound Slot.Declared Q := ⟨declared,each⟩

theorem sound_cases {slot : Slot} {yes no : Asking Slot α} (declared : slot.Declared) (second : yes.Sound Slot.Declared Q)
    (first : no.Sound Slot.Declared Q) : (ask slot >>= fun bit => if bit then yes else no).Sound Slot.Declared Q := by
  apply sound_ask declared
  intro bit
  cases bit with
  | false => exact first
  | true => exact second

section Trees

variable {probs : Nat → Slot}

theorem rcBittreeLoop_sound {limit : Nat} (declared : ∀ symbol, 0 < symbol → symbol < limit → (probs symbol).Declared)
    {rounds symbol : Nat} (positive : 0 < symbol) (below : symbol < limit) (enough : limit ≤ symbol + rounds) :
    (rcBittreeLoop probs limit rounds symbol).Sound Slot.Declared fun symbol => limit ≤ symbol ∧ symbol < 2 * limit := by
  induction rounds generalizing symbol with
  | zero => omega
  | succ rounds ih =>
    apply sound_ask (declared symbol positive below)
    intro bit
    have doubled : symbol <<< 1 = 2 * symbol := Nat.shiftLeft_eq symbol 1 ▸ Nat.mul_comm _ _
    obtain ⟨next,named⟩ : ∃ next, next = if bit then (symbol <<< 1) + 1 else symbol <<< 1 := ⟨_,rfl⟩
    have grown : 2 * symbol ≤ next ∧ next ≤ 2 * symbol + 1 := by
      cases bit <;> simp [named,doubled]
    change (if (if bit then (symbol <<< 1) + 1 else symbol <<< 1) < limit then _ else _ : Asking Slot Nat).Sound _ _
    rw [← named]
    split
    · exact ih (by omega) ‹_› (by omega)
    · exact ⟨by omega,by omega⟩

theorem rcBittree_sound {limit : Nat} (declared : ∀ symbol, 0 < symbol → symbol < limit → (probs symbol).Declared)
    (several : 1 < limit) :
    (rcBittree probs limit).Sound Slot.Declared fun symbol => limit ≤ symbol ∧ symbol < 2 * limit :=
  rcBittreeLoop_sound declared Nat.one_pos several (by omega)

theorem rcBittreeReverseLoop_sound {bits : Nat} (declared : ∀ symbol, 0 < symbol → symbol < 2 ^ bits → (probs symbol).Declared)
    {left i symbol result : Nat} (whole : i + left = bits) (positive : 0 < symbol) (below : symbol < 2 ^ (i + 1))
    (small : result < 2 ^ i) :
    (rcBittreeReverseLoop probs left i symbol result).Sound Slot.Declared fun result => result < 2 ^ bits := by
  induction left generalizing i symbol result with
  | zero =>
    rw [← whole]
    exact small
  | succ left ih =>
    have doubled : symbol <<< 1 = 2 * symbol := Nat.shiftLeft_eq symbol 1 ▸ Nat.mul_comm _ _
    have room : 2 ^ (i + 1) ≤ 2 ^ bits := Nat.pow_le_pow_right (by decide) (by omega)
    have next : 2 ^ (i + 1 + 1) = 2 * 2 ^ (i + 1) := by rw [pow_succ,Nat.mul_comm]
    apply sound_cases (declared symbol positive (by omega))
    · apply ih (by omega) (by omega) (by omega)
      apply Nat.or_lt_two_pow
      · exact Nat.lt_of_lt_of_le small (Nat.pow_le_pow_right (by decide) (Nat.le_succ _))
      · rw [Nat.shiftLeft_eq,Nat.one_mul]
        exact Nat.pow_lt_pow_right (by decide) (Nat.lt_succ_self i)
    · exact ih (by omega) (by omega) (by omega) (Nat.lt_of_lt_of_le small (Nat.pow_le_pow_right (by decide) (Nat.le_succ _)))

theorem rcBittreeReverse_sound {bits : Nat} (declared : ∀ symbol, 0 < symbol → symbol < 2 ^ bits → (probs symbol).Declared) :
    (rcBittreeReverse probs bits).Sound Slot.Declared fun result => result < 2 ^ bits := by
  cases bits with
  | zero => exact Nat.one_pos
  | succ bits =>
    exact rcBittreeReverseLoop_sound declared (Nat.zero_add _) Nat.one_pos (by decide) Nat.one_pos

theorem rcDirect_sound (count result : Nat) : (rcDirect count result).Sound Slot.Declared fun _ => True := by
  induction count generalizing result with
  | zero => trivial
  | succ count ih => exact fun bit => ih _

theorem lzmaLenDecode_sound (coder : LenCoder) {posState : Nat} (small : posState < POS_STATES_MAX) :
    (lzmaLenDecode coder posState).Sound Slot.Declared fun len => 2 ≤ len ∧ len ≤ 273 := by
  apply sound_cases
  · trivial
  · apply sound_cases
    · trivial
    · apply (rcBittree_sound (fun symbol _ below => ?_) (by decide)).bind
      · intro symbol inside
        simp only [LEN_HIGH_SYMBOLS] at inside
        simp only [LEN_HIGH_SYMBOLS,LEN_MID_SYMBOLS,LEN_LOW_SYMBOLS,MATCH_LEN_MIN]
        exact ⟨by omega,by omega⟩
      · exact Nat.lt_of_le_of_lt (Nat.sub_le _ _) below
    · apply (rcBittree_sound (fun symbol _ below => ?_) (by decide)).bind
      · intro symbol inside
        simp only [LEN_MID_SYMBOLS] at inside
        simp only [LEN_MID_SYMBOLS,LEN_LOW_SYMBOLS,MATCH_LEN_MIN]
        exact ⟨by omega,by omega⟩
      · exact ⟨small,Nat.lt_of_le_of_lt (Nat.sub_le _ _) below⟩
  · apply (rcBittree_sound (fun symbol _ below => ?_) (by decide)).bind
    · intro symbol inside
      simp only [LEN_LOW_SYMBOLS] at inside
      simp only [LEN_LOW_SYMBOLS,MATCH_LEN_MIN]
      exact ⟨by omega,by omega⟩
    · exact ⟨small,Nat.lt_of_le_of_lt (Nat.sub_le _ _) below⟩

theorem distSpecial_declared {distSlot symbol : Nat} (low : 4 ≤ distSlot) (high : distSlot < 14)
    (below : symbol < 2 ^ ((distSlot >>> 1) - 1)) :
    (Slot.distSpecial ((2 ||| (distSlot &&& 1)) <<< ((distSlot >>> 1) - 1) + symbol - distSlot - 1)).Declared := by
  change _ < 114
  interval_cases distSlot <;> simp at below ⊢ <;> omega

theorem distance_sound {len : Nat} (least : 2 ≤ len) : (distance len).Sound Slot.Declared fun dist => dist < 2 ^ 32 := by
  have state : lzmaGetDistState len < DIST_STATES := by
    change (if len < 6 then len - 2 else 3) < 4
    split <;> omega
  apply (rcBittree_sound (fun symbol _ below => ?_) (by decide)).bind
  · intro symbol inside
    simp only [DIST_SLOTS] at inside
    obtain ⟨distSlot,named⟩ : ∃ distSlot, distSlot = symbol - DIST_SLOTS := ⟨_,rfl⟩
    have small : distSlot < 64 := by simp only [named,DIST_SLOTS]; omega
    rw [← named]
    dsimp only
    split
    · change distSlot < 2 ^ 32
      omega
    · rename_i large
      simp only [DIST_MODEL_START] at large
      split
      · rename_i modelled
        simp only [DIST_MODEL_END] at modelled
        apply (rcBittreeReverse_sound fun symbol _ below => ?_).bind
        · intro result below
          change _ < 2 ^ 32
          interval_cases distSlot <;> simp at below ⊢ <;> omega
        · exact distSpecial_declared (by omega) modelled below
      · apply (rcDirect_sound _ _).bind
        intro direct _
        apply (rcBittreeReverse_sound fun symbol _ below => ?_).bind
        · intro result _
          exact Nat.mod_lt _ (by decide)
        · exact below
  · exact ⟨state,Nat.lt_of_le_of_lt (Nat.sub_le _ _) below⟩

end Trees

section Dictionary

/-- The bounds of a dictionary that has been reset. -/
structure Dictionary.Sound (dict : Dictionary) : Prop where
  written : dict.pos ≤ dict.full
  inside : dict.full ≤ dict.finish
  finish : dict.finish ≤ dict.allocated
  narrow : dict.finish < 2 ^ 32
  size : dict.finish ≤ dict.size

/-- So many bytes have been put. -/
structure Dictionary.Grown (before : Dictionary) (count : Nat) (after : Dictionary) : Prop where
  pos : after.pos = before.pos + count
  full : after.full = max before.full (before.pos + count)
  limit : after.limit = before.limit
  finish : after.finish = before.finish
  size : after.size = before.size
  allocated : after.allocated = before.allocated

/-- Nothing has been flushed since the reset, and the buffer holds the history. -/
structure Dictionary.Holds (dict : Dictionary) (history : List UInt8) : Prop where
  pos : dict.pos = history.length
  full : dict.full = history.length
  bytes : window dict.buf 0 history.length = history

variable {dict after : Dictionary} {history : List UInt8} {dist len count : Nat}

theorem Dictionary.Grown.sound (grown : dict.Grown count after) (sound : dict.Sound) (fits : dict.pos + count ≤ dict.finish) :
    after.Sound := by
  have inside := sound.inside
  refine ⟨?_,?_,?_,?_,?_⟩
  · rw [grown.pos,grown.full]
    exact Nat.le_max_right _ _
  · rw [grown.full,grown.finish]
    exact Nat.max_le.mpr ⟨inside,fits⟩
  · rw [grown.finish,grown.allocated]
    exact sound.finish
  · rw [grown.finish]
    exact sound.narrow
  · rw [grown.finish,grown.size]
    exact sound.size

theorem Dictionary.Grown.trans {last : Dictionary} {more : Nat} (first : dict.Grown count after)
    (second : after.Grown more last) : dict.Grown (count + more) last := by
  refine ⟨?_,?_,second.limit.trans first.limit,second.finish.trans first.finish,second.size.trans first.size,
    second.allocated.trans first.allocated⟩
  · rw [second.pos,first.pos,Nat.add_assoc]
  · rw [second.full,first.full,first.pos,Nat.max_assoc,Nat.add_assoc]
    congr 1
    exact Nat.max_eq_right (by omega)

theorem back_eq (sound : dict.Sound) (valid : dist < dict.full) :
    dict.back dist = if dict.pos ≤ dist then dict.pos + dict.finish - dist - 1 else dict.pos - dist - 1 := by
  have inside := sound.inside
  have narrow := sound.narrow
  have written := sound.written
  unfold Dictionary.back
  split
  · have turned : dict.pos + (2 ^ 64 - dist - 1) + dict.finish = dict.pos + dict.finish - dist - 1 + 2 ^ 64 := by omega
    rw [turned,Nat.add_mod_right,Nat.mod_eq_of_lt (by omega)]
  · have straight : dict.pos + (2 ^ 64 - dist - 1) + 0 = dict.pos - dist - 1 + 2 ^ 64 := by omega
    rw [straight,Nat.add_mod_right,Nat.mod_eq_of_lt (by omega)]

theorem back_lt (sound : dict.Sound) (valid : dist < dict.full) : dict.back dist < dict.finish := by
  have inside := sound.inside
  have written := sound.written
  rw [back_eq sound valid]
  split <;> omega

theorem read_inside (sound : dict.Sound) {offset : Nat} (inside : offset < dict.finish) :
    dict.read offset = some (dict.buf offset) :=
  if_pos (Nat.lt_of_lt_of_le inside sound.finish)

theorem dictGet_sound (sound : dict.Sound) (valid : dist < dict.full) : dictGet dict dist = some (dict.buf (dict.back dist)) :=
  read_inside sound (back_lt sound valid)

theorem dictPut_sound (sound : dict.Sound) (space : dict.pos < dict.finish) (byte : UInt8) :
    ∃ after, dictPut dict byte = some after ∧ dict.Grown 1 after ∧ ∀ history, dict.Holds history →
      after.Holds (history ++ [byte]) := by
  refine ⟨_,if_pos (Nat.lt_of_lt_of_le space sound.finish),⟨rfl,rfl,rfl,rfl,rfl,rfl⟩,fun history holds => ?_⟩
  refine ⟨?_,?_,?_⟩
  · rw [List.length_append,← holds.pos]
    rfl
  · rw [List.length_append,← holds.pos]
    exact Nat.max_eq_right (by rw [holds.full,holds.pos]; exact Nat.le_succ _)
  · have put : window (Function.update dict.buf dict.pos byte) 0 (history.length + 1) = history ++ [byte] := by
      simp only [window,List.range_succ,List.map_append,List.map_singleton,Nat.zero_add]
      congr 1
      · rw [← holds.bytes]
        simp only [window,List.length_map,List.length_range,Nat.zero_add]
        apply List.map_congr_left
        intro i member
        have below : i < history.length := List.mem_range.mp member
        exact Function.update_of_ne (by rw [holds.pos]; omega) _ _
      · rw [← holds.pos,Function.update_self]
    rw [List.length_append]
    exact put

theorem Dictionary.Holds.get (holds : dict.Holds history) (sound : dict.Sound) (valid : dist < history.length) :
    dictGet dict dist = history[history.length - 1 - dist]? := by
  rw [dictGet_sound sound (by rw [holds.full]; exact valid),back_eq sound (by rw [holds.full]; exact valid),
    if_neg (by rw [holds.pos]; omega),holds.pos]
  conv_rhs => rw [← holds.bytes]
  rw [getElem?_window,if_pos (by rw [length_window]; omega),length_window,Nat.zero_add]
  congr 2
  omega

theorem dictCopy_sound (sound : dict.Sound) {back : Nat} (inside : back < dict.finish) (fits : dict.pos + len ≤ dict.finish) :
    ∃ after, dictCopy len back dict = some after ∧ dict.Grown len after ∧ ∀ history dist, dict.Holds history →
      dist < history.length → back + dist + 1 = history.length → after.Holds (repeated dist len history) := by
  induction len generalizing back dict with
  | zero =>
    refine ⟨dict,rfl,⟨rfl,?_,rfl,rfl,rfl,rfl⟩,fun _ _ holds _ _ => holds⟩
    exact (Nat.max_eq_left sound.written).symm
  | succ len ih =>
    obtain ⟨next,put,grown,held⟩ := dictPut_sound sound (by omega) (dict.buf back)
    have turn : (if back + 1 = dict.finish then 0 else back + 1) < dict.finish := by split <;> omega
    obtain ⟨after,copied,more,kept⟩ := ih (grown.sound sound (by omega)) (by rw [grown.finish]; exact turn)
      (by rw [grown.pos,grown.finish]; omega)
    refine ⟨after,?_,?_,fun history dist holds valid place => ?_⟩
    · rw [dictCopy,read_inside sound inside]
      simp only [bind,Option.bind,put,grown.finish]
      exact copied
    · rw [Nat.add_comm]
      exact grown.trans more
    · rw [repeated_succ valid]
      have read : dict.buf back = history.get ⟨history.length - 1 - dist,by omega⟩ := by
        have found := holds.get sound valid
        rw [dictGet_sound sound (by rw [holds.full]; exact valid),back_eq sound (by rw [holds.full]; exact valid),
          if_neg (by rw [holds.pos]; omega),holds.pos,List.getElem?_eq_getElem (by omega)] at found
        have index : history.length - dist - 1 = back := by omega
        rw [index] at found
        exact Option.some.inj found
      have straight : (if back + 1 = dict.finish then 0 else back + 1) = back + 1 := by
        apply if_neg
        have pos := holds.pos
        omega
      have later := kept (history ++ [dict.buf back]) dist (held history holds)
        (by rw [List.length_append]; omega) (by rw [straight,List.length_append,List.length_singleton]; omega)
      rw [← read]
      exact later

theorem dictRepeat_sound (sound : dict.Sound) (valid : dist < dict.full)
    (space : dict.limit ≤ dict.finish) (len : Nat) :
    ∃ after, dictRepeat dict len dist = some (true,after,len - min (dict.limit - dict.pos) len) ∧
      dict.Grown (min (dict.limit - dict.pos) len) after ∧ ∀ history, dict.Holds history →
        after.Holds (repeated dist (min (dict.limit - dict.pos) len) history) := by
  have within := Nat.min_le_left (dict.limit - dict.pos) len
  have written := sound.written
  have inside := sound.inside
  have accepted := sound.size
  obtain ⟨after,copied,grown,kept⟩ := @dictCopy_sound dict (min (dict.limit - dict.pos) len) sound _
    (back_lt sound valid) (by omega)
  refine ⟨after,?_,grown,fun history holds => ?_⟩
  · rw [dictRepeat,if_neg (by omega)]
    simp only [bind,Option.bind,copied]
    rfl
  · have known := holds.full
    apply kept history dist holds (by omega)
    rw [back_eq sound valid,if_neg (by rw [holds.pos]; omega),holds.pos]
    omega

end Dictionary

section Literals

theorem and_bit (x : UInt32) : (0x100 : UInt32) &&& x = 0 ∨ (0x100 : UInt32) &&& x = 0x100 := by
  have bit : ((0x100 : UInt32) &&& x).toNat = (x.toNat.testBit 8).toNat * 2 ^ 8 := by
    rw [UInt32.toNat_and,Nat.and_comm]
    exact Nat.and_two_pow _ 8
  cases set : x.toNat.testBit 8 with
  | false =>
    left
    rw [set] at bit
    exact UInt32.toNat_inj.mp bit
  | true =>
    right
    rw [set] at bit
    exact UInt32.toNat_inj.mp bit

theorem matchedLiteralLoop_sound {coder rounds : Nat} (declared : coder < LITERAL_CODERS_MAX) {matchByte offset symbol : UInt32}
    (masked : offset = 0 ∨ offset = 0x100) (positive : 0 < symbol.toNat) (below : symbol.toNat < 0x100)
    (enough : 0x100 ≤ symbol.toNat + rounds) :
    (matchedLiteralLoop coder rounds matchByte offset symbol).Sound Slot.Declared fun _ => True := by
  induction rounds generalizing matchByte offset symbol with
  | zero => trivial
  | succ rounds ih =>
    have offset_le : offset.toNat ≤ 0x100 := by rcases masked with rfl | rfl <;> decide
    apply sound_ask
    · refine ⟨declared,?_⟩
      have bit_le : ((matchByte <<< 1) &&& offset).toNat ≤ offset.toNat := by
        rw [UInt32.toNat_and]
        exact Nat.and_le_right
      simp only [UInt32.toNat_add]
      omega
    · intro bit
      have doubled : (symbol <<< 1).toNat = 2 * symbol.toNat := by
        rw [UInt32.toNat_shiftLeft]
        change (symbol.toNat <<< 1) % 2 ^ 32 = _
        rw [Nat.shiftLeft_eq]
        omega
      obtain ⟨next,named⟩ : ∃ next, next = (symbol <<< 1) ||| (if bit then 1 else 0) := ⟨_,rfl⟩
      have grown : 2 * symbol.toNat ≤ next.toNat := by
        rw [named,UInt32.toNat_or,doubled]
        exact Nat.left_le_or
      change (if (symbol <<< 1 ||| if bit then 1 else 0) < 0x100 then _ else _ : Asking Slot UInt32).Sound _ _
      rw [← named]
      split
      · rename_i again
        refine ih ?_ (by omega) (UInt32.lt_iff_toNat_lt.mp again) (by omega)
        rcases masked with rfl | rfl
        · left
          exact UInt32.zero_and
        · exact and_bit _
      · trivial

variable {lzma : LzmaDec} {dict : Dictionary}

/-- The state of the symbols is one that the dictionary bears out. -/
structure LzmaDec.Sound (lzma : LzmaDec) (full : Nat) : Prop where
  state : lzma.state < STATES
  behind : LIT_STATES ≤ lzma.state → 0 < full
  rep0 : lzma.rep0 < max full 1
  rep1 : lzma.rep1 < max full 1
  rep2 : lzma.rep2 < max full 1
  rep3 : lzma.rep3 < max full 1
  posMask : lzma.posMask < POS_STATES_MAX

theorem LzmaDec.Sound.posState (sound : lzma.Sound dict.full) : dict.pos &&& lzma.posMask < POS_STATES_MAX :=
  Nat.lt_of_le_of_lt Nat.and_le_right sound.posMask

theorem LzmaDec.Sound.mono {full more : Nat} (sound : lzma.Sound full) (grows : full ≤ more) : lzma.Sound more := by
  have wider : max full 1 ≤ max more 1 := Nat.max_le.mpr ⟨Nat.le_trans grows (Nat.le_max_left _ _),Nat.le_max_right _ _⟩
  exact ⟨sound.state,fun behind => Nat.lt_of_lt_of_le (sound.behind behind) grows,Nat.lt_of_lt_of_le sound.rep0 wider,
    Nat.lt_of_lt_of_le sound.rep1 wider,Nat.lt_of_lt_of_le sound.rep2 wider,Nat.lt_of_lt_of_le sound.rep3 wider,sound.posMask⟩

theorem lift_sound {value : α} {result : Option α} (found : result = some value) {β : Type} {R : β → Prop}
    {rest : α → Asking Slot β} (later : (rest value).Sound Slot.Declared R) :
    (lift result >>= rest).Sound Slot.Declared R := by
  subst found
  exact later

theorem literalCoder_sound (sound : dict.Sound) :
    (literalCoder lzma dict).Sound Slot.Declared fun coder => coder < LITERAL_CODERS_MAX := by
  have written := sound.written
  unfold literalCoder
  split
  · apply lift_sound (dictGet_sound sound (by omega))
    exact Nat.lt_of_le_of_lt Nat.and_le_right (by decide)
  · have start : dict.pos = 0 := by omega
    change (dict.pos &&& lzma.literalPosMask) <<< lzma.lc < LITERAL_CODERS_MAX
    rw [start,Nat.zero_and,Nat.zero_shiftLeft]
    decide

theorem literalSymbol_sound (sound : dict.Sound) (fits : lzma.Sound dict.full) {coder : Nat}
    (declared : coder < LITERAL_CODERS_MAX) :
    (literalSymbol lzma dict coder).Sound Slot.Declared fun _ => True := by
  unfold literalSymbol
  split
  · apply (rcBittree_sound (fun symbol _ below => ?_) (by decide)).bind
    · exact fun _ _ => trivial
    · exact ⟨declared,by omega⟩
  · rename_i matched
    have behind : 0 < dict.full := fits.behind (Nat.le_of_not_lt fun below => matched (decide_eq_true below))
    have rep := fits.rep0
    apply lift_sound (dictGet_sound sound (by omega))
    exact matchedLiteralLoop_sound declared (.inr rfl) (by decide) (by decide) (by decide)

theorem lzmaLiteral_sound (sound : dict.Sound) (fits : lzma.Sound dict.full) (space : dict.pos < dict.finish) :
    (lzmaLiteral lzma dict).Sound Slot.Declared fun read =>
      read.1 = { lzma with state := lzmaStateLiteral lzma.state } ∧ dict.Grown 1 read.2 := by
  apply (literalCoder_sound sound).bind
  intro coder declared
  apply (literalSymbol_sound sound fits declared).bind
  intro symbol _
  obtain ⟨after,put,grown,_⟩ := dictPut_sound sound space symbol.toUInt8
  apply lift_sound put
  exact ⟨rfl,grown⟩

end Literals

section Turns

variable {lzma : LzmaDec} {dict : Dictionary}

/-- What a turn leaves behind it: some bytes more, or a match that has to wait as there is no history
yet, or an error. -/
def Turn.Follows (dict : Dictionary) : Turn → Prop
  | .next lzma after => lzma.Sound after.full ∧ ∃ count, 0 < count ∧ count ≤ dict.limit - dict.pos ∧ dict.Grown count after
  | .leftover lzma after len => after = dict ∧ dict.full = 0 ∧ 0 < len ∧ lzma.posMask < POS_STATES_MAX
  | .bad lzma after => after = dict ∧ lzma.posMask < POS_STATES_MAX

/-- There is space, and only where there is. -/
structure Dictionary.Open (dict : Dictionary) : Prop where
  sound : dict.Sound
  space : dict.pos < dict.limit
  limit : dict.limit ≤ dict.finish

theorem lzmaState_small (state : Nat) : lzmaStateMatch state < STATES ∧ lzmaStateLongRep state < STATES ∧
    lzmaStateShortRep state < STATES := by
  unfold lzmaStateMatch lzmaStateLongRep lzmaStateShortRep
  split <;> decide

theorem lzmaStateLiteral_small {state : Nat} (small : state < STATES) : lzmaStateLiteral state < LIT_STATES := by
  simp only [STATES,LIT_STATES] at small ⊢
  unfold lzmaStateLiteral
  split
  · decide
  · split <;> omega

theorem repeatMatch_sound (opened : dict.Open) (fits : lzma.Sound (max dict.full 1)) {len : Nat} (some : 0 < len) :
    (repeatMatch lzma dict len).Sound Slot.Declared (Turn.Follows dict) := by
  have space := opened.space
  by_cases started : 0 < dict.full
  · have rep := fits.rep0
    have valid : lzma.rep0 < dict.full := by omega
    obtain ⟨after,repeated,grown,_⟩ := dictRepeat_sound opened.sound valid opened.limit len
    apply lift_sound repeated
    refine ⟨fits.mono ?_,_,Nat.lt_min.mpr ⟨by omega,some⟩,Nat.min_le_left _ _,grown⟩
    rw [grown.full]
    exact Nat.max_le.mpr ⟨Nat.le_max_left _ _,Nat.le_trans started (Nat.le_max_left _ _)⟩
  · have empty : dict.full = 0 := by omega
    apply lift_sound (if_pos (.inl (by omega)))
    exact ⟨rfl,empty,some,fits.posMask⟩

theorem longRepeat_sound (opened : dict.Open) (fits : lzma.Sound (max dict.full 1)) {posState : Nat}
    (small : posState < POS_STATES_MAX) : (longRepeat lzma dict posState).Sound Slot.Declared (Turn.Follows dict) := by
  apply (lzmaLenDecode_sound .repLen small).bind
  intro len inside
  apply repeatMatch_sound opened
  · exact ⟨(lzmaState_small _).2.1,fun _ => Nat.lt_of_lt_of_le Nat.one_pos (Nat.le_max_right _ _),fits.rep0,fits.rep1,
      fits.rep2,fits.rep3,fits.posMask⟩
  · omega

theorem repeatedDistance_sound {full : Nat} (fits : lzma.Sound full) :
    (repeatedDistance lzma).Sound Slot.Declared fun turned => turned.Sound full := by
  have state := fits.state
  apply sound_cases
  · exact state
  · apply sound_cases
    · exact state
    · exact ⟨state,fits.behind,fits.rep3,fits.rep0,fits.rep1,fits.rep2,fits.posMask⟩
    · exact ⟨state,fits.behind,fits.rep2,fits.rep0,fits.rep1,fits.rep3,fits.posMask⟩
  · exact ⟨state,fits.behind,fits.rep1,fits.rep0,fits.rep2,fits.rep3,fits.posMask⟩

theorem repeatedMatch_sound (opened : dict.Open) (fits : lzma.Sound dict.full) {posState : Nat}
    (small : posState < POS_STATES_MAX) : (repeatedMatch lzma dict posState).Sound Slot.Declared (Turn.Follows dict) := by
  have space := opened.space
  have limit := opened.limit
  have state := fits.state
  apply sound_cases
  · exact state
  · apply (repeatedDistance_sound (fits.mono (Nat.le_max_left _ 1))).bind
    exact fun turned later => longRepeat_sound opened later small
  · apply sound_cases
    · exact ⟨state,small⟩
    · exact longRepeat_sound opened (fits.mono (Nat.le_max_left _ 1)) small
    · split
      · exact ⟨rfl,fits.posMask⟩
      · have rep := fits.rep0
        have valid : lzma.rep0 < dict.full := by omega
        obtain ⟨after,put,grown,_⟩ := dictPut_sound opened.sound (by omega) (dict.buf (dict.back lzma.rep0))
        apply lift_sound (dictGet_sound opened.sound valid)
        apply lift_sound put
        have more : dict.full ≤ after.full := grown.full ▸ Nat.le_max_left _ _
        have later := fits.mono more
        exact ⟨⟨(lzmaState_small _).2.2,fun _ => by omega,later.rep0,later.rep1,later.rep2,later.rep3,later.posMask⟩,
          1,Nat.one_pos,Nat.sub_pos_of_lt space,grown⟩

theorem normalMatch_sound (opened : dict.Open) (fits : lzma.Sound dict.full) {posState : Nat}
    (small : posState < POS_STATES_MAX) : (normalMatch lzma dict posState).Sound Slot.Declared (Turn.Follows dict) := by
  apply (lzmaLenDecode_sound .matchLen small).bind
  intro len inside
  apply (distance_sound inside.1).bind
  intro dist _
  split
  · exact ⟨rfl,fits.posMask⟩
  · rename_i valid
    have later := fits.mono (Nat.le_max_left _ 1)
    apply repeatMatch_sound opened
    · refine ⟨(lzmaState_small _).1,fun _ => Nat.lt_of_lt_of_le Nat.one_pos (Nat.le_max_right _ _),?_,later.rep0,
        later.rep1,later.rep2,later.posMask⟩
      change dist < _
      omega
    · omega

theorem lzmaDecodeTurn_sound (opened : dict.Open) (fits : lzma.Sound dict.full) :
    (lzmaDecodeTurn lzma dict).Sound Slot.Declared (Turn.Follows dict) := by
  have space := opened.space
  have limit := opened.limit
  have small := fits.posState
  apply sound_cases
  · exact ⟨fits.state,small⟩
  · apply sound_cases
    · exact fits.state
    · exact repeatedMatch_sound opened fits small
    · exact normalMatch_sound opened fits small
  · apply (lzmaLiteral_sound opened.sound fits (by omega)).bind
    rintro ⟨read,after⟩ ⟨rfl,grown⟩
    have more : dict.full ≤ after.full := grown.full ▸ Nat.le_max_left _ _
    have later := fits.mono more
    have literal := lzmaStateLiteral_small fits.state
    exact ⟨⟨Nat.lt_trans literal (by decide),fun behind => absurd literal (Nat.not_lt.mpr behind),later.rep0,later.rep1,
      later.rep2,later.rep3,later.posMask⟩,1,Nat.one_pos,Nat.sub_pos_of_lt space,grown⟩

end Turns

end SetecWizard.Core.Xz
