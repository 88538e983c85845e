import SetecWizard.Imaging.LzmaSymbols

/-! Runs of the LZMA2 decoder. From its creation on no call accesses the dictionary or a probability
outside, whatever the input is. A match that waits for a history makes it spin.
-/
namespace SetecWizard.Core.Xz
open SetecWizard.Library

section Answers

variable {α : Type} {Q : α → Prop} {q : Asking Slot α} (input : Nat → UInt8)

theorem rcNormalize_inPos (rc : RcDec) : rc.inPos ≤ (rcNormalize input rc).inPos := by
  unfold rcNormalize
  split
  · exact Nat.le_succ _
  · exact Nat.le_refl _

theorem rcBit_inPos (rc : RcDec) (prob : Prob) : rc.inPos ≤ (rcBit input rc prob).2.1.inPos := by
  unfold rcBit
  dsimp only
  split <;> exact rcNormalize_inPos input rc

theorem answers_inPos {rc rc' : RcDec} {probs probs' : Slot → Prob} {value : α}
    (run : answers input q rc probs = some (value,rc',probs')) : rc.inPos ≤ rc'.inPos := by
  induction q generalizing rc probs with
  | done value =>
    cases run
    exact Nat.le_refl _
  | stray => cases run
  | ask slot next ih =>
    rw [answers] at run
    split at run
    · exact Nat.le_trans (rcBit_inPos input rc _) (ih _ run)
    · cases run
  | toss next ih => exact Nat.le_trans (rcNormalize_inPos input rc) (@ih (rcDirectBit input rc).1 (rcDirectBit input rc).2 probs run)

theorem answers_sound (sound : q.Sound Slot.Declared Q) (rc : RcDec) (probs : Slot → Prob) :
    ∃ value rc' probs', answers input q rc probs = some (value,rc',probs') ∧ Q value := by
  induction q generalizing rc probs with
  | done value => exact ⟨value,rc,probs,rfl,sound⟩
  | stray => exact sound.elim
  | ask slot next ih =>
    rw [answers,if_pos sound.1]
    exact ih _ (sound.2 (rcBit input rc (probs slot)).1) _ _
  | toss next ih => exact ih _ (sound (rcDirectBit input rc).1) _ _

end Answers

section Loop

/-- The decoding loop leaves the chunk's own state alone. -/
structure SameChunk (s after : XzDecLzma2) : Prop where
  sequence : after.sequence = s.sequence
  control : after.control = s.control
  uncompressed : after.uncompressed = s.uncompressed
  needLzmaInit : after.needLzmaInit = s.needLzmaInit
  needDictReset : after.needDictReset = s.needDictReset

/-- What the decoding loop leaves: some bytes more, and a state that is fit to go on with, or a match
that waits for a history. -/
structure Went (s : XzDecLzma2) (done : Bool) (after : XzDecLzma2) : Prop where
  chunk : SameChunk s after
  moved : s.rc.inPos ≤ after.rc.inPos
  grown : ∃ count, s.dict.Grown count after.dict
  limit : after.dict.pos ≤ s.dict.limit
  posMask : after.lzma.posMask < POS_STATES_MAX
  ready : done = true → after.lzma.Sound after.dict.full ∧ after.matchLen = 0 ∨ after.dict.full = 0 ∧ 0 < after.matchLen

variable {s : XzDecLzma2}

/-- A dictionary as the decoding loop is given it. -/
structure Dictionary.Limited (dict : Dictionary) : Prop where
  sound : dict.Sound
  space : dict.pos ≤ dict.limit
  limit : dict.limit ≤ dict.finish

theorem Dictionary.Sound.grown_none {dict : Dictionary} (sound : dict.Sound) : dict.Grown 0 dict :=
  ⟨rfl,(Nat.max_eq_left sound.written).symm,rfl,rfl,rfl,rfl⟩

theorem Dictionary.Limited.grown {dict after : Dictionary} {count : Nat} (limited : dict.Limited) (grown : dict.Grown count after)
    (short : count ≤ dict.limit - dict.pos) : after.Limited := by
  have space := limited.space
  have limit := limited.limit
  refine ⟨grown.sound limited.sound (by omega),?_,?_⟩
  · rw [grown.pos,grown.limit]
    omega
  · rw [grown.limit,grown.finish]
    exact limit

theorem Went.refl (fits : s.lzma.Sound s.dict.full) (limited : s.dict.Limited) (fresh : s.matchLen = 0) (done : Bool) :
    Went s done s :=
  ⟨⟨rfl,rfl,rfl,rfl,rfl⟩,Nat.le_refl _,⟨0,limited.sound.grown_none⟩,limited.space,fits.posMask,fun _ => .inl ⟨fits,fresh⟩⟩

theorem decodeTurns_went (input : Nat → UInt8) (inLimit rounds : Nat) (fits : s.lzma.Sound s.dict.full)
    (limited : s.dict.Limited) (fresh : s.matchLen = 0) :
    ∃ done after, decodeTurns input inLimit rounds s = some (done,after) ∧ Went s done after := by
  induction rounds generalizing s with
  | zero => exact ⟨true,s,rfl,.refl fits limited fresh true⟩
  | succ rounds ih =>
    by_cases go : dictHasSpace s.dict ∧ s.rc.inPos < inLimit
    · have space : s.dict.pos < s.dict.limit := of_decide_eq_true go.1
      obtain ⟨turn,rc,probs,run,follows⟩ := answers_sound input
        (lzmaDecodeTurn_sound ⟨limited.sound,space,limited.limit⟩ fits) s.rc s.probs
      have moved := answers_inPos input run
      rw [decodeTurns,if_pos go,run]
      cases turn with
      | next lzma dict =>
        obtain ⟨fits',count,some,short,grown⟩ := follows
        obtain ⟨done,after,turns,went⟩ := @ih { s with lzma := lzma,dict := dict,rc := rc,probs := probs } fits'
          (limited.grown grown short) fresh
        obtain ⟨more,grown'⟩ := went.grown
        have chunk := went.chunk
        exact ⟨done,after,turns,
          ⟨chunk.sequence,chunk.control,chunk.uncompressed,chunk.needLzmaInit,chunk.needDictReset⟩,
          Nat.le_trans moved went.moved,⟨_,grown.trans grown'⟩,grown.limit ▸ went.limit,went.posMask,went.ready⟩
      | leftover lzma dict len =>
        obtain ⟨rfl,empty,some,small⟩ := follows
        exact ⟨true,_,rfl,⟨rfl,rfl,rfl,rfl,rfl⟩,moved,⟨0,limited.sound.grown_none⟩,limited.space,small,fun _ => .inr ⟨empty,some⟩⟩
      | bad lzma dict =>
        obtain ⟨rfl,small⟩ := follows
        exact ⟨false,_,rfl,⟨rfl,rfl,rfl,rfl,rfl⟩,moved,⟨0,limited.sound.grown_none⟩,limited.space,small,
          fun no => absurd no Bool.false_ne_true⟩
    · rw [decodeTurns,if_neg go]
      exact ⟨true,s,rfl,.refl fits limited fresh true⟩

theorem sub_none (x : UInt32) : x - UInt32.ofNat 0 = x := UInt32.sub_zero x

theorem lzmaDecodeLoop_waits (b : XzBuf) (inAvail : Nat) (left : 0 < s.matchLen) (empty : s.dict.full = 0) :
    lzmaDecodeLoop s b inAvail = some (true,{ s with rc := { s.rc with inPos := b.inPos } },b) := by
  rw [lzmaDecodeLoop]
  dsimp only
  rw [if_pos left,dictRepeat,if_pos (.inl (by omega))]
  simp only [bind,Option.bind,Bool.false_eq_true,if_false,Nat.sub_self]
  rw [sub_none]
  rfl

theorem lzmaDecodeLoop_went (b : XzBuf) (inAvail : Nat) (limited : s.dict.Limited) (small : s.lzma.posMask < POS_STATES_MAX)
    (ready : s.matchLen = 0 → s.lzma.Sound s.dict.full) (waiting : 0 < s.matchLen → s.dict.full = 0) :
    ∃ done after, lzmaDecodeLoop s b inAvail = some (done,after,{ b with inPos := after.rc.inPos }) ∧
      Went { s with rc := { s.rc with inPos := b.inPos } } done after := by
  by_cases left : s.matchLen > 0
  · have empty := waiting left
    refine ⟨true,{ s with rc := { s.rc with inPos := b.inPos } },lzmaDecodeLoop_waits b inAvail left empty,?_⟩
    exact ⟨⟨rfl,rfl,rfl,rfl,rfl⟩,Nat.le_refl _,⟨0,limited.sound.grown_none⟩,limited.space,small,fun _ => .inr ⟨empty,left⟩⟩
  · have none : s.matchLen = 0 := Nat.eq_zero_of_not_pos left
    obtain ⟨done,after,turns,went⟩ := @decodeTurns_went { s with rc := { s.rc with inPos := b.inPos },matchLen := 0 } b.input
      (b.inPos + inAvail) (s.dict.limit - s.dict.pos) (ready none) limited rfl
    refine ⟨done,{ after with compressed := after.compressed - UInt32.ofNat (after.rc.inPos - b.inPos) },?_,?_⟩
    · rw [lzmaDecodeLoop]
      dsimp only
      rw [if_neg left]
      simp only [bind,Option.bind,if_true,turns]
      rfl
    · have chunk := went.chunk
      exact ⟨⟨chunk.sequence,chunk.control,chunk.uncompressed,chunk.needLzmaInit,chunk.needDictReset⟩,went.moved,went.grown,
        went.limit,went.posMask,went.ready⟩

end Loop

section Passes

variable {dict : Dictionary}

theorem dictLimit_limited (sound : dict.Sound) (outMax : Nat) : (dictLimit dict outMax).Limited := by
  have written := sound.written
  have inside := sound.inside
  unfold dictLimit
  split
  · exact ⟨⟨written,inside,sound.finish,sound.narrow,sound.size⟩,by dsimp only; omega,Nat.le_refl _⟩
  · exact ⟨⟨written,inside,sound.finish,sound.narrow,sound.size⟩,by dsimp only; omega,by dsimp only; omega⟩

theorem dictLimit_same (outMax : Nat) : (dictLimit dict outMax).pos = dict.pos ∧ (dictLimit dict outMax).full = dict.full ∧
    (dictLimit dict outMax).buf = dict.buf ∧ (dictLimit dict outMax).finish = dict.finish ∧
    (dictLimit dict outMax).allocated = dict.allocated ∧ (dictLimit dict outMax).size = dict.size := by
  unfold dictLimit
  split <;> exact ⟨rfl,rfl,rfl,rfl,rfl,rfl⟩

theorem dictFlush_sound (sound : dict.Sound) (b : XzBuf) : (dictFlush dict b).1.Sound :=
  ⟨Nat.le_trans (Nat.sub_le _ _) sound.written,sound.inside,sound.finish,sound.narrow,sound.size⟩

theorem dictFlush_empty (sound : dict.Sound) (empty : dict.full = 0) (b : XzBuf) : (dictFlush dict b).2.2 = 0 := by
  have written := sound.written
  change min _ dict.pos = 0
  omega

theorem dictReset_sound (finish : dict.finish ≤ dict.allocated) (narrow : dict.finish < 2 ^ 32) (size : dict.finish ≤ dict.size) :
    (dictReset dict).Sound :=
  ⟨Nat.le_refl _,Nat.zero_le _,finish,narrow,size⟩

theorem dictUncompressed_sound (limited : dict.Limited) (b : XzBuf) (left : UInt32) :
    ∃ after b' left', dictUncompressed dict b left = some (after,b',left') ∧ after.Sound ∧ dict.full ≤ after.full ∧
      after.size = dict.size := by
  have written := limited.sound.written
  have inside := limited.sound.inside
  have finish := limited.sound.finish
  have space := limited.space
  have limit := limited.limit
  obtain ⟨copySize,named⟩ : ∃ n, n = min b.available (min left.toNat (dict.limit - dict.pos)) := ⟨_,rfl⟩
  have short : copySize ≤ dict.limit - dict.pos := by omega
  refine ⟨_,_,_,if_pos (by rw [← named]; omega),⟨Nat.le_max_right _ _,?_,finish,limited.sound.narrow,limited.sound.size⟩,
    Nat.le_max_left _ _,rfl⟩
  exact Nat.max_le.mpr ⟨inside,by rw [← named]; dsimp only; omega⟩

/-- What holds of a decoder at all times. -/
structure XzDecLzma2.Kept (s : XzDecLzma2) : Prop where
  positive : 0 < s.dict.size
  finish : s.dict.finish ≤ s.dict.allocated
  narrow : s.dict.finish < 2 ^ 32
  size : s.dict.finish ≤ s.dict.size
  posMask : s.lzma.posMask < POS_STATES_MAX

/-- What holds of a decoder between its passes. -/
structure XzDecLzma2.Sound (s : XzDecLzma2) : Prop extends s.Kept where
  dict : s.needDictReset = false → s.dict.Sound
  begun : s.sequence ≠ .control → s.needDictReset = false
  ready : s.needDictReset = false → s.needLzmaInit = false → s.matchLen = 0 → s.lzma.Sound s.dict.full
  waiting : 0 < s.matchLen → s.sequence = .lzmaRun ∧ s.dict.full = 0
  running : s.sequence = .lzmaRun → s.needLzmaInit = false
  low : s.sequence = .uncompressed1 → 0x03 ≤ s.control → s.uncompressed ≤ 0x1F0000
  middle : s.sequence = .uncompressed2 → 0x03 ≤ s.control → s.uncompressed ≤ 0x1FFF00
  left : s.sequence ∈ [.compressed0,.compressed1,.props,.lzmaPrepare,.lzmaRun] → s.uncompressed ≠ 0

def Pass.Sound : Pass → Prop
  | .again s _ => s.Sound
  | .ret code s _ => s.Kept ∧ (code ≠ .dataError → s.Sound)

theorem XzDecLzma2.Sound.returned {s : XzDecLzma2} (sound : s.Sound) (code : XzRet) (b : XzBuf) : (Pass.ret code s b).Sound :=
  ⟨sound.toKept,fun _ => sound⟩

theorem XzDecLzma2.Kept.failed {s : XzDecLzma2} (kept : s.Kept) (b : XzBuf) : (Pass.ret .dataError s b).Sound :=
  ⟨kept,fun other => absurd rfl other⟩

variable {s : XzDecLzma2} {b : XzBuf}

theorem withByte_sound (sound : s.Sound) {read : UInt8 → XzBuf → Pass} (each : ∀ byte b, (read byte b).Sound) :
    (withByte s b read).Sound := by
  unfold withByte
  split
  · exact sound.returned _ _
  · exact each _ _

theorem XzDecLzma2.Sound.fresh (sound : s.Sound) (other : s.sequence ≠ .lzmaRun) : s.matchLen = 0 :=
  Nat.eq_zero_of_not_pos fun left => other (sound.waiting left).1

theorem XzDecLzma2.Sound.started (sound : s.Sound) (control : s.sequence = .control) {after : XzDecLzma2}
    (bounds : after.dict.finish = s.dict.finish ∧ after.dict.allocated = s.dict.allocated ∧ after.dict.size = s.dict.size)
    (sequence : after.sequence = .uncompressed1) (lzma : after.lzma = s.lzma) (len : after.matchLen = s.matchLen)
    (reset : after.needDictReset = false) (dict : after.dict.Sound)
    (kept : after.needLzmaInit = false → s.needDictReset = false ∧ s.needLzmaInit = false ∧ after.dict.full = s.dict.full)
    (low : 0x03 ≤ after.control → after.uncompressed ≤ 0x1F0000) : after.Sound where
  positive := bounds.2.2 ▸ sound.positive
  finish := dict.finish
  narrow := dict.narrow
  size := dict.size
  dict _ := dict
  begun _ := reset
  posMask := lzma ▸ sound.posMask
  ready _ init fresh := by
    obtain ⟨before,prepared,full⟩ := kept init
    rw [lzma,full]
    exact sound.ready before prepared (len ▸ fresh)
  waiting left := absurd (sound.fresh (by rw [control]; decide)) (by rw [← len]; omega)
  running run := by rw [sequence] at run; cases run
  low _ large := low large
  middle run := by rw [sequence] at run; cases run
  left run := by rw [sequence] at run; exact absurd run (by decide)

theorem controlPass_sound (sound : s.Sound) (control : s.sequence = .control) (byte : UInt8) (b : XzBuf) :
    (controlPass s byte b).Sound := by
  have reset := dictReset_sound sound.finish sound.narrow sound.size
  unfold controlPass
  dsimp only
  split
  · apply XzDecLzma2.Sound.returned
    exact { sound with
      begun := fun other => absurd control other
      low := fun run => absurd (control.symm.trans run) (by decide)
      middle := fun run => absurd (control.symm.trans run) (by decide) }
  · split
    · rename_i plain
      have never (large : 0x03 ≤ byte.toUInt32) : False := absurd plain (UInt32.not_lt.mpr large)
      split
      · exact sound.started control ⟨rfl,rfl,rfl⟩ rfl rfl rfl rfl reset (fun init => Bool.noConfusion init) (fun large => (never large).elim)
      · split
        · apply XzDecLzma2.Kept.failed
          exact { sound.toKept with }
        · rename_i done
          have done : s.needDictReset = false := by simpa using done
          exact sound.started control ⟨rfl,rfl,rfl⟩ rfl rfl rfl done (sound.dict done) (fun init => ⟨done,init,rfl⟩)
            (fun large => (never large).elim)
    · split
      · apply XzDecLzma2.Kept.failed
        exact { sound.toKept with }
      · rename_i done
        have low : (byte.toUInt32 &&& 0x1F) <<< 16 ≤ 0x1F0000 := by
          rw [UInt32.le_iff_toNat_le,UInt32.toNat_shiftLeft,UInt32.toNat_and]
          have small : byte.toUInt32.toNat &&& 0x1F ≤ 0x1F := Nat.and_le_right
          change ((byte.toUInt32.toNat &&& 0x1F) <<< 16) % 2 ^ 32 ≤ 0x1F0000
          rw [Nat.shiftLeft_eq]
          omega
        by_cases full : byte.toUInt32 ≥ 0xE0
        · have lzma : byte.toUInt32 ≥ 0xA0 := UInt32.le_trans (by decide) full
          simp only [if_pos full,if_pos lzma]
          exact sound.started control ⟨rfl,rfl,rfl⟩ rfl rfl rfl rfl reset (fun init => Bool.noConfusion init) (fun _ => low)
        · have done : s.needDictReset = false := by
            simpa [UInt32.not_le.mp full] using done
          simp only [if_neg full]
          refine sound.started control ⟨rfl,rfl,rfl⟩ rfl rfl rfl done (sound.dict done) (fun init => ⟨done,?_,rfl⟩) (fun _ => low)
          dsimp only at init
          split at init
          · cases init
          · exact init

theorem XzDecLzma2.Sound.counted (sound : s.Sound) (other : s.sequence ≠ .lzmaRun) (begun : s.sequence ≠ .control)
    (compressed uncompressed : UInt32) (next : Lzma2Seq) (later : next ≠ .lzmaRun ∧ next ≠ .uncompressed1)
    (middle : next = .uncompressed2 → 0x03 ≤ s.control → uncompressed ≤ 0x1FFF00)
    (left : next ∈ [.compressed0,.compressed1,.props,.lzmaPrepare,.lzmaRun] → uncompressed ≠ 0) :
    XzDecLzma2.Sound { s with compressed := compressed,uncompressed := uncompressed,sequence := next } :=
  { sound with
    begun := fun _ => sound.begun begun
    waiting := fun some => absurd (sound.fresh other) (Nat.pos_iff_ne_zero.mp some)
    running := fun run => absurd run later.1
    low := fun run => absurd run later.2
    middle := middle
    left := left }

theorem shifted_byte (byte : UInt8) : (byte.toUInt32 <<< (8 : UInt32)).toNat = byte.toNat * 256 := by
  have small := byte.toNat_lt
  rw [UInt32.toNat_shiftLeft]
  change (byte.toNat <<< 8) % 2 ^ 32 = _
  rw [Nat.shiftLeft_eq]
  omega

theorem counted_nonzero {size : UInt32} (small : size ≤ 0x1FFF00) (byte : UInt8) : size + (byte.toUInt32 + 1) ≠ 0 := by
  have low : size.toNat ≤ 0x1FFF00 := UInt32.le_iff_toNat_le.mp small
  have width := byte.toNat_lt
  intro zero
  have none : (size + (byte.toUInt32 + 1)).toNat = 0 := congrArg UInt32.toNat zero
  rw [UInt32.toNat_add,UInt32.toNat_add] at none
  change (size.toNat + (byte.toNat + 1) % 2 ^ 32) % 2 ^ 32 = 0 at none
  omega

theorem propsPass_sound (sound : s.Sound) (props : s.sequence = .props) (byte : UInt8) (b : XzBuf) :
    (propsPass s byte b).Sound := by
  have begun := sound.begun (by rw [props]; decide)
  have fresh := sound.fresh (by rw [props]; decide)
  have left := sound.left (by rw [props]; decide)
  unfold propsPass
  dsimp only
  split
  · apply XzDecLzma2.Kept.failed
    exact { sound.toKept with }
  · rename_i small
    split
    · apply XzDecLzma2.Kept.failed
      exact { sound.toKept with }
    · have byte_lt : byte.toNat < 225 := by
        have := UInt8.not_le.mp small
        exact UInt8.lt_iff_toNat_lt.mp this
      have mask : (1 <<< (byte.toNat / 9 / 5)) - 1 < POS_STATES_MAX := by
        have bits : byte.toNat / 9 / 5 ≤ 4 := by omega
        have power : 2 ^ (byte.toNat / 9 / 5) ≤ 2 ^ 4 := Nat.pow_le_pow_right (by decide) bits
        change (1 <<< (byte.toNat / 9 / 5)) - 1 < 16
        rw [Nat.shiftLeft_eq]
        omega
      exact { sound with
        begun := fun _ => begun
        posMask := mask
        ready := fun done init fresh =>
          let fits := sound.ready done init fresh
          ⟨fits.state,fits.behind,fits.rep0,fits.rep1,fits.rep2,fits.rep3,mask⟩
        waiting := fun some => absurd fresh (Nat.pos_iff_ne_zero.mp some)
        running := fun run => Lzma2Seq.noConfusion run
        low := fun run => Lzma2Seq.noConfusion run
        middle := fun run => Lzma2Seq.noConfusion run
        left := fun _ => left }

theorem XzDecLzma2.Sound.prepared (sound : s.Sound) (prepare : s.sequence = .lzmaPrepare) {after : XzDecLzma2}
    (dict : after.dict = s.dict) (len : after.matchLen = 0) (init : after.needLzmaInit = false)
    (reset : after.needDictReset = s.needDictReset) (uncompressed : after.uncompressed = s.uncompressed)
    (next : after.sequence ≠ .uncompressed1 ∧ after.sequence ≠ .uncompressed2) (fits : after.lzma.Sound s.dict.full) :
    after.Sound where
  positive := dict ▸ sound.positive
  finish := dict ▸ sound.finish
  narrow := dict ▸ sound.narrow
  size := dict ▸ sound.size
  dict done := dict ▸ sound.dict (reset ▸ done)
  begun _ := reset.trans (sound.begun (by rw [prepare]; decide))
  posMask := fits.posMask
  ready _ _ _ := dict ▸ fits
  waiting some := absurd len (Nat.pos_iff_ne_zero.mp some)
  running _ := init
  low run := absurd run next.1
  middle run := absurd run next.2
  left _ := uncompressed ▸ sound.left (by rw [prepare]; decide)

theorem LzmaDec.sound_init {lzma : LzmaDec} (small : lzma.posMask < POS_STATES_MAX) (full : Nat) :
    LzmaDec.Sound { lzma with state := 0,rep0 := 0,rep1 := 0,rep2 := 0,rep3 := 0 } full :=
  have bound : 0 < max full 1 := Nat.lt_of_lt_of_le Nat.one_pos (Nat.le_max_right _ _)
  ⟨(by decide : 0 < STATES),fun behind => absurd behind (by decide : ¬ LIT_STATES ≤ 0),bound,bound,bound,bound,small⟩

theorem preparePass_sound (sound : s.Sound) (prepare : s.sequence = .lzmaPrepare) (b : XzBuf) : (preparePass s b).Sound := by
  have begun := sound.begun (by rw [prepare]; decide)
  have fresh := sound.fresh (by rw [prepare]; decide)
  have small := sound.posMask
  unfold preparePass
  cases init : s.needLzmaInit with
  | false =>
    have fits := sound.ready begun init fresh
    simp only [Bool.false_eq_true,if_false]
    split
    · apply XzDecLzma2.Sound.returned
      exact sound.prepared prepare rfl fresh init rfl rfl (by rw [prepare]; decide) fits
    · exact sound.prepared prepare rfl rfl init rfl rfl ⟨Lzma2Seq.noConfusion,Lzma2Seq.noConfusion⟩ fits
  | true =>
    have fits := LzmaDec.sound_init small s.dict.full
    simp only [if_true]
    split
    · apply XzDecLzma2.Sound.returned
      exact sound.prepared prepare rfl fresh rfl rfl rfl (by rw [prepare]; decide) fits
    · exact sound.prepared prepare rfl rfl rfl rfl rfl ⟨Lzma2Seq.noConfusion,Lzma2Seq.noConfusion⟩ fits

theorem XzDecLzma2.Sound.flushed (sound : s.Sound) (begun : s.sequence ≠ .control) {after : XzDecLzma2} (dict : after.dict.Sound)
    (size : after.dict.size = s.dict.size) (small : after.lzma.posMask < POS_STATES_MAX)
    (init : after.needLzmaInit = s.needLzmaInit) (reset : after.needDictReset = s.needDictReset)
    (next : after.sequence = .control ∧ after.matchLen = 0 ∨ after.sequence = s.sequence ∧ after.uncompressed ≠ 0)
    (run : s.sequence = .lzmaRun ∨ s.sequence = .copy)
    (ready : s.needLzmaInit = false → after.matchLen = 0 → after.lzma.Sound after.dict.full)
    (waiting : 0 < after.matchLen → s.sequence = .lzmaRun ∧ after.dict.full = 0) : after.Sound where
  positive := size ▸ sound.positive
  finish := dict.finish
  narrow := dict.narrow
  size := dict.size
  dict _ := dict
  begun _ := reset.trans (sound.begun begun)
  posMask := small
  ready _ prepared fresh := ready (init ▸ prepared) fresh
  waiting some := by
    rcases next with ⟨_,fresh⟩ | ⟨same,_⟩
    · omega
    · rw [same]
      exact waiting some
  running again := by
    rcases next with ⟨control,_⟩ | ⟨same,_⟩
    · rw [control] at again
      cases again
    · exact init.trans (sound.running (same ▸ again))
  low again := by
    rcases next with ⟨control,_⟩ | ⟨same,_⟩
    · exact absurd (control.symm.trans again) (by decide)
    · rcases run with run | run <;> exact absurd (run.symm.trans (same.symm.trans again)) (by decide)
  middle again := by
    rcases next with ⟨control,_⟩ | ⟨same,_⟩
    · exact absurd (control.symm.trans again) (by decide)
    · rcases run with run | run <;> exact absurd (run.symm.trans (same.symm.trans again)) (by decide)
  left again := by
    rcases next with ⟨control,_⟩ | ⟨_,some⟩
    · rw [control] at again
      exact absurd again (by decide)
    · exact some

theorem runPass_sound (sound : s.Sound) (run : s.sequence = .lzmaRun) (b : XzBuf) :
    ∃ pass, runPass s b = some pass ∧ pass.Sound := by
  have begun := sound.begun (by rw [run]; decide)
  obtain ⟨dict,named⟩ : ∃ dict, dictLimit s.dict s.uncompressed.toNat = dict := ⟨_,rfl⟩
  have limited : dict.Limited := named ▸ dictLimit_limited (sound.dict begun) s.uncompressed.toNat
  obtain ⟨_,full,_,_,_,size⟩ := named ▸ @dictLimit_same s.dict s.uncompressed.toNat
  obtain ⟨done,after,loop,went⟩ := @lzmaDecodeLoop_went { s with dict := dict } b (min b.available s.compressed.toNat) limited
    sound.posMask (fun fresh => full.symm ▸ sound.ready begun (sound.running run) fresh)
    (fun some => full.trans (sound.waiting some).2)
  have chunk := went.chunk
  obtain ⟨count,grown⟩ := went.grown
  have grown : dict.Grown count after.dict := grown
  have most : after.dict.pos ≤ dict.limit := went.limit
  have pos := grown.pos
  have limit := limited.limit
  have after_sound := grown.sound limited.sound (by omega)
  unfold runPass
  simp only [named,bind,Option.bind,loop]
  cases done with
  | false => 
    refine ⟨_,rfl,XzDecLzma2.Kept.failed ⟨?_,after_sound.finish,after_sound.narrow,after_sound.size,went.posMask⟩ _⟩
    rw [grown.size,size]
    exact sound.positive
  | true =>
    have small := went.posMask
    have ready := went.ready rfl
    have left := sound.left (by rw [run]; decide)
    have none : after.dict.full = 0 → (dictFlush after.dict { b with inPos := after.rc.inPos }).2.2 = 0 :=
      fun empty => dictFlush_empty after_sound empty _
    have flushed := dictFlush_sound after_sound { b with inPos := after.rc.inPos }
    have same : (dictFlush after.dict { b with inPos := after.rc.inPos }).1.full = after.dict.full ∧
        (dictFlush after.dict { b with inPos := after.rc.inPos }).1.size = after.dict.size := ⟨rfl,rfl⟩
    have width : after.dict.size = s.dict.size := grown.size.trans size
    generalize dictFlush after.dict { b with inPos := after.rc.inPos } = flush at flushed same none
    obtain ⟨dict',b',produced⟩ := flush
    -- a match that waits has put nothing, so that its chunk does not end
    have ended (sequence : Lzma2Seq) (next : sequence = .control ∧ after.uncompressed - UInt32.ofNat produced = 0 ∨
        sequence = s.sequence ∧ after.uncompressed - UInt32.ofNat produced ≠ 0) :
        XzDecLzma2.Sound { after with dict := dict',uncompressed := after.uncompressed - UInt32.ofNat produced,sequence := sequence } := by
      apply sound.flushed
      · rw [run]
        decide
      · exact flushed
      · exact same.2.trans width
      · exact small
      · exact chunk.needLzmaInit
      · exact chunk.needDictReset
      · refine next.imp (fun ⟨control,zero⟩ => ⟨control,?_⟩) id
        rcases ready with ⟨_,fresh⟩ | ⟨empty,_⟩
        · exact fresh
        · have nothing : produced = 0 := none empty
          have whole : after.uncompressed = s.uncompressed := chunk.uncompressed
          rw [nothing,whole] at zero
          exact absurd (by simpa using zero) left
      · exact .inl run
      · intro _ fresh
        rcases ready with ⟨fits,_⟩ | ⟨_,some⟩
        · exact same.1 ▸ fits
        · exact absurd fresh (Nat.pos_iff_ne_zero.mp some)
      · intro some
        rcases ready with ⟨_,fresh⟩ | ⟨empty,_⟩
        · exact absurd fresh (Nat.pos_iff_ne_zero.mp some)
        · exact ⟨run,same.1.trans empty⟩
    simp only [not_true_eq_false,if_false]
    split
    · rename_i zero
      exact ⟨_,rfl,ended .control (.inl ⟨rfl,zero⟩)⟩
    · rename_i some
      split
      · exact ⟨_,rfl,(ended after.sequence (.inr ⟨chunk.sequence,some⟩)).returned _ _⟩
      · exact ⟨_,rfl,ended after.sequence (.inr ⟨chunk.sequence,some⟩)⟩

theorem copyPass_sound (sound : s.Sound) (copy : s.sequence = .copy) (b : XzBuf) :
    ∃ pass, copyPass s b = some pass ∧ pass.Sound := by
  have begun := sound.begun (by rw [copy]; decide)
  have fresh := sound.fresh (by rw [copy]; decide)
  obtain ⟨dict,named⟩ : ∃ dict, dictLimit s.dict s.uncompressed.toNat = dict := ⟨_,rfl⟩
  have limited : dict.Limited := named ▸ dictLimit_limited (sound.dict begun) s.uncompressed.toNat
  obtain ⟨_,full,_,_,_,size⟩ := named ▸ @dictLimit_same s.dict s.uncompressed.toNat
  obtain ⟨after,b',left',copied,after_sound,more,width⟩ := dictUncompressed_sound limited b s.compressed
  have flushed := dictFlush_sound after_sound b'
  have same : (dictFlush after b').1.full = after.full ∧ (dictFlush after b').1.size = after.size := ⟨rfl,rfl⟩
  obtain ⟨⟨dict',b'',produced⟩,flush⟩ : ∃ flush, dictFlush after b' = flush := ⟨_,rfl⟩
  rw [flush] at flushed same
  have ended (sequence : Lzma2Seq) (next : sequence = .control ∨
      sequence = s.sequence ∧ s.uncompressed - UInt32.ofNat produced ≠ 0) :
      XzDecLzma2.Sound { s with
        dict := dict',compressed := left',uncompressed := s.uncompressed - UInt32.ofNat produced,sequence := sequence } := by
    apply sound.flushed
    · rw [copy]
      decide
    · exact flushed
    · exact same.2.trans (width.trans size)
    · exact sound.posMask
    · rfl
    · rfl
    · exact next.imp (fun control => ⟨control,fresh⟩) id
    · exact .inr copy
    · intro init _
      apply (sound.ready begun init fresh).mono
      exact Nat.le_trans (full ▸ more) (Nat.le_of_eq same.1.symm)
    · exact fun some => absurd fresh (Nat.pos_iff_ne_zero.mp some)
  unfold copyPass
  simp only [named,bind,Option.bind,copied,flush]
  split
  · exact ⟨_,rfl,ended .control (.inl rfl)⟩
  · rename_i some
    split
    · exact ⟨_,rfl,(ended s.sequence (.inr ⟨rfl,some⟩)).returned _ _⟩
    · exact ⟨_,rfl,ended s.sequence (.inr ⟨rfl,some⟩)⟩

theorem lzma2Pass_sound (sound : s.Sound) (b : XzBuf) : ∃ pass, lzma2Pass s b = some pass ∧ pass.Sound := by
  have step {pass : Pass} (holds : pass.Sound) : ∃ after, some pass = some after ∧ after.Sound := ⟨pass,rfl,holds⟩
  unfold lzma2Pass
  split
  · rename_i control
    exact step (withByte_sound sound fun byte b => controlPass_sound sound control byte b)
  · rename_i here
    apply step (withByte_sound sound fun byte b => ?_)
    apply sound.counted (by rw [here]; decide) (by rw [here]; decide) s.compressed _ .uncompressed2 (by decide)
    · intro _ large
      have low : s.uncompressed.toNat ≤ 0x1F0000 := UInt32.le_iff_toNat_le.mp (sound.low here large)
      have small := byte.toNat_lt
      rw [UInt32.le_iff_toNat_le,UInt32.toNat_add,shifted_byte]
      change _ ≤ 0x1FFF00
      omega
    · exact fun run => absurd run (by decide)
  · rename_i here
    apply step (withByte_sound sound fun byte b => ?_)
    have next := sound.counted (by rw [here]; decide) (by rw [here]; decide)
    dsimp only
    split
    · exact next _ _ .copy (by decide) (fun run => Lzma2Seq.noConfusion run) (fun run => absurd run (by decide))
    · rename_i large
      have small := sound.middle here (UInt32.not_lt.mp large)
      exact next s.compressed _ .compressed0 (by decide) (fun run => Lzma2Seq.noConfusion run)
        (fun _ => counted_nonzero small byte)
  · rename_i here
    apply step (withByte_sound sound fun byte b => ?_)
    exact sound.counted (by rw [here]; decide) (by rw [here]; decide) _ s.uncompressed .compressed1 (by decide)
      (fun run => Lzma2Seq.noConfusion run) (fun _ => sound.left (by rw [here]; decide))
  · rename_i here
    apply step (withByte_sound sound fun byte b => ?_)
    have next := sound.counted (by rw [here]; decide) (by rw [here]; decide) (s.compressed + (byte.toUInt32 + 1)) s.uncompressed
    have left := sound.left (by rw [here]; decide)
    apply next
    · split <;> decide
    · intro run
      split at run <;> cases run
    · exact fun _ => left
  · rename_i props
    exact step (withByte_sound sound fun byte b => propsPass_sound sound props byte b)
  · rename_i prepare
    exact step (preparePass_sound sound prepare b)
  · rename_i run
    exact runPass_sound sound run b
  · rename_i copy
    exact copyPass_sound sound copy b

end Passes

section Moves

/-- What a call does to the buffers: it reads on, and it appends to what is written. -/
structure XzBuf.Moved (b after : XzBuf) : Prop where
  input : after.input = b.input
  inPos : b.inPos ≤ after.inPos
  inSize : after.inSize = b.inSize
  outSize : after.outSize = b.outSize
  out : ∃ more, after.out = b.out ++ more

theorem XzBuf.Moved.refl (b : XzBuf) : b.Moved b := ⟨rfl,Nat.le_refl _,rfl,rfl,[],(List.append_nil _).symm⟩

theorem XzBuf.Moved.trans {b middle after : XzBuf} (first : b.Moved middle) (second : middle.Moved after) : b.Moved after := by
  obtain ⟨more,out⟩ := first.out
  obtain ⟨rest,last⟩ := second.out
  exact ⟨second.input.trans first.input,Nat.le_trans first.inPos second.inPos,second.inSize.trans first.inSize,
    second.outSize.trans first.outSize,more ++ rest,by rw [last,out,List.append_assoc]⟩

theorem XzBuf.moved_to (b : XzBuf) {inPos : Nat} (later : b.inPos ≤ inPos) : b.Moved { b with inPos := inPos } :=
  ⟨rfl,later,rfl,rfl,[],(List.append_nil _).symm⟩

def Pass.Moved (b : XzBuf) : Pass → Prop
  | .again _ after => b.Moved after
  | .ret _ _ after => b.Moved after

variable {s : XzDecLzma2} {b : XzBuf}

theorem withByte_moved {read : UInt8 → XzBuf → Pass} (each : ∀ byte b, (read byte b).Moved b) : (withByte s b read).Moved b := by
  have next : b.Moved { b with inPos := b.inPos + 1 } := b.moved_to (Nat.le_succ _)
  unfold withByte
  split
  · exact .refl b
  · have rest := each (b.input b.inPos) { b with inPos := b.inPos + 1 }
    generalize read (b.input b.inPos) { b with inPos := b.inPos + 1 } = pass at rest
    cases pass with
    | again s after => exact next.trans rest
    | ret code s after => exact next.trans rest

theorem decodeTurns_moved {input : Nat → UInt8} {inLimit rounds : Nat} {done : Bool} {after : XzDecLzma2}
    (run : decodeTurns input inLimit rounds s = some (done,after)) : s.rc.inPos ≤ after.rc.inPos := by
  induction rounds generalizing s with
  | zero =>
    cases run
    exact Nat.le_refl _
  | succ rounds ih =>
    rw [decodeTurns] at run
    split at run
    · cases found : answers input (lzmaDecodeTurn s.lzma s.dict) s.rc s.probs with
      | none =>
        rw [found] at run
        cases run
      | some read =>
        obtain ⟨turn,rc,probs⟩ := read
        have moved := answers_inPos input found
        rw [found] at run
        cases turn with
        | next lzma dict => exact Nat.le_trans moved (ih run)
        | leftover lzma dict len =>
          cases run
          exact moved
        | bad lzma dict =>
          cases run
          exact moved
    · cases run
      exact Nat.le_refl _

theorem lzmaDecodeLoop_moved {inAvail : Nat} {done : Bool} {after : XzDecLzma2} {b' : XzBuf}
    (run : lzmaDecodeLoop s b inAvail = some (done,after,b')) : b.Moved b' := by
  have turned {s : XzDecLzma2} {rounds : Nat} (start : s.rc.inPos = b.inPos)
      (run : ((decodeTurns b.input (b.inPos + inAvail) rounds s).bind fun turned => some (turned.1,
        { turned.2 with compressed := turned.2.compressed - UInt32.ofNat (turned.2.rc.inPos - b.inPos) },
        { b with inPos := turned.2.rc.inPos })) = some (done,after,b')) : b.Moved b' := by
    obtain ⟨⟨done,last⟩,turns,same⟩ := Option.bind_eq_some_iff.mp run
    cases same
    exact b.moved_to (start ▸ decodeTurns_moved turns)
  unfold lzmaDecodeLoop at run
  dsimp only at run
  by_cases left : s.matchLen > 0
  · rw [if_pos left] at run
    obtain ⟨⟨repeated,dict,len⟩,_,run⟩ := Option.bind_eq_some_iff.mp run
    cases repeated with
    | false =>
      cases run
      exact b.moved_to (Nat.le_refl _)
    | true => exact turned rfl run
  · rw [if_neg left] at run
    exact turned rfl run

theorem dictFlush_moved (dict : Dictionary) (b : XzBuf) : b.Moved (dictFlush dict b).2.1 :=
  ⟨rfl,Nat.le_refl _,rfl,rfl,_,rfl⟩

theorem dictUncompressed_moved {dict after : Dictionary} {b' : XzBuf} {left left' : UInt32}
    (run : dictUncompressed dict b left = some (after,b',left')) : b.Moved b' := by
  unfold dictUncompressed at run
  dsimp only at run
  split at run
  · cases run
    exact b.moved_to (Nat.le_add_right _ _)
  · cases run

theorem rcReadInit_inPos (input : Nat → UInt8) (inSize left : Nat) {rc : RcDec} {pos : Nat} (start : rc.inPos = pos) :
    pos ≤ (rcReadInit input inSize left rc).inPos := by
  induction left generalizing rc pos with
  | zero => exact Nat.le_of_eq start.symm
  | succ left ih =>
    rw [rcReadInit]
    split
    · exact Nat.le_of_eq start.symm
    · exact Nat.le_of_succ_le (ih (congrArg Nat.succ start))

theorem lzma2Pass_moved {pass : Pass} (run : lzma2Pass s b = some pass) : pass.Moved b := by
  unfold lzma2Pass at run
  split at run
  · cases run
    apply withByte_moved
    intro byte b
    unfold controlPass
    dsimp only
    repeat' split
    all_goals exact .refl b
  · cases run
    exact withByte_moved fun byte b => .refl b
  · cases run
    apply withByte_moved
    intro byte b
    dsimp only
    split <;> exact .refl b
  · cases run
    exact withByte_moved fun byte b => .refl b
  · cases run
    exact withByte_moved fun byte b => .refl b
  · cases run
    apply withByte_moved
    intro byte b
    unfold propsPass
    dsimp only
    repeat' split
    all_goals exact .refl b
  · cases run
    unfold preparePass
    dsimp only
    generalize (if s.needLzmaInit then _ else s : XzDecLzma2) = begun
    have moved : b.Moved { b with
        inPos := (rcReadInit b.input b.inSize begun.rc.initBytesLeft { begun.rc with inPos := b.inPos }).inPos } :=
      b.moved_to (rcReadInit_inPos b.input b.inSize _ (by rfl))
    split <;> exact moved
  · unfold runPass at run
    simp only [Option.bind_eq_bind,Option.bind_eq_some_iff] at run
    obtain ⟨⟨done,after,b'⟩,loop,rest⟩ := run
    have moved := lzmaDecodeLoop_moved loop
    have flushed := moved.trans (dictFlush_moved after.dict b')
    dsimp only at rest
    split at rest
    · cases rest
      exact moved
    · split at rest
      · cases rest
        exact flushed
      · split at rest <;> cases rest <;> exact flushed
  · unfold copyPass at run
    simp only [Option.bind_eq_bind,Option.bind_eq_some_iff] at run
    obtain ⟨⟨after,b',left⟩,copied,rest⟩ := run
    have flushed := (dictUncompressed_moved copied).trans (dictFlush_moved after b')
    dsimp only at rest
    split at rest
    · cases rest
      exact flushed
    · split at rest <;> cases rest <;> exact flushed

theorem xzDecLzma2Run_moved {fuel : Nat} {ret : XzRet} {after : XzDecLzma2} {b' : XzBuf}
    (run : xzDecLzma2Run fuel s b = some (.returned ret after b')) : b.Moved b' := by
  induction fuel generalizing s b with
  | zero => cases run
  | succ fuel ih =>
    rw [xzDecLzma2Run] at run
    cases passed : lzma2Pass s b with
    | none =>
      rw [passed] at run
      cases run
    | some pass =>
      have moved := lzma2Pass_moved passed
      rw [passed] at run
      cases pass with
      | again s' b'' => exact moved.trans (ih run)
      | ret code s' b'' =>
        cases run
        exact moved

end Moves

section Runs

def Called.returns {σ : Type} (code : XzRet) (check : σ → XzBuf → Bool) : Called σ → Bool
  | .strayed => false
  | .returned ret s b => decide (ret = code) && check s b

theorem exists_returned {σ : Type} {code : XzRet} {check : σ → XzBuf → Bool} {call : Option (Called σ)}
    (returns : call.any (Called.returns code check) = true) : ∃ s b, call = some (.returned code s b) ∧ check s b = true := by
  cases call with
  | none => cases returns
  | some called =>
    cases called with
    | strayed => cases returns
    | returned ret s b =>
      obtain ⟨same,holds⟩ := Bool.and_eq_true_iff.mp returns
      cases of_decide_eq_true same
      exact ⟨s,b,rfl,holds⟩

variable {s : XzDecLzma2} {b : XzBuf}

/-- A call strays nowhere, and unless it fails it leaves a decoder to go on with. -/
theorem xzDecLzma2Run_sound {fuel : Nat} (sound : s.Sound) {called : Called XzDecLzma2}
    (run : xzDecLzma2Run fuel s b = some called) :
    ∃ ret after b', called = .returned ret after b' ∧ after.Kept ∧ (ret ≠ .dataError → after.Sound) := by
  induction fuel generalizing s b with
  | zero => cases run
  | succ fuel ih =>
    obtain ⟨pass,passed,holds⟩ := lzma2Pass_sound sound b
    rw [xzDecLzma2Run,passed] at run
    cases pass with
    | again s' b' => exact ih holds run
    | ret ret s' b' =>
      cases run
      exact ⟨ret,s',b',rfl,holds⟩

/-- Between two chunks only the dictionary and the symbols matter. -/
theorem XzDecLzma2.Kept.between (kept : s.Kept) (control : s.sequence = .control) (fresh : s.matchLen = 0)
    (dict : s.needDictReset = false → s.dict.Sound) (ready : s.needDictReset = false → s.lzma.Sound s.dict.full) : s.Sound where
  toKept := kept
  dict := dict
  begun other := absurd control other
  ready done _ _ := ready done
  waiting some := absurd fresh (Nat.pos_iff_ne_zero.mp some)
  running run := absurd (control.symm.trans run) (by decide)
  low run := absurd (control.symm.trans run) (by decide)
  middle run := absurd (control.symm.trans run) (by decide)
  left run := by
    rw [control] at run
    exact absurd run (by decide)

theorem xzDecLzma2Create_sound {dictMax : UInt32} (positive : 0 < dictMax) : (xzDecLzma2Create dictMax).Sound := by
  apply XzDecLzma2.Kept.between
  · exact ⟨UInt32.lt_iff_toNat_lt.mp positive,Nat.le_refl _,Nat.two_pow_pos 32,Nat.zero_le _,Nat.two_pow_pos 4⟩
  · rfl
  · rfl
  · exact fun _ => ⟨Nat.le_refl _,Nat.le_refl _,Nat.le_refl _,Nat.two_pow_pos 32,Nat.zero_le _⟩
  · exact fun _ => @LzmaDec.sound_init {} (Nat.two_pow_pos 4) 0

theorem dictSize_narrow {props : UInt8} (small : ¬ props > 40) :
    (if props = 40 then 0xFFFFFFFF else (2 + (props.toNat &&& 1)) <<< (props.toNat / 2 + 11)) < 2 ^ 32 := by
  split
  · decide
  · rename_i other
    have below : props.toNat ≤ 39 := by
      have most := UInt8.le_iff_toNat_le.mp (UInt8.not_lt.mp small)
      have apart : props.toNat ≠ 40 := fun same => other (UInt8.toNat_inj.mp same)
      change props.toNat ≤ 40 at most
      omega
    have odd : props.toNat &&& 1 ≤ 1 := Nat.and_le_right
    have power : 2 ^ (props.toNat / 2 + 11) ≤ 2 ^ 30 := Nat.pow_le_pow_right (by decide) (by omega)
    have scaled := Nat.mul_le_mul (by omega : 2 + (props.toNat &&& 1) ≤ 3) power
    rw [Nat.shiftLeft_eq]
    omega

theorem xzDecLzma2Reset_sound (kept : s.Kept) {memory : Nat → UInt8} {props : UInt8} {after : XzDecLzma2}
    (reset : xzDecLzma2Reset memory s props = (.ok,after)) : after.Sound := by
  unfold xzDecLzma2Reset at reset
  split at reset
  · cases reset
  · rename_i small
    have narrow := dictSize_narrow small
    generalize (if props = 40 then 0xFFFFFFFF else (2 + (props.toNat &&& 1)) <<< (props.toNat / 2 + 11)) = dictSize
      at reset narrow
    dsimp only at reset
    split at reset
    · cases reset
    · rename_i limited
      have positive := kept.positive
      have size : dictSize ≤ s.dict.size := Nat.le_of_not_lt fun large => limited ⟨positive,large⟩
      obtain ⟨dict,named⟩ : ∃ dict, dict =
          (if s.dict.allocated < dictSize then { s.dict with buf := memory,allocated := dictSize } else s.dict) := ⟨_,rfl⟩
      have enough : dictSize ≤ dict.allocated := by
        subst named
        split
        · exact Nat.le_refl _
        · exact Nat.le_of_not_lt ‹_›
      have same : dict.size = s.dict.size := by
        subst named
        split <;> rfl
      rw [← named] at reset
      obtain rfl := (Prod.mk.inj reset).2
      apply XzDecLzma2.Kept.between
      · exact ⟨same ▸ positive,enough,narrow,same ▸ size,kept.posMask⟩
      · rfl
      · rfl
      · exact fun done => Bool.noConfusion done
      · exact fun done => Bool.noConfusion done

/-- The decoders that calls lead to, in any order, and whether they may be run: not after an error in
the data, until the next reset. -/
inductive Reached (dictMax : UInt32) : Bool → XzDecLzma2 → Prop where
  | create : Reached dictMax true (xzDecLzma2Create dictMax)
  | reset {fit : Bool} {s after : XzDecLzma2} {memory : Nat → UInt8} {props : UInt8} (before : Reached dictMax fit s)
      (call : xzDecLzma2Reset memory s props = (.ok,after)) : Reached dictMax true after
  | run {s after : XzDecLzma2} {b b' : XzBuf} {fuel : Nat} {ret : XzRet} (before : Reached dictMax true s)
      (call : xzDecLzma2Run fuel s b = some (.returned ret after b')) : Reached dictMax (ret ≠ .dataError) after

/-- The start of a chunk that holds one byte, and whose first symbol repeats a match. -/
def sampleChunk : List UInt8 :=
  [0xE0,0x00,0x00,0x00,0x40,0x5D,0x00,0xFF,0xFF,0xFF,0xFE,0xFF,0xFF,0xFF,0xFF,0xFF,0xFF,0xFF,0xFF,0xFF]

def sampleBuf (inSize outSize : Nat) : XzBuf := ⟨fun i => sampleChunk.getD i 0,0,inSize,[],outSize⟩

def sampleDecoder : XzDecLzma2 := (xzDecLzma2Reset (fun _ => 0) (xzDecLzma2Create 67108864) 0).2

theorem sampleDecoder_reached : Reached 67108864 true sampleDecoder := .reset .create (Prod.ext (by decide) rfl)

theorem exists_reached {b : XzBuf} {check : XzDecLzma2 → XzBuf → Bool}
    (returns : (xzDecLzma2Run 20 sampleDecoder b).any (Called.returns .ok check) = true) :
    ∃ s b, Reached 67108864 true s ∧ check s b = true := by
  obtain ⟨s,b,call,holds⟩ := exists_returned returns
  exact ⟨s,b,.run sampleDecoder_reached call,holds⟩

theorem Reached.sound {dictMax : UInt32} (positive : 0 < dictMax) {fit : Bool} (reached : Reached dictMax fit s) :
    s.Kept ∧ (fit = true → s.Sound) := by
  induction reached with
  | create =>
    have sound := xzDecLzma2Create_sound positive
    exact ⟨sound.toKept,fun _ => sound⟩
  | reset before call ih =>
    have sound := xzDecLzma2Reset_sound ih.1 call
    exact ⟨sound.toKept,fun _ => sound⟩
  | run before call ih =>
    obtain ⟨ret,after,b',same,kept,sound⟩ := xzDecLzma2Run_sound (ih.2 rfl) call
    cases same
    exact ⟨kept,fun fit => sound (of_decide_eq_true fit)⟩

/-- Whatever the input is, and however it is cut, no index is outside of its array. -/
theorem reached_never_strays {dictMax : UInt32} (positive : 0 < dictMax) (reached : Reached dictMax true s) (b : XzBuf) (fuel : Nat) :
    xzDecLzma2Run fuel s b ≠ some .strayed := by
  intro strayed
  obtain ⟨_,_,_,same,_⟩ := xzDecLzma2Run_sound ((reached.sound positive).2 rfl) strayed
  cases same

theorem sample_never_strays : xzDecLzma2Run 20 sampleDecoder (sampleBuf 20 0) ≠ some .strayed :=
  reached_never_strays (by decide) sampleDecoder_reached _ _

theorem runPass_waits (sound : s.Sound) (left : 0 < s.matchLen) (b : XzBuf) : ∃ after : XzDecLzma2, after.matchLen = s.matchLen ∧
    after.compressed = s.compressed ∧ runPass s b = some (if b.out.length = b.outSize ∨ b.inPos = b.inSize ∧ s.compressed > 0 then
      .ret .ok after b else .again after b) := by
  obtain ⟨running,empty⟩ := sound.waiting left
  have begun := sound.begun (by rw [running]; decide)
  have written := (sound.dict begun).written
  have some := sound.left (by rw [running]; decide)
  obtain ⟨dict,named⟩ : ∃ dict, dictLimit s.dict s.uncompressed.toNat = dict := ⟨_,rfl⟩
  obtain ⟨pos,full,_⟩ := named ▸ @dictLimit_same s.dict s.uncompressed.toNat
  have loop := @lzmaDecodeLoop_waits { s with dict := dict } b (min b.available s.compressed.toNat) left (full.trans empty)
  have none : dict.pos = 0 := by omega
  obtain ⟨flushed,flush⟩ : ∃ flushed, dictFlush dict b = (flushed,b,0) := by
    unfold dictFlush
    dsimp only
    rw [none,Nat.min_zero]
    refine ⟨_,Prod.ext rfl (Prod.ext ?_ rfl)⟩
    exact congrArg (fun out => { b with out := out }) (List.append_nil _)
  refine ⟨{ s with dict := flushed,rc := { s.rc with inPos := b.inPos },uncompressed := s.uncompressed - UInt32.ofNat 0 },rfl,rfl,?_⟩
  unfold runPass
  simp only [named,bind,Option.bind,loop,flush,not_true_eq_false,if_false]
  rw [if_neg (by rw [sub_none]; exact some)]
  split <;> rfl

/-- A match that is to be repeated where there is no history: the call returns only if there is no room for output,
or if the input is at its end with more of the chunk to come. -/
theorem waiting_match_returns_iff {dictMax : UInt32} (positive : 0 < dictMax) (reached : Reached dictMax true s)
    (left : 0 < s.matchLen) (b : XzBuf) :
    (∃ fuel called, xzDecLzma2Run fuel s b = some called) ↔
      b.out.length = b.outSize ∨ b.inPos = b.inSize ∧ s.compressed > 0 := by
  have sound := (reached.sound positive).2 rfl
  have pass {s : XzDecLzma2} (sound : s.Sound) (left : 0 < s.matchLen) : lzma2Pass s b = runPass s b := by
    rw [lzma2Pass,(sound.waiting left).1]
  constructor
  · rintro ⟨fuel,called,run⟩
    by_contra stuck
    clear reached
    induction fuel generalizing s with
    | zero => cases run
    | succ fuel ih =>
      obtain ⟨after,len,compressed,waits⟩ := runPass_waits sound left b
      obtain ⟨next,passed,holds⟩ := lzma2Pass_sound sound b
      rw [pass sound left,waits,if_neg stuck] at passed
      cases passed
      rw [xzDecLzma2Run,pass sound left,waits,if_neg stuck] at run
      exact ih (len ▸ left) holds run (compressed ▸ stuck)
  · intro ends
    obtain ⟨after,_,_,waits⟩ := runPass_waits sound left b
    refine ⟨1,.returned .ok after b,?_⟩
    rw [xzDecLzma2Run,pass sound left,waits,if_pos ends]

theorem sample_stuck : ∃ s, Reached 67108864 true s ∧ ¬ ∃ fuel called, xzDecLzma2Run fuel s (sampleBuf 20 10) = some called := by
  obtain ⟨s,_,reached,checked⟩ := @exists_reached (sampleBuf 20 0) (fun s _ => decide (0 < s.matchLen)) (by decide +kernel)
  refine ⟨s,reached,fun returns => ?_⟩
  rcases (waiting_match_returns_iff (by decide) reached (of_decide_eq_true checked) _).mp returns with full | ⟨last,_⟩
  · exact absurd full (by decide)
  · exact absurd last (by decide)

end Runs

end SetecWizard.Core.Xz
