import SetecWizard.Imaging.LzmaRuns

/-! The symbols of LZMA on a history, in place of a dictionary. A symbol is a byte or a copy, and it
is what a turn on a dictionary that holds the history decodes, from the same answers. So the output of
a chunk is what its symbols expand to.
-/
namespace SetecWizard.Core.Xz
open SetecWizard.Library

section Symbols

/-- The row of a literal's probabilities. It takes the place and the byte before. -/
def literalRow (lzma : LzmaDec) (history : List UInt8) : Nat :=
  match history.getLast? with
  | none => 0
  | some prev => (((history.length &&& lzma.literalPosMask) <<< lzma.lc) + (prev.toNat >>> (8 - lzma.lc))) &&& (LITERAL_CODERS_MAX - 1)

def literalByte (lzma : LzmaDec) (history : List UInt8) (row : Nat) : Asking Slot UInt32 :=
  if lzmaStateIsLiteral lzma.state then do
    return UInt32.ofNat (← rcBittree (fun symbol => .literal row (symbol - 1)) 0x100)
  else do
    let matchByte ← lift history[history.length - 1 - lzma.rep0]?
    matchedLiteralLoop row 0x100 matchByte.toUInt32 0x100 1

def longCopy (lzma : LzmaDec) (posState : Nat) : Asking Slot (Token UInt8 × LzmaDec) := do
  let len ← lzmaLenDecode .repLen posState
  return (.copy lzma.rep0 len,{ lzma with state := lzmaStateLongRep lzma.state })

def repeatedCopy (lzma : LzmaDec) (posState : Nat) : Asking Slot (Token UInt8 × LzmaDec) := do
  if ← ask (.isRep0 lzma.state) then
    let lzma ← repeatedDistance lzma
    longCopy lzma posState
  else if ← ask (.isRep0Long lzma.state posState) then longCopy lzma posState
  else return (.copy lzma.rep0 1,{ lzma with state := lzmaStateShortRep lzma.state })

def normalCopy (lzma : LzmaDec) (posState : Nat) : Asking Slot (Token UInt8 × LzmaDec) := do
  let len ← lzmaLenDecode .matchLen posState
  let dist ← distance len
  return (.copy dist len,{ lzma with
    rep0 := dist
    rep1 := lzma.rep0
    rep2 := lzma.rep1
    rep3 := lzma.rep2
    state := lzmaStateMatch lzma.state })

def symbol (lzma : LzmaDec) (history : List UInt8) : Asking Slot (Token UInt8 × LzmaDec) := do
  let posState := history.length &&& lzma.posMask
  if ← ask (.isMatch lzma.state posState) then
    if ← ask (.isRep lzma.state) then repeatedCopy lzma posState else normalCopy lzma posState
  else
    let byte ← literalByte lzma history (literalRow lzma history)
    return (.literal byte.toUInt8,{ lzma with state := lzmaStateLiteral lzma.state })

end Symbols

section Turns

variable {lzma : LzmaDec} {dict : Dictionary} {history : List UInt8}

/-- A turn decodes a symbol: it puts as much of it into the dictionary as there is space for, unless it
would repeat what is not there. -/
def Turn.Decodes (dict : Dictionary) (history : List UInt8) : Turn → Token UInt8 × LzmaDec → Prop
  | .next lzma after,(token,lzma') =>
    lzma = lzma' ∧ token.Valid history ∧ after.Holds ((token.cut (dict.limit - dict.pos)).extend history)
  | .leftover _ _ _,(token,_) => ¬ token.Valid history
  | .bad _ _,(token,_) => ¬ token.Valid history

theorem literalCoder_holds (sound : dict.Sound) (holds : dict.Holds history) :
    literalCoder lzma dict = .done (literalRow lzma history) := by
  have pos := holds.pos
  have full := holds.full
  unfold literalCoder literalRow
  cases last : history.getLast? with
  | none =>
    have empty : history.length = 0 := List.length_eq_zero_iff.mpr (List.getLast?_eq_none_iff.mp last)
    rw [if_neg (by omega),pos,empty,Nat.zero_and,Nat.zero_shiftLeft]
    rfl
  | some prev =>
    have some : 0 < history.length := List.length_pos_of_ne_nil fun empty => by simp [empty] at last
    have found := holds.get sound some
    rw [Nat.sub_zero,← List.getLast?_eq_getElem?,last] at found
    rw [if_pos (.inl (by omega)),found,pos]
    rfl

theorem literalSymbol_holds (sound : dict.Sound) (fits : lzma.Sound dict.full) (holds : dict.Holds history) (row : Nat) :
    literalSymbol lzma dict row = literalByte lzma history row := by
  unfold literalSymbol literalByte
  split
  · rfl
  · rename_i matched
    have behind : 0 < dict.full := fits.behind (Nat.le_of_not_lt fun below => matched (decide_eq_true below))
    have rep := fits.rep0
    have full := holds.full
    rw [holds.get sound (by omega)]

theorem alike_cases {α β : Type} {R : α → β → Prop} {slot : Slot} {yes no : Asking Slot α} {yes' no' : Asking Slot β}
    (second : Asking.Alike R yes yes') (first : Asking.Alike R no no') :
    Asking.Alike R (ask slot >>= fun bit => if bit then yes else no) (ask slot >>= fun bit => if bit then yes' else no') := by
  apply Asking.Alike.ask
  intro bit
  cases bit with
  | false => exact first
  | true => exact second

theorem repeatMatch_alike (opened : dict.Open) (holds : dict.Holds history) (len : Nat) :
    Asking.Alike (Turn.Decodes dict history) (repeatMatch lzma dict len) (.done (.copy lzma.rep0 len,lzma)) := by
  have full := holds.full
  by_cases valid : lzma.rep0 < dict.full
  · obtain ⟨after,repeated,_,kept⟩ := dictRepeat_sound opened.sound valid opened.limit len
    rw [repeatMatch,repeated]
    exact .done ⟨rfl,by rw [Token.Valid,← full]; exact valid,kept history holds⟩
  · have refused : dictRepeat dict len lzma.rep0 = some (false,dict,len) := if_pos (.inl (by omega))
    rw [repeatMatch,refused]
    exact .done fun there : lzma.rep0 < history.length => valid (by omega)

theorem longRepeat_alike (opened : dict.Open) (holds : dict.Holds history) {posState : Nat} (small : posState < POS_STATES_MAX) :
    Asking.Alike (Turn.Decodes dict history) (longRepeat lzma dict posState) (longCopy lzma posState) := by
  apply (lzmaLenDecode_sound .repLen small).alike.bind
  rintro _ len ⟨rfl,_⟩
  exact repeatMatch_alike opened holds len

theorem repeatedMatch_alike (opened : dict.Open) (fits : lzma.Sound dict.full) (holds : dict.Holds history) {posState : Nat}
    (small : posState < POS_STATES_MAX) :
    Asking.Alike (Turn.Decodes dict history) (repeatedMatch lzma dict posState) (repeatedCopy lzma posState) := by
  have space := opened.space
  have limit := opened.limit
  have full := holds.full
  apply alike_cases
  · apply (repeatedDistance_sound fits).alike.bind
    rintro _ turned ⟨rfl,_⟩
    exact longRepeat_alike opened holds small
  · apply alike_cases
    · exact longRepeat_alike opened holds small
    · split
      · rename_i empty
        exact .done fun there : lzma.rep0 < history.length => by omega
      · have rep := fits.rep0
        have within : lzma.rep0 < history.length := by omega
        obtain ⟨after,put,_,kept⟩ := dictPut_sound opened.sound (by omega) (dict.buf (dict.back lzma.rep0))
        have read := holds.get opened.sound within
        rw [dictGet_sound opened.sound (by omega)] at read ⊢
        change Asking.Alike _ (lift (dictPut dict _) >>= _) _
        rw [put]
        refine .done ⟨rfl,within,?_⟩
        have one : min (dict.limit - dict.pos) 1 = 1 := Nat.min_eq_right (by omega)
        rw [Token.cut,one]
        change after.Holds (repeated lzma.rep0 1 history)
        rw [repeated,← read]
        exact kept history holds

theorem normalMatch_alike (opened : dict.Open) (holds : dict.Holds history) {posState : Nat} (small : posState < POS_STATES_MAX) :
    Asking.Alike (Turn.Decodes dict history) (normalMatch lzma dict posState) (normalCopy lzma posState) := by
  have full := holds.full
  have inside := opened.sound.inside
  have size := opened.sound.size
  apply (lzmaLenDecode_sound .matchLen small).alike.bind
  rintro _ len ⟨rfl,least,_⟩
  apply (distance_sound least).alike.bind
  rintro _ dist ⟨rfl,_⟩
  split
  · exact .done fun there : dist < history.length => by omega
  · exact repeatMatch_alike opened holds len

theorem lzmaDecodeTurn_alike (opened : dict.Open) (fits : lzma.Sound dict.full) (holds : dict.Holds history) :
    Asking.Alike (Turn.Decodes dict history) (lzmaDecodeTurn lzma dict) (symbol lzma history) := by
  have space := opened.space
  have limit := opened.limit
  have small := fits.posState
  rw [lzmaDecodeTurn,symbol,← holds.pos]
  apply alike_cases
  · apply alike_cases
    · exact repeatedMatch_alike opened fits holds small
    · exact normalMatch_alike opened holds small
  · rw [lzmaLiteral,literalCoder_holds opened.sound holds]
    simp only [Asking.done_bind]
    rw [literalSymbol_holds opened.sound fits holds]
    have declared : literalRow lzma history < LITERAL_CODERS_MAX := by
      have row := @literalCoder_sound lzma _ opened.sound
      rwa [literalCoder_holds opened.sound holds] at row
    have read := literalSymbol_sound opened.sound fits declared
    rw [literalSymbol_holds opened.sound fits holds] at read
    rw [Asking.bind_assoc]
    apply read.alike.bind
    rintro _ byte ⟨rfl,_⟩
    obtain ⟨after,put,_,kept⟩ := dictPut_sound opened.sound (by omega) byte.toUInt8
    rw [put]
    exact .done ⟨rfl,trivial,kept history holds⟩

end Turns

section Chunks

variable {input : Nat → UInt8} {s : XzDecLzma2} {history : List UInt8}

theorem answers_alike {α β : Type} {R : α → β → Prop} {q : Asking Slot α} {q' : Asking Slot β} (alike : q.Alike R q') {rc rc' : RcDec}
    {probs probs' : Slot → Prob} {value : α} (run : answers input q rc probs = some (value,rc',probs')) :
    ∃ other, answers input q' rc probs = some (other,rc',probs') ∧ R value other := by
  induction alike generalizing rc probs with
  | done related =>
    cases run
    exact ⟨_,rfl,related⟩
  | stray => cases run
  | ask slot _ ih =>
    rw [answers] at run ⊢
    split at run
    · rename_i declared
      rw [if_pos declared]
      exact ih _ run
    · cases run
  | toss _ ih => exact ih (rcDirectBit input rc).1 run

/-- The symbols that are decoded while there are space and input, each cut to the space that is left, up
to one that repeats what is not there. -/
def decodedTokens (input : Nat → UInt8) (inLimit : Nat) : Nat → Nat → LzmaDec → RcDec → (Slot → Prob) → List UInt8 → List (Token UInt8)
  | 0,_,_,_,_,_ => []
  | rounds + 1,space,lzma,rc,probs,history =>
    if 0 < space ∧ rc.inPos < inLimit then
      match answers input (symbol lzma history) rc probs with
      | none => []
      | some ((token,lzma),rc,probs) =>
        if token.Valid history then
          token.cut space :: decodedTokens input inLimit rounds (space - (token.cut space).length) lzma rc probs
            ((token.cut space).extend history)
        else []
    else []

theorem decodeTurns_tokens {inLimit rounds : Nat} (fits : s.lzma.Sound s.dict.full) (limited : s.dict.Limited)
    (holds : s.dict.Holds history) {done : Bool} {after : XzDecLzma2}
    (run : decodeTurns input inLimit rounds s = some (done,after)) {tokens : List (Token UInt8)}
    (decoded : decodedTokens input inLimit rounds (s.dict.limit - s.dict.pos) s.lzma s.rc s.probs history = tokens) :
    Parses history tokens ∧ after.dict.Holds (expand history tokens) := by
  induction rounds generalizing s history tokens with
  | zero =>
    cases run
    cases decoded
    exact ⟨trivial,holds⟩
  | succ rounds ih =>
    rw [decodeTurns] at run
    rw [decodedTokens] at decoded
    by_cases go : dictHasSpace s.dict ∧ s.rc.inPos < inLimit
    · have space : s.dict.pos < s.dict.limit := of_decide_eq_true go.1
      have opened : s.dict.Open := ⟨limited.sound,space,limited.limit⟩
      obtain ⟨turn,rc,probs,answered,follows⟩ := answers_sound input (lzmaDecodeTurn_sound opened fits) s.rc s.probs
      obtain ⟨⟨token,lzma'⟩,symbolled,decodes⟩ := answers_alike (lzmaDecodeTurn_alike opened fits holds) answered
      rw [if_pos go,answered] at run
      rw [if_pos ⟨Nat.sub_pos_of_lt space,go.2⟩,symbolled] at decoded
      cases turn with
      | next lzma dict =>
        obtain ⟨rfl,valid,held⟩ := decodes
        obtain ⟨fits',count,_,short,grown⟩ := follows
        have valid' := (Token.valid_cut (s.dict.limit - s.dict.pos)).mpr valid
        have size := Token.length_extend valid'
        have pos := grown.pos
        have before := holds.pos
        have later := held.pos
        have left : s.dict.limit - s.dict.pos - (token.cut (s.dict.limit - s.dict.pos)).length = dict.limit - dict.pos := by
          rw [grown.limit]
          omega
        simp only [if_pos valid,left] at decoded
        subst decoded
        obtain ⟨parses,last⟩ := @ih { s with lzma := lzma,dict := dict,rc := rc,probs := probs } _ fits'
          (limited.grown grown short) held run _ rfl
        exact ⟨⟨valid',parses⟩,last⟩
      | leftover lzma dict len =>
        obtain ⟨rfl,_⟩ := follows
        simp only [if_neg decodes] at decoded
        cases run
        cases decoded
        exact ⟨trivial,holds⟩
      | bad lzma dict =>
        obtain ⟨rfl,_⟩ := follows
        simp only [if_neg decodes] at decoded
        cases run
        cases decoded
        exact ⟨trivial,holds⟩
    · rw [if_neg go] at run
      have stop : ¬ (0 < s.dict.limit - s.dict.pos ∧ s.rc.inPos < inLimit) :=
        fun more => go ⟨decide_eq_true (Nat.lt_of_sub_pos more.1),more.2⟩
      rw [if_neg stop] at decoded
      cases run
      cases decoded
      exact ⟨trivial,holds⟩

/-- The symbols of what is left of a chunk. A match left over waits for a history. -/
def chunkTokens (s : XzDecLzma2) (b : XzBuf) (history : List UInt8) : List (Token UInt8) :=
  let space := min (s.dict.finish - history.length) s.uncompressed.toNat
  if s.matchLen > 0 then []
  else decodedTokens b.input (b.inPos + min b.available s.compressed.toNat) space space s.lzma { s.rc with inPos := b.inPos } s.probs
    history

theorem dictLimit_space {dict : Dictionary} {outMax : Nat} :
    (dictLimit dict outMax).limit - (dictLimit dict outMax).pos = min (dict.finish - dict.pos) outMax := by
  unfold dictLimit
  split
  · exact (Nat.min_eq_left ‹_›).symm
  · dsimp only
    omega

theorem lzmaDecodeLoop_tokens (ready : s.matchLen = 0 → s.lzma.Sound s.dict.full) (waiting : 0 < s.matchLen → s.dict.full = 0)
    (limited : s.dict.Limited) (holds : s.dict.Holds history) {b b' : XzBuf} {inAvail : Nat} {done : Bool} {after : XzDecLzma2}
    (loop : lzmaDecodeLoop s b inAvail = some (done,after,b')) {tokens : List (Token UInt8)}
    (decoded : (if s.matchLen > 0 then [] else decodedTokens b.input (b.inPos + inAvail) (s.dict.limit - s.dict.pos)
      (s.dict.limit - s.dict.pos) s.lzma { s.rc with inPos := b.inPos } s.probs history) = tokens) :
    Parses history tokens ∧ after.dict.Holds (expand history tokens) := by
  by_cases left : s.matchLen > 0
  · rw [lzmaDecodeLoop_waits b inAvail left (waiting left)] at loop
    rw [if_pos left] at decoded
    cases loop
    cases decoded
    exact ⟨trivial,holds⟩
  · rw [if_neg left] at decoded
    obtain ⟨done',after',turns,_⟩ := @decodeTurns_went { s with rc := { s.rc with inPos := b.inPos },matchLen := 0 } b.input
      (b.inPos + inAvail) (s.dict.limit - s.dict.pos) (ready (Nat.eq_zero_of_not_pos left)) limited rfl
    have turned := @decodeTurns_tokens b.input { s with rc := { s.rc with inPos := b.inPos },matchLen := 0 } history _ _
      (ready (Nat.eq_zero_of_not_pos left)) limited holds _ _ turns _ decoded
    rw [lzmaDecodeLoop] at loop
    dsimp only at loop
    rw [if_neg left] at loop
    simp only [bind,Option.bind,if_true,turns] at loop
    cases loop
    exact turned

theorem dictFlush_holds {dict : Dictionary} {history : List UInt8} (holds : dict.Holds history) (b : XzBuf) :
    (dictFlush dict b).2.1.out = b.out ++ history.take (b.outSize - b.out.length) := by
  have whole := take_window dict.buf 0 history.length (min (b.outSize - b.out.length) history.length) (Nat.min_le_right _ _)
  rw [holds.bytes] at whole
  unfold dictFlush
  dsimp only
  rw [holds.pos,← whole,List.take_eq_take_iff.mpr]
  omega

def Pass.buffer : Pass → XzBuf
  | .again _ b => b
  | .ret _ _ b => b

/-- As long as nothing has been flushed of a history, what a pass over a chunk puts out is what the symbols of the
chunk expand the history to, by no more than the chunk is to hold, and as much of it as there is room for. -/
theorem chunk_expands {dictMax : UInt32} (positive : 0 < dictMax) (reached : Reached dictMax true s) (running : s.sequence = .lzmaRun)
    (holds : s.dict.Holds history) (b : XzBuf) :
    ∃ pass, lzma2Pass s b = some pass ∧ ((∃ s' b', pass = .ret .dataError s' b') ∨
      Parses history (chunkTokens s b history) ∧ ((chunkTokens s b history).map Token.length).sum ≤ s.uncompressed.toNat ∧
        pass.buffer.out = b.out ++ (expand history (chunkTokens s b history)).take (b.outSize - b.out.length)) := by
  have sound := (reached.sound positive).2 rfl
  have begun := sound.begun (by rw [running]; decide)
  obtain ⟨dict,named⟩ : ∃ dict, dictLimit s.dict s.uncompressed.toNat = dict := ⟨_,rfl⟩
  have limited : dict.Limited := named ▸ dictLimit_limited (sound.dict begun) s.uncompressed.toNat
  obtain ⟨pos,full,buf,_⟩ := named ▸ @dictLimit_same s.dict s.uncompressed.toNat
  have holds' : dict.Holds history := ⟨pos.trans holds.pos,full.trans holds.full,buf ▸ holds.bytes⟩
  have space : dict.limit - dict.pos = min (s.dict.finish - history.length) s.uncompressed.toNat := by
    rw [← named,dictLimit_space,holds.pos]
  have ready (fresh : s.matchLen = 0) : s.lzma.Sound dict.full := full.symm ▸ sound.ready begun (sound.running running) fresh
  have waiting (some : 0 < s.matchLen) : dict.full = 0 := full.trans (sound.waiting some).2
  obtain ⟨done,after,loop,went⟩ := @lzmaDecodeLoop_went { s with dict := dict } b (min b.available s.compressed.toNat) limited
    sound.posMask ready waiting
  obtain ⟨tokens,decoded⟩ : ∃ tokens, chunkTokens s b history = tokens := ⟨_,rfl⟩
  rw [decoded]
  rw [chunkTokens,← space] at decoded
  obtain ⟨parses,held⟩ := @lzmaDecodeLoop_tokens { s with dict := dict } history ready waiting limited holds' _ _ _ _ _ loop _ decoded
  have size : (tokens.map Token.length).sum ≤ s.uncompressed.toNat := by
    have total := length_expand parses
    have most : after.dict.pos ≤ dict.limit := went.limit
    have least := limited.space
    rw [held.pos,total] at most
    rw [holds'.pos] at space
    omega
  have flush := dictFlush_holds held { b with inPos := after.rc.inPos }
  obtain ⟨pass,passed,_⟩ := lzma2Pass_sound sound b
  refine ⟨pass,passed,?_⟩
  rw [lzma2Pass,running] at passed
  change runPass s b = some pass at passed
  unfold runPass at passed
  simp only [named,bind,Option.bind,loop] at passed
  cases done with
  | false =>
    cases passed
    exact .inl ⟨_,_,rfl⟩
  | true =>
    right
    refine ⟨parses,size,?_⟩
    simp only [not_true_eq_false,if_false] at passed
    split at passed
    · cases passed
      exact flush
    · split at passed <;> cases passed <;> exact flush

/-- Nine times the same three bytes, as they are compressed. -/
def abcChunk : List UInt8 := [0xE0,0x00,0x1A,0x00,0x09,0x00,0x00,0x30,0x99,0xAB,0xDF,0x05,0xE9,0x75,0x00,0x00,0x00]

def abcBuf (inPos inSize : Nat) : XzBuf := ⟨fun i => abcChunk.getD i 0,inPos,inSize,[],40⟩

def Pass.fails : Pass → Bool
  | .ret .dataError _ _ => true
  | _ => false

theorem abcChunk_expands : ∃ s : XzDecLzma2, s.sequence = .lzmaRun ∧
    chunkTokens s (abcBuf 11 17) [] = [.literal 97,.literal 98,.literal 99,.copy 2 24] ∧
    ∃ pass, lzma2Pass s (abcBuf 11 17) = some pass ∧
      pass.buffer.out = [97,98,99,97,98,99,97,98,99,97,98,99,97,98,99,97,98,99,97,98,99,97,98,99,97,98,99] := by
  obtain ⟨s,_,reached,checked⟩ := @exists_reached (abcBuf 0 11) (fun s _ =>
    decide (s.sequence = .lzmaRun ∧ s.dict.pos = 0 ∧ s.dict.full = 0 ∧
      chunkTokens s (abcBuf 11 17) [] = [.literal 97,.literal 98,.literal 99,.copy 2 24] ∧
      (lzma2Pass s (abcBuf 11 17)).any Pass.fails = false)) (by decide +kernel)
  obtain ⟨running,pos,full,tokens,fine⟩ := of_decide_eq_true checked
  obtain ⟨pass,passed,result⟩ := chunk_expands (by decide) reached running (⟨pos,full,rfl⟩ : s.dict.Holds []) (abcBuf 11 17)
  rw [passed] at fine
  refine ⟨s,running,tokens,pass,passed,?_⟩
  rcases result with ⟨_,_,failed⟩ | ⟨_,_,out⟩
  · rw [failed] at fine
    cases fine
  · rw [out,tokens]
    decide

end Chunks

end SetecWizard.Core.Xz
