import SetecWizard.Library.Block
import SetecWizard.Library.Compression

/-! The LZMA2 decoder of xz-embedded in the mode `XZ_DYNALLOC`: the range decoder, the dictionary,
the symbols and the chunks. Memory is a store; what lies behind the input buffer is part of it. The
decoder functions ask for their bits, `answers` has the range decoder answer, and an index outside
of an array goes astray. Allocation does not fail.
-/
namespace SetecWizard.Core.Xz
open SetecWizard.Library

def RC_SHIFT_BITS : UInt32 := 8
def RC_TOP_VALUE : UInt32 := (1 : UInt32) <<< (24 : UInt32)
def RC_BIT_MODEL_TOTAL_BITS : UInt32 := 11
def RC_BIT_MODEL_TOTAL : Nat := 1 <<< 11
def RC_MOVE_BITS : Nat := 5
def POS_STATES_MAX : Nat := 1 <<< 4
def STATES : Nat := 12
def LIT_STATES : Nat := 7
def MATCH_LEN_MIN : Nat := 2
def LEN_LOW_SYMBOLS : Nat := 1 <<< 3
def LEN_MID_SYMBOLS : Nat := 1 <<< 3
def LEN_HIGH_SYMBOLS : Nat := 1 <<< 8
def DIST_STATES : Nat := 4
def DIST_SLOTS : Nat := 1 <<< 6
def DIST_MODEL_START : Nat := 4
def DIST_MODEL_END : Nat := 14
def FULL_DISTANCES : Nat := 1 <<< (DIST_MODEL_END / 2)
def ALIGN_BITS : Nat := 4
def ALIGN_SIZE : Nat := 1 <<< ALIGN_BITS
def LITERAL_CODERS_MAX : Nat := 1 <<< 4

/-- A probability variable. A reset sets them all to a half, and no adaptation leaves the range. -/
structure Prob where
  val : Nat
  lower : 31 ≤ val
  upper : val ≤ 2017
deriving DecidableEq

namespace Prob

def initial : Prob := ⟨RC_BIT_MODEL_TOTAL / 2,by decide,by decide⟩

/-- `*prob += (RC_BIT_MODEL_TOTAL - *prob) >> RC_MOVE_BITS`. -/
def raised (prob : Prob) : Prob where
  val := prob.val + ((RC_BIT_MODEL_TOTAL - prob.val) >>> RC_MOVE_BITS)
  lower := Nat.le_add_right_of_le prob.lower
  upper := by
    have := prob.upper
    simp only [RC_BIT_MODEL_TOTAL,RC_MOVE_BITS,Nat.shiftRight_eq_div_pow]
    omega

/-- `*prob -= *prob >> RC_MOVE_BITS`. -/
def lowered (prob : Prob) : Prob where
  val := prob.val - (prob.val >>> RC_MOVE_BITS)
  lower := by
    have := prob.lower
    simp only [RC_MOVE_BITS,Nat.shiftRight_eq_div_pow]
    omega
  upper := Nat.le_trans (Nat.sub_le _ _) prob.upper

end Prob

inductive LenCoder where
  | matchLen
  | repLen
deriving DecidableEq

/-- The probability variables of `struct lzma_dec`, by array and index. -/
inductive Slot where
  | lenChoice (coder : LenCoder)
  | lenChoice2 (coder : LenCoder)
  | lenLow (coder : LenCoder) (posState i : Nat)
  | lenMid (coder : LenCoder) (posState i : Nat)
  | lenHigh (coder : LenCoder) (i : Nat)
  | isMatch (state posState : Nat)
  | isRep (state : Nat)
  | isRep0 (state : Nat)
  | isRep1 (state : Nat)
  | isRep2 (state : Nat)
  | isRep0Long (state posState : Nat)
  | distSlot (distState i : Nat)
  | distSpecial (i : Nat)
  | distAlign (i : Nat)
  | literal (coder i : Nat)
deriving DecidableEq

def Slot.Declared : Slot → Prop
  | .lenChoice _ | .lenChoice2 _ => True
  | .lenLow _ posState i => posState < POS_STATES_MAX ∧ i < LEN_LOW_SYMBOLS
  | .lenMid _ posState i => posState < POS_STATES_MAX ∧ i < LEN_MID_SYMBOLS
  | .lenHigh _ i => i < LEN_HIGH_SYMBOLS
  | .isMatch state posState | .isRep0Long state posState => state < STATES ∧ posState < POS_STATES_MAX
  | .isRep state | .isRep0 state | .isRep1 state | .isRep2 state => state < STATES
  | .distSlot distState i => distState < DIST_STATES ∧ i < DIST_SLOTS
  | .distSpecial i => i < FULL_DISTANCES - DIST_MODEL_END
  | .distAlign i => i < ALIGN_SIZE
  | .literal coder i => coder < LITERAL_CODERS_MAX ∧ i < 0x300

instance : DecidablePred Slot.Declared := fun slot =>
  match slot with
  | .lenChoice _ | .lenChoice2 _ => inferInstanceAs (Decidable True)
  | .lenLow _ _ _ | .lenMid _ _ _ | .isMatch _ _ | .isRep0Long _ _ | .distSlot _ _ | .literal _ _ =>
    inferInstanceAs (Decidable (_ ∧ _))
  | .lenHigh _ _ | .isRep _ | .isRep0 _ | .isRep1 _ | .isRep2 _ | .distSpecial _ | .distAlign _ =>
    inferInstanceAs (Decidable (_ < _))

section RangeDecoder

structure RcDec where
  range : UInt32
  code : UInt32
  initBytesLeft : Nat
  inPos : Nat
deriving DecidableEq

def rcReset (rc : RcDec) : RcDec := { rc with range := 0xFFFFFFFF,code := 0,initBytesLeft := 5 }

variable (input : Nat → UInt8)

def rcNormalize (rc : RcDec) : RcDec :=
  if rc.range < RC_TOP_VALUE then
    { rc with
      range := rc.range <<< RC_SHIFT_BITS
      code := (rc.code <<< RC_SHIFT_BITS) ||| (input rc.inPos).toUInt32
      inPos := rc.inPos + 1 }
  else rc

def rcBit (rc : RcDec) (prob : Prob) : Bool × RcDec × Prob :=
  let rc := rcNormalize input rc
  let bound := (rc.range >>> RC_BIT_MODEL_TOTAL_BITS) * UInt32.ofNat prob.val
  if rc.code < bound then (false,{ rc with range := bound },prob.raised)
  else (true,{ rc with range := rc.range - bound,code := rc.code - bound },prob.lowered)

/-- A round of `rc_direct`: the sign of the difference, and the state with its correction. -/
def rcDirectBit (rc : RcDec) : Bool × RcDec :=
  let rc := rcNormalize input rc
  let range := rc.range >>> 1
  let code := rc.code - range
  (code >>> 31 = 0,{ rc with range := range,code := code + (range &&& (code >>> 31)) })

def answers {α : Type} : Asking Slot α → RcDec → (Slot → Prob) → Option (α × RcDec × (Slot → Prob))
  | .done value,rc,probs => some (value,rc,probs)
  | .stray,_,_ => none
  | .ask slot next,rc,probs =>
    if slot.Declared then
      match rcBit input rc (probs slot) with
      | (bit,rc,prob) => answers (next bit) rc (Function.update probs slot prob)
    else none
  | .toss next,rc,probs =>
    match rcDirectBit input rc with
    | (bit,rc) => answers (next bit) rc probs

def ask (slot : Slot) : Asking Slot Bool := .ask slot .done

def toss : Asking Slot Bool := .toss .done

def rcBittreeLoop (probs : Nat → Slot) (limit : Nat) : Nat → Nat → Asking Slot Nat
  | 0,symbol => pure symbol
  | rounds + 1,symbol => do
    let bit ← ask (probs symbol)
    let symbol := if bit then (symbol <<< 1) + 1 else symbol <<< 1
    if symbol < limit then rcBittreeLoop probs limit rounds symbol else return symbol

def rcBittree (probs : Nat → Slot) (limit : Nat) : Asking Slot Nat := rcBittreeLoop probs limit limit 1

def rcBittreeReverseLoop (probs : Nat → Slot) : Nat → Nat → Nat → Nat → Asking Slot Nat
  | 0,_,_,result => pure result
  | left + 1,i,symbol,result => do
    if ← ask (probs symbol) then rcBittreeReverseLoop probs left (i + 1) ((symbol <<< 1) + 1) (result ||| (1 <<< i))
    else rcBittreeReverseLoop probs left (i + 1) (symbol <<< 1) result

def rcBittreeReverse (probs : Nat → Slot) (bits : Nat) : Asking Slot Nat := rcBittreeReverseLoop probs bits 0 1 0

/-- `result = (result << 1) + (rc->code >> 31) + 1`. -/
def rcDirect : Nat → Nat → Asking Slot Nat
  | 0,result => pure result
  | count + 1,result => do
    let bit ← toss
    rcDirect count ((result <<< 1) + (if bit then 0 else 1) + 1)

end RangeDecoder

section Dictionary

structure Dictionary where
  buf : Nat → UInt8 := fun _ => 0
  pos : Nat := 0
  full : Nat := 0
  limit : Nat := 0
  finish : Nat := 0
  size : Nat := 0
  allocated : Nat := 0

structure XzBuf where
  input : Nat → UInt8
  inPos : Nat
  inSize : Nat
  out : List UInt8
  outSize : Nat

/-- `b->in_size - b->in_pos`, in 64 bits. -/
def XzBuf.available (b : XzBuf) : Nat := (b.inSize + (2 ^ 64 - b.inPos)) % 2 ^ 64

variable (dict : Dictionary)

def dictReset : Dictionary := { dict with pos := 0,full := 0,limit := dict.finish }

def dictLimit (outMax : Nat) : Dictionary :=
  if dict.finish - dict.pos ≤ outMax then { dict with limit := dict.finish }
  else { dict with limit := dict.pos + outMax }

def dictHasSpace : Bool := dict.pos < dict.limit

def Dictionary.read (offset : Nat) : Option UInt8 :=
  if offset < dict.allocated then some (dict.buf offset) else none

/-- `pos - dist - 1`, with a turn around the buffer, in 64 bits. -/
def Dictionary.back (dist : Nat) : Nat :=
  (dict.pos + (2 ^ 64 - dist - 1) + (if dict.pos ≤ dist then dict.finish else 0)) % 2 ^ 64

def dictGet (dist : Nat) : Option UInt8 := dict.read (dict.back dist)

def dictPut (byte : UInt8) : Option Dictionary :=
  if dict.pos < dict.allocated then
    some { dict with buf := Function.update dict.buf dict.pos byte,pos := dict.pos + 1,full := max dict.full (dict.pos + 1) }
  else none

def dictCopy : Nat → Nat → Dictionary → Option Dictionary
  | 0,_,dict => some dict
  | left + 1,back,dict => do
    let dict ← dictPut dict (← dict.read back)
    dictCopy left (if back + 1 = dict.finish then 0 else back + 1) dict

/-- Whether the distance is accepted, the dictionary and the length that is left. -/
def dictRepeat (len dist : Nat) : Option (Bool × Dictionary × Nat) :=
  if dist ≥ dict.full ∨ dist ≥ dict.size then some (false,dict,len)
  else do
    let left := min (dict.limit - dict.pos) len
    return (true,← dictCopy left (dict.back dist) dict,len - left)

def dictUncompressed (b : XzBuf) (left : UInt32) : Option (Dictionary × XzBuf × UInt32) :=
  let copySize := min b.available (min left.toNat (dict.limit - dict.pos))
  if dict.pos + copySize ≤ dict.allocated then
    some ({ dict with
      buf := patch dict.buf dict.pos (window b.input b.inPos copySize)
      pos := dict.pos + copySize
      full := max dict.full (dict.pos + copySize) },
      { b with inPos := b.inPos + copySize },left - UInt32.ofNat copySize)
  else none

def dictFlush (b : XzBuf) : Dictionary × XzBuf × Nat :=
  let copySize := min (b.outSize - b.out.length) dict.pos
  ({ dict with
    buf := if copySize < dict.pos then patch dict.buf 0 (window dict.buf copySize (dict.pos - copySize)) else dict.buf
    pos := dict.pos - copySize },
    { b with out := b.out ++ window dict.buf 0 copySize },copySize)

end Dictionary

section Symbols

/-- The state of `struct lzma_dec` next to the range decoder and the probabilities. -/
structure LzmaDec where
  state : Nat := 0
  rep0 : Nat := 0
  rep1 : Nat := 0
  rep2 : Nat := 0
  rep3 : Nat := 0
  lc : Nat := 0
  literalPosMask : Nat := 0
  posMask : Nat := 0
deriving DecidableEq

def lzmaStateIsLiteral (state : Nat) : Bool := state < LIT_STATES

def lzmaStateLiteral (state : Nat) : Nat := if state ≤ 3 then 0 else if state ≤ 9 then state - 3 else state - 6

def lzmaStateMatch (state : Nat) : Nat := if state < LIT_STATES then 7 else 10

def lzmaStateLongRep (state : Nat) : Nat := if state < LIT_STATES then 8 else 11

def lzmaStateShortRep (state : Nat) : Nat := if state < LIT_STATES then 9 else 11

def lzmaGetDistState (len : Nat) : Nat := if len < DIST_STATES + MATCH_LEN_MIN then len - MATCH_LEN_MIN else DIST_STATES - 1

def lift {α : Type} : Option α → Asking Slot α
  | none => .stray
  | some value => .done value

def matchedLiteralLoop (coder : Nat) : Nat → UInt32 → UInt32 → UInt32 → Asking Slot UInt32
  | 0,_,_,symbol => pure symbol
  | rounds + 1,matchByte,offset,symbol => do
    let matchByte := matchByte <<< 1
    let matchBit := matchByte &&& offset
    let bit ← ask (.literal coder (offset + matchBit + symbol).toNat)
    let symbol := (symbol <<< 1) ||| (if bit then 1 else 0)
    let offset := offset &&& (~~~(matchByte ^^^ (if bit then ~~~0 else 0)) &&& 0x100)
    if symbol < 0x100 then matchedLiteralLoop coder rounds matchByte offset symbol else return symbol

/-- The row of the probabilities of a literal, by its position and the byte in front of it. -/
def literalCoder (lzma : LzmaDec) (dict : Dictionary) : Asking Slot Nat :=
  let literalPos := dict.pos &&& lzma.literalPosMask
  if dict.pos > 0 ∨ dict.full > 0 then do
    let prev ← lift (dictGet dict 0)
    return ((literalPos <<< lzma.lc) + (prev.toNat >>> (8 - lzma.lc))) &&& (LITERAL_CODERS_MAX - 1)
  else pure (literalPos <<< lzma.lc)

def literalSymbol (lzma : LzmaDec) (dict : Dictionary) (coder : Nat) : Asking Slot UInt32 :=
  if lzmaStateIsLiteral lzma.state then do
    return UInt32.ofNat (← rcBittree (fun symbol => .literal coder (symbol - 1)) 0x100)
  else do
    let matchByte ← lift (dictGet dict lzma.rep0)
    matchedLiteralLoop coder 0x100 matchByte.toUInt32 0x100 1

def lzmaLiteral (lzma : LzmaDec) (dict : Dictionary) : Asking Slot (LzmaDec × Dictionary) := do
  let coder ← literalCoder lzma dict
  let symbol ← literalSymbol lzma dict coder
  let dict ← lift (dictPut dict symbol.toUInt8)
  return ({ lzma with state := lzmaStateLiteral lzma.state },dict)

def lzmaLenDecode (coder : LenCoder) (posState : Nat) : Asking Slot Nat := do
  if ← ask (.lenChoice coder) then
    if ← ask (.lenChoice2 coder) then
      let symbol ← rcBittree (fun symbol => .lenHigh coder (symbol - 1)) LEN_HIGH_SYMBOLS
      return symbol - LEN_HIGH_SYMBOLS + MATCH_LEN_MIN + LEN_LOW_SYMBOLS + LEN_MID_SYMBOLS
    else
      let symbol ← rcBittree (fun symbol => .lenMid coder posState (symbol - 1)) LEN_MID_SYMBOLS
      return symbol - LEN_MID_SYMBOLS + MATCH_LEN_MIN + LEN_LOW_SYMBOLS
  else
    let symbol ← rcBittree (fun symbol => .lenLow coder posState (symbol - 1)) LEN_LOW_SYMBOLS
    return symbol - LEN_LOW_SYMBOLS + MATCH_LEN_MIN

/-- A turn of the decoding loop goes on, ends the loop with a length left over, or fails. -/
inductive Turn where
  | next (lzma : LzmaDec) (dict : Dictionary)
  | leftover (lzma : LzmaDec) (dict : Dictionary) (len : Nat)
  | bad (lzma : LzmaDec) (dict : Dictionary)

def repeatMatch (lzma : LzmaDec) (dict : Dictionary) (len : Nat) : Asking Slot Turn := do
  match ← lift (dictRepeat dict len lzma.rep0) with
  | (true,dict,_) => return .next lzma dict
  | (false,dict,len) => return .leftover lzma dict len

def repeatedDistance (lzma : LzmaDec) : Asking Slot LzmaDec := do
  if ← ask (.isRep1 lzma.state) then
    if ← ask (.isRep2 lzma.state) then
      return { lzma with rep0 := lzma.rep3,rep1 := lzma.rep0,rep2 := lzma.rep1,rep3 := lzma.rep2 }
    else return { lzma with rep0 := lzma.rep2,rep1 := lzma.rep0,rep2 := lzma.rep1 }
  else return { lzma with rep0 := lzma.rep1,rep1 := lzma.rep0 }

def longRepeat (lzma : LzmaDec) (dict : Dictionary) (posState : Nat) : Asking Slot Turn := do
  let len ← lzmaLenDecode .repLen posState
  repeatMatch { lzma with state := lzmaStateLongRep lzma.state } dict len

def repeatedMatch (lzma : LzmaDec) (dict : Dictionary) (posState : Nat) : Asking Slot Turn := do
  if ← ask (.isRep0 lzma.state) then
    let lzma ← repeatedDistance lzma
    longRepeat lzma dict posState
  else if ← ask (.isRep0Long lzma.state posState) then longRepeat lzma dict posState
  else if dict.full = 0 then return .bad lzma dict
  else
    let dict ← lift (dictPut dict (← lift (dictGet dict lzma.rep0)))
    return .next { lzma with state := lzmaStateShortRep lzma.state } dict

def distance (len : Nat) : Asking Slot Nat := do
  let symbol ← rcBittree (fun symbol => .distSlot (lzmaGetDistState len) (symbol - 1)) DIST_SLOTS
  let distSlot := symbol - DIST_SLOTS
  if distSlot < DIST_MODEL_START then return distSlot
  else
    let limit := (distSlot >>> 1) - 1
    let dist := (2 ||| (distSlot &&& 1)) <<< limit
    if distSlot < DIST_MODEL_END then
      return dist + (← rcBittreeReverse (fun symbol => .distSpecial (dist + symbol - distSlot - 1)) limit)
    else
      let direct ← rcDirect (limit - ALIGN_BITS) 0
      let aligned ← rcBittreeReverse (fun symbol => .distAlign symbol) ALIGN_BITS
      return (dist + (direct <<< ALIGN_BITS) + aligned) % 2 ^ 32

def normalMatch (lzma : LzmaDec) (dict : Dictionary) (posState : Nat) : Asking Slot Turn := do
  let len ← lzmaLenDecode .matchLen posState
  let dist ← distance len
  let lzma := { lzma with
    rep0 := dist
    rep1 := lzma.rep0
    rep2 := lzma.rep1
    rep3 := lzma.rep2
    state := lzmaStateMatch lzma.state }
  if dist ≥ dict.full ∨ dist ≥ dict.size then return .bad lzma dict else repeatMatch lzma dict len

def lzmaDecodeTurn (lzma : LzmaDec) (dict : Dictionary) : Asking Slot Turn := do
  let posState := dict.pos &&& lzma.posMask
  if ← ask (.isMatch lzma.state posState) then
    if ← ask (.isRep lzma.state) then repeatedMatch lzma dict posState else normalMatch lzma dict posState
  else
    let (lzma,dict) ← lzmaLiteral lzma dict
    return .next lzma dict

end Symbols

section Chunks

inductive XzRet where
  | ok
  | streamEnd
  | unsupportedCheck
  | memError
  | memlimitError
  | formatError
  | optionsError
  | dataError
  | bufError
deriving DecidableEq

inductive Lzma2Seq where
  | control
  | uncompressed1
  | uncompressed2
  | compressed0
  | compressed1
  | props
  | lzmaPrepare
  | lzmaRun
  | copy
deriving DecidableEq

structure XzDecLzma2 where
  sequence : Lzma2Seq := .control
  control : UInt32 := 0
  compressed : UInt32 := 0
  uncompressed : UInt32 := 0
  needLzmaInit : Bool := false
  needDictReset : Bool := false
  needProps : Bool := false
  matchLen : Nat := 0
  lzma : LzmaDec := {}
  rc : RcDec := ⟨0,0,0,0⟩
  probs : Slot → Prob := fun _ => .initial
  dict : Dictionary := {}

def decodeTurns (input : Nat → UInt8) (inLimit : Nat) : Nat → XzDecLzma2 → Option (Bool × XzDecLzma2)
  | 0,s => some (true,s)
  | rounds + 1,s =>
    if dictHasSpace s.dict ∧ s.rc.inPos < inLimit then
      match answers input (lzmaDecodeTurn s.lzma s.dict) s.rc s.probs with
      | none => none
      | some (.next lzma dict,rc,probs) =>
        decodeTurns input inLimit rounds { s with lzma := lzma,dict := dict,rc := rc,probs := probs }
      | some (.leftover lzma dict len,rc,probs) =>
        some (true,{ s with lzma := lzma,dict := dict,rc := rc,probs := probs,matchLen := len })
      | some (.bad lzma dict,rc,probs) => some (false,{ s with lzma := lzma,dict := dict,rc := rc,probs := probs })
    else some (true,s)

/-- A match left over is finished first. Whether the loop succeeds, and what it leaves. -/
def lzmaDecodeLoop (s : XzDecLzma2) (b : XzBuf) (inAvail : Nat) : Option (Bool × XzDecLzma2 × XzBuf) := do
  let s := { s with rc := { s.rc with inPos := b.inPos } }
  let (repeated,dict,len) ← if s.matchLen > 0 then dictRepeat s.dict s.matchLen s.lzma.rep0 else some (true,s.dict,0)
  let (done,s) ←
    if repeated then decodeTurns b.input (b.inPos + inAvail) (dict.limit - dict.pos) { s with dict := dict,matchLen := len }
    else some (true,s)
  return (done,{ s with compressed := s.compressed - UInt32.ofNat (s.rc.inPos - b.inPos) },{ b with inPos := s.rc.inPos })

def xzDecLzma2Create (dictMax : UInt32) : XzDecLzma2 := { dict := { size := dictMax.toNat } }

/-- `memory` is what a new buffer happens to hold. -/
def xzDecLzma2Reset (memory : Nat → UInt8) (s : XzDecLzma2) (props : UInt8) : XzRet × XzDecLzma2 :=
  if props > 40 then (.optionsError,s)
  else
    let dictSize := if props = 40 then 0xFFFFFFFF else (2 + (props.toNat &&& 1)) <<< (props.toNat / 2 + 11)
    if s.dict.size > 0 ∧ dictSize > s.dict.size then (.memlimitError,s)
    else
      let dict := if s.dict.allocated < dictSize then { s.dict with buf := memory,allocated := dictSize } else s.dict
      (.ok,{ s with
        dict := { dict with finish := dictSize }
        sequence := .control
        needDictReset := true
        needLzmaInit := true
        needProps := true
        matchLen := 0 })

def rcReadInit (input : Nat → UInt8) (inSize : Nat) : Nat → RcDec → RcDec
  | 0,rc => rc
  | left + 1,rc =>
    if rc.inPos = inSize then rc
    else rcReadInit input inSize left
      { rc with
        code := (rc.code <<< 8) + (input rc.inPos).toUInt32
        inPos := rc.inPos + 1
        initBytesLeft := left }

/-- A pass of the decoding loop goes on with the next one, or returns. -/
inductive Pass where
  | again (s : XzDecLzma2) (b : XzBuf)
  | ret (ret : XzRet) (s : XzDecLzma2) (b : XzBuf)

def withByte (s : XzDecLzma2) (b : XzBuf) (read : UInt8 → XzBuf → Pass) : Pass :=
  if b.inPos ≥ b.inSize then .ret .ok s b else read (b.input b.inPos) { b with inPos := b.inPos + 1 }

def controlPass (s : XzDecLzma2) (byte : UInt8) (b : XzBuf) : Pass :=
  let s := { s with control := byte.toUInt32 }
  if s.control = 0x00 then .ret .streamEnd s b
  else if s.control < 0x03 then
    if s.control = 0x02 then
      .again { s with needDictReset := false,needLzmaInit := true,dict := dictReset s.dict,sequence := .uncompressed1 } b
    else if s.needDictReset then .ret .dataError s b
    else .again { s with sequence := .uncompressed1 } b
  else if s.control < 0xE0 ∧ s.needDictReset then .ret .dataError s b
  else .again { s with
    needDictReset := if s.control ≥ 0xE0 then false else s.needDictReset
    dict := if s.control ≥ 0xE0 then dictReset s.dict else s.dict
    needLzmaInit := if s.control ≥ 0xA0 then true else s.needLzmaInit
    needProps := if s.control ≥ 0xC0 then true else s.needProps
    uncompressed := (s.control &&& 0x1F) <<< (16 : UInt32)
    sequence := .uncompressed1 } b

def propsPass (s : XzDecLzma2) (propsByte : UInt8) (b : XzBuf) : Pass :=
  let s := { s with compressed := s.compressed - 1 }
  let lc := propsByte.toNat % 9
  let lp := propsByte.toNat / 9 % 5
  let pb := propsByte.toNat / 9 / 5
  if propsByte ≥ 9 * 5 * 5 then .ret .dataError s b
  else if lc + lp > 4 then .ret .dataError s b
  else .again { s with
    lzma := { s.lzma with lc := lc,literalPosMask := (1 <<< lp) - 1,posMask := (1 <<< pb) - 1 }
    needProps := false
    sequence := .lzmaPrepare } b

def preparePass (s : XzDecLzma2) (b : XzBuf) : Pass :=
  let s := if s.needLzmaInit then { s with
      lzma := { s.lzma with state := 0,rep0 := 0,rep1 := 0,rep2 := 0,rep3 := 0 }
      probs := fun _ => .initial
      rc := rcReset s.rc
      needLzmaInit := false }
    else s
  let rc := rcReadInit b.input b.inSize s.rc.initBytesLeft { s.rc with inPos := b.inPos }
  let b := { b with inPos := rc.inPos }
  if rc.initBytesLeft > 0 then .ret .ok { s with rc := rc } b
  else .again { s with rc := rc,compressed := s.compressed - 5,matchLen := 0,sequence := .lzmaRun } b

def runPass (s : XzDecLzma2) (b : XzBuf) : Option Pass := do
  let s := { s with dict := dictLimit s.dict s.uncompressed.toNat }
  let (done,s,b) ← lzmaDecodeLoop s b (min b.available s.compressed.toNat)
  if ¬ done then return .ret .dataError s b
  let (dict,b,produced) := dictFlush s.dict b
  let s := { s with dict := dict,uncompressed := s.uncompressed - UInt32.ofNat produced }
  if s.uncompressed = 0 then return .again { s with sequence := .control } b
  else if b.out.length = b.outSize ∨ (b.inPos = b.inSize ∧ s.compressed > 0) then return .ret .ok s b
  else return .again s b

def copyPass (s : XzDecLzma2) (b : XzBuf) : Option Pass := do
  let s := { s with dict := dictLimit s.dict s.uncompressed.toNat }
  let (dict,b,compressed) ← dictUncompressed s.dict b s.compressed
  let (dict,b,produced) := dictFlush dict b
  let s := { s with
    dict := dict
    compressed := compressed
    uncompressed := s.uncompressed - UInt32.ofNat produced }
  if s.uncompressed = 0 then return .again { s with sequence := .control } b
  else if b.inPos = b.inSize ∨ b.out.length = b.outSize then return .ret .ok s b
  else return .again s b

def lzma2Pass (s : XzDecLzma2) (b : XzBuf) : Option Pass :=
  match s.sequence with
  | .control => some (withByte s b (controlPass s))
  | .uncompressed1 => some (withByte s b fun byte b =>
      .again { s with uncompressed := s.uncompressed + (byte.toUInt32 <<< (8 : UInt32)),sequence := .uncompressed2 } b)
  | .uncompressed2 => some (withByte s b fun byte b =>
      let s : XzDecLzma2 := { s with uncompressed := s.uncompressed + (byte.toUInt32 + 1) }
      if s.control < (0x03 : UInt32) then .again { s with compressed := s.uncompressed,sequence := .copy } b
      else .again { s with sequence := .compressed0 } b)
  | .compressed0 => some (withByte s b fun byte b =>
      .again { s with compressed := byte.toUInt32 <<< (8 : UInt32),sequence := .compressed1 } b)
  | .compressed1 => some (withByte s b fun byte b =>
      .again { s with
        compressed := s.compressed + (byte.toUInt32 + 1)
        sequence := if s.needProps then .props else .lzmaPrepare } b)
  | .props => some (withByte s b (propsPass s))
  | .lzmaPrepare => some (preparePass s b)
  | .lzmaRun => runPass s b
  | .copy => copyPass s b

/-- The outcome of a call, which an index outside of an array may have. -/
inductive Called (σ : Type) where
  | strayed
  | returned (ret : XzRet) (s : σ) (b : XzBuf)

/-- The calls that have returned within so many passes. -/
def xzDecLzma2Run : Nat → XzDecLzma2 → XzBuf → Option (Called XzDecLzma2)
  | 0,_,_ => none
  | fuel + 1,s,b =>
    match lzma2Pass s b with
    | none => some .strayed
    | some (.ret ret s b) => some (.returned ret s b)
    | some (.again s b) => xzDecLzma2Run fuel s b

end Chunks

end SetecWizard.Core.Xz
