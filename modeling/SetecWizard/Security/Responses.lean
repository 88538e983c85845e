import SetecWizard.Core.ClientPin
import SetecWizard.Security.GetInfo

/-! Which bytes of an answer the decoder for authenticatorGetInfo and the walk for the number of
tries read. The decoder keeps inside whatever the authenticator sends; the walk reads the byte behind
key 3 without asking whether there is one.
-/
namespace SetecWizard.Core.Fido2Manager
open SetecWizard.Library Traced FormatEngine

/-! The readers of the decoder once more, with the bytes they read. -/
namespace Reads

section Reading

variable (data : List UInt8)

def bytesAt (p n : Nat) : Traced Access (List UInt8) := tell ⟨data.length,p,n⟩ (slice data p n)

def readArgument (widest addInfo p : Nat) : Traced Access (Option (Nat × Nat)) :=
  let width := 2 ^ (addInfo - 24)
  if addInfo < 24 then pure (some (addInfo,p))
  else if addInfo ≤ widest ∧ p + width ≤ data.length then do
    let argument ← bytesAt data p width
    return some (ofLE argument.reverse,p + width)
  else pure none

def addInfo (header : UInt8) : Nat := (header &&& 0x1F).toNat

def major (header : UInt8) : Nat := (header >>> 5).toNat

def readUint (p : Nat) : Traced Access (Nat × Nat) :=
  if data.length ≤ p then pure (0,p)
  else do
    let header ← byteAt data p
    let argument ← readArgument data 26 (addInfo header) (p + 1)
    return argument.getD (0,p + 1)

def readString (p : Nat) : Traced Access (List UInt8 × Nat) :=
  if data.length ≤ p then pure ([],p)
  else do
    let header ← byteAt data p
    if major header ≠ 3 then pure ([],p + 1)
    else do
      let argument ← readArgument data 25 (addInfo header) (p + 1)
      let (strLen,p) := argument.getD (addInfo header,p + 1)
      if data.length < p + strLen then pure ([],p)
      else do
        let string ← bytesAt data p strLen
        return (string,p + strLen)

def skipStep (skip : Nat → Traced Access Nat) (p : Nat) : Traced Access Nat :=
  if data.length ≤ p then pure p
  else do
    let header ← byteAt data p
    let argument ← readArgument data 26 (addInfo header) (p + 1)
    let (count,q) := argument.getD (addInfo header,p + 1)
    match major header with
    | 2 | 3 => pure (q + count)
    | 4 => iterate skip count q
    | 5 => iterate (fun q => skip q >>= skip) count q
    | _ => pure q

def skipNested : Nat → Nat → Traced Access Nat
  | 0,p => pure p
  | depth + 1,p => skipStep data (skipNested depth) p

def skipValue (p : Nat) : Traced Access Nat := skipNested data data.length p

def lengthBehind (header : UInt8) (p : Nat) : Traced Access (Nat × Nat) := do
  let argument ← readArgument data 24 (addInfo header) p
  return argument.getD (addInfo header,p)

def readLength (p : Nat) : Traced Access (Nat × Nat) := do
  let header ← byteAt data p
  lengthBehind data header (p + 1)

def readStrings : Nat → Nat → List (List UInt8) → Traced Access (List (List UInt8) × Nat)
  | 0,p,strings => pure (strings,p)
  | left + 1,p,strings =>
    if p < data.length then do
      let (string,p) ← readString data p
      readStrings left p (if string = [] then strings else strings ++ [string])
    else pure (strings,p)

def readSetting (p : Nat) : Traced Access (Bool × Nat) :=
  if p < data.length then do
    let valByte ← byteAt data p
    return (valByte == 0xF5,p + 1)
  else pure (false,p)

def readOptions : Nat → Nat → Fido2DeviceInfo → Traced Access (Fido2DeviceInfo × Nat)
  | 0,p,info => pure (info,p)
  | left + 1,p,info =>
    if p < data.length then do
      let (optKey,p) ← readString data p
      let (optVal,p) ← readSetting data p
      readOptions left p
        (if optKey = asciiBytes "clientPin" then { info with supportsPinProtocol := true,hasPin := optVal } else info)
    else pure (info,p)

def readUints : Nat → Nat → Traced Access Nat
  | 0,p => pure p
  | left + 1,p =>
    if p < data.length then do
      let (_,p) ← readUint data p
      readUints left p
    else pure p

def readEntry (key p : Nat) (info : Fido2DeviceInfo) : Traced Access (Fido2DeviceInfo × Nat) :=
  match key with
  | 0x01 =>
    if data.length ≤ p then pure (info,p)
    else do
      let (arrLen,p) ← readLength data p
      let (protocols,p) ← readStrings data arrLen p info.protocols
      return ({ info with protocols },p)
  | 0x02 =>
    if data.length ≤ p then pure (info,p)
    else do
      let (arrLen,p) ← readLength data p
      let (extensions,p) ← readStrings data arrLen p info.extensions
      return ({ info with extensions },p)
  | 0x03 =>
    if data.length ≤ p then pure (info,p)
    else do
      let (bsLen,p) ← readLength data p
      if bsLen = 16 ∧ p + 16 ≤ data.length then do
        let id ← bytesAt data p 16
        return ({ info with firmwareVersion := toHex id },p + bsLen)
      else return (info,p + bsLen)
  | 0x04 =>
    if data.length ≤ p then pure (info,p)
    else do
      let (optMapLen,p) ← readLength data p
      readOptions data optMapLen p info
  | 0x06 =>
    if data.length ≤ p then pure (info,p)
    else do
      let arrHeader ← byteAt data p
      let p ← readUints data (addInfo arrHeader) (p + 1)
      return (if 0 < addInfo arrHeader then { info with supportsPinProtocol := true } else info,p)
  | 0x0E => do
    let (fwVer,p) ← readUint data p
    return ({ info with firmwareVersion := asciiBytes (toString fwVer) },p)
  | _ => do
    let p ← skipValue data p
    return (info,p)

def readMap : Nat → Nat → Fido2DeviceInfo → Traced Access Fido2DeviceInfo
  | 0,_,info => pure info
  | left + 1,pos,info =>
    if pos < data.length then do
      let (key,pos) ← readUint data pos
      let (info,pos) ← readEntry data key pos info
      readMap left pos info
    else pure info

end Reading

def parseGetInfoResponse (cborData : List UInt8) (baseInfo : Fido2DeviceInfo) : Traced Access (Result Fido2DeviceInfo) :=
  if cborData = [] then pure (.ok baseInfo)
  else do
    let mapHeader ← byteAt cborData 0
    if major mapHeader ≠ 5 then pure (.ok baseInfo)
    else do
      let (mapLen,pos) ← lengthBehind cborData mapHeader 1
      let info ← readMap cborData mapLen pos baseInfo
      return .ok info

section Inside

variable {data : List UInt8} {p : Nat}

theorem yields_byteAt (inside : p < data.length) : Yields Access.Inside (byteAt data p) (data.getD p 0) :=
  yields_tell (P := Access.Inside) (o := ⟨data.length,p,1⟩) (Nat.succ_le_of_lt inside) _

theorem yields_bytesAt {n : Nat} (inside : p + n ≤ data.length) :
    Yields Access.Inside (bytesAt data p n) (slice data p n) :=
  yields_tell (P := Access.Inside) (o := ⟨data.length,p,n⟩) inside _

theorem yields_readArgument (widest addInfo p : Nat) :
    Yields Access.Inside (readArgument data widest addInfo p) (Fido2Manager.readArgument data widest addInfo p) := by
  apply yields_ite
  · exact fun _ => yields_pure _
  · intro _
    apply yields_ite
    · exact fun fits => (yields_bytesAt fits.2).bind (yields_pure _)
    · exact fun _ => yields_pure _

theorem yields_readUint (p : Nat) : Yields Access.Inside (readUint data p) (Fido2Manager.readUint data p) := by
  apply yields_ite
  · exact fun _ => yields_pure _
  · intro inside
    apply (yields_byteAt (Nat.lt_of_not_le inside)).bind
    exact (yields_readArgument _ _ _).bind (yields_pure _)

theorem yields_readString (p : Nat) : Yields Access.Inside (readString data p) (Fido2Manager.readString data p) := by
  apply yields_ite
  · exact fun _ => yields_pure _
  · intro inside
    apply (yields_byteAt (Nat.lt_of_not_le inside)).bind
    apply yields_ite
    · exact fun _ => yields_pure _
    · intro _
      apply (yields_readArgument _ _ _).bind
      apply yields_ite
      · exact fun _ => yields_pure _
      · exact fun fits => (yields_bytesAt (Nat.le_of_not_lt fits)).bind (yields_pure _)

theorem yields_skipStep {skip : Nat → Traced Access Nat} {other : Nat → Nat}
    (each : ∀ q, Yields Access.Inside (skip q) (other q)) (p : Nat) :
    Yields Access.Inside (skipStep data skip p) (Fido2Manager.skipStep data other p) := by
  apply yields_ite
  · exact fun _ => yields_pure _
  · intro inside
    apply (yields_byteAt (Nat.lt_of_not_le inside)).bind
    apply (yields_readArgument _ _ _).bind
    change Yields Access.Inside (match major (data.getD p 0) with | 2 | 3 => _ | 4 => _ | 5 => _ | _ => _)
      (match major (data.getD p 0) with | 2 | 3 => _ | 4 => _ | 5 => _ | _ => _)
    split
    · exact yields_pure _
    · exact yields_pure _
    · exact yields_iterate each _ _
    · exact yields_iterate (fun q => (each q).bind (each _)) _ _
    · exact yields_pure _

theorem yields_skipNested (depth p : Nat) :
    Yields Access.Inside (skipNested data depth p) (Fido2Manager.skipNested data depth p) := by
  induction depth generalizing p with
  | zero => exact yields_pure _
  | succ depth ih => exact yields_skipStep ih p

theorem yields_lengthBehind (header : UInt8) (p : Nat) : Yields Access.Inside (lengthBehind data header p)
    ((Fido2Manager.readArgument data 24 (addInfo header) p).getD (addInfo header,p)) :=
  (yields_readArgument _ _ _).bind (yields_pure _)

theorem yields_readLength (inside : p < data.length) :
    Yields Access.Inside (readLength data p) (Fido2Manager.readLength data p) :=
  (yields_byteAt inside).bind (yields_lengthBehind _ _)

theorem yields_readStrings (left p : Nat) (strings : List (List UInt8)) :
    Yields Access.Inside (readStrings data left p strings) (Fido2Manager.readStrings data left p strings) := by
  induction left generalizing p strings with
  | zero => exact yields_pure _
  | succ left ih =>
    apply yields_ite
    · exact fun _ => (yields_readString p).bind (ih _ _)
    · exact fun _ => yields_pure _

theorem yields_readSetting (p : Nat) : Yields Access.Inside (readSetting data p)
    (if p < data.length then (data.getD p 0 == 0xF5,p + 1) else (false,p)) := by
  apply yields_ite
  · exact fun inside => (yields_byteAt inside).bind (yields_pure _)
  · exact fun _ => yields_pure _

theorem yields_readOptions (left p : Nat) (info : Fido2DeviceInfo) :
    Yields Access.Inside (readOptions data left p info) (Fido2Manager.readOptions data left p info) := by
  induction left generalizing p info with
  | zero => exact yields_pure _
  | succ left ih =>
    apply yields_ite
    · exact fun _ => (yields_readString p).bind ((yields_readSetting _).bind (ih _ _))
    · exact fun _ => yields_pure _

theorem yields_readUints (left p : Nat) :
    Yields Access.Inside (readUints data left p) (Fido2Manager.readUints data left p) := by
  induction left generalizing p with
  | zero => exact yields_pure _
  | succ left ih =>
    apply yields_ite
    · exact fun _ => (yields_readUint p).bind (ih _)
    · exact fun _ => yields_pure _

theorem yields_readEntry (key p : Nat) (info : Fido2DeviceInfo) :
    Yields Access.Inside (readEntry data key p info) (Fido2Manager.readEntry data key p info) := by
  unfold readEntry
  split
  · apply yields_ite
    · exact fun _ => yields_pure _
    · intro inside
      exact (yields_readLength (Nat.lt_of_not_le inside)).bind ((yields_readStrings _ _ _).bind (yields_pure _))
  · apply yields_ite
    · exact fun _ => yields_pure _
    · intro inside
      exact (yields_readLength (Nat.lt_of_not_le inside)).bind ((yields_readStrings _ _ _).bind (yields_pure _))
  · unfold Fido2Manager.readEntry
    apply yields_ite
    · exact fun _ => yields_pure _
    · intro inside
      apply (yields_readLength (Nat.lt_of_not_le inside)).bind
      dsimp only
      split
      next whole => exact (yields_bytesAt whole.2).bind (yields_pure _)
      next => exact yields_pure _
  · apply yields_ite
    · exact fun _ => yields_pure _
    · exact fun inside => (yields_readLength (Nat.lt_of_not_le inside)).bind (yields_readOptions _ _ _)
  · apply yields_ite
    · exact fun _ => yields_pure _
    · intro inside
      exact (yields_byteAt (Nat.lt_of_not_le inside)).bind ((yields_readUints _ _).bind (yields_pure _))
  · exact (yields_readUint p).bind (yields_pure _)
  next =>
    have unknown : key ∉ InfoEntry.knownKeys := by simp_all [InfoEntry.knownKeys]
    rw [readEntry_other info unknown]
    exact (yields_skipNested data.length p).bind (yields_pure _)

theorem yields_readMap (left pos : Nat) (info : Fido2DeviceInfo) :
    Yields Access.Inside (readMap data left pos info) (Fido2Manager.readMap data left pos info) := by
  induction left generalizing pos info with
  | zero => exact yields_pure _
  | succ left ih =>
    apply yields_ite
    · exact fun _ => (yields_readUint pos).bind ((yields_readEntry _ _ _).bind (ih _ _))
    · exact fun _ => yields_pure _

/-- Whatever the answer is, the decoder reads bytes of it only. -/
theorem yields_parseGetInfoResponse (cborData : List UInt8) (baseInfo : Fido2DeviceInfo) :
    Yields Access.Inside (parseGetInfoResponse cborData baseInfo) (Fido2Manager.parseGetInfoResponse cborData baseInfo) := by
  apply yields_ite
  · exact fun _ => yields_pure _
  · intro nonempty
    apply (yields_byteAt (List.length_pos_of_ne_nil nonempty)).bind
    apply yields_ite
    · exact fun _ => yields_pure _
    · exact fun _ => (yields_lengthBehind _ _).bind ((yields_readMap _ _ _).bind (yields_pure _))

end Inside

section Recursion

variable {data : List UInt8} {p : Nat} {skip other : Nat → Traced Access Nat}

theorem iterate_same (grows : ∀ q, q ≤ (skip q).value) (same : ∀ q, p < q → skip q = other q) (n : Nat) {q : Nat}
    (behind : p < q) : iterate skip n q = iterate other n q := by
  induction n generalizing q with
  | zero => rfl
  | succ n ih =>
    rw [iterate,iterate,← same q behind]
    exact bind_same (ih (Nat.lt_of_lt_of_le behind (grows q)))

/-- Only what is behind the head of a value is skipped as a value in it. -/
theorem skipStep_same (grows : ∀ q, q ≤ (skip q).value) (same : ∀ q, p < q → skip q = other q) :
    skipStep data skip p = skipStep data other p := by
  rw [skipStep,skipStep]
  split
  next => rfl
  next =>
    have twice : ∀ q, p < q → (skip q >>= skip) = (other q >>= other) := by
      intro q later
      rw [← same q later]
      exact bind_same (same _ (Nat.lt_of_lt_of_le later (grows q)))
    apply bind_same
    apply bind_same
    have behind := @readArgument_behind data 26 (addInfo (data.getD p 0)) (p + 1)
    rw [← (yields_readArgument _ _ _).2] at behind
    dsimp only
    split
    · rfl
    · rfl
    · exact iterate_same grows same _ behind
    · have grows_twice : ∀ q, q ≤ (skip q >>= skip).value := fun q => Nat.le_trans (grows q) (grows _)
      exact iterate_same grows_twice twice _ behind
    · rfl

theorem skipNested_ge (depth p : Nat) : p ≤ (skipNested data depth p).value := by
  rw [(yields_skipNested depth p).2]
  exact Fido2Manager.skipNested_ge depth p

theorem skipNested_ended {depth : Nat} (ended : data.length ≤ p) : skipNested data depth p = pure p := by
  cases depth with
  | zero => rfl
  | succ depth => rw [skipNested,skipStep,if_pos ended]

theorem skipNested_enough {depth more : Nat} (enough : data.length ≤ p + depth) (also : data.length ≤ p + more) :
    skipNested data depth p = skipNested data more p := by
  induction depth generalizing p more with
  | zero => rw [skipNested_ended (p := p) enough,skipNested_ended (p := p) enough]
  | succ depth ih =>
    cases more with
    | zero => rw [skipNested_ended (p := p) also,skipNested_ended (p := p) also]
    | succ more => exact skipStep_same (skipNested_ge depth) (fun q later => ih (by omega) (by omega))

theorem skipValue_eq (p : Nat) : skipValue data p = skipStep data (skipValue data) p := by
  rw [skipValue,@skipNested_enough data p data.length (data.length + 1) (by omega) (by omega)]
  exact skipStep_same (skipNested_ge _) (fun _ _ => rfl)

end Recursion

end Reads

/-! The walk looks at every second byte. It ends at the first one that looks like key 3 and takes
its answer from what is behind it.
-/
section Walk

variable {response : List UInt8} {left pos k p : Nat}

/-- A byte that the walk takes for key 3. -/
def KeyAt (response : List UInt8) (p : Nat) : Prop := response.getD p 0 &&& 0x1F = 0x03

/-- The first such byte among the odd places that the head counts. -/
structure StopsAt (response : List UInt8) (p : Nat) : Prop where
  inside : p < response.length
  odd : p % 2 = 1
  counted : p / 2 < (response.getD 0 0 &&& 0x1F).toNat
  key : KeyAt response p
  first : ∀ q < p, q % 2 = 1 → ¬ KeyAt response q

/-- The number behind a byte. -/
def retriesBehind (response : List UInt8) (p : Nat) : UInt32 :=
  let retries := response.getD (p + 1) 0
  if retries &&& 0x1F = 24 ∧ p + 2 < response.length then (response.getD (p + 2) 0).toUInt32
  else (retries &&& 0x1F).toUInt32

theorem findRetries_key (inside : pos < response.length) (key : KeyAt response pos) :
    (findRetries response (left + 1) pos).value = retriesBehind response pos ∧
      ((findRetries response (left + 1) pos).Holds Access.Inside ↔ pos + 1 < response.length) := by
  have here : (byteAt response pos).Holds Access.Inside := (Reads.yields_byteAt inside).1
  have read : (byteAt response pos).value &&& 0x1F = 0x03 := key
  have next : (byteAt response (pos + 1)).Holds Access.Inside ↔ pos + 1 < response.length := holds_tell _ _ _
  rw [findRetries,if_pos inside,value_bind,holds_bind,if_pos read,value_bind,holds_bind,holds_ite,next]
  refine ⟨?_,fun held => held.2.1,fun behind => ⟨here,behind,?_,fun _ => holds_pure _ _⟩⟩
  · rw [value_ite]
    rfl
  · intro wide
    exact (holds_bind _ _ _).mpr ⟨(Reads.yields_byteAt wide.2).1,holds_pure _ _⟩

theorem findRetries_other (inside : pos < response.length) (other : ¬ KeyAt response pos) :
    (findRetries response (left + 1) pos).value = (findRetries response left (pos + 2)).value ∧
      ((findRetries response (left + 1) pos).Holds Access.Inside ↔
        (findRetries response left (pos + 2)).Holds Access.Inside) := by
  have here : (byteAt response pos).Holds Access.Inside := (Reads.yields_byteAt inside).1
  have read : ¬ (byteAt response pos).value &&& 0x1F = 0x03 := other
  rw [findRetries,if_pos inside,value_bind,holds_bind,if_neg read]
  exact ⟨rfl,and_iff_right here⟩

theorem findRetries_behind (others : ∀ j < k, pos + 2 * j < response.length ∧ ¬ KeyAt response (pos + 2 * j)) :
    (findRetries response (left + k) pos).value = (findRetries response left (pos + 2 * k)).value ∧
      ((findRetries response (left + k) pos).Holds Access.Inside ↔
        (findRetries response left (pos + 2 * k)).Holds Access.Inside) := by
  induction k generalizing pos with
  | zero => exact ⟨rfl,Iff.rfl⟩
  | succ k ih =>
    obtain ⟨inside,other⟩ := others 0 (Nat.succ_pos k)
    obtain ⟨value,holds⟩ := @findRetries_other response (left + k) pos inside other
    have place : pos + 2 * (k + 1) = pos + 2 + 2 * k := by omega
    obtain ⟨value_later,holds_later⟩ := @ih (pos + 2) (by
      intro j before
      have later := others (j + 1) (Nat.succ_lt_succ before)
      rwa [show pos + 2 * (j + 1) = pos + 2 + 2 * j by omega] at later)
    rw [place,← Nat.add_assoc]
    exact ⟨value.trans value_later,holds.trans holds_later⟩

theorem findRetries_none (others : ∀ j < left, pos + 2 * j < response.length → ¬ KeyAt response (pos + 2 * j)) :
    Yields Access.Inside (findRetries response left pos) 0 := by
  induction left generalizing pos with
  | zero => exact yields_pure _
  | succ left ih =>
    by_cases inside : pos < response.length
    · obtain ⟨value,holds⟩ := @findRetries_other response left pos inside (others 0 (Nat.succ_pos left) inside)
      obtain ⟨sound,zero⟩ := @ih (pos + 2) (by
        intro j before
        have later := others (j + 1) (Nat.succ_lt_succ before)
        rwa [show pos + 2 * (j + 1) = pos + 2 + 2 * j by omega] at later)
      exact ⟨holds.mpr sound,value.trans zero⟩
    · rw [findRetries,if_neg inside]
      exact yields_pure _

theorem readRetries_short (short : response.length < 4) : Yields Access.Inside (readRetries response)
    (.error (.fromCode .fido2AuthFailed "getPinRetries response too short")) := by
  rw [readRetries,if_pos short]
  exact yields_pure _

theorem readRetries_stop (long : 4 ≤ response.length) (stop : StopsAt response p) :
    (readRetries response).value = .ok (retriesBehind response p) ∧
      ((readRetries response).Holds Access.Inside ↔ p + 1 < response.length) := by
  have header : (byteAt response 0).Holds Access.Inside := (Reads.yields_byteAt (by omega)).1
  have place : p = 1 + 2 * (p / 2) := by
    have odd := stop.odd
    omega
  obtain ⟨left,count⟩ := Nat.exists_eq_add_of_lt stop.counted
  obtain ⟨value,holds⟩ := @findRetries_behind response (left + 1) 1 (p / 2) (by
    intro j before
    have inside := stop.inside
    exact ⟨by omega,stop.first _ (by omega) (by omega)⟩)
  rw [← place] at value holds
  obtain ⟨value_key,holds_key⟩ := @findRetries_key response left p stop.inside stop.key
  have turns : ((byteAt response 0).value &&& 0x1F).toNat = left + 1 + p / 2 := by
    change (response.getD 0 0 &&& 0x1F).toNat = _
    omega
  rw [readRetries,if_neg (Nat.not_lt.mpr long),value_bind,holds_bind,value_bind,holds_bind,turns]
  refine ⟨congrArg Except.ok (value.trans value_key),fun held => ?_,fun behind => ⟨header,?_,holds_pure _ _⟩⟩
  · exact holds_key.mp (holds.mp held.2.1)
  · exact holds.mpr (holds_key.mpr behind)

theorem StopsAt.unique {q : Nat} (stop : StopsAt response p) (other : StopsAt response q) : p = q := by
  apply Nat.le_antisymm
  · exact Nat.le_of_not_lt fun before => stop.first q before other.odd other.key
  · exact Nat.le_of_not_lt fun before => other.first p before stop.odd stop.key

theorem exists_stop (inside : p < response.length) (odd : p % 2 = 1)
    (counted : p / 2 < (response.getD 0 0 &&& 0x1F).toNat) (key : KeyAt response p) : ∃ q, StopsAt response q := by
  classical
  have some_place : ∃ q, q % 2 = 1 ∧ KeyAt response q := ⟨p,odd,key⟩
  have before : Nat.find some_place ≤ p := Nat.find_min' some_place ⟨odd,key⟩
  obtain ⟨first_odd,first_key⟩ := Nat.find_spec some_place
  refine ⟨Nat.find some_place,⟨by omega,first_odd,by omega,first_key,fun q earlier q_odd q_key => ?_⟩⟩
  exact Nat.find_min some_place earlier ⟨q_odd,q_key⟩

theorem readRetries_none (long : 4 ≤ response.length) (nowhere : ∀ p, ¬ StopsAt response p) :
    Yields Access.Inside (readRetries response) (.ok 0) := by
  rw [readRetries,if_neg (Nat.not_lt.mpr long)]
  apply (Reads.yields_byteAt (by omega)).bind
  refine Yields.bind (findRetries_none fun j before inside key => ?_) (yields_pure _)
  obtain ⟨q,stop⟩ := exists_stop inside (by omega) (by omega) key
  exact nowhere q stop

/-- The walk reads inside an answer unless what it takes for key 3 is the last byte. -/
theorem readRetries_inside_iff :
    (readRetries response).Holds Access.Inside ↔
      response.length < 4 ∨ ∀ p, StopsAt response p → p + 1 < response.length := by
  by_cases short : response.length < 4
  · exact ⟨fun _ => .inl short,fun _ => (readRetries_short short).1⟩
  · have long := Nat.le_of_not_lt short
    rw [or_iff_right short]
    by_cases somewhere : ∃ p, StopsAt response p
    · obtain ⟨p,stop⟩ := somewhere
      rw [(readRetries_stop long stop).2]
      exact ⟨fun behind q other => stop.unique other ▸ behind,fun all => all p stop⟩
    · have nowhere := not_exists.mp somewhere
      exact ⟨fun _ p stop => absurd stop (nowhere p),fun _ => (readRetries_none long nowhere).1⟩

end Walk

section Value

variable {response : List UInt8} {place v : Nat}

theorem retriesBehind_unsigned (here : Stands response (place + 1) (Cbor.unsigned v).encode) :
    (retriesBehind response place).toNat = v ↔ v < 2 ^ 8 := by
  obtain ⟨inside,_,low,behind⟩ := head_at (by decide) here
  change (response.getD (place + 1) 0 &&& 0x1F).toNat = Cbor.additional v at low
  have wide : response.getD (place + 1) 0 &&& 0x1F = 24 ↔ Cbor.additional v = 24 := by
    rw [← low,← UInt8.toNat_inj]
    rfl
  rw [retriesBehind]
  by_cases byte : v < 2 ^ 8
  · refine ⟨fun _ => byte,fun _ => ?_⟩
    by_cases small : v < 24
    · have head : Cbor.additional v = v := by rw [Cbor.additional,if_pos small]
      have other : ¬ Cbor.additional v = 24 := by omega
      rw [if_neg (fun both => other (wide.mp both.1)),UInt8.toNat_toUInt32,low,head]
    · have head : Cbor.additional v = 24 := by rw [Cbor.additional,if_neg small,if_pos byte]
      rw [Cbor.argument,if_neg small,head] at behind
      obtain ⟨next,number,_⟩ := stands_cons behind
      rw [if_pos ⟨wide.mpr head,next⟩,UInt8.toNat_toUInt32,number,UInt8.toNat_ofNat',Nat.mod_eq_of_lt byte]
  · refine ⟨fun same => ?_,fun small => absurd small byte⟩
    have known := Cbor.additional_lt v
    have other : ¬ Cbor.additional v = 24 := by
      rw [Cbor.additional,if_neg (by omega),if_neg byte]
      split
      · decide
      · split <;> decide
    rw [if_neg (fun both => other (wide.mp both.1)),UInt8.toNat_toUInt32,low] at same
    omega

/-- An answer with the number of tries under key 3, and other entries in front of it and behind. -/
def retriesMap (front : List (Cbor × Cbor)) (v : Nat) (back : List (Cbor × Cbor)) : Cbor :=
  .map (front ++ (.unsigned 3,.unsigned v) :: back)

def keyPlace (front back : List (Cbor × Cbor)) : Nat :=
  (Cbor.head 5 (front.length + (back.length + 1))).length + (Cbor.encodeEntries front).length

/-- The walk does not end at the key, and by accident it comes to the same number. -/
def Accident (response : List UInt8) (place v : Nat) : Prop :=
  (∃ p, p ≠ place ∧ StopsAt response p ∧ (retriesBehind response p).toNat = v) ∨
    (∀ p, ¬ StopsAt response p) ∧ v = 0

theorem encodeEntries_append (front back : List (Cbor × Cbor)) :
    Cbor.encodeEntries (front ++ back) = Cbor.encodeEntries front ++ Cbor.encodeEntries back := by
  induction front with
  | nil => rfl
  | cons entry rest ih =>
    rw [List.cons_append,Cbor.encodeEntries,Cbor.encodeEntries,ih,List.append_assoc,List.append_assoc]

theorem retriesMap_stands (front back : List (Cbor × Cbor)) (v : Nat) :
    Stands (retriesMap front v back).encode (keyPlace front back + 1) (Cbor.unsigned v).encode := by
  have whole : Stands (retriesMap front v back).encode 0 (retriesMap front v back).encode := List.prefix_refl _
  obtain ⟨_,entries⟩ := stands_append.mp whole
  rw [encodeEntries_append,List.length_append] at entries
  obtain ⟨_,here⟩ := stands_append.mp entries
  obtain ⟨_,value⟩ := stands_append.mp here
  have place : 0 + (Cbor.head 5 (front.length + (back.length + 1))).length + (Cbor.encodeEntries front).length + 1 =
      keyPlace front back + 1 := by
    rw [keyPlace,Nat.zero_add]
  exact place ▸ (stands_append.mp value).1

theorem readRetries_value_iff (front back : List (Cbor × Cbor)) (v : Nat) :
    (∃ retries, (readRetries (retriesMap front v back).encode).value = .ok retries ∧ retries.toNat = v) ↔
      4 ≤ (retriesMap front v back).encode.length ∧
        (StopsAt (retriesMap front v back).encode (keyPlace front back) ∧ v < 2 ^ 8 ∨
          Accident (retriesMap front v back).encode (keyPlace front back) v) := by
  have here := retriesMap_stands front back v
  generalize (retriesMap front v back).encode = response at here
  generalize keyPlace front back = place at here
  by_cases short : response.length < 4
  · rw [(readRetries_short short).2]
    exact ⟨fun ⟨_,failed,_⟩ => (nomatch failed),fun both => absurd both.1 (Nat.not_le.mpr short)⟩
  · have long := Nat.le_of_not_lt short
    rw [and_iff_right long]
    by_cases somewhere : ∃ p, StopsAt response p
    · obtain ⟨p,stop⟩ := somewhere
      have read : (∃ retries, (readRetries response).value = .ok retries ∧ retries.toNat = v) ↔
          (retriesBehind response p).toNat = v := by
        rw [(readRetries_stop long stop).1]
        exact ⟨fun ⟨_,same,number⟩ => Except.ok.inj same ▸ number,fun number => ⟨_,rfl,number⟩⟩
      rw [read]
      by_cases at_key : p = place
      · subst at_key
        rw [retriesBehind_unsigned here]
        refine ⟨fun small => .inl ⟨stop,small⟩,?_⟩
        rintro (⟨_,small⟩ | ⟨q,elsewhere,other,_⟩ | ⟨nowhere,_⟩)
        · exact small
        · exact absurd (other.unique stop) elsewhere
        · exact absurd stop (nowhere p)
      · refine ⟨fun number => .inr (.inl ⟨p,at_key,stop,number⟩),?_⟩
        rintro (⟨other,_⟩ | ⟨q,_,other,number⟩ | ⟨nowhere,_⟩)
        · exact absurd (stop.unique other) at_key
        · exact stop.unique other ▸ number
        · exact absurd stop (nowhere p)
    · have nowhere := not_exists.mp somewhere
      rw [(readRetries_none long nowhere).2]
      constructor
      · rintro ⟨retries,same,number⟩
        obtain rfl := Except.ok.inj same
        exact .inr (.inr ⟨nowhere,number.symm⟩)
      · rintro (⟨stop,_⟩ | ⟨p,_,stop,_⟩ | ⟨_,rfl⟩)
        · exact absurd stop (nowhere place)
        · exact absurd stop (nowhere p)
        · exact ⟨0,rfl,rfl⟩

/-- The decoder reads inside every answer, and what it skips is skipped as the source does it. The
walk does where the key it sees is not the last byte, and it returns the number under key 3 where it
ends there and the number is below 256, or by accident. -/
theorem responses_iff (cborData response : List UInt8) (baseInfo : Fido2DeviceInfo) (front back : List (Cbor × Cbor)) (v : Nat) :
    Yields Access.Inside (Reads.parseGetInfoResponse cborData baseInfo) (parseGetInfoResponse cborData baseInfo) ∧
      (∀ p, Reads.skipValue cborData p = Reads.skipStep cborData (Reads.skipValue cborData) p) ∧
      ((getPinRetryCount fun _ => .ok response).Holds Access.Inside ↔
        response.length < 4 ∨ ∀ p, StopsAt response p → p + 1 < response.length) ∧
      ((∃ retries, (getPinRetryCount fun _ => .ok (retriesMap front v back).encode).value = .ok retries ∧
          retries.toNat = v) ↔
        4 ≤ (retriesMap front v back).encode.length ∧
          (StopsAt (retriesMap front v back).encode (keyPlace front back) ∧ v < 2 ^ 8 ∨
            Accident (retriesMap front v back).encode (keyPlace front back) v)) :=
  ⟨Reads.yields_parseGetInfoResponse cborData baseInfo,Reads.skipValue_eq,readRetries_inside_iff,
    readRetries_value_iff front back v⟩

/-- The key as the last byte, and the shortest answer that has the key. -/
theorem readRetries_fails :
    ¬ (getPinRetryCount fun _ => .ok [0xA2,0x01,0x00,0x03]).Holds Access.Inside ∧
      (getPinRetryCount fun _ => .ok (retriesMap [] 8 []).encode).value =
        .error (.fromCode .fido2AuthFailed "getPinRetries response too short") := by
  refine ⟨fun held => ?_,rfl⟩
  have last : (⟨4,4,1⟩ : Access).Inside := held _ (.tail _ (.tail _ (.tail _ (.head _))))
  exact absurd last (by decide : ¬ 4 + 1 ≤ 4)

end Value

end SetecWizard.Core.Fido2Manager
