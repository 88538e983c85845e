import SetecWizard.Core.ClientPin
import SetecWizard.Library.Cbor
import SetecWizard.Format.Names
import Mathlib.Data.List.DropRight

/-! What setPin encrypts and what it imports. The coordinates of the authenticator are found in
every answer of the canonical form. The block holds the PIN as it was typed where its bytes leave
room for a zero and do not end with one; the limit on its characters does not see to that.
-/
namespace SetecWizard.Core.Fido2Manager
open SetecWizard.Library

section Padding

/-- A PIN is recovered from a block that goes on with at least one zero when taking the zeros off
at the end gives it back. -/
def Recovered (pinBytes block : List UInt8) : Prop :=
  (∃ zeros, 0 < zeros ∧ block = pinBytes ++ List.replicate zeros 0) ∧ block.rdropWhile (· == 0) = pinBytes

variable {pinBytes : List UInt8}

@[simp] theorem length_padPin (pinBytes : List UInt8) : (padPin pinBytes).length = 64 := by
  simp [padPin]

theorem rdropWhile_zeros (pinBytes : List UInt8) (zeros : Nat) :
    (pinBytes ++ List.replicate zeros 0).rdropWhile (· == 0) = pinBytes.rdropWhile (· == 0) := by
  induction zeros with
  | zero => rw [List.replicate_zero,List.append_nil]
  | succ zeros ih =>
    rw [List.replicate_succ',← List.append_assoc,List.rdropWhile_concat_pos _ _ _ rfl]
    exact ih

theorem rdropWhile_self_iff : pinBytes.rdropWhile (· == 0) = pinBytes ↔ pinBytes.getLast? ≠ some 0 := by
  rw [List.rdropWhile_eq_self_iff]
  constructor
  · intro ends last
    have nonempty : pinBytes ≠ [] := by
      rintro rfl
      nomatch last
    rw [List.getLast?_eq_some_getLast nonempty,Option.some.injEq] at last
    exact ends nonempty (beq_iff_eq.mpr last)
  · intro ends nonempty zero
    apply ends
    rw [List.getLast?_eq_some_getLast nonempty,beq_iff_eq.mp zero]

theorem padPin_short (short : pinBytes.length ≤ 64) :
    padPin pinBytes = pinBytes ++ List.replicate (64 - pinBytes.length) 0 := by
  rw [padPin,List.take_of_length_le short]

theorem recovered_padPin_iff :
    Recovered pinBytes (padPin pinBytes) ↔ pinBytes.length ≤ 63 ∧ pinBytes.getLast? ≠ some 0 := by
  constructor
  · rintro ⟨⟨zeros,some_zero,block⟩,taken⟩
    have size := congrArg List.length block
    rw [length_padPin,List.length_append,List.length_replicate] at size
    rw [block,rdropWhile_zeros] at taken
    exact ⟨by omega,rdropWhile_self_iff.mp taken⟩
  · rintro ⟨short,ends⟩
    have block := @padPin_short pinBytes (by omega)
    refine ⟨⟨64 - pinBytes.length,by omega,block⟩,?_⟩
    rw [block,rdropWhile_zeros]
    exact rdropWhile_self_iff.mpr ends

end Padding

section Coordinates

variable {keyAgreeData : List UInt8} {p : Nat}

theorem coordinateAt_stands {coordinate : Bytes 32} (here : Stands keyAgreeData p (Cbor.bytes coordinate.data).encode) :
    coordinateAt keyAgreeData p ∧ slice keyAgreeData (p + 2) 32 = coordinate.data := by
  rw [Cbor.encode,coordinate.size] at here
  obtain ⟨_,first,behind⟩ := stands_cons here
  obtain ⟨_,second,content⟩ := stands_cons behind
  have whole := content.slice
  change slice keyAgreeData (p + 2) coordinate.data.length = coordinate.data at whole
  rw [coordinate.size] at whole
  exact ⟨⟨first 0,second 0⟩,whole⟩

theorem not_coordinateAt {block : List UInt8} (here : Stands keyAgreeData p block) (others : 0x58 ∉ block) :
    ∀ k < block.length, ¬ coordinateAt keyAgreeData (p + k) := by
  intro k inside head
  apply others
  have place : (slice keyAgreeData p block.length)[k]? = block[k]? := by rw [here.slice]
  rw [getElem?_slice,if_pos inside,List.getElem?_eq_getElem inside] at place
  have same := head.1
  rw [List.getD_eq_getElem?_getD,place,Option.getD_some] at same
  rw [← same]
  exact List.getElem_mem inside

/-- The answer to getKeyAgreement: under key 1 the COSE key with its type, algorithm and curve
and the coordinates. -/
def keyAgreement (x y : Bytes 32) : Cbor :=
  .map [(.unsigned 1,.map [(.unsigned 1,.unsigned 2),(.unsigned 3,.negative 24),(.negative 0,.unsigned 1),
    (.negative 1,.bytes x.data),(.negative 2,.bytes y.data)])]

theorem encode_keyAgreement (x y : Bytes 32) :
    (keyAgreement x y).encode =
      [0xA1,0x01,0xA5,0x01,0x02,0x03,0x38,0x18,0x20,0x01,0x21] ++
        ((Cbor.bytes x.data).encode ++ ([0x22] ++ (Cbor.bytes y.data).encode)) := by
  simp only [keyAgreement,Cbor.encode,Cbor.encodeEntries,List.append_nil,List.append_assoc]
  rfl

theorem scanCoordinates_keyAgreement (x y : Bytes 32) :
    scanCoordinates (keyAgreement x y).encode = some (x.data,y.data) := by
  have encoded (coordinate : Bytes 32) : (Cbor.bytes coordinate.data).encode.length = 34 := by
    rw [Cbor.encode,coordinate.size,List.length_append,coordinate.size]
    rfl
  have size : (keyAgreement x y).encode.length = 80 := by
    rw [encode_keyAgreement,List.length_append,List.length_append,List.length_append,encoded,encoded]
    rfl
  have whole := List.prefix_refl (keyAgreement x y).encode
  nth_rewrite 1 [encode_keyAgreement] at whole
  generalize (keyAgreement x y).encode = data at size whole
  rw [← List.drop_zero (l := data)] at whole
  obtain ⟨front,behind⟩ := stands_append.mp whole
  obtain ⟨first,later⟩ := stands_append.mp behind
  obtain ⟨between,second⟩ := stands_append.mp later
  rw [encoded] at between second
  obtain ⟨x_head,x_read⟩ : coordinateAt data 11 ∧ slice data 13 32 = x.data := coordinateAt_stands first
  obtain ⟨y_head,y_read⟩ : coordinateAt data 46 ∧ slice data 48 32 = y.data := coordinateAt_stands second
  have y_found : (List.range' 45 2).find? (coordinateAt data ·) = some 46 := by
    rw [List.find?_range'_eq_some]
    refine ⟨decide_eq_true y_head,by decide,fun q after before => ?_⟩
    obtain rfl : q = 45 := by omega
    have none_here := not_coordinateAt between (by decide) 0 (by decide)
    exact (Bool.not_eq_true' _).mpr (decide_eq_false none_here)
  rw [scanCoordinates,size,List.findSome?_eq_some_iff]
  refine ⟨List.range 11,11,List.range' 12 34,rfl,?_,?_⟩
  · rw [if_pos x_head]
    change (do
      let q ← (List.range' 45 2).find? (coordinateAt data ·)
      return (slice data 13 32,slice data (q + 2) 32)) = some (x.data,y.data)
    rw [y_found]
    exact congrArg some (Prod.ext x_read y_read)
  · intro p inside
    have none_here := not_coordinateAt front (by decide) p (List.mem_range.mp inside)
    rw [Nat.zero_add] at none_here
    rw [if_neg none_here]

end Coordinates

section Requests

variable {crypto : PinCrypto} {pinBytes keyAgreeData : List UInt8} {request : PinRequest}

theorem attempts_ok {steps : List PinStep} (sound : ∀ step, crypto.fails step = false) :
    steps.forM crypto.attempt = .ok () := by
  induction steps with
  | nil => rfl
  | cons step rest ih =>
    have here : crypto.attempt step = .ok () := refuse_ok.mpr (fun failed => Bool.noConfusion (failed.symm.trans (sound step)))
    change (do crypto.attempt step; rest.forM crypto.attempt) = .ok ()
    rw [here]
    exact ih

theorem setPinRequest_made (made : setPinRequest crypto pinBytes keyAgreeData = .ok request) :
    scanCoordinates keyAgreeData = some (request.authX,request.authY) ∧ request.paddedPin = padPin pinBytes := by
  rw [setPinRequest] at made
  obtain ⟨_,_,found⟩ := bind_ok.mp made
  cases scanned : scanCoordinates keyAgreeData with
  | none =>
    rw [scanned] at found
    nomatch found
  | some coordinates =>
    rw [scanned] at found
    obtain ⟨_,_,returned⟩ := bind_ok.mp found
    obtain rfl := Except.ok.inj returned
    exact ⟨rfl,rfl⟩

theorem setPinRequest_exists {coordinates : List UInt8 × List UInt8}
    (sound : ∀ step, crypto.fails step = false) (scanned : scanCoordinates keyAgreeData = some coordinates) :
    ∃ request, setPinRequest crypto pinBytes keyAgreeData = .ok request := by
  rw [setPinRequest,attempts_ok sound,scanned]
  dsimp only
  rw [attempts_ok sound]
  exact ⟨_,rfl⟩

theorem setPin_ok {command : List UInt8 → Result (List UInt8)} {toUtf8 : List UInt16 → List UInt8} {newPin : List UInt16}
    (set : setPin command crypto toUtf8 newPin = .ok ()) :
    checkPinLength newPin = .ok () ∧ ∃ keyAgreeData request, command [0xA2,0x01,0x01,0x02,0x02] = .ok keyAgreeData ∧
      setPinRequest crypto (toUtf8 newPin) keyAgreeData = .ok request ∧ (command request.setPinCbor).isOk := by
  rw [setPin,bind_unit_ok] at set
  obtain ⟨checked,rest⟩ := set
  obtain ⟨keyAgreeData,answered,rest⟩ := bind_ok.mp rest
  obtain ⟨request,made,rest⟩ := bind_ok.mp rest
  obtain ⟨answer,accepted,_⟩ := bind_ok.mp rest
  refine ⟨checked,keyAgreeData,request,answered,made,?_⟩
  rw [accepted]
  rfl

/-- For every PIN of an accepted length and all coordinates the pair imported is that of the
answer, and the block encrypted gives the PIN back just where its bytes are at most 63 and do not
end with a zero. -/
theorem setPinRequest_typed_iff (x y : Bytes 32) :
    scanCoordinates (keyAgreement x y).encode = some (x.data,y.data) ∧
      ∀ (toUtf8 : List UInt16 → List UInt8) (newPin : List UInt16), checkPinLength newPin = .ok () →
        ∀ crypto request, setPinRequest crypto (toUtf8 newPin) (keyAgreement x y).encode = .ok request →
          (request.authX,request.authY) = (x.data,y.data) ∧ request.paddedPin.length = 64 ∧
            (Recovered (toUtf8 newPin) request.paddedPin ↔
              (toUtf8 newPin).length ≤ 63 ∧ (toUtf8 newPin).getLast? ≠ some 0) := by
  have scanned := scanCoordinates_keyAgreement x y
  refine ⟨scanned,fun toUtf8 newPin _ crypto request made => ?_⟩
  obtain ⟨same,block⟩ := setPinRequest_made made
  rw [scanned] at same
  rw [block]
  exact ⟨(Option.some.inj same).symm,length_padPin _,recovered_padPin_iff⟩

end Requests

section Samples

/-- The bytes of a string without surrogates. -/
def basicUtf8 (units : List UInt16) : List UInt8 := units.flatMap fun unit => sequence unit.toNat

def sampleCrypto : PinCrypto where
  fails _ := false
  pubKeyBlob := List.replicate 72 0
  sharedSecret _ := List.replicate 32 0
  encrypt _ block := block

def digits : List UInt16 := [0x31,0x32,0x33,0x34,0x35,0x36]

theorem digits_recovered : ∃ request,
    setPinRequest sampleCrypto (basicUtf8 digits) (keyAgreement (Bytes.zero 32) (Bytes.zero 32)).encode = .ok request ∧
      Recovered (basicUtf8 digits) request.paddedPin := by
  obtain ⟨scanned,typed⟩ := setPinRequest_typed_iff (Bytes.zero 32) (Bytes.zero 32)
  obtain ⟨request,made⟩ := @setPinRequest_exists sampleCrypto (basicUtf8 digits) _ _ (fun _ => rfl) scanned
  refine ⟨request,made,?_⟩
  exact (typed basicUtf8 digits rfl sampleCrypto request made).2.2.mpr (by decide)

/-- Forty letters of two bytes each. -/
def longPin : List UInt16 := List.replicate 40 0xDF

theorem longPin_cut : checkPinLength longPin = .ok () ∧ ∀ x y : Bytes 32, ∃ request,
    setPinRequest sampleCrypto (basicUtf8 longPin) (keyAgreement x y).encode = .ok request ∧
      ¬ Recovered (basicUtf8 longPin) request.paddedPin := by
  refine ⟨rfl,fun x y => ?_⟩
  obtain ⟨request,made⟩ := @setPinRequest_exists sampleCrypto (basicUtf8 longPin) _ _ (fun _ => rfl)
    (scanCoordinates_keyAgreement x y)
  refine ⟨request,made,fun recovered => ?_⟩
  rw [(setPinRequest_made made).2,recovered_padPin_iff] at recovered
  exact absurd recovered.1 (by decide)

end Samples

end SetecWizard.Core.Fido2Manager
