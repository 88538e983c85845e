import SetecWizard.Core.Fido2Manager
import SetecWizard.Library.Footprint

/-! The PIN commands of Fido2Manager: the number of tries left and a new PIN. What a message brings
back over the channel that was opened for it, and what BCrypt computes, are the host. The walk
through the answer about the tries leaves a trace of the bytes it reads.
-/
namespace SetecWizard.Core.Fido2Manager
open SetecWizard.Library Traced

section Retries

def byteAt (data : List UInt8) (p : Nat) : Traced Access UInt8 := tell ⟨data.length,p,1⟩ (data.getD p 0)

variable (response : List UInt8)

/-- The loop that looks for key 3. -/
def findRetries : Nat → Nat → Traced Access UInt32
  | 0,_ => pure 0
  | left + 1,pos =>
    if pos < response.length then do
      let key ← byteAt response pos
      if key &&& 0x1F = 0x03 then do
        -- whether there is a byte behind the key is not asked
        let retries ← byteAt response (pos + 1)
        if retries &&& 0x1F = 24 ∧ pos + 2 < response.length then do
          let retries ← byteAt response (pos + 2)
          return retries.toUInt32
        else return (retries &&& 0x1F).toUInt32
      else findRetries left (pos + 2)
    else pure 0

def readRetries : Traced Access (Result UInt32) :=
  if response.length < 4 then pure (.error (.fromCode .fido2AuthFailed "getPinRetries response too short"))
  else do
    let mapHeader ← byteAt response 0
    let retries ← findRetries response (mapHeader &&& 0x1F).toNat 1
    return .ok retries

def getPinRetryCount (command : List UInt8 → Result (List UInt8)) : Traced Access (Result UInt32) :=
  match command [0xA2,0x01,0x01,0x02,0x01] with
  | .error e => pure (.error e)
  | .ok response => readRetries response

end Retries

section NewPin

/-- The calls to BCrypt that setPin checks. -/
inductive PinStep where
  | openProvider | generateKeyPair | finalizeKeyPair | publicKeySize | exportPublicKey
  | importKeyPair | secretAgreement | secretSize | deriveKey
deriving DecidableEq

def PinStep.message : PinStep → String
  | openProvider => "Cannot open ECDH P-256 provider"
  | generateKeyPair => "Cannot generate ephemeral ECDH key"
  | finalizeKeyPair => "Cannot finalize ephemeral ECDH key"
  | publicKeySize => "Cannot determine ephemeral public key size"
  | exportPublicKey => "Cannot export ephemeral public key"
  | importKeyPair => "Cannot import authenticator public key"
  | secretAgreement => "ECDH secret agreement failed"
  | secretSize => "Cannot determine ECDH raw secret size"
  | deriveKey => "ECDH key derivation failed"

/-- Which calls fail, the blob of the ephemeral key, the secret it shares with the key of the
authenticator, hashed, and the cipher under that secret. -/
structure PinCrypto where
  fails : PinStep → Bool
  pubKeyBlob : List UInt8
  sharedSecret : List UInt8 → List UInt8
  encrypt : List UInt8 → List UInt8 → List UInt8

def PinCrypto.attempt (crypto : PinCrypto) (step : PinStep) : Result Unit :=
  refuse (crypto.fails step = true) .fido2AuthFailed step.message

/-- The head of a byte string of length 32. -/
def coordinateAt (keyAgreeData : List UInt8) (p : Nat) : Prop :=
  keyAgreeData.getD p 0 = 0x58 ∧ keyAgreeData.getD (p + 1) 0 = 0x20

instance (keyAgreeData : List UInt8) (p : Nat) : Decidable (coordinateAt keyAgreeData p) :=
  inferInstanceAs (Decidable (_ ∧ _))

/-- The pair of coordinates. The second one is looked for behind the first; where there is none,
the scan for the first goes on. -/
def scanCoordinates (keyAgreeData : List UInt8) : Option (List UInt8 × List UInt8) :=
  (List.range (keyAgreeData.length - 34)).findSome? fun p =>
    if coordinateAt keyAgreeData p then do
      let nextPos := p + 34
      let q ← (List.range' nextPos (keyAgreeData.length + 1 - 34 - nextPos)).find? (coordinateAt keyAgreeData ·)
      return (slice keyAgreeData (p + 2) 32,slice keyAgreeData (q + 2) 32)
    else none

def padPin (pinBytes : List UInt8) : List UInt8 :=
  let copied := pinBytes.take 64
  copied ++ List.replicate (64 - copied.length) 0

/-- The message that sets a PIN, with what it is made of. -/
structure PinRequest where
  authX : List UInt8
  authY : List UInt8
  paddedPin : List UInt8
  setPinCbor : List UInt8
deriving DecidableEq

def setPinRequest (crypto : PinCrypto) (pinBytes keyAgreeData : List UInt8) : Result PinRequest := do
  [.openProvider,.generateKeyPair,.finalizeKeyPair,.publicKeySize,.exportPublicKey].forM crypto.attempt
  match scanCoordinates keyAgreeData with
  | none => .error (.fromCode .fido2AuthFailed "Cannot parse authenticator public key from CBOR")
  | some (authX,authY) =>
    [.importKeyPair,.secretAgreement,.secretSize,.deriveKey].forM crypto.attempt
    let paddedPin := padPin pinBytes
    let encPin := crypto.encrypt (crypto.sharedSecret (authX ++ authY)) paddedPin
    return { authX,authY,paddedPin
             setPinCbor :=
               [0xA4,0x01,0x01,0x02,0x03,0x03,0xA5,0x01,0x02,0x03,0x38,0x18,0x20,0x01] ++
                 [0x21,0x58,0x20] ++ slice crypto.pubKeyBlob 8 32 ++ [0x22,0x58,0x20] ++ slice crypto.pubKeyBlob 40 32 ++
                 [0x04,0x58,UInt8.ofNat encPin.length] ++ encPin }

/-- The PIN is a string of 16-bit units; its bytes are what QString makes of them. -/
def checkPinLength (newPin : List UInt16) : Result Unit :=
  refuse (newPin.length < 4 ∨ 63 < newPin.length) .invalidArgument "PIN must be between 4 and 63 characters"

def setPin (command : List UInt8 → Result (List UInt8)) (crypto : PinCrypto) (toUtf8 : List UInt16 → List UInt8)
    (newPin : List UInt16) : Result Unit := do
  checkPinLength newPin
  let keyAgreeData ← command [0xA2,0x01,0x01,0x02,0x02]
  let request ← setPinRequest crypto (toUtf8 newPin) keyAgreeData
  let _ ← command request.setPinCbor
  return ()

end NewPin

end SetecWizard.Core.Fido2Manager
