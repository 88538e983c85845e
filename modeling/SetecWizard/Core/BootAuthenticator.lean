import SetecWizard.Core.EncryptedVault

/-! Boot keys on USB drives: the token file, its creation, and the two checks of it.
A string is its UTF-8 bytes. Decoding a hexadecimal string may throw, which is
`none` where a result is expected.
-/
namespace SetecWizard.Core
open SetecWizard.Library

/-- "SPWBOOT1" -/
def BOOT_MAGIC : List UInt8 := [0x53,0x50,0x57,0x42,0x4F,0x4F,0x54,0x31]
def BOOT_MAGIC_LEN : Nat := 8
def BOOT_SERIAL_HASH_LEN : Nat := 32
def BOOT_TOKEN_LEN : Nat := 32
def BOOT_HMAC_LEN : Nat := 32
def BOOT_TOKEN_FILE_SIZE : Nat := BOOT_MAGIC_LEN + BOOT_SERIAL_HASH_LEN + BOOT_TOKEN_LEN + BOOT_HMAC_LEN

structure UsbDriveInfo where
  driveLetter : String
  serialNumber : List UInt8 := []

structure BootKeyConfig where
  enabled : Bool := false
  tokenHashHex : List UInt8 := []
  serialHashHex : List UInt8 := []
  createdTimestamp : String := ""
  lastVerifiedTimestamp : String := ""

def hexDigit (digit : UInt8) : UInt8 := if digit < 10 then 0x30 + digit else 0x57 + digit

def toHex (data : List UInt8) : List UInt8 :=
  data.flatMap (fun b : UInt8 => [hexDigit (b >>> 4),hexDigit (b &&& 0x0F)])

def hexValue (c : UInt8) : Option UInt8 :=
  if 0x30 ≤ c ∧ c ≤ 0x39 then some (c - 0x30)
  else if 0x41 ≤ c ∧ c ≤ 0x46 then some (c - 0x37)
  else if 0x61 ≤ c ∧ c ≤ 0x66 then some (c - 0x57)
  else none

/-- `std::stoi` of two characters in base 16, as a byte. White space or a sign may come
before the digits and anything after them; where there is no digit it throws. -/
def stoi (c d : UInt8) : Option UInt8 :=
  match hexValue c,hexValue d with
  | some high,some low => some (high * 16 + low)
  | some value,none => some value
  | none,some value =>
    if c = 0x20 ∨ 0x09 ≤ c ∧ c ≤ 0x0D ∨ c = 0x2B then some value
    else if c = 0x2D then some (0 - value)
    else none
  | none,none => none

/-- A last character without a partner is left out. -/
def fromHex : List UInt8 → Option (List UInt8)
  | c :: d :: rest => do
    let byte ← stoi c d
    let bytes ← fromHex rest
    return byte :: bytes
  | _ => some []

def constantTimeCompare (a b : List UInt8) (len : Nat) : Bool := slice a 0 len = slice b 0 len

/-- The token files by the letters of their drives, and the stored configuration. -/
structure BootState where
  files : String → Option (List UInt8)
  config : BootKeyConfig := {}

/-- What Qt and the system answer during one call. -/
structure BootEnv where
  usbSerial : String → Result (List UInt8)
  removable : List String := []
  random : Result (Bytes 32) := .ok (.zero 32)
  opened : Bool := true
  tokenWritten : Bool := true
  now : String := ""

namespace BootState

def setFile (s : BootState) (driveLetter : String) (content : Option (List UInt8)) : BootState :=
  { s with files := fun other => if other = driveLetter then content else s.files other }

def saveConfig (s : BootState) (config : BootKeyConfig) : BootState := { s with config := config }

end BootState

namespace BootAuthenticator

def enumerateUsbDrives (env : BootEnv) : Result (List UsbDriveInfo) :=
  .ok (env.removable.map (fun driveLetter =>
    { driveLetter := driveLetter, serialNumber := (env.usbSerial driveLetter).toOption.getD [] }))

def generateTokenBlob (crypto : Crypto) (env : BootEnv) (usbSerial : List UInt8) : Result (List UInt8) :=
  env.random.map (fun token =>
    let covered := BOOT_MAGIC ++ (crypto.sha256 usbSerial).data ++ token.data
    covered ++ (crypto.hmacSha256 token.data covered).data)

def token (blob : List UInt8) : List UInt8 :=
  slice blob (BOOT_MAGIC_LEN + BOOT_SERIAL_HASH_LEN) BOOT_TOKEN_LEN

def serialHash (blob : List UInt8) : List UInt8 := slice blob BOOT_MAGIC_LEN BOOT_SERIAL_HASH_LEN

def createBootKey (crypto : Crypto) (env : BootEnv) (driveLetter : String) (s : BootState) :
    Mutation BootState :=
  match env.usbSerial driveLetter with
  | .error _ => (.error (.fromCode .diskNotFound
      ("Cannot determine USB serial for drive " ++ driveLetter ++ " — is this a USB drive?")),s)
  | .ok usbSerial =>
    match generateTokenBlob crypto env usbSerial with
    | .error e => (.error e,s)
    | .ok blob =>
      if env.opened = false then
        (.error (.fromCode .fileCreateFailed
          ("Cannot create boot token file: " ++ driveLetter ++ "\\.spwboot")),s)
      else if env.tokenWritten = false then
        (.error (.fromCode .diskWriteError "Failed to write boot token file"),s.setFile driveLetter none)
      else
        let config : BootKeyConfig := {
          enabled := true
          tokenHashHex := toHex (crypto.sha256 (token blob)).data
          serialHashHex := toHex (crypto.sha256 usbSerial).data
          createdTimestamp := env.now
          lastVerifiedTimestamp := "" }
        (.ok (),(s.setFile driveLetter (some blob)).saveConfig config)

def readTokenFile (s : BootState) (driveLetter : String) : Result (List UInt8) :=
  match s.files driveLetter with
  | none => .error (.fromCode .fileNotFound ("Boot token file not found on " ++ driveLetter))
  | some raw =>
    if raw.length ≠ BOOT_TOKEN_FILE_SIZE then
      .error (.fromCode .decryptionFailed ("Boot token file has wrong size: expected "
        ++ toString BOOT_TOKEN_FILE_SIZE ++ ", got " ++ toString raw.length))
    else .ok raw

def validateTokenBlob (crypto : Crypto) (data : List UInt8) : Result Unit := do
  refuse (data.length ≠ BOOT_TOKEN_FILE_SIZE) .invalidArgument "Invalid token blob size"
  refuse (slice data 0 BOOT_MAGIC_LEN ≠ BOOT_MAGIC) .decryptionFailed "Invalid boot token magic"
  let hmacInputLen := BOOT_MAGIC_LEN + BOOT_SERIAL_HASH_LEN + BOOT_TOKEN_LEN
  let storedHmac := data.drop hmacInputLen
  let hmac := crypto.hmacSha256 (token data) (slice data 0 hmacInputLen)
  refuse (constantTimeCompare storedHmac hmac.data BOOT_HMAC_LEN = false) .decryptionFailed
    "Boot token HMAC verification failed — token may be corrupted or tampered with"

/-- What the loop of `verifyBootKey` asks of one drive. -/
def matchesKey (crypto : Crypto) (s : BootState) (expectedTokenHash expectedSerialHash : List UInt8)
    (driveLetter : String) : Bool :=
  match readTokenFile s driveLetter with
  | .error _ => false
  | .ok blob =>
    match validateTokenBlob crypto blob with
    | .error _ => false
    | .ok _ =>
      if expectedSerialHash.length = BOOT_SERIAL_HASH_LEN ∧
          constantTimeCompare (serialHash blob) expectedSerialHash BOOT_SERIAL_HASH_LEN = false then false
      else expectedTokenHash.length = 32 ∧
        constantTimeCompare (crypto.sha256 (token blob)).data expectedTokenHash 32

def verifyBootKey (crypto : Crypto) (env : BootEnv) (s : BootState) : Option (Result String × BootState) :=
  if s.config.enabled = false then
    some (.error (.fromCode .invalidArgument "Boot authentication is not enabled"),s)
  else if s.config.tokenHashHex = [] ∨ s.config.serialHashHex = [] then
    some (.error (.fromCode .invalidArgument "Boot key configuration is incomplete"),s)
  else
    match enumerateUsbDrives env with
    | .error e => some (.error e,s)
    | .ok drives => do
      let expectedTokenHash ← fromHex s.config.tokenHashHex
      let expectedSerialHash ← fromHex s.config.serialHashHex
      match drives.find? (fun drive => matchesKey crypto s expectedTokenHash expectedSerialHash drive.driveLetter) with
      | some drive =>
        return (.ok drive.driveLetter,s.saveConfig { s.config with lastVerifiedTimestamp := env.now })
      | none =>
        return (.error (.fromCode .fido2AuthFailed "No valid boot key found on any connected USB drive"),s)

def verifyDrive (crypto : Crypto) (s : BootState) (driveLetter : String) : Option (Result Unit) :=
  if s.config.enabled = false then
    some (.error (.fromCode .invalidArgument "Boot authentication is not enabled"))
  else
    match readTokenFile s driveLetter with
    | .error e => some (.error e)
    | .ok blob =>
      match validateTokenBlob crypto blob with
      | .error e => some (.error e)
      | .ok _ => do
        let expectedSerialHash ← fromHex s.config.serialHashHex
        if expectedSerialHash.length = BOOT_SERIAL_HASH_LEN ∧
            constantTimeCompare (serialHash blob) expectedSerialHash BOOT_SERIAL_HASH_LEN = false then
          return .error (.fromCode .fido2AuthFailed "USB device serial does not match registered boot key")
        else
          let expectedTokenHash ← fromHex s.config.tokenHashHex
          if expectedTokenHash.length = 32 ∧
              constantTimeCompare (crypto.sha256 (token blob)).data expectedTokenHash 32 = false then
            return .error (.fromCode .fido2AuthFailed "Boot token does not match registered configuration")
          else return .ok ()

end BootAuthenticator
end SetecWizard.Core
