import SetecWizard.Core.ByteOrder
import SetecWizard.Library.BlockChaining

/-! Encrypted vault containers: the header, their creation, and the loop that
decrypts one. The primitives of the cryptography provider are parameters; cipher
block chaining and its padding, which decide what a cut-off ciphertext decrypts
to, are not.
-/
namespace SetecWizard.Core
open SetecWizard.Library

inductive VaultAlgorithm where
  | aes256Xts | aes256Cbc | aes256Gcm
deriving DecidableEq

def VaultAlgorithm.id : VaultAlgorithm → UInt8
  | .aes256Xts => 0x01
  | .aes256Cbc => 0x02
  | .aes256Gcm => 0x03

def VaultAlgorithm.ofId (id : UInt8) : Option VaultAlgorithm :=
  if id = 0x01 then some .aes256Xts
  else if id = 0x02 then some .aes256Cbc
  else if id = 0x03 then some .aes256Gcm
  else none

/-- "SPWVAULT1" -/
def VAULT_MAGIC : List UInt8 := [0x53,0x50,0x57,0x56,0x41,0x55,0x4C,0x54,0x31]
def VAULT_VERSION : UInt8 := 0x01
def VAULT_HEADER_SIZE : Nat := 512
def VAULT_SECTOR_SIZE : Nat := 512
def VAULT_HMAC_LEN : Nat := 32
def VAULT_KEY_LEN : Nat := 32
def VAULT_XTS_KEY_LEN : Nat := 64

structure VaultHeader where
  version : UInt8 := VAULT_VERSION
  algorithm : VaultAlgorithm := .aes256Xts
  flags : UInt8 := 0
  pbkdf2Iterations : UInt32 := 500000
  salt : Bytes 32 := .zero 32
  iv : Bytes 16 := .zero 16
  volumeSize : UInt64 := 0
  dataOffset : UInt64 := 512
  hmac : Bytes 32 := .zero 32
deriving DecidableEq

namespace VaultHeader

/-- The magic written is the constant one, whatever was read. -/
def serialize (h : VaultHeader) : List UInt8 :=
  let buf := List.replicate VAULT_HEADER_SIZE 0
  let buf := splice buf 0x00 VAULT_MAGIC
  let buf := splice buf 0x09 [h.version]
  let buf := splice buf 0x0A [h.algorithm.id]
  let buf := splice buf 0x0B [h.flags]
  let buf := splice buf 0x0C (le32 h.pbkdf2Iterations)
  let buf := splice buf 0x10 h.salt.data
  let buf := splice buf 0x30 h.iv.data
  let buf := splice buf 0x40 (le64 h.volumeSize)
  let buf := splice buf 0x48 (le64 h.dataOffset)
  splice buf 0x50 h.hmac.data

def deserialize (data : List UInt8) : Result VaultHeader := do
  refuse (data.length < VAULT_HEADER_SIZE) .invalidArgument "Buffer too small for vault header"
  refuse (slice data 0 9 ≠ VAULT_MAGIC) .decryptionFailed "Invalid vault magic — not a SPWVAULT file"
  let version := data.getD 0x09 0
  refuse (version ≠ VAULT_VERSION) .invalidArgument
    ("Unsupported vault version " ++ toString version.toNat)
  match VaultAlgorithm.ofId (data.getD 0x0A 0) with
  | none => .error (.fromCode .invalidArgument
      ("Unknown vault algorithm ID " ++ toString (data.getD 0x0A 0).toNat))
  | some algorithm =>
    let pbkdf2Iterations := readLE32 data 0x0C
    refuse (pbkdf2Iterations < 10000) .invalidArgument
      ("PBKDF2 iterations suspiciously low (" ++ toString pbkdf2Iterations.toNat ++ ")")
    return {
      version := version
      algorithm := algorithm
      flags := data.getD 0x0B 0
      pbkdf2Iterations := pbkdf2Iterations
      salt := .copy data 0x10 32
      iv := .copy data 0x30 16
      volumeSize := readLE64 data 0x40
      dataOffset := readLE64 data 0x48
      hmac := .copy data 0x50 32 }

def authenticated (h : VaultHeader) : List UInt8 :=
  (splice h.serialize 0x50 (List.replicate VAULT_HMAC_LEN 0)).take (VAULT_HEADER_SIZE - VAULT_HMAC_LEN)

end VaultHeader

/-- What the provider computes, with nothing where it reports a failure. -/
structure Crypto where
  pbkdf2 : List UInt8 → Bytes 32 → UInt32 → (keyLen : Nat) → Option (Bytes keyLen)
  hmacSha256 : List UInt8 → List UInt8 → Bytes 32
  sha256 : List UInt8 → Bytes 32
  xtsEncrypt : List UInt8 → Bytes 16 → Bytes 512 → Option (Bytes 512)
  xtsDecrypt : List UInt8 → Bytes 16 → Bytes 512 → Option (Bytes 512)
  aesEncrypt : List UInt8 → Bytes 16 → Bytes 16
  aesDecrypt : List UInt8 → Bytes 16 → Bytes 16
  gcmSeal : List UInt8 → Bytes 16 → List UInt8 → List UInt8 × Bytes 16
  gcmOpen : List UInt8 → Bytes 16 → List UInt8 → Bytes 16 → Option (List UInt8)

/-- The HMAC is computed while its own field is zero, and stored then. -/
def VaultHeader.withHmac (h : VaultHeader) (crypto : Crypto) (hmacKey : List UInt8) : VaultHeader :=
  { h with hmac := crypto.hmacSha256 hmacKey (h.serialize.take (VAULT_HEADER_SIZE - VAULT_HMAC_LEN)) }

def Bytes.xor {n : Nat} (a b : Bytes n) : Bytes n :=
  ⟨List.zipWith (· ^^^ ·) a.data b.data,by rw [List.length_zipWith,a.size,b.size,Nat.min_self]⟩

/-- A key file, with its content if it can be opened. -/
structure KeyFile where
  path : String
  content : Option (List UInt8)

/-- The password is in UTF-8. -/
structure Credentials where
  password : List UInt8
  keyFile : Option KeyFile := none

def hashKeyFile (crypto : Crypto) (keyFile : KeyFile) : Result (Bytes 32) :=
  match keyFile.content with
  | none => .error (.fromCode .fileNotFound ("Cannot open key file: " ++ keyFile.path))
  | some [] => .error (.fromCode .invalidArgument "Key file is empty")
  | some data => .ok (crypto.sha256 data)

def mixKeyFile {n : Nat} (derivedKey : Bytes n) (hash : Bytes 32) : Bytes n :=
  ⟨derivedKey.data.mapIdx (fun i b => if i < 32 then b ^^^ hash.data.getD i 0 else b),
    by rw [List.length_mapIdx,derivedKey.size]⟩

def deriveKey (crypto : Crypto) (credentials : Credentials) (salt : Bytes 32) (iterations : UInt32)
    (keyLen : Nat) : Result (Bytes keyLen) :=
  match crypto.pbkdf2 credentials.password salt iterations keyLen with
  | none => .error (.fromCode .keyGenerationFailed "BCryptDeriveKeyPBKDF2 failed")
  | some derivedKey =>
    match credentials.keyFile with
    | none => .ok derivedKey
    | some keyFile => (hashKeyFile crypto keyFile).map (mixKeyFile derivedKey)

/-- The whole blocks of a buffer. -/
def toBlocks (data : List UInt8) : List (Bytes 16) :=
  (List.range (data.length / 16)).map (fun i => .copy data (16 * i) 16)

def fromBlocks (blocks : List (Bytes 16)) : List UInt8 := blocks.flatMap (·.data)

def Crypto.cbc (crypto : Crypto) (key : List UInt8) : Chaining (Bytes 16) :=
  ⟨crypto.aesEncrypt key,crypto.aesDecrypt key,Bytes.xor⟩

/-- The tag of GCM is appended to the ciphertext. -/
def encryptBuffer (crypto : Crypto) (plaintext key : List UInt8) (iv : Bytes 16) :
    VaultAlgorithm → Result (List UInt8)
  | .aes256Xts => .error (.fromCode .invalidArgument "Use encryptSectorXts for XTS mode")
  | .aes256Cbc => .ok (fromBlocks ((crypto.cbc key).chain iv (toBlocks (Padding.pad 16 plaintext))))
  | .aes256Gcm => .ok ((crypto.gcmSeal key iv plaintext).1 ++ (crypto.gcmSeal key iv plaintext).2.data)

def decryptBuffer (crypto : Crypto) (ciphertext key : List UInt8) (iv : Bytes 16) :
    VaultAlgorithm → Result (List UInt8)
  | .aes256Xts => .error (.fromCode .invalidArgument "Use decryptSectorXts for XTS mode")
  | .aes256Cbc =>
    if ciphertext.length % 16 ≠ 0 then
      .error (.fromCode .decryptionFailed "BCryptDecrypt size query failed")
    else
      match Padding.unpad 16 (fromBlocks ((crypto.cbc key).unchain iv (toBlocks ciphertext))) with
      | none => .error (.fromCode .decryptionFailed
          "BCryptDecrypt failed — wrong password or corrupted data")
      | some plaintext => .ok plaintext
  | .aes256Gcm =>
    if ciphertext.length < 16 then
      .error (.fromCode .decryptionFailed "GCM ciphertext too short for auth tag")
    else
      let cipherLen := ciphertext.length - 16
      match crypto.gcmOpen key iv (ciphertext.take cipherLen) (.copy ciphertext cipherLen 16) with
      | none => .error (.fromCode .decryptionFailed
          "BCryptDecrypt failed — wrong password or corrupted data")
      | some plaintext => .ok plaintext

def xtsTweak (sectorNumber : UInt64) : Bytes 16 := ⟨le64 sectorNumber ++ List.replicate 8 0,rfl⟩

def encryptSectorXts (crypto : Crypto) (buffer : Bytes 512) (key : List UInt8) (sectorNumber : UInt64) :
    Result (Bytes 512) :=
  match crypto.xtsEncrypt key (xtsTweak sectorNumber) buffer with
  | none => .error (.fromCode .encryptionFailed "XTS sector encryption failed")
  | some sealed => .ok sealed

def decryptSectorXts (crypto : Crypto) (buffer : Bytes 512) (key : List UInt8) (sectorNumber : UInt64) :
    Result (Bytes 512) :=
  match crypto.xtsDecrypt key (xtsTweak sectorNumber) buffer with
  | none => .error (.fromCode .decryptionFailed "XTS sector decryption failed")
  | some plain => .ok plain

def sectorIv (iv : Bytes 16) (sector : UInt64) : Bytes 16 :=
  ⟨iv.data.mapIdx (fun i b => if i < 8 then b ^^^ (sector >>> UInt64.ofNat (i * 8)).toUInt8 else b),
    by rw [List.length_mapIdx,iv.size]⟩

namespace EncryptedVault

def encKeyLen (algorithm : VaultAlgorithm) : Nat :=
  if algorithm = .aes256Xts then VAULT_XTS_KEY_LEN else VAULT_KEY_LEN

def totalKeyLen (algorithm : VaultAlgorithm) : Nat := encKeyLen algorithm + VAULT_KEY_LEN

def encKey (algorithm : VaultAlgorithm) (keyMaterial : List UInt8) : List UInt8 :=
  keyMaterial.take (encKeyLen algorithm)

def hmacKey (algorithm : VaultAlgorithm) (keyMaterial : List UInt8) : List UInt8 :=
  slice keyMaterial (encKeyLen algorithm) VAULT_KEY_LEN

def roundedSize (sizeBytes : UInt64) : UInt64 :=
  (sizeBytes + UInt64.ofNat VAULT_SECTOR_SIZE - 1) &&& ~~~ (UInt64.ofNat VAULT_SECTOR_SIZE - 1)

def newHeader (algorithm : VaultAlgorithm) (pbkdf2Iterations : UInt32) (salt : Bytes 32) (iv : Bytes 16)
    (sizeBytes : UInt64) : VaultHeader :=
  { algorithm := algorithm
    pbkdf2Iterations := pbkdf2Iterations
    salt := salt
    iv := iv
    volumeSize := roundedSize sizeBytes
    dataOffset := UInt64.ofNat VAULT_HEADER_SIZE }

/-- What the system does for `create`: random numbers, the file and its writes,
and the answers of the progress callback. -/
structure CreateEnv where
  salt : Result (Bytes 32)
  iv : Result (Bytes 16)
  opened : Bool := true
  headerWritten : Bool := true
  sectorWritten : Nat → Bool := fun _ => true
  progress : UInt64 → UInt64 → Bool := fun _ _ => true

def encryptSector (crypto : Crypto) (header : VaultHeader) (key : List UInt8) (sector : UInt64) :
    Result (List UInt8) :=
  if header.algorithm = .aes256Xts then
    (encryptSectorXts crypto (.zero 512) key sector).map (·.data)
  else
    encryptBuffer crypto (List.replicate VAULT_SECTOR_SIZE 0) key (sectorIv header.iv sector) header.algorithm

def createLoop (crypto : Crypto) (env : CreateEnv) (header : VaultHeader) (key : List UInt8) :
    Nat → Nat → List UInt8 → Result (List UInt8)
  | 0,_,file => .ok file
  | left + 1,sector,file => do
    let sectorBuf ← encryptSector crypto header key (UInt64.ofNat sector)
    refuse (env.sectorWritten sector = false) .diskWriteError
      ("Failed to write vault sector " ++ toString sector)
    refuse (env.progress ((UInt64.ofNat sector + 1) * UInt64.ofNat VAULT_SECTOR_SIZE) header.volumeSize = false)
      .operationCanceled "Vault creation canceled by user"
    createLoop crypto env header key left (sector + 1) (file ++ sectorBuf)

/-- The content of the file that a successful call leaves; a failed one removes it. -/
def create (crypto : Crypto) (env : CreateEnv) (vaultPath : String) (sizeBytes : UInt64)
    (credentials : Credentials) (algorithm : VaultAlgorithm) (pbkdf2Iterations : UInt32) :
    Result (List UInt8) := do
  refuse (credentials.password = []) .invalidArgument "Password must not be empty"
  refuse (sizeBytes < UInt64.ofNat (VAULT_SECTOR_SIZE * 2)) .invalidArgument
    "Vault size too small (minimum 1024 bytes)"
  let salt ← env.salt
  let iv ← env.iv
  let keyMaterial ← deriveKey crypto credentials salt pbkdf2Iterations (totalKeyLen algorithm)
  let header := (newHeader algorithm pbkdf2Iterations salt iv sizeBytes).withHmac crypto
    (hmacKey algorithm keyMaterial.data)
  refuse (env.opened = false) .fileCreateFailed ("Cannot create vault file: " ++ vaultPath)
  refuse (env.headerWritten = false) .diskWriteError "Failed to write vault header"
  createLoop crypto env header (encKey algorithm keyMaterial.data)
    (header.volumeSize.toNat / VAULT_SECTOR_SIZE) 0 header.serialize

/-- The file is its content, or nothing where it cannot be opened. -/
def readHeader (crypto : Crypto) (vaultPath : String) (file : Option (List UInt8))
    (credentials : Credentials) : Result VaultHeader :=
  match file with
  | none => .error (.fromCode .fileNotFound ("Cannot open vault file: " ++ vaultPath))
  | some content => do
    refuse (content.length < VAULT_HEADER_SIZE) .decryptionFailed
      "File too small to be a vault container"
    let header ← VaultHeader.deserialize (content.take VAULT_HEADER_SIZE)
    let keyMaterial ← deriveKey crypto credentials header.salt header.pbkdf2Iterations
      (totalKeyLen header.algorithm)
    let computedHmac := crypto.hmacSha256 (hmacKey header.algorithm keyMaterial.data) header.authenticated
    refuse (header.hmac ≠ computedHmac) .decryptionFailed
      "HMAC verification failed — wrong password or corrupted vault"
    return header

/-- One sector of the volume. In the block modes the ciphertext stays where the
plaintext is shorter than a sector. -/
def decryptSector (crypto : Crypto) (header : VaultHeader) (key : List UInt8) (sector : UInt64)
    (sectorData : List UInt8) : Result (List UInt8) :=
  if header.algorithm = .aes256Xts then
    (decryptSectorXts crypto (.copy sectorData 0 512) key sector).map (·.data)
  else do
    let decrypted ← decryptBuffer crypto sectorData key (sectorIv header.iv sector) header.algorithm
    let copyLen := min decrypted.length VAULT_SECTOR_SIZE
    return decrypted.take copyLen ++ sectorData.drop copyLen

/-- The loop of `mount` that reads and decrypts the rest of the file sector by sector. -/
def decryptLoop (crypto : Crypto) (header : VaultHeader) (key : List UInt8)
    (progress : UInt64 → UInt64 → Bool) : Nat → Nat → List UInt8 → Result (List UInt8)
  | 0,_,_ => .ok []
  | left + 1,sector,rest => do
    let sectorData := rest.take VAULT_SECTOR_SIZE
    refuse (sectorData.length ≠ VAULT_SECTOR_SIZE) .diskReadError
      ("Failed to read vault sector " ++ toString sector)
    let plain ← decryptSector crypto header key (UInt64.ofNat sector) sectorData
    refuse (progress ((UInt64.ofNat sector + 1) * UInt64.ofNat VAULT_SECTOR_SIZE) header.volumeSize = false)
      .operationCanceled "Vault mount canceled"
    let volume ← decryptLoop crypto header key progress left (sector + 1) (rest.drop VAULT_SECTOR_SIZE)
    return plain ++ volume

/-- The position of a file after a seek whose result is not looked at: a negative one is refused. -/
def seek (pos : Nat) (offset : UInt64) : Nat := if offset.toNat < 2 ^ 63 then offset.toNat else pos

/-- What `mount` does up to the decrypted volume; bytes past the last whole sector stay zero. -/
def decryptVolume (crypto : Crypto) (vaultPath : String) (file : Option (List UInt8))
    (credentials : Credentials) (progress : UInt64 → UInt64 → Bool) :
    Result (VaultHeader × List UInt8) := do
  let header ← readHeader crypto vaultPath file credentials
  let keyMaterial ← deriveKey crypto credentials header.salt header.pbkdf2Iterations
    (totalKeyLen header.algorithm)
  match file with
  | none => .error (.fromCode .fileNotFound "Cannot open vault file for mounting")
  | some content =>
    let volume ← decryptLoop crypto header (encKey header.algorithm keyMaterial.data) progress
      (header.volumeSize.toNat / VAULT_SECTOR_SIZE) 0 (content.drop (seek 0 header.dataOffset))
    return (header,volume ++ List.replicate (header.volumeSize.toNat % VAULT_SECTOR_SIZE) 0)

end EncryptedVault

/-! Changing the password of a vault: every sector of the file is decrypted and
encrypted again where it lies, and the header follows when all of them are done.
Each step of it that may fail is answered by the system.
-/

/-- An open file: a read and a write start at the position and move it. -/
structure QFile where
  content : List UInt8
  pos : Nat := 0

namespace QFile

def seek (file : QFile) (offset : UInt64) : QFile := { file with pos := EncryptedVault.seek file.pos offset }

/-- At most `limit` bytes are delivered. -/
def read (file : QFile) (size limit : Nat) : List UInt8 × QFile :=
  let data := (slice file.content file.pos size).take limit
  (data,{ file with pos := file.pos + data.length })

/-- At most `limit` bytes reach the file, and as many are reported. -/
def write (file : QFile) (data : List UInt8) (limit : Nat) : Nat × QFile :=
  let moved := data.take limit
  (moved.length,{ content := splice file.content file.pos moved, pos := file.pos + moved.length })

end QFile

/-- What the system does for `changePassword`, sector by sector. A cipher or the HMAC
that fails does so with an error. -/
structure ChangeEnv where
  salt : Result (Bytes 32)
  opened : Bool := true
  sectorRead : Nat → Nat := fun _ => VAULT_SECTOR_SIZE
  decryptFails : Nat → Option ErrorInfo := fun _ => none
  encryptFails : Nat → Option ErrorInfo := fun _ => none
  sectorWritten : Nat → Nat := fun _ => VAULT_SECTOR_SIZE
  hmacFails : Option ErrorInfo := none
  headerWritten : Nat := VAULT_HEADER_SIZE

def failing (fault : Option ErrorInfo) : Result Unit := fault.elim (.ok ()) .error

namespace EncryptedVault

def reencryptSector (crypto : Crypto) (env : ChangeEnv) (header : VaultHeader) (oldEncKey newEncKey : List UInt8)
    (sector : Nat) (sectorData : List UInt8) : Result (List UInt8) :=
  if header.algorithm = .aes256Xts then do
    failing (env.decryptFails sector)
    let plain ← decryptSectorXts crypto (.copy sectorData 0 512) oldEncKey (UInt64.ofNat sector)
    failing (env.encryptFails sector)
    let sealed ← encryptSectorXts crypto plain newEncKey (UInt64.ofNat sector)
    return sealed.data
  else do
    let iv := sectorIv header.iv (UInt64.ofNat sector)
    failing (env.decryptFails sector)
    let decrypted ← decryptBuffer crypto sectorData oldEncKey iv header.algorithm
    failing (env.encryptFails sector)
    encryptBuffer crypto decrypted newEncKey iv header.algorithm

def sectorOffset (header : VaultHeader) (sector : Nat) : UInt64 :=
  header.dataOffset + UInt64.ofNat sector * UInt64.ofNat VAULT_SECTOR_SIZE

def changeLoop (crypto : Crypto) (env : ChangeEnv) (header : VaultHeader) (oldEncKey newEncKey : List UInt8) :
    Nat → Nat → QFile → Mutation QFile
  | 0,_,file => (.ok (),file)
  | left + 1,sector,file =>
    let (sectorData,file) :=
      (file.seek (sectorOffset header sector)).read VAULT_SECTOR_SIZE (env.sectorRead sector)
    if sectorData.length ≠ VAULT_SECTOR_SIZE then
      (.error (.fromCode .diskReadError
        ("Short read during password change at sector " ++ toString sector)),file)
    else
      match reencryptSector crypto env header oldEncKey newEncKey sector sectorData with
      | .error e => (.error e,file)
      | .ok sectorBuf =>
        let (written,file) :=
          (file.seek (sectorOffset header sector)).write sectorBuf (env.sectorWritten sector)
        if written ≠ sectorBuf.length then
          (.error (.fromCode .diskWriteError "Write failed during password change"),file)
        else changeLoop crypto env header oldEncKey newEncKey left (sector + 1) file

def changeKeys (crypto : Crypto) (env : ChangeEnv) (vaultPath : String) (file : Option (List UInt8))
    (current new : Credentials) : Result (VaultHeader × List UInt8 × List UInt8) := do
  refuse (new.password = []) .invalidArgument "New password must not be empty"
  let header ← readHeader crypto vaultPath file current
  let salt ← env.salt
  let oldKey ← deriveKey crypto current header.salt header.pbkdf2Iterations (totalKeyLen header.algorithm)
  let newKey ← deriveKey crypto new salt header.pbkdf2Iterations (totalKeyLen header.algorithm)
  refuse (env.opened = false) .diskAccessDenied "Cannot open vault for password change"
  return ({ header with salt := salt },oldKey.data,newKey.data)

def rewriteHeader (crypto : Crypto) (env : ChangeEnv) (header : VaultHeader) (newKey : List UInt8)
    (file : QFile) : Mutation QFile :=
  match env.hmacFails with
  | some e => (.error e,file)
  | none =>
    let header := { header with hmac := .zero 32 }.withHmac crypto (hmacKey header.algorithm newKey)
    let (written,file) := (file.seek 0).write header.serialize env.headerWritten
    if written ≠ VAULT_HEADER_SIZE then
      (.error (.fromCode .diskWriteError "Failed to write updated vault header"),file)
    else (.ok (),file)

/-- The result, and the content of the file afterwards. -/
def changePassword (crypto : Crypto) (env : ChangeEnv) (vaultPath : String) (current new : Credentials)
    (file : Option (List UInt8)) : Mutation (Option (List UInt8)) :=
  match file,changeKeys crypto env vaultPath file current new with
  | _,.error e => (.error e,file)
  | none,.ok _ => (.error (.fromCode .diskAccessDenied "Cannot open vault for password change"),file)
  | some content,.ok (header,oldKey,newKey) =>
    match changeLoop crypto env header (encKey header.algorithm oldKey) (encKey header.algorithm newKey)
        (header.volumeSize.toNat / VAULT_SECTOR_SIZE) 0 { content := content } with
    | (.error e,file) => (.error e,some file.content)
    | (.ok _,file) =>
      let (result,file) := rewriteHeader crypto env header newKey file
      (result,some file.content)

end EncryptedVault

end SetecWizard.Core
