import SetecWizard.Core.EncryptedVault
import SetecWizard.Core.RawDiskHandle

/-! Mounting and unmounting vaults. A mounted vault is spread over the table of
mounts, the temporary VHD with its plaintext, and the disks the system has
attached, so that all three make up the state.
-/
namespace SetecWizard.Core
open SetecWizard.Library

def ERROR_SUCCESS : UInt32 := 0

structure MountedVaultInfo where
  vaultPath : String
  mountPoint : String
  algorithm : VaultAlgorithm
  volumeSize : UInt64
  readOnly : Bool
deriving DecidableEq

/-- `createdVhd` is not in the source: the file that was made for this mount. -/
structure MountEntry where
  info : MountedVaultInfo
  tempVhdPath : String
  createdVhd : String
deriving DecidableEq

structure Attachment where
  vhdPath : String
  readOnly : Bool
deriving DecidableEq

/-- The files with their contents; the table has one entry for each vault path. -/
structure VaultState where
  files : String → Option (List UInt8)
  attached : List Attachment := []
  mounted : List (String × MountEntry) := []

/-- The directory for temporary files, and the name of a file up to its first dot. -/
structure Paths where
  tempPath : String
  baseName : String → String

def Paths.tempVhd (paths : Paths) (name : String) : String := paths.tempPath ++ "/" ++ name ++ ".vhd"

/-- What Qt and the system answer during one call of `mount`. -/
structure MountEnv where
  uuid : String
  uniqueId : Bytes 16 := .zero 16
  vhdOpened : Bool := true
  dataWritten : Bool := true
  footerWritten : Bool := true
  openResult : UInt32 := ERROR_SUCCESS
  attachResult : UInt32 := ERROR_SUCCESS
  physicalPath : String := ""
  progress : UInt64 → UInt64 → Bool := fun _ _ => true

/-- What the system answers when a VHD that exists is opened and detached. -/
structure DetachAnswers where
  openResult : UInt32 := ERROR_SUCCESS
  detachResult : UInt32 := ERROR_SUCCESS
deriving DecidableEq

def be32 (v : UInt32) : List UInt8 := (le32 v).reverse

def be64 (v : UInt64) : List UInt8 := be32 (v >>> 32).toUInt32 ++ be32 v.toUInt32

def vhdGeometry (diskSize : UInt64) : UInt16 × UInt8 × UInt8 :=
  let totalSectors := min (diskSize / 512) (65535 * 16 * 255)
  if 65535 * 16 * 63 ≤ totalSectors then ((totalSectors / (16 * 255)).toUInt16,16,255)
  else
    let cylindersTimesHeads := totalSectors / 17
    let heads := ((cylindersTimesHeads + 1023) / 1024).toUInt8
    let heads := if heads < 4 then 4 else heads
    let (cylindersTimesHeads,heads,sectorsPerTrack) :=
      if heads.toUInt64 * 1024 ≤ cylindersTimesHeads ∨ 16 < heads then (totalSectors / 31,16,31)
      else (cylindersTimesHeads,heads,17)
    let (cylindersTimesHeads,heads,sectorsPerTrack) :=
      if heads.toUInt64 * 1024 ≤ cylindersTimesHeads then (totalSectors / 63,16,63)
      else (cylindersTimesHeads,heads,sectorsPerTrack)
    ((cylindersTimesHeads / heads.toUInt64).toUInt16,heads,sectorsPerTrack)

/-- One's complement of the sum of the bytes around the checksum field. -/
def vhdChecksum (footer : List UInt8) : UInt32 :=
  ~~~ (footer.take 64 ++ footer.drop 68).foldl (fun sum b => sum + b.toUInt32) 0

def vhdFooter (diskSize : UInt64) (uniqueId : Bytes 16) : List UInt8 :=
  let (cylinders,heads,sectorsPerTrack) := vhdGeometry diskSize
  let footer := List.replicate 512 0
  let footer := splice footer 0 [0x63,0x6F,0x6E,0x65,0x63,0x74,0x69,0x78]
  let footer := splice footer 8 [0x00,0x00,0x00,0x02]
  let footer := splice footer 12 [0x00,0x01,0x00,0x00]
  let footer := splice footer 16 (List.replicate 8 0xFF)
  let footer := splice footer 28 [0x73,0x70,0x77,0x20]
  let footer := splice footer 32 [0x00,0x01,0x00,0x00]
  let footer := splice footer 36 [0x57,0x69,0x32,0x6B]
  let footer := splice footer 40 (be64 diskSize)
  let footer := splice footer 48 (be64 diskSize)
  let footer := splice footer 56 [(cylinders >>> 8).toUInt8,cylinders.toUInt8,heads,sectorsPerTrack]
  let footer := splice footer 60 [0x00,0x00,0x00,0x02]
  let footer := splice footer 68 uniqueId.data
  splice footer 64 (be32 (vhdChecksum footer))

namespace VaultState

def setFile (s : VaultState) (path : String) (content : Option (List UInt8)) : VaultState :=
  { s with files := fun other => if other = path then content else s.files other }

/-- The mount point is what the buffer of `GetVirtualDiskPhysicalPath` holds, whether
or not that call succeeded. -/
def createAndAttachVhd (paths : Paths) (env : MountEnv) (decryptedData : List UInt8) (readOnly : Bool)
    (s : VaultState) : Result String × VaultState :=
  let tempVhdPath := paths.tempVhd ("spw_vault_" ++ env.uuid)
  if env.vhdOpened = false then
    (.error (.fromCode .fileCreateFailed ("Cannot create temporary VHD: " ++ tempVhdPath)),s)
  else if env.dataWritten = false then
    (.error (.fromCode .diskWriteError "Failed to write VHD data"),s.setFile tempVhdPath none)
  else if env.footerWritten = false then
    (.error (.fromCode .diskWriteError "Failed to write VHD footer"),s.setFile tempVhdPath none)
  else if env.openResult ≠ ERROR_SUCCESS then
    (.error (.fromWin32 .encryptionFailed env.openResult "Failed to open virtual disk"),
      s.setFile tempVhdPath none)
  else if env.attachResult ≠ ERROR_SUCCESS then
    (.error (.fromWin32 .encryptionFailed env.attachResult "Failed to attach virtual disk"),
      s.setFile tempVhdPath none)
  else
    let footer := vhdFooter (UInt64.ofNat decryptedData.length) env.uniqueId
    (.ok env.physicalPath,
      { s.setFile tempVhdPath (some (decryptedData ++ footer)) with
        attached := { vhdPath := tempVhdPath,readOnly := readOnly } :: s.attached })

def detachVhd (answers : DetachAnswers) (vhdPath : String) (s : VaultState) : Result Unit × VaultState :=
  let result := if (s.files vhdPath).isNone then ERROR_FILE_NOT_FOUND else answers.openResult
  if result ≠ ERROR_SUCCESS then
    (.error (.fromWin32 .encryptionFailed result "Failed to open VHD for detaching"),s)
  else if answers.detachResult ≠ ERROR_SUCCESS then
    (.error (.fromWin32 .encryptionFailed answers.detachResult "Failed to detach virtual disk"),s)
  else
    (.ok (),{ s.setFile vhdPath none with attached := s.attached.filter (·.vhdPath != vhdPath) })

def mount (paths : Paths) (crypto : Crypto) (vaultPath : String) (credentials : Credentials)
    (readOnly : Bool) (env : MountEnv) (s : VaultState) : Result String × VaultState :=
  if s.mounted.any (·.1 == vaultPath) then
    (.error (.fromCode .invalidArgument ("Vault is already mounted: " ++ vaultPath)),s)
  else
    match EncryptedVault.decryptVolume crypto vaultPath (s.files vaultPath) credentials env.progress with
    | .error e => (.error e,s)
    | .ok (header,decryptedData) =>
      match s.createAndAttachVhd paths env decryptedData readOnly with
      | (.error e,s) => (.error e,s)
      | (.ok mountPoint,s) =>
        let entry : MountEntry := {
          info := {
            vaultPath := vaultPath
            mountPoint := mountPoint
            algorithm := header.algorithm
            volumeSize := header.volumeSize
            readOnly := readOnly }
          tempVhdPath := paths.tempVhd (paths.baseName vaultPath)
          createdVhd := paths.tempVhd ("spw_vault_" ++ env.uuid) }
        (.ok mountPoint,{ s with mounted := (vaultPath,entry) :: s.mounted })

def findMounted (s : VaultState) (vaultPathOrMountPoint : String) : Option (String × MountEntry) :=
  (s.mounted.find? (·.1 == vaultPathOrMountPoint)).or
    (s.mounted.find? (·.2.info.mountPoint == vaultPathOrMountPoint))

/-- The entry is dropped even where the disk stays attached. -/
def unmount (answers : String → DetachAnswers) (vaultPathOrMountPoint : String) (s : VaultState) :
    Result Unit × VaultState :=
  match s.findMounted vaultPathOrMountPoint with
  | none => (.error (.fromCode .invalidArgument
      ("No mounted vault found for: " ++ vaultPathOrMountPoint)),s)
  | some (key,entry) =>
    let (result,s) := s.detachVhd (answers entry.tempVhdPath) entry.tempVhdPath
    (result,{ s with mounted := s.mounted.filter (·.1 != key) })

/-- The loop of `unmountAll`, with the last error so far. -/
def detachEach (answers : String → DetachAnswers) :
    List (String × MountEntry) → ErrorInfo → VaultState → ErrorInfo × VaultState
  | [],lastError,s => (lastError,s)
  | (_,entry) :: rest,lastError,s =>
    match s.detachVhd (answers entry.tempVhdPath) entry.tempVhdPath with
    | (.ok _,s) => detachEach answers rest lastError s
    | (.error e,s) => detachEach answers rest e s

def unmountAll (answers : String → DetachAnswers) (s : VaultState) : Result Unit × VaultState :=
  let (lastError,s) := detachEach answers s.mounted {} s
  (if lastError.code = .success then .ok () else .error lastError,{ s with mounted := [] })

def writeDisk (vhdPath : String) (offset : Nat) (bytes : List UInt8) (s : VaultState) : VaultState :=
  match s.files vhdPath with
  | none => s
  | some content =>
    if s.attached.any (fun a => a.vhdPath == vhdPath && !a.readOnly) ∧
        offset + bytes.length + 512 ≤ content.length then
      s.setFile vhdPath (some (splice content offset bytes))
    else s

end VaultState

/-- The calls of the vault's user, and the writes to its disk. -/
inductive VaultAction where
  | mount (vaultPath : String) (credentials : Credentials) (readOnly : Bool) (env : MountEnv)
  | unmount (answers : String → DetachAnswers) (vaultPathOrMountPoint : String)
  | unmountAll (answers : String → DetachAnswers)
  | write (vhdPath : String) (offset : Nat) (bytes : List UInt8)

def VaultState.step (paths : Paths) (crypto : Crypto) (s : VaultState) : VaultAction → VaultState
  | .mount vaultPath credentials readOnly env => (s.mount paths crypto vaultPath credentials readOnly env).2
  | .unmount answers key => (s.unmount answers key).2
  | .unmountAll answers => (s.unmountAll answers).2
  | .write vhdPath offset bytes => s.writeDisk vhdPath offset bytes

end SetecWizard.Core
