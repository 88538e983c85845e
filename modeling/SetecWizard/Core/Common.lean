import Mathlib.Data.List.Basic

/-! Error codes, results, identifiers and constants of core/common. A result
carries the error the source returns, with its message, and nothing is thrown.
-/
namespace SetecWizard.Core

inductive ErrorCode where
  | success
  | unknown | invalidArgument | notImplemented | operationCanceled | insufficientPrivileges
  | diskNotFound | diskAccessDenied | diskReadError | diskWriteError | diskLockFailed
  | diskDismountFailed | diskBusy | sectorOutOfRange
  | partitionNotFound | partitionTableCorrupt | partitionTableFull | partitionOverlap
  | partitionTooSmall | partitionTooLarge | invalidPartitionType | alignmentError
  | filesystemNotSupported | filesystemCorrupt | formatFailed | resizeFailed
  | filesystemTooSmallToShrink | filesystemCheckFailed
  | noPartitionsFound | noFilesRecovered | recoveryScanFailed
  | imageCorrupt | imageChecksumMismatch | imageReadError | imageWriteError | isoParseError
  | insufficientDiskSpace | decompressionFailed
  | fido2DeviceNotFound | fido2PinRequired | fido2AuthFailed | encryptionFailed
  | decryptionFailed | keyGenerationFailed
  | smartNotSupported | smartReadFailed | benchmarkFailed
  | bootRepairFailed | bcdNotFound | mbrRepairFailed
  | outOfMemory | fileNotFound | fileCreateFailed | wmiQueryFailed
deriving DecidableEq

structure ErrorInfo where
  code : ErrorCode := .success
  message : String := ""
  win32Error : UInt32 := 0
  hresult : Int := 0
deriving DecidableEq

def ErrorInfo.fromCode (code : ErrorCode) (msg : String) : ErrorInfo :=
  { code := code, message := msg }

abbrev Result (α : Type) := Except ErrorInfo α

/-- The early return of an error. -/
def refuse (condition : Prop) [Decidable condition] (code : ErrorCode) (msg : String) : Result Unit :=
  if condition then .error (.fromCode code msg) else .ok ()

theorem refuse_ok {condition : Prop} [Decidable condition] {code : ErrorCode} {msg : String} :
    refuse condition code msg = .ok () ↔ ¬ condition := by
  unfold refuse
  split <;> simp_all

theorem bind_ok {α β : Type} {first : Result α} {rest : α → Result β} {value : β} :
    (first >>= rest) = .ok value ↔ ∃ a, first = .ok a ∧ rest a = .ok value := by
  cases first with
  | error e => simp [bind,Except.bind]
  | ok a => simp [bind,Except.bind]

theorem bind_unit_ok {β : Type} {first : Result Unit} {rest : Result β} {value : β} :
    (first >>= fun _ => rest) = .ok value ↔ first = .ok () ∧ rest = .ok value := by
  cases first with
  | error e => simp [bind,Except.bind]
  | ok a => simp [bind,Except.bind]

/-- A method that may fail and may change the object either way. -/
abbrev Mutation (σ : Type) := Result Unit × σ

/-- An array of exactly `n` bytes. -/
structure Bytes (n : Nat) where
  data : List UInt8
  size : data.length = n
deriving DecidableEq

def Bytes.zero (n : Nat) : Bytes n := ⟨List.replicate n 0,List.length_replicate⟩

/-- `n` bytes copied out of a buffer. -/
def Bytes.copy (raw : List UInt8) (off n : Nat) : Bytes n :=
  ⟨List.ofFn (fun i : Fin n => raw.getD (off + i) 0),List.length_ofFn⟩

/-- Sixteen raw bytes, in the order they have on disk. -/
abbrev Guid := Bytes 16

def Guid.isZero (g : Guid) : Bool := g.data.all (· == 0)

def SECTOR_SIZE_512 : UInt32 := 512
def MBR_SIGNATURE : UInt16 := 0xAA55
def MBR_SIZE : UInt32 := 512
def MBR_MAX_PRIMARY_PARTITIONS : Nat := 4
def MBR_PARTITION_ENTRY_OFFSET : Nat := 446
def MBR_PARTITION_ENTRY_SIZE : Nat := 16
def GPT_HEADER_SIGNATURE : UInt64 := 0x5452415020494645
def GPT_HEADER_SIZE : UInt32 := 92
def GPT_ENTRY_SIZE : UInt32 := 128
def GPT_MAX_PARTITIONS : UInt32 := 128
def APM_SIGNATURE : UInt16 := 0x504D
def APM_DDM_SIGNATURE : UInt16 := 0x4552

end SetecWizard.Core
