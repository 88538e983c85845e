import SetecWizard.Core.PartitionOperations

/-! The operation queue, for the operations that delete and resize partitions. All
operations of a queue act on one disk here, and every operation meets its own
outcomes of the system calls.
-/
namespace SetecWizard.Core

inductive OperationState where
  | pending | running | completed | failed | undone
deriving DecidableEq

inductive DiskOperation where
  | delete (op : DeletePartitionOp)
  | resize (op : ResizePartitionOp)

namespace DiskOperation

def partitionIndex : DiskOperation → Int
  | .delete op => op.params.partitionIndex
  | .resize op => op.params.partitionIndex

def sectorSize : DiskOperation → UInt32
  | .delete op => op.params.sectorSize
  | .resize op => op.params.sectorSize

def execute (fuel : Nat) (os : Win32) (disk : Disk) :
    DiskOperation → Option (Result Unit × DiskOperation × Disk)
  | .delete op => (op.execute fuel os disk).map (fun done => (done.1,.delete done.2.1,done.2.2))
  | .resize op => (op.execute fuel os disk).map (fun done => (done.1,.resize done.2.1,done.2.2))

end DiskOperation

structure Operation where
  body : DiskOperation
  state : OperationState := .pending
  lastError : ErrorInfo := {}

structure OperationQueue where
  pending : List Operation := []
  history : List Operation := []
  lastRunSuccess : Bool := false

namespace OperationQueue

def canceled : ErrorInfo := .fromCode .operationCanceled "Operation queue canceled by user"

section Apply

variable (fuel : Nat) (os : Nat → Win32) (cancelRequested : Nat → Bool)

/-- The loop of `applyAll`, with the last error, the pending operations and the history
it leaves. Whether the user has canceled is looked up before each operation. -/
def applyLoop : Nat → List Operation → List Operation → Disk →
    Option (ErrorInfo × List Operation × List Operation × Disk)
  | _,[],history,disk => some ({},[],history,disk)
  | opIndex,op :: pending,history,disk =>
    if cancelRequested opIndex then some (canceled,op :: pending,history,disk)
    else
      match op.body.execute fuel (os opIndex) disk with
      | none => none
      | some (.ok _,body,disk) =>
        applyLoop (opIndex + 1) pending
          (history ++ [{ op with body := body, state := .completed }]) disk
      | some (.error e,body,disk) =>
        some (e,pending,history ++ [{ body := body, state := .failed, lastError := e }],disk)

def applyAll (self : OperationQueue) (disk : Disk) : Option (Result Unit × OperationQueue × Disk) :=
  if self.pending.isEmpty then some (.ok (),{ self with lastRunSuccess := true },disk)
  else
    match applyLoop fuel os cancelRequested 0 self.pending self.history disk with
    | none => none
    | some (lastError,pending,history,disk) =>
      let success := pending.isEmpty && lastError.code == .success
      let result := if lastError.code = .success then .ok () else .error lastError
      some (result,{ pending := pending, history := history, lastRunSuccess := success },disk)

end Apply

end OperationQueue
end SetecWizard.Core
