import SetecWizard.Core.OperationQueue
import SetecWizard.Library.Run

/-! The operation queue between the calls of its user and the operations it runs.
An operation calls back while it executes, so `applyAll` is cut where control
leaves it: a machine whose control is idle, at the head of the loop, or inside
the execution of an operation. What an operation does to the disk is left to
its answers.
-/
namespace SetecWizard.Core

/-- An error as a result carries it, never with the code of success. -/
structure Failure where
  info : ErrorInfo
  isError : info.code ≠ .success

abbrev Outcome := Except Failure Unit

/-- What the const virtual methods of an operation answer. -/
structure OperationBody where
  description : String
  canUndo : Bool
deriving DecidableEq

/-- The ticket tells operations apart as their addresses do: it counts the
operations that were enqueued before. -/
structure QueuedOperation where
  ticket : Nat
  body : OperationBody
  state : OperationState := .pending
  lastError : ErrorInfo := {}
deriving DecidableEq

structure QueueState where
  pending : List QueuedOperation := []
  history : List QueuedOperation := []
  running : Bool := false
  cancelRequested : Bool := false
  lastRunSuccess : Bool := false
deriving DecidableEq

namespace QueueState

def enqueue (q : QueueState) (op : QueuedOperation) : QueueState :=
  { q with pending := q.pending ++ [op] }

def removeLast (q : QueueState) : Option QueuedOperation × QueueState :=
  match q.pending.getLast? with
  | none => (none,q)
  | some op =>
    if op.state ≠ .pending then (none,q)
    else (some op,{ q with pending := q.pending.dropLast })

def clearPending (q : QueueState) : QueueState :=
  { q with pending := q.pending.filter (·.state != .pending) }

def clearAll (q : QueueState) : QueueState :=
  { q with pending := [],history := [],lastRunSuccess := false }

def requestCancel (q : QueueState) : QueueState := { q with cancelRequested := true }

/-- The operation `undoLast` takes up. -/
def lastOp (q : QueueState) : Option QueuedOperation := q.history.getLast?

def undoLast (q : QueueState) (undo : QueuedOperation → Outcome × OperationBody) :
    Result Unit × Option QueuedOperation × QueueState :=
  match q.lastOp with
  | none => (.error (.fromCode .invalidArgument "No operations to undo"),none,q)
  | some lastOp =>
    if !lastOp.body.canUndo then
      (.error (.fromCode .notImplemented
        ("Last operation does not support undo: " ++ lastOp.body.description)),none,q)
    else if lastOp.state ≠ .completed then
      (.error (.fromCode .invalidArgument "Can only undo completed operations"),none,q)
    else
      match undo lastOp with
      | (.ok _,body) =>
        (.ok (),some lastOp,
          { q with history := q.history.dropLast ++ [{ lastOp with body := body,state := .undone }] })
      | (.error e,body) =>
        (.error e.info,some lastOp,
          { q with history := q.history.dropLast ++ [{ lastOp with body := body }] })

end QueueState

/-- The local variables of `applyAll`. -/
structure ApplyLocals where
  totalOps : Nat
  opIndex : Nat := 0
  lastError : ErrorInfo := {}
deriving DecidableEq

inductive Control where
  | idle
  | looping (locals : ApplyLocals)
  | executing (locals : ApplyLocals) (op : QueuedOperation)
deriving DecidableEq

/-- What happened to the queue, in the order the calls came in. -/
inductive Event where
  | enqueued (ticket : Nat)
  | dropped (tickets : List Nat)
  | cancelRequested
  | undoCalled (ticket : Nat)
  | began (found : List Nat)
  | started (ticket : Nat)
  | finished (ticket : Nat) (success : Bool)
  | returned (result : Result Unit)
deriving DecidableEq

/-- The log has the latest event first. -/
structure Machine where
  queue : QueueState := {}
  control : Control := .idle
  issued : Nat := 0
  log : List Event := []

/-- A call from outside, or the next thing `applyAll` or the operation it runs does. -/
inductive Action where
  | enqueue (body : OperationBody)
  | removeLast
  | clearPending
  | clearAll
  | requestCancel
  | undoLast (undo : QueuedOperation → Outcome × OperationBody)
  | applyAll
  | proceed
  | finish (executed : Outcome × OperationBody)

def tickets (ops : List QueuedOperation) : List Nat := ops.map (·.ticket)

namespace Machine

def enqueue (m : Machine) (body : OperationBody) : Machine :=
  { m with
    queue := m.queue.enqueue { ticket := m.issued,body := body }
    issued := m.issued + 1
    log := .enqueued m.issued :: m.log }

def requestCancel (m : Machine) : Machine :=
  { m with queue := m.queue.requestCancel,log := .cancelRequested :: m.log }

def removeLast (m : Machine) : Machine :=
  match m.queue.removeLast with
  | (none,queue) => { m with queue := queue }
  | (some op,queue) => { m with queue := queue,log := .dropped [op.ticket] :: m.log }

def clearPending (m : Machine) : Machine :=
  { m with
    queue := m.queue.clearPending
    log := .dropped (tickets (m.queue.pending.filter (·.state == .pending))) :: m.log }

def clearAll (m : Machine) : Machine :=
  { m with
    queue := m.queue.clearAll
    log := .dropped (tickets m.queue.history ++ tickets m.queue.pending) :: m.log }

def undoLast (m : Machine) (undo : QueuedOperation → Outcome × OperationBody) : Machine :=
  match m.queue.undoLast undo with
  | (_,none,queue) => { m with queue := queue }
  | (_,some op,queue) => { m with queue := queue,log := .undoCalled op.ticket :: m.log }

def applyBegin (m : Machine) : Machine :=
  if m.queue.pending.isEmpty then
    { m with
      queue := { m.queue with lastRunSuccess := true }
      log := .returned (.ok ()) :: .began [] :: m.log }
  else
    { m with
      queue := { m.queue with running := true,cancelRequested := false,lastRunSuccess := false }
      control := .looping { totalOps := m.queue.pending.length }
      log := .began (tickets m.queue.pending) :: m.log }

/-- What `applyAll` does once its loop is left. -/
def applyEnd (m : Machine) (locals : ApplyLocals) : Machine :=
  let success := m.queue.pending.isEmpty && locals.lastError.code == .success
  { m with
    queue := { m.queue with lastRunSuccess := success,running := false }
    control := .idle
    log := .returned (if locals.lastError.code = .success then .ok () else .error locals.lastError) :: m.log }

/-- The loop from its head until an operation executes or the loop is left. -/
def applyNext (m : Machine) (locals : ApplyLocals) : Machine :=
  match m.queue.pending with
  | [] => m.applyEnd locals
  | op :: rest =>
    if m.queue.cancelRequested then m.applyEnd { locals with lastError := OperationQueue.canceled }
    else
      { m with
        queue := { m.queue with pending := rest }
        control := .executing locals { op with state := .running }
        log := .started op.ticket :: m.log }

def applyDone (m : Machine) (locals : ApplyLocals) (op : QueuedOperation) :
    Outcome × OperationBody → Machine
  | (.ok _,body) =>
    { m with
      queue := { m.queue with history := m.queue.history ++ [{ op with body := body,state := .completed }] }
      control := .looping { locals with opIndex := locals.opIndex + 1 }
      log := .finished op.ticket true :: m.log }
  | (.error e,body) =>
    applyEnd
      { m with
        queue := { m.queue with history := m.queue.history ++
          [{ op with body := body,state := .failed,lastError := e.info }] }
        log := .finished op.ticket false :: m.log }
      { locals with lastError := e.info }

/-- Operations call back into `enqueue` and `requestCancel` only; what the control
does not allow changes nothing. -/
def step (m : Machine) (action : Action) : Machine :=
  match m.control,action with
  | .idle,.enqueue body => m.enqueue body
  | .idle,.removeLast => m.removeLast
  | .idle,.clearPending => m.clearPending
  | .idle,.clearAll => m.clearAll
  | .idle,.requestCancel => m.requestCancel
  | .idle,.undoLast undo => m.undoLast undo
  | .idle,.applyAll => m.applyBegin
  | .looping locals,.proceed => m.applyNext locals
  | .executing _ _,.enqueue body => m.enqueue body
  | .executing _ _,.requestCancel => m.requestCancel
  | .executing locals op,.finish executed => m.applyDone locals op executed
  | _,_ => m

end Machine
end SetecWizard.Core
