import SetecWizard.Queue.Runs

/-! A call of `applyAll` that acts on a disk is a run of the machine: each operation
finishes the way its execution ended, and the user cancels while the operation
before the canceled one executes.
-/
namespace SetecWizard.Core
open SetecWizard.Library

/-- An error never has the code of success. -/
def Proper {α : Type} (r : Result α) : Prop := ∀ e, r = .error e → e.code ≠ .success

section Errors

variable {α β : Type}

theorem proper_ok (a : α) : Proper (.ok a : Result α) := fun _ failed => by cases failed

theorem proper_error {e : ErrorInfo} (real : e.code ≠ .success) : Proper (.error e : Result α) := by
  intro e' failed
  cases failed
  exact real

theorem proper_coded {code : ErrorCode} (real : code ≠ .success) (message : String) (win32Error : UInt32)
    (hresult : Int) : Proper (.error { code,message,win32Error,hresult } : Result α) :=
  proper_error real

theorem Proper.map {r : Result α} (proper : Proper r) (f : α → β) : Proper (r.map f) := by
  cases r with
  | ok a => exact proper_ok (f a)
  | error e => exact proper_error (proper e rfl)

theorem Proper.bind {first : Result α} {rest : α → Result β} (proper : Proper first)
    (others : ∀ a, Proper (rest a)) : Proper (first >>= rest) := by
  cases first with
  | ok a => exact others a
  | error e => exact proper_error (proper e rfl)

theorem proper_refuse (condition : Prop) [Decidable condition] {code : ErrorCode} (msg : String)
    (real : code ≠ .success) : Proper (refuse condition code msg) := by
  unfold refuse
  split
  · exact proper_error real
  · exact proper_ok ()

theorem proper_checked (outcome : Option UInt32) {code : ErrorCode} (context : String)
    (real : code ≠ .success) : Proper (checked outcome code context) := by
  cases outcome with
  | none => exact proper_ok ()
  | some lastErr => exact proper_error real

end Errors

section Calls

variable (os : Win32) (disk : Disk) (sectorSize : UInt32)

theorem proper_openPath (mode : DiskAccessMode) : Proper (RawDiskHandle.openPath os mode) := by
  unfold RawDiskHandle.openPath
  split
  · exact proper_ok ()
  · split
    · exact proper_coded (by decide) _ _ _
    · split <;> exact proper_coded (by decide) _ _ _

theorem proper_readSectors (lba count : UInt64) :
    Proper (RawDiskHandle.readSectors os disk lba count sectorSize) := by
  unfold RawDiskHandle.readSectors
  split
  · exact proper_ok []
  · dsimp only
    split
    · exact proper_coded (by decide) _ _ _
    · split
      · exact proper_coded (by decide) _ _ _
      · exact proper_ok _

theorem proper_writeSectors (mode : DiskAccessMode) (lba : UInt64) (data : List UInt8) (count : UInt64) :
    Proper (RawDiskHandle.writeSectors os disk mode lba data count sectorSize).1 := by
  unfold RawDiskHandle.writeSectors
  split
  · exact proper_coded (by decide) _ _ _
  · split
    · exact proper_ok ()
    · dsimp only
      split
      · exact proper_coded (by decide) _ _ _
      · split
        · exact proper_coded (by decide) _ _ _
        · split
          · exact proper_coded (by decide) _ _ _
          · exact proper_ok ()

theorem proper_lockIfMounted (driveLetter : UInt16) :
    Proper (OperationUtils.lockIfMounted os driveLetter) := by
  have opened : Proper (VolumeHandle.openByLetter os driveLetter) := by
    unfold VolumeHandle.openByLetter
    split
    · exact proper_ok ()
    · split <;> exact proper_coded (by decide) _ _ _
  unfold OperationUtils.lockIfMounted
  split
  · exact (proper_refuse _ _ (by decide)).bind (fun _ => opened.bind (fun _ =>
      (proper_checked _ _ (by decide)).bind (fun _ => proper_checked _ _ (by decide))))
  · exact proper_ok ()

theorem proper_parse {fuel : Nat} {readFunc : DiskReadCallback} {diskSizeBytes : UInt64}
    {r : Result PartitionTable} (reads : ∀ offset size, Proper (readFunc offset size))
    (parsed : PartitionTable.parse fuel readFunc diskSizeBytes sectorSize = some r) : Proper r := by
  have apm (self : ApmPartitionTable) : Proper (self.parse readFunc) :=
    (reads 0 512).bind (fun _ => (proper_refuse _ _ (by decide)).bind (fun _ =>
      (proper_refuse _ _ (by decide)).bind (fun _ => (reads _ _).bind (fun _ =>
        (proper_refuse _ _ (by decide)).bind (fun _ =>
          (proper_refuse _ _ (by decide)).bind (fun _ => proper_ok _))))))
  have mbr {self : MbrPartitionTable} {t : Result MbrPartitionTable}
      (parsed : self.parse fuel readFunc = some t) : Proper t := by
    unfold MbrPartitionTable.parse at parsed
    split at parsed
    next e failed => cases parsed; exact proper_error (reads _ _ e failed)
    next raw _ =>
      split at parsed
      · cases parsed; exact proper_coded (by decide) _ _ _
      · split at parsed
        · cases parsed; exact proper_coded (by decide) _ _ _
        · simp only at parsed
          split at parsed
          · cases parsed; exact proper_ok _
          · obtain ⟨_,_,rfl⟩ := Option.map_eq_some_iff.mp parsed
            exact proper_ok _
  unfold PartitionTable.parse at parsed
  split at parsed
  next e failed => cases parsed; exact proper_error (reads _ _ e failed)
  next sector0 _ =>
    split at parsed
    · cases parsed; exact proper_coded (by decide) _ _ _
    · split at parsed
      · cases parsed; exact (apm _).map _
      · split at parsed
        · cases parsed; exact proper_coded (by decide) _ _ _
        · split at parsed
          next => cases parsed
          next e failed => cases parsed; exact proper_error (mbr failed e rfl)
          next table _ =>
            split at parsed
            · split at parsed <;> (cases parsed; exact proper_ok _)
            · cases parsed; exact proper_ok _

theorem proper_readPartitionTable {fuel : Nat} {r : Result PartitionTable}
    (read : OperationUtils.readPartitionTable fuel os disk sectorSize = some r) : Proper r := by
  unfold OperationUtils.readPartitionTable at read
  split at read
  next e failed => cases read; exact proper_error (proper_openPath os _ e failed)
  next =>
    split at read
    next e failed =>
      cases read
      exact proper_error (((proper_checked _ _ (by decide)).map _) e failed)
    next => exact proper_parse sectorSize (fun _ _ => (proper_readSectors os disk sectorSize _ _).map _) read

theorem proper_writePartitionTable (table : PartitionTable) :
    Proper (OperationUtils.writePartitionTable os disk sectorSize table).1 := by
  have serialized : Proper table.serialize := by
    cases table with
    | mbr t =>
      simp only [PartitionTable.serialize,MbrPartitionTable.serialize]
      split <;> exact proper_ok _
    | gpt t => exact proper_ok _
    | apm t => exact proper_coded (by decide) _ _ _
  unfold OperationUtils.writePartitionTable
  split
  next e failed => exact proper_error (serialized e failed)
  next =>
    split
    · exact proper_coded (by decide) _ _ _
    · split
      next e failed => exact proper_error (proper_openPath os _ e failed)
      next =>
        have wrote := proper_writeSectors os disk sectorSize .readWrite 0
        split
        next e _ failed => exact proper_error (wrote _ _ e (by rw [failed]))
        next => exact proper_checked _ _ (by decide)

end Calls

theorem proper_deletePartition (table : PartitionTable) (index : Int) :
    Proper (table.deletePartition index).1 := by
  cases table with
  | mbr t =>
    simp only [PartitionTable.deletePartition,MbrPartitionTable.deletePartition]
    split
    · exact proper_coded (by decide) _ _ _
    · exact proper_ok ()
  | gpt t =>
    simp only [PartitionTable.deletePartition,GptPartitionTable.deletePartition]
    split
    · exact proper_coded (by decide) _ _ _
    · exact proper_ok ()
  | apm t => exact proper_coded (by decide) _ _ _

theorem proper_resizePartition (table : PartitionTable) (index : Int) (newStart newSize : UInt64) :
    Proper (table.resizePartition index newStart newSize).1 := by
  cases table with
  | mbr t =>
    have checks : Proper (t.resizeChecks index newStart newSize) :=
      (proper_refuse _ _ (by decide)).bind (fun _ => (proper_refuse _ _ (by decide)).bind (fun _ =>
        (proper_refuse _ _ (by decide)).bind (fun _ => proper_refuse _ _ (by decide))))
    simp only [PartitionTable.resizePartition,MbrPartitionTable.resizePartition]
    split
    · exact proper_coded (by decide) _ _ _
    · split
      next e failed => exact proper_error (checks e failed)
      next => exact proper_ok ()
  | gpt t =>
    have checks : Proper (t.resizeChecks index newStart newSize) :=
      (proper_refuse _ _ (by decide)).bind (fun _ => (proper_refuse _ _ (by decide)).bind (fun _ =>
        (proper_refuse _ _ (by decide)).bind (fun _ => proper_refuse _ _ (by decide))))
    simp only [PartitionTable.resizePartition,GptPartitionTable.resizePartition]
    split
    · exact proper_coded (by decide) _ _ _
    · split
      next e failed => exact proper_error (checks e failed)
      next => exact proper_ok ()
  | apm t => exact proper_coded (by decide) _ _ _

theorem proper_execute {fuel : Nat} {os : Win32} {disk disk' : Disk} {op op' : DiskOperation} {r : Result Unit}
    (run : op.execute fuel os disk = some (r,op',disk')) : Proper r := by
  have missing (i : Int) : Proper (.error (OperationUtils.partitionMissing i) : Result Unit) :=
    proper_coded (by decide) _ _ _
  cases op with
  | delete op =>
    obtain ⟨_,ran,same⟩ := Option.map_eq_some_iff.mp run
    cases same
    unfold DeletePartitionOp.execute at ran
    split at ran
    next e failed => cases ran; exact proper_error (proper_lockIfMounted os _ e failed)
    next =>
      split at ran
      next => cases ran
      next e failed => cases ran; exact proper_error (proper_readPartitionTable os disk _ failed e rfl)
      next table _ =>
        split at ran
        next => cases ran; exact missing _
        next =>
          simp only at ran
          split at ran
          next e _ failed =>
            cases ran
            exact proper_error (proper_deletePartition table _ e (by rw [failed]))
          next => cases ran; exact proper_writePartitionTable os _ _ _
  | resize op =>
    obtain ⟨_,ran,same⟩ := Option.map_eq_some_iff.mp run
    cases same
    unfold ResizePartitionOp.execute at ran
    split at ran
    next e failed => cases ran; exact proper_error (proper_lockIfMounted os _ e failed)
    next =>
      split at ran
      next => cases ran
      next e failed => cases ran; exact proper_error (proper_readPartitionTable os disk _ failed e rfl)
      next table _ =>
        split at ran
        next => cases ran; exact missing _
        next =>
          simp only at ran
          split at ran
          next => cases ran; exact proper_coded (by decide) _ _ _
          next =>
            split at ran
            next e _ failed =>
              cases ran
              exact proper_error (proper_resizePartition table _ _ _ e (by rw [failed]))
            next => cases ran; exact proper_writePartitionTable os _ _ _

/-- The two models keep the same of an operation's course. -/
structure QueuedOperation.Shows (q : QueuedOperation) (op : Operation) : Prop where
  state : q.state = op.state
  lastError : q.lastError = op.lastError

def Shown (qs : List QueuedOperation) (ops : List Operation) : Prop :=
  List.Forall₂ QueuedOperation.Shows qs ops

theorem Shown.snoc {qs : List QueuedOperation} {ops : List Operation} {q : QueuedOperation} {op : Operation}
    (shown : Shown qs ops) (last : q.Shows op) : Shown (qs ++ [q]) (ops ++ [op]) :=
  List.rel_append shown (.cons last .nil)

namespace Machine

/-- The machine is idle and holds the operations of the queue. -/
structure Matches (m : Machine) (queue : OperationQueue) : Prop where
  idle : m.control = .idle
  pending : Shown m.queue.pending queue.pending
  history : Shown m.queue.history queue.history
  success : m.queue.lastRunSuccess = queue.lastRunSuccess

/-- What a run of `applyAll` consists of, once it has begun. -/
def Inner : Action → Prop
  | .proceed => True
  | .finish _ => True
  | .requestCancel => True
  | _ => False

/-- `applyAll` has returned a result to its caller. -/
structure Ended (m : Machine) (result : Result Unit) (queue : OperationQueue) : Prop extends m.Matches queue where
  returned : m.log.head? = some (.returned result)

def leftBy (lastError : ErrorInfo) (pending history : List Operation) : OperationQueue :=
  { pending,history,lastRunSuccess := pending.isEmpty && lastError.code == .success }

theorem applyEnd_ended {m : Machine} (locals : ApplyLocals) {pending history : List Operation}
    (waiting : Shown m.queue.pending pending) (past : Shown m.queue.history history) :
    (m.applyEnd locals).Ended (if locals.lastError.code = .success then .ok () else .error locals.lastError)
      (leftBy locals.lastError pending history) := by
  have empty : m.queue.pending.isEmpty = pending.isEmpty := by
    unfold Shown at waiting
    generalize m.queue.pending = qs at waiting
    cases waiting <;> rfl
  refine ⟨⟨rfl,waiting,past,?_⟩,rfl⟩
  rw [leftBy,← empty]
  rfl

/-- What happens while an operation executes, when the loop is to find a cancel request
behind it, or none. -/
def meanwhile (q : QueuedOperation) (canceled : Bool) : List Action :=
  (if canceled then [.requestCancel] else []) ++ [.finish (.ok (),q.body)]

theorem inner_meanwhile (q : QueuedOperation) (canceled : Bool) : ∀ a ∈ meanwhile q canceled, Inner a := by
  cases canceled <;> simp [meanwhile,Inner]

theorem executed_run {m : Machine} {locals : ApplyLocals} {q : QueuedOperation}
    (executing : m.control = .executing locals { q with state := .running })
    (unasked : m.queue.cancelRequested = false) (canceled : Bool) :
    let next := (meanwhile q canceled).foldl step m
    next.control = .looping { locals with opIndex := locals.opIndex + 1 } ∧
      next.queue.cancelRequested = canceled ∧ next.queue.pending = m.queue.pending ∧
      next.queue.history = m.queue.history ++ [{ q with state := .completed }] := by
  cases canceled with
  | false =>
    simp only [meanwhile,Bool.false_eq_true,if_false,List.nil_append,List.foldl_cons,List.foldl_nil,step,executing,
      applyDone,unasked,and_self]
  | true =>
    have asked : m.step .requestCancel = m.requestCancel := by simp only [step,executing]
    have still : m.requestCancel.control = .executing locals { q with state := .running } := executing
    have finished : (m.requestCancel.step (.finish (.ok (),q.body))) =
        m.requestCancel.applyDone locals { q with state := .running } (.ok (),q.body) := by simp only [step,still]
    simp only [meanwhile,if_true,List.cons_append,List.nil_append,List.foldl_cons,List.foldl_nil,asked,finished]
    exact ⟨rfl,rfl,rfl,rfl⟩

section Run

variable {fuel : Nat} {os : Nat → Win32} {cancelRequested : Nat → Bool} {disk disk' : Disk}

/-- The loop runs operation by operation. The invariant: the machine heeds the cancel request
that the loop is about to look up. -/
theorem applyLoop_run {i : Nat} {pending history pending' history' : List Operation} {lastError : ErrorInfo}
    (loop : OperationQueue.applyLoop fuel os cancelRequested i pending history disk =
      some (lastError,pending',history',disk'))
    {m : Machine} (locals : ApplyLocals) (looping : m.control = .looping locals)
    (fresh : locals.lastError = {}) (asked : m.queue.cancelRequested = cancelRequested i)
    (waiting : Shown m.queue.pending pending) (past : Shown m.queue.history history) :
    ∃ actions : List Action, (∀ a ∈ actions, Inner a) ∧
      (actions.foldl step m).Ended (if lastError.code = .success then .ok () else .error lastError)
        (leftBy lastError pending' history') := by
  induction pending generalizing i history disk m locals with
  | nil =>
    cases loop
    have none := List.forall₂_nil_right_iff.mp waiting
    refine ⟨[.proceed],by simp [Inner],?_⟩
    have stepped : m.step .proceed = m.applyEnd locals := by simp only [step,looping,applyNext,none]
    rw [List.foldl_cons,List.foldl_nil,stepped,← fresh]
    exact applyEnd_ended locals waiting past
  | cons op pending ih =>
    obtain ⟨q,rest,shows,present,first⟩ := List.forall₂_cons_right_iff.mp waiting
    rw [OperationQueue.applyLoop] at loop
    split at loop
    next canceled =>
      cases loop
      have stepped : m.step .proceed = m.applyEnd { locals with lastError := OperationQueue.canceled } := by
        simp only [step,looping,applyNext,first,asked,canceled,if_true]
      refine ⟨[.proceed],by simp [Inner],?_⟩
      rw [List.foldl_cons,List.foldl_nil,stepped]
      exact applyEnd_ended _ waiting past
    next going =>
      let started : Machine := { m with
        queue := { m.queue with pending := rest }
        control := .executing locals { q with state := .running }
        log := .started q.ticket :: m.log }
      have began : m.step .proceed = started := by
        simp only [step,looping,applyNext,first]
        exact if_neg (asked ▸ going)
      split at loop
      next => cases loop
      next body middle run =>
        have unasked : started.queue.cancelRequested = false := by
          rw [Bool.not_eq_true] at going
          exact asked.trans going
        obtain ⟨looping',asked',left,kept⟩ := executed_run rfl unasked (cancelRequested (i + 1))
        obtain ⟨actions,all,final⟩ := ih loop _ looping' fresh asked' (left ▸ present)
          (kept ▸ past.snoc ⟨rfl,shows.lastError⟩)
        refine ⟨.proceed :: (meanwhile q (cancelRequested (i + 1)) ++ actions),?_,?_⟩
        · simp only [List.mem_cons,List.mem_append]
          rintro a (rfl | now | later)
          · trivial
          · exact inner_meanwhile _ _ a now
          · exact all a later
        · rw [List.foldl_cons,began,List.foldl_append]
          exact final
      next e body middle run =>
        have real := proper_execute run e rfl
        cases loop
        refine ⟨[.proceed,.finish (.error ⟨lastError,real⟩,q.body)],by simp [Inner],?_⟩
        rw [List.foldl_cons,began,List.foldl_cons,List.foldl_nil]
        exact applyEnd_ended { locals with lastError } present (past.snoc ⟨rfl,rfl⟩)

/-- `applyAll` refines the machine: on a machine that holds the same operations, its calls and
answers lead to one that holds what it leaves, and return what it returns. The
call itself clears the cancel request, so the first operation finds none. -/
theorem applyAll_run {queue queue' : OperationQueue} {result : Result Unit} (uncanceled : cancelRequested 0 = false)
    (ran : queue.applyAll fuel os cancelRequested disk = some (result,queue',disk')) {m : Machine}
    (same : m.Matches queue) :
    ∃ actions : List Action, (∀ a ∈ actions, Inner a) ∧ ((Action.applyAll :: actions).foldl step m).Ended result queue' := by
  have called : m.step .applyAll = m.applyBegin := by simp only [step,same.idle]
  unfold OperationQueue.applyAll at ran
  split at ran
  next empty =>
    cases ran
    have none : m.queue.pending = [] := by
      have shown := same.pending
      rw [List.isEmpty_iff.mp empty] at shown
      exact List.forall₂_nil_right_iff.mp shown
    refine ⟨[],by simp,?_⟩
    rw [List.foldl_cons,List.foldl_nil,called,applyBegin,if_pos (List.isEmpty_iff.mpr none)]
    exact ⟨⟨same.idle,same.pending,same.history,rfl⟩,rfl⟩
  next some =>
    split at ran
    next => cases ran
    next lastError pending history final loop =>
      cases ran
      have waiting : ¬ m.queue.pending.isEmpty := by
        intro none
        have shown := same.pending
        rw [List.isEmpty_iff.mp none] at shown
        exact some (List.isEmpty_iff.mpr (List.forall₂_nil_left_iff.mp shown))
      obtain ⟨actions,inner,ended⟩ := applyLoop_run loop (m := m.applyBegin)
        { totalOps := m.queue.pending.length } (by rw [applyBegin,if_neg waiting]) rfl
        (by rw [applyBegin,if_neg waiting,uncanceled]) (by rw [applyBegin,if_neg waiting]; exact same.pending)
        (by rw [applyBegin,if_neg waiting]; exact same.history)
      refine ⟨actions,inner,?_⟩
      rw [List.foldl_cons,called]
      exact ended

/-- What the machine promises of its runs holds of the queue on a disk: a queue filled by any
earlier calls keeps its pending operations pending, and has only settled ones in
its history. -/
theorem applyAll_staged {queue queue' : OperationQueue} {result : Result Unit} {before : List Action}
    (uncanceled : cancelRequested 0 = false)
    (ran : queue.applyAll fuel os cancelRequested disk = some (result,queue',disk'))
    (same : (before.foldl step {}).Matches queue) :
    (∀ op ∈ queue'.pending, op.state = .pending) ∧ ∀ op ∈ queue'.history, op.state.Settled := by
  obtain ⟨actions,_,ended⟩ := applyAll_run uncanceled ran same
  rw [← List.foldl_append] at ended
  have ledger := Run.trace_invariant step Ledger ledger_step {} (before ++ .applyAll :: actions) ledger_initial _
    (Run.foldl_mem_trace step {} _)
  have each (P : OperationState → Prop) {qs : List QueuedOperation} {ops : List Operation} (shown : Shown qs ops)
      (all : ∀ q ∈ qs, P q.state) : ∀ op ∈ ops, P op.state := by
    induction shown with
    | nil => simp
    | cons shows _ ih =>
      rw [List.forall_mem_cons] at all ⊢
      exact ⟨shows.state ▸ all.1,ih all.2⟩
  exact ⟨each (· = .pending) ended.pending ledger.staged.pending,
    each OperationState.Settled ended.history ledger.staged.history⟩

end Run
end Machine
end SetecWizard.Core
