import SetecWizard.Queue.Machine

/-! What holds of the operation queue at every point of every run. Tickets are
issued in the order of the calls of `enqueue`, and the log is read as a ledger
of what became of each of them.
-/
namespace SetecWizard.Core

section Reading

/-- The tickets of the calls of `enqueue`, the latest one first. -/
def enqueuedIn (log : List Event) : List Nat :=
  log.filterMap (fun | .enqueued t => some t | _ => none)

def startedIn (log : List Event) : List Nat :=
  log.filterMap (fun | .started t => some t | _ => none)

def succeededIn (log : List Event) : List Nat :=
  log.filterMap (fun | .finished t true => some t | _ => none)

def droppedIn (log : List Event) : List Nat :=
  log.flatMap (fun | .dropped ts => ts | _ => [])

/-- The events since the last call of `applyAll`. -/
def thisRun : List Event → List Event
  | [] => []
  | .began _ :: _ => []
  | e :: log => e :: thisRun log

/-- What the last call of `applyAll` found pending. -/
def foundIn : List Event → List Nat
  | [] => []
  | .began found :: _ => found
  | _ :: log => foundIn log

/-- A failure or a cancel request came after the last call of `applyAll`. -/
def stopped : List Event → Bool
  | [] => false
  | .began _ :: _ => false
  | .finished _ false :: _ => true
  | .cancelRequested :: _ => true
  | _ :: log => stopped log

/-- An event after which the run it falls into starts nothing. -/
def Event.Stops (e : Event) : Prop := e = .cancelRequested ∨ ∃ t, e = .finished t false

end Reading

theorem began_of_not_stopped {middle earlier : List Event} {e : Event} (stops : e.Stops)
    (going : stopped (middle ++ e :: earlier) = false) : ∃ found, .began found ∈ middle := by
  induction middle with
  | nil => rcases stops with rfl | ⟨t,rfl⟩ <;> simp [stopped] at going
  | cons first middle ih =>
    cases first with
    | began found => exact ⟨found,by simp⟩
    | cancelRequested => simp [stopped] at going
    | finished t success =>
      cases success with
      | false => simp [stopped] at going
      | true =>
        obtain ⟨found,member⟩ := ih (by simpa [stopped] using going)
        exact ⟨found,List.mem_cons_of_mem _ member⟩
    | enqueued t | dropped ts | undoCalled t | started t | returned r =>
      obtain ⟨found,member⟩ := ih (by simpa [stopped] using going)
      exact ⟨found,List.mem_cons_of_mem _ member⟩

/-- The operation inside `execute`, which is neither pending nor in the history. -/
def Control.current : Control → List QueuedOperation
  | .executing _ op => [op]
  | _ => []

namespace Machine

/-- Everything the queue holds, in the order it was or will be executed. -/
def held (m : Machine) : List Nat :=
  tickets m.queue.history ++ tickets m.control.current ++ tickets m.queue.pending

/-- A new operation or a cancel request can come in. -/
def Open (m : Machine) : Prop := ∀ locals, m.control ≠ .looping locals

/-- All that a step can do. -/
inductive Move (m : Machine) : Machine → Prop
  | enqueue (body : OperationBody) (reached : m.Open) : Move m (m.enqueue body)
  | requestCancel (reached : m.Open) : Move m m.requestCancel
  | drop (queue : QueueState) (gone : List QueuedOperation) (idle : m.control = .idle)
      (pending : queue.pending.Sublist m.queue.pending)
      (history : queue.history = m.queue.history ∨ queue.history = [])
      (split : (tickets queue.history ++ tickets queue.pending ++ tickets gone).Perm
        (tickets m.queue.history ++ tickets m.queue.pending)) :
      Move m { m with queue := queue,log := .dropped (tickets gone) :: m.log }
  | undo (older : List QueuedOperation) (last : QueuedOperation) (body : OperationBody)
      (state : OperationState) (idle : m.control = .idle) (at_end : m.queue.history = older ++ [last])
      (completed : last.state = .completed) (settled : state = .undone ∨ state = .completed) :
      Move m { m with
        queue := { m.queue with history := older ++ [{ last with body := body,state := state }] }
        log := .undoCalled last.ticket :: m.log }
  | idleRun (idle : m.control = .idle) (empty : m.queue.pending = []) :
      Move m { m with
        queue := { m.queue with lastRunSuccess := true }
        log := .returned (.ok ()) :: .began [] :: m.log }
  | begin (idle : m.control = .idle) (filled : m.queue.pending ≠ []) :
      Move m { m with
        queue := { m.queue with running := true,cancelRequested := false,lastRunSuccess := false }
        control := .looping { totalOps := m.queue.pending.length }
        log := .began (tickets m.queue.pending) :: m.log }
  | finish (locals : ApplyLocals) (looping : m.control = .looping locals) (empty : m.queue.pending = []) :
      Move m (m.applyEnd locals)
  | cancel (locals : ApplyLocals) (looping : m.control = .looping locals) (filled : m.queue.pending ≠ []) :
      Move m (m.applyEnd { locals with lastError := OperationQueue.canceled })
  | start (locals : ApplyLocals) (op : QueuedOperation) (rest : List QueuedOperation)
      (looping : m.control = .looping locals) (front : m.queue.pending = op :: rest)
      (going : m.queue.cancelRequested = false) :
      Move m { m with
        queue := { m.queue with pending := rest }
        control := .executing locals { op with state := .running }
        log := .started op.ticket :: m.log }
  | succeed (locals : ApplyLocals) (op : QueuedOperation) (body : OperationBody)
      (executing : m.control = .executing locals op) :
      Move m { m with
        queue := { m.queue with history := m.queue.history ++ [{ op with body := body,state := .completed }] }
        control := .looping { locals with opIndex := locals.opIndex + 1 }
        log := .finished op.ticket true :: m.log }
  | fail (locals : ApplyLocals) (op : QueuedOperation) (body : OperationBody) (e : Failure)
      (executing : m.control = .executing locals op) :
      Move m (applyEnd
        { m with
          queue := { m.queue with history := m.queue.history ++
            [{ op with body := body,state := .failed,lastError := e.info }] }
          log := .finished op.ticket false :: m.log }
        { locals with lastError := e.info })

theorem tickets_append (first second : List QueuedOperation) :
    tickets (first ++ second) = tickets first ++ tickets second := List.map_append

theorem removeLast_move (m : Machine) (idle : m.control = .idle) :
    m.removeLast = m ∨ Move m m.removeLast := by
  unfold removeLast QueueState.removeLast
  cases last : m.queue.pending.getLast? with
  | none => exact .inl rfl
  | some op =>
    by_cases kept : op.state ≠ .pending
    · simp only [if_pos kept]
      exact .inl trivial
    · simp only [if_neg kept]
      have parts : m.queue.pending = m.queue.pending.dropLast ++ [op] :=
        (List.dropLast_append_getLast? op last).symm
      refine .inr (.drop { m.queue with pending := m.queue.pending.dropLast } [op] idle
        (List.dropLast_sublist _) (.inl rfl) ?_)
      have whole : tickets m.queue.pending.dropLast ++ tickets [op] = tickets m.queue.pending := by
        rw [← tickets_append,← parts]
      rw [List.append_assoc]
      simp only [whole]
      exact .rfl

theorem clearPending_move (m : Machine) (idle : m.control = .idle) : Move m m.clearPending := by
  refine .drop m.queue.clearPending (m.queue.pending.filter (·.state == .pending)) idle
    List.filter_sublist (.inl rfl) ?_
  rw [List.append_assoc]
  refine List.Perm.append_left _ ?_
  rw [← tickets_append]
  refine List.Perm.map _ (List.perm_append_comm.trans ?_)
  exact List.filter_append_perm (·.state == .pending) m.queue.pending

theorem clearAll_move (m : Machine) (idle : m.control = .idle) : Move m m.clearAll := by
  have all := Move.drop m.queue.clearAll (m.queue.history ++ m.queue.pending) idle
    (List.nil_sublist _) (.inr rfl) (by rw [tickets_append]; exact .rfl)
  rw [tickets_append] at all
  exact all

theorem undoLast_move (m : Machine) (undo : QueuedOperation → Outcome × OperationBody)
    (idle : m.control = .idle) : m.undoLast undo = m ∨ Move m (m.undoLast undo) := by
  unfold undoLast QueueState.undoLast
  cases last : m.queue.lastOp with
  | none => exact .inl rfl
  | some op =>
    by_cases unable : (!op.body.canUndo) = true
    · simp only [if_pos unable]
      exact .inl trivial
    · simp only [if_neg unable]
      by_cases other : op.state ≠ .completed
      · simp only [if_pos other]
        exact .inl trivial
      · simp only [if_neg other]
        have completed : op.state = .completed := not_not.mp other
        have parts : m.queue.history = m.queue.history.dropLast ++ [op] :=
          (List.dropLast_append_getLast? op last).symm
        right
        rcases undo op with ⟨_ | _,body⟩
        · have kept := Move.undo _ op body op.state idle parts completed (.inr completed)
          exact kept
        · exact .undo _ op body .undone idle parts completed (.inl rfl)

theorem applyBegin_move (m : Machine) (idle : m.control = .idle) : Move m m.applyBegin := by
  unfold applyBegin
  by_cases none : m.queue.pending.isEmpty
  · rw [if_pos none]
    exact .idleRun idle (List.isEmpty_iff.mp none)
  · rw [if_neg none]
    exact .begin idle (fun empty => none (List.isEmpty_iff.mpr empty))

theorem applyNext_move (m : Machine) (locals : ApplyLocals) (looping : m.control = .looping locals) :
    Move m (m.applyNext locals) := by
  unfold applyNext
  cases front : m.queue.pending with
  | nil => exact .finish locals looping front
  | cons op rest =>
    by_cases canceled : m.queue.cancelRequested
    · simp only [if_pos canceled]
      exact .cancel locals looping (by simp [front])
    · simp only [if_neg canceled]
      exact .start locals op rest looping front (by simpa using canceled)

theorem applyDone_move (m : Machine) (locals : ApplyLocals) (op : QueuedOperation)
    (executed : Outcome × OperationBody) (executing : m.control = .executing locals op) :
    Move m (m.applyDone locals op executed) := by
  rcases executed with ⟨e | _,body⟩
  · exact .fail locals op body e executing
  · exact .succeed locals op body executing

theorem step_move (m : Machine) (action : Action) : m.step action = m ∨ Move m (m.step action) := by
  cases control : m.control with
  | idle =>
    have reached : m.Open := by simp [Open,control]
    cases action with
    | enqueue body => right; simpa [step,control] using Move.enqueue body reached
    | requestCancel => right; simpa [step,control] using Move.requestCancel reached
    | removeLast => simpa [step,control] using m.removeLast_move control
    | clearPending => right; simpa [step,control] using m.clearPending_move control
    | clearAll => right; simpa [step,control] using m.clearAll_move control
    | undoLast undo => simpa [step,control] using m.undoLast_move undo control
    | applyAll => right; simpa [step,control] using m.applyBegin_move control
    | proceed | finish => left; simp [step,control]
  | looping locals =>
    cases action with
    | proceed => right; simpa [step,control] using m.applyNext_move locals control
    | _ => left; simp [step,control]
  | executing locals op =>
    have reached : m.Open := by simp [Open,control]
    cases action with
    | enqueue body => right; simpa [step,control] using Move.enqueue body reached
    | requestCancel => right; simpa [step,control] using Move.requestCancel reached
    | finish executed => right; simpa [step,control] using m.applyDone_move locals op executed control
    | _ => left; simp [step,control]

@[simp] theorem applyEnd_control (m : Machine) (locals : ApplyLocals) : (m.applyEnd locals).control = .idle := rfl

@[simp] theorem applyEnd_issued (m : Machine) (locals : ApplyLocals) : (m.applyEnd locals).issued = m.issued := rfl

@[simp] theorem applyEnd_pending (m : Machine) (locals : ApplyLocals) :
    (m.applyEnd locals).queue.pending = m.queue.pending := rfl

@[simp] theorem applyEnd_history (m : Machine) (locals : ApplyLocals) :
    (m.applyEnd locals).queue.history = m.queue.history := rfl

@[simp] theorem applyEnd_log (m : Machine) (locals : ApplyLocals) :
    (m.applyEnd locals).log =
      .returned (if locals.lastError.code = .success then .ok () else .error locals.lastError) :: m.log := rfl

/-- Every ticket is held by the queue or was dropped, and none is twice. -/
def Conserved (m : Machine) : Prop := (m.held ++ droppedIn m.log).Perm (List.range m.issued)

theorem Conserved.held_issued {m : Machine} (conserved : m.Conserved) {t : Nat} (member : t ∈ m.held) :
    t < m.issued :=
  List.mem_range.mp (conserved.mem_iff.mp (List.mem_append_left _ member))

theorem Move.held {m m' : Machine} (move : Move m m') :
    (m'.held = m.held ∧ droppedIn m'.log = droppedIn m.log ∧ m'.issued = m.issued) ∨
    (m'.held = m.held ++ [m.issued] ∧ droppedIn m'.log = droppedIn m.log ∧ m'.issued = m.issued + 1) ∨
    ∃ gone, m'.held.Sublist m.held ∧ (m'.held ++ gone).Perm m.held ∧
      droppedIn m'.log = gone ++ droppedIn m.log ∧ m'.issued = m.issued := by
  cases move with
  | enqueue body reached =>
    right; left
    simp [Machine.held,Machine.enqueue,QueueState.enqueue,droppedIn,tickets]
  | requestCancel reached => left; simp [Machine.held,Machine.requestCancel,QueueState.requestCancel,droppedIn]
  | drop queue gone idle pending history split =>
    right; right
    refine ⟨tickets gone,?_,?_,by simp [droppedIn],rfl⟩
    · simp only [Machine.held,idle,Control.current]
      refine List.Sublist.append (List.Sublist.append ?_ (List.Sublist.refl _)) (pending.map _)
      rcases history with same | none
      · rw [same]
      · rw [none]
        exact List.nil_sublist _
    · simpa [Machine.held,idle,Control.current,tickets] using split
  | undo older last body state idle at_end completed settled =>
    left
    simp [Machine.held,at_end,droppedIn,tickets]
  | idleRun idle empty => left; simp [Machine.held,droppedIn]
  | begin idle filled => left; simp [Machine.held,idle,Control.current,droppedIn]
  | finish locals looping empty => left; simp [Machine.held,looping,Control.current,droppedIn]
  | cancel locals looping filled => left; simp [Machine.held,looping,Control.current,droppedIn]
  | start locals op rest looping front going =>
    left
    simp [Machine.held,looping,front,Control.current,droppedIn,tickets]
  | succeed locals op body executing => left; simp [Machine.held,executing,Control.current,droppedIn,tickets]
  | fail locals op body e executing => left; simp [Machine.held,executing,Control.current,droppedIn,tickets]

theorem Move.conserved {m m' : Machine} (move : Move m m') (conserved : m.Conserved) : m'.Conserved := by
  unfold Conserved at *
  rcases move.held with ⟨held,dropped,issued⟩ | ⟨held,dropped,issued⟩ | ⟨gone,_,split,dropped,issued⟩
  · rwa [held,dropped,issued]
  · rw [held,dropped,issued,List.range_succ]
    have aside : (m.held ++ [m.issued] ++ droppedIn m.log).Perm (m.held ++ droppedIn m.log ++ [m.issued]) := by
      rw [List.append_assoc,List.append_assoc]
      exact List.Perm.append_left _ List.perm_append_comm
    exact aside.trans (conserved.append_right _)
  · rw [dropped,issued,← List.append_assoc]
    exact (split.append_right _).trans conserved

theorem Move.ascending {m m' : Machine} (move : Move m m') (conserved : m.Conserved)
    (ascending : m.held.Pairwise (· < ·)) : m'.held.Pairwise (· < ·) := by
  rcases move.held with ⟨held,_⟩ | ⟨held,_⟩ | ⟨gone,sublist,_⟩
  · rwa [held]
  · rw [held,List.pairwise_append]
    refine ⟨ascending,List.pairwise_singleton _ _,?_⟩
    intro t member u new
    rw [List.mem_singleton.mp new]
    exact conserved.held_issued member
  · exact ascending.sublist sublist

end Machine
end SetecWizard.Core
