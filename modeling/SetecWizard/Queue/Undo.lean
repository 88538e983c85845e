import SetecWizard.Queue.Runs

/-! Undoing on the operation queue. `undoLast` takes up the last entry of the
history whatever became of it, so an operation that failed or was undone bars the
way to every operation completed before it.
-/
namespace SetecWizard.Core
open SetecWizard.Library

namespace QueuedOperation

def Undoable (op : QueuedOperation) : Prop := op.state = .completed ∧ op.body.canUndo = true

instance (op : QueuedOperation) : Decidable op.Undoable := inferInstanceAs (Decidable (_ ∧ _))

end QueuedOperation

namespace QueueState

def lastCompleted (q : QueueState) : Option QueuedOperation :=
  q.history.reverse.find? (·.state == .completed)

/-- The completed operations that support undo, in execution order. -/
def undoables (q : QueueState) : List QueuedOperation := q.history.filter (fun op => op.Undoable)

def undoTimes (undo : QueuedOperation → Outcome × OperationBody) : Nat → QueueState → List QueuedOperation
  | 0,_ => []
  | n + 1,q => (q.undoLast undo).2.1.toList ++ undoTimes undo n (q.undoLast undo).2.2

/-- So many successive calls, each succeeding where it calls `undo`, undo the last
completed undoable operations in reverse execution order. -/
def UndoesInReverse (q : QueueState) (n : Nat) : Prop :=
  ∀ undo : QueuedOperation → Outcome × OperationBody, (∀ op, (undo op).1 = .ok ()) →
    undoTimes undo n q = q.undoables.reverse.take n

theorem undoLast_undoable {q : QueueState} {op : QueuedOperation} (last : q.lastOp = some op)
    (undoable : op.Undoable) (undo : QueuedOperation → Outcome × OperationBody)
    (succeeds : ∀ op, (undo op).1 = .ok ()) :
    ∃ undone, undone.state = .undone ∧
      q.undoLast undo = (.ok (),some op,{ q with history := q.history.dropLast ++ [undone] }) := by
  obtain ⟨body,answer⟩ : ∃ body, undo op = (.ok (),body) := ⟨(undo op).2,Prod.ext (succeeds op) rfl⟩
  refine ⟨{ op with body := body,state := .undone },rfl,?_⟩
  have able : ¬ (!op.body.canUndo) = true := by simp [undoable.2]
  have completed : ¬ op.state ≠ .completed := not_not.mpr undoable.1
  unfold undoLast
  rw [last]
  simp only [if_neg able,if_neg completed,answer]

theorem undoLast_barred {q : QueueState} (undo : QueuedOperation → Outcome × OperationBody)
    (barred : ∀ op, q.lastOp = some op → ¬ op.Undoable) :
    (q.undoLast undo).2 = (none,q) := by
  unfold undoLast
  cases last : q.lastOp with
  | none => rfl
  | some op =>
    by_cases unable : (!op.body.canUndo) = true
    · simp only [if_pos unable]
    · have other : op.state ≠ .completed := fun completed =>
        barred op last ⟨completed,by simpa using unable⟩
      simp only [if_neg unable,if_pos other]

theorem undoTimes_barred {q : QueueState} (undo : QueuedOperation → Outcome × OperationBody) (n : Nat)
    (barred : ∀ op, q.lastOp = some op → ¬ op.Undoable) : undoTimes undo n q = [] := by
  induction n with
  | zero => rfl
  | succ n ih => rw [undoTimes,undoLast_barred undo barred,ih]; rfl

theorem undoTimes_undoable {q : QueueState} {op : QueuedOperation} (last : q.lastOp = some op)
    (undoable : op.Undoable) (undo : QueuedOperation → Outcome × OperationBody)
    (succeeds : ∀ op, (undo op).1 = .ok ()) (n : Nat) : undoTimes undo (n + 1) q = [op] := by
  obtain ⟨undone,state,call⟩ := undoLast_undoable last undoable undo succeeds
  have barred : undoTimes undo n { q with history := q.history.dropLast ++ [undone] } = [] := by
    apply undoTimes_barred
    intro other here completed
    have same : undone = other := by simpa [lastOp] using here
    rw [← same,QueuedOperation.Undoable,state] at completed
    exact absurd completed.1 (by decide)
  rw [undoTimes,call]
  simp only [barred]
  rfl

theorem lastOp_history {q : QueueState} {op : QueuedOperation} (last : q.lastOp = some op) :
    q.history = q.history.dropLast ++ [op] :=
  (List.dropLast_append_getLast? op last).symm

theorem lastOp_lastCompleted_iff {q : QueueState} (some : ∃ op ∈ q.history, op.state = .completed) :
    q.lastOp = q.lastCompleted ↔ ∃ op, q.lastOp = .some op ∧ op.state = .completed := by
  constructor
  · intro same
    obtain ⟨op,member,completed⟩ := some
    cases latest : q.lastCompleted with
    | none =>
      have never := List.find?_eq_none.mp latest op (List.mem_reverse.mpr member)
      simp [completed] at never
    | some latest_op =>
      have state := List.find?_some latest
      exact ⟨latest_op,same.trans latest,by simpa using state⟩
  · rintro ⟨op,last,completed⟩
    rw [lastCompleted,lastOp_history last,last]
    simp [completed]

theorem undoesInReverse_iff {q : QueueState} {n : Nat} (enough : n ≤ q.undoables.length) :
    q.UndoesInReverse n ↔ n = 0 ∨ n = 1 ∧ ∃ op, q.lastOp = some op ∧ op.Undoable := by
  have wanted : (q.undoables.reverse.take n).length = n := by simp [enough]
  cases n with
  | zero => simp [UndoesInReverse,undoTimes]
  | succ n =>
    constructor
    · intro law
      have called := law (fun op => (.ok (),op.body)) (fun _ => rfl)
      by_cases barred : ∀ op, q.lastOp = some op → ¬ op.Undoable
      · rw [undoTimes_barred _ _ barred] at called
        rw [← called] at wanted
        cases wanted
      · push Not at barred
        obtain ⟨op,last,undoable⟩ := barred
        rw [undoTimes_undoable last undoable _ (fun _ => rfl)] at called
        rw [← called,List.length_singleton] at wanted
        exact .inr ⟨wanted.symm,op,last,undoable⟩
    · rintro (none | ⟨once,op,last,undoable⟩) undo succeeds
      · cases none
      · cases once
        rw [undoTimes_undoable last undoable undo succeeds,undoables,lastOp_history last]
        simp [undoable]

/-- What one call of `undoLast` takes up, and what several undo. -/
theorem undoLast_targets_iff (q : QueueState) (n : Nat)
    (some : ∃ op ∈ q.history, op.state = .completed ∧ op.body.canUndo = true)
    (enough : n ≤ q.undoables.length) :
    (q.lastOp = q.lastCompleted ↔ ∃ op, q.lastOp = .some op ∧ op.state = .completed) ∧
    (q.UndoesInReverse n ↔
      n = 0 ∨ n = 1 ∧ ∃ op, q.lastOp = .some op ∧ op.state = .completed ∧ op.body.canUndo = true) := by
  obtain ⟨op,member,completed,_⟩ := some
  exact ⟨lastOp_lastCompleted_iff ⟨op,member,completed⟩,undoesInReverse_iff enough⟩

def sampleDone : QueuedOperation := { ticket := 0,body := ⟨"Delete Partition",true⟩,state := .completed }

theorem undoLast_targets_sample :
    (lastOp { history := [sampleDone] } = lastCompleted { history := [sampleDone] } ↔
      ∃ op, lastOp { history := [sampleDone] } = .some op ∧ op.state = .completed) ∧
    (UndoesInReverse { history := [sampleDone] } 1 ↔ 1 = 0 ∨ 1 = 1 ∧
      ∃ op, lastOp { history := [sampleDone] } = .some op ∧ op.state = .completed ∧ op.body.canUndo = true) :=
  undoLast_targets_iff { history := [sampleDone] } 1 ⟨sampleDone,by decide,by decide,by decide⟩ (by decide)

end QueueState

namespace Machine

def failedSecond : List Action :=
  [.enqueue ⟨"Delete Partition",true⟩,.enqueue ⟨"Resize Partition",true⟩,.applyAll,
    .proceed,.finish (.ok (),⟨"Delete Partition",true⟩),
    .proceed,.finish (.error ⟨.fromCode .diskReadError "",by decide⟩,⟨"Resize Partition",false⟩)]

/-- The failed operation at the end of the history keeps the completed one from being undone. -/
theorem failed_operation_bars_undo :
    ¬ ∀ actions, ∀ m ∈ Run.trace step {} actions,
      (∃ op ∈ m.queue.history, op.state = .completed ∧ op.body.canUndo = true) →
        m.queue.lastOp = m.queue.lastCompleted ∧
          ∀ n ≤ m.queue.undoables.length, m.queue.UndoesInReverse n := by
  intro always
  have target := (always failedSecond _ (Run.foldl_mem_trace step {} failedSecond)
    ⟨QueueState.sampleDone,by decide,by decide,by decide⟩).1
  revert target
  decide

end Machine
end SetecWizard.Core
