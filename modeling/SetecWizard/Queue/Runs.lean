import SetecWizard.Queue.Ledger

/-! Runs of the operation queue: the calls of its user and of the operations it
executes come in any order, and every operation succeeds or fails as it likes.
-/
namespace SetecWizard.Core
open SetecWizard.Library

def OperationState.Settled (s : OperationState) : Prop := s = .completed ∨ s = .failed ∨ s = .undone

def Control.locals : Control → Option ApplyLocals
  | .idle => none
  | .looping locals => some locals
  | .executing locals _ => some locals

theorem mem_succeededIn {log : List Event} {t : Nat} : t ∈ succeededIn log ↔ .finished t true ∈ log := by
  unfold succeededIn
  rw [List.mem_filterMap]
  constructor
  · rintro ⟨e,member,read⟩
    split at read
    · cases read
      exact member
    · cases read
  · exact fun member => ⟨_,member,rfl⟩

theorem thisRun_subset (log : List Event) : thisRun log ⊆ log := by
  induction log with
  | nil => exact List.Subset.refl _
  | cons e log ih =>
    cases e with
    | began found => exact List.nil_subset _
    | _ => exact List.cons_subset_cons _ ih

namespace Machine

/-- The states operations are in, at every point of a run. -/
structure Staged (m : Machine) : Prop where
  pending : ∀ op ∈ m.queue.pending, op.state = .pending
  history : ∀ op ∈ m.queue.history, op.state.Settled

theorem settled_append {ops : List QueuedOperation} {last : QueuedOperation}
    (settled : ∀ op ∈ ops, op.state.Settled) (new : last.state.Settled) :
    ∀ op ∈ ops ++ [last], op.state.Settled := by
  intro op member
  rcases List.mem_append.mp member with old | added
  · exact settled op old
  · rw [List.mem_singleton.mp added]
    exact new

theorem Move.staged {m m' : Machine} (move : Move m m') (staged : m.Staged) : m'.Staged := by
  cases move with
  | enqueue body reached =>
    refine ⟨?_,staged.history⟩
    intro op member
    rcases List.mem_append.mp member with old | added
    · exact staged.pending op old
    · rw [List.mem_singleton.mp added]
  | requestCancel reached => exact ⟨staged.pending,staged.history⟩
  | drop queue gone idle pending history split =>
    refine ⟨fun op member => staged.pending op (pending.subset member),?_⟩
    rcases history with same | none
    · rw [same]
      exact staged.history
    · simp [none]
  | undo older last body state idle at_end completed settled =>
    refine ⟨staged.pending,settled_append ?_ ?_⟩
    · exact fun op member => staged.history op (by rw [at_end]; exact List.mem_append_left _ member)
    · rcases settled with undone | kept
      · exact .inr (.inr undone)
      · exact .inl kept
  | idleRun idle empty => exact ⟨staged.pending,staged.history⟩
  | begin idle filled => exact ⟨staged.pending,staged.history⟩
  | finish locals looping empty => exact ⟨staged.pending,staged.history⟩
  | cancel locals looping filled => exact ⟨staged.pending,staged.history⟩
  | start locals op rest looping front going =>
    exact ⟨fun op member => staged.pending op (by rw [front]; exact List.mem_cons_of_mem _ member),
      staged.history⟩
  | succeed locals op body executing =>
    exact ⟨staged.pending,settled_append staged.history (.inl rfl)⟩
  | fail locals op body e executing =>
    exact ⟨staged.pending,settled_append staged.history (.inr (.inl rfl))⟩

theorem Move.numbered {m m' : Machine} (move : Move m m')
    (numbered : enqueuedIn m.log = (List.range m.issued).reverse) :
    enqueuedIn m'.log = (List.range m'.issued).reverse := by
  cases move with
  | enqueue body reached =>
    simp only [Machine.enqueue,List.range_succ,List.reverse_append,← numbered]
    rfl
  | _ => exact numbered

/-- Where execution stands: what was started lies before what is pending. -/
structure Advancing (m : Machine) : Prop where
  order : (startedIn m.log).Pairwise (· > ·)
  issued : ∀ s ∈ startedIn m.log, s < m.issued
  ahead : ∀ s ∈ startedIn m.log, ∀ t ∈ tickets m.queue.pending, s < t
  behind : ∀ s ∈ succeededIn m.log, s < m.issued ∧
    ∀ t ∈ tickets m.control.current ++ tickets m.queue.pending, s < t

theorem Advancing.of_same {m m' : Machine} (advancing : m.Advancing)
    (started : startedIn m'.log = startedIn m.log) (succeeded : succeededIn m'.log = succeededIn m.log)
    (issued : m'.issued = m.issued) (current : tickets m'.control.current ⊆ tickets m.control.current)
    (pending : tickets m'.queue.pending ⊆ tickets m.queue.pending) : m'.Advancing := by
  refine ⟨?_,?_,?_,?_⟩
  · rw [started]
    exact advancing.order
  · rw [started,issued]
    exact advancing.issued
  · rw [started]
    exact fun s before t member => advancing.ahead s before t (pending member)
  · rw [succeeded,issued]
    refine fun s before => ⟨(advancing.behind s before).1,fun t member => ?_⟩
    refine (advancing.behind s before).2 t ?_
    rcases List.mem_append.mp member with running | waiting
    · exact List.mem_append_left _ (current running)
    · exact List.mem_append_right _ (pending waiting)

theorem Move.advancing {m m' : Machine} (move : Move m m') (conserved : m.Conserved)
    (ascending : m.held.Pairwise (· < ·)) (advancing : m.Advancing) : m'.Advancing := by
  have same (ts : List Nat) : ts ⊆ ts := List.Subset.refl ts
  cases move with
  | enqueue body reached =>
    refine ⟨advancing.order,?_,?_,?_⟩
    · exact fun s before => Nat.lt_succ_of_lt (advancing.issued s before)
    · intro s before t member
      rcases List.mem_append.mp (tickets_append _ _ ▸ member) with old | new
      · exact advancing.ahead s before t old
      · rw [List.mem_singleton.mp new]
        exact advancing.issued s before
    · intro s before
      have known := advancing.behind s before
      refine ⟨Nat.lt_succ_of_lt known.1,fun t member => ?_⟩
      rw [Machine.enqueue,QueueState.enqueue,tickets_append,← List.append_assoc] at member
      rcases List.mem_append.mp member with old | new
      · exact known.2 t old
      · rw [List.mem_singleton.mp new]
        exact known.1
  | requestCancel reached => exact advancing.of_same rfl rfl rfl (same _) (same _)
  | drop queue gone idle pending history split =>
    exact advancing.of_same rfl rfl rfl (same _) (pending.map _).subset
  | undo older last body state idle at_end completed settled =>
    exact advancing.of_same rfl rfl rfl (same _) (same _)
  | idleRun idle empty => exact advancing.of_same rfl rfl rfl (same _) (same _)
  | begin idle filled => exact advancing.of_same rfl rfl rfl (by simp [Control.current,tickets]) (same _)
  | finish locals looping empty => exact advancing.of_same rfl rfl rfl (by simp [Control.current,tickets]) (same _)
  | cancel locals looping filled => exact advancing.of_same rfl rfl rfl (by simp [Control.current,tickets]) (same _)
  | start locals op rest looping front going =>
    have first : ∀ s ∈ startedIn m.log, s < op.ticket :=
      fun s before => advancing.ahead s before op.ticket (by simp [front,tickets])
    have later : ∀ t ∈ tickets rest, op.ticket < t := by
      have split := (List.pairwise_append.mp ascending).2.1
      rw [front] at split
      exact (List.pairwise_cons.mp split).1
    refine ⟨List.pairwise_cons.mpr ⟨first,advancing.order⟩,?_,?_,?_⟩
    · intro s started
      rcases List.mem_cons.mp started with rfl | before
      · exact conserved.held_issued (by simp [Machine.held,front,tickets])
      · exact advancing.issued s before
    · intro s started t waiting
      rcases List.mem_cons.mp started with rfl | before
      · exact later t waiting
      · exact advancing.ahead s before t (by rw [front]; exact List.mem_cons_of_mem _ waiting)
    · intro s before
      refine ⟨(advancing.behind s before).1,fun t member => (advancing.behind s before).2 t ?_⟩
      rw [front]
      exact List.mem_append_right _ member
  | succeed locals op body executing =>
    refine ⟨advancing.order,advancing.issued,advancing.ahead,?_⟩
    intro s succeeded
    rcases List.mem_cons.mp succeeded with rfl | before
    · refine ⟨conserved.held_issued (by simp [Machine.held,executing,Control.current,tickets]),?_⟩
      intro t waiting
      unfold Machine.held at ascending
      rw [executing,List.append_assoc] at ascending
      have split := (List.pairwise_append.mp ascending).2.1
      exact (List.pairwise_append.mp split).2.2 op.ticket (by simp [Control.current,tickets]) t waiting
    · refine ⟨(advancing.behind s before).1,fun t member => (advancing.behind s before).2 t ?_⟩
      exact List.mem_append_right _ member
  | fail locals op body e executing =>
    exact advancing.of_same rfl rfl rfl (by simp [Control.current,tickets]) (same _)

/-- A run that was told to stop starts nothing more. -/
structure Heeding (m : Machine) : Prop where
  told : m.control ≠ .idle → stopped m.log = true → m.queue.cancelRequested = true
  obeyed : ∀ later t earlier, m.log = later ++ .started t :: earlier → stopped earlier = false

theorem obeyed_cons {e : Event} {log : List Event} (other : ∀ t, e ≠ .started t)
    (obeyed : ∀ later t earlier, log = later ++ .started t :: earlier → stopped earlier = false) :
    ∀ later t earlier, e :: log = later ++ .started t :: earlier → stopped earlier = false := by
  intro later t earlier split
  cases later with
  | nil => exact absurd (List.cons.inj split).1 (other t)
  | cons first later => exact obeyed later t earlier (List.cons.inj split).2

theorem Move.heeding {m m' : Machine} (move : Move m m') (heeding : m.Heeding) : m'.Heeding := by
  cases move with
  | enqueue body reached => exact ⟨heeding.told,obeyed_cons (by simp) heeding.obeyed⟩
  | requestCancel reached => exact ⟨fun _ _ => rfl,obeyed_cons (by simp) heeding.obeyed⟩
  | drop queue gone idle pending history split =>
    exact ⟨fun running => absurd idle running,obeyed_cons (by simp) heeding.obeyed⟩
  | undo older last body state idle at_end completed settled =>
    exact ⟨fun running => absurd idle running,obeyed_cons (by simp) heeding.obeyed⟩
  | idleRun idle empty =>
    exact ⟨fun running => absurd idle running,
      obeyed_cons (by simp) (obeyed_cons (by simp) heeding.obeyed)⟩
  | begin idle filled => exact ⟨fun _ stop => by simp [stopped] at stop,obeyed_cons (by simp) heeding.obeyed⟩
  | finish locals looping empty =>
    exact ⟨fun running => absurd rfl running,obeyed_cons (by simp) heeding.obeyed⟩
  | cancel locals looping filled =>
    exact ⟨fun running => absurd rfl running,obeyed_cons (by simp) heeding.obeyed⟩
  | start locals op rest looping front going =>
    have running : m.control ≠ .idle := by simp [looping]
    have free : stopped m.log = false := by
      by_contra stop
      have canceled := heeding.told running (by simpa using stop)
      simp [going] at canceled
    refine ⟨fun _ stop => heeding.told running stop,?_⟩
    intro later t earlier split
    cases later with
    | nil => rwa [← (List.cons.inj split).2]
    | cons first later => exact heeding.obeyed later t earlier (List.cons.inj split).2
  | succeed locals op body executing =>
    have running : m.control ≠ .idle := by simp [executing]
    exact ⟨fun _ stop => heeding.told running stop,obeyed_cons (by simp) heeding.obeyed⟩
  | fail locals op body e executing =>
    exact ⟨fun running => absurd rfl running,
      obeyed_cons (by simp) (obeyed_cons (by simp) heeding.obeyed)⟩

/-- While `applyAll` runs, what it found and received has succeeded, is executing or waits,
the latest ticket first. -/
def Accounted (m : Machine) : Prop :=
  ∀ locals, m.control.locals = some locals → locals.lastError.code = .success ∧
    enqueuedIn (thisRun m.log) ++ (foundIn m.log).reverse =
      (tickets m.queue.pending).reverse ++ tickets m.control.current ++ succeededIn (thisRun m.log)

theorem Move.accounted {m m' : Machine} (move : Move m m') (accounted : m.Accounted) : m'.Accounted := by
  cases move with
  | enqueue body reached =>
    intro locals running
    obtain ⟨fine,ledger⟩ := accounted locals running
    refine ⟨fine,?_⟩
    simp only [Machine.enqueue,QueueState.enqueue,tickets_append,List.reverse_append,thisRun,foundIn,
      List.append_assoc] at ledger ⊢
    exact congrArg (m.issued :: ·) ledger
  | requestCancel reached => exact accounted
  | drop queue gone idle pending history split =>
    intro locals running
    simp [idle,Control.locals] at running
  | undo older last body state idle at_end completed settled =>
    intro locals running
    simp [idle,Control.locals] at running
  | idleRun idle empty =>
    intro locals running
    simp [idle,Control.locals] at running
  | begin idle filled =>
    intro locals running
    cases running
    exact ⟨rfl,by simp [thisRun,foundIn,enqueuedIn,succeededIn,Control.current,tickets]⟩
  | finish locals looping empty => exact fun locals running => by cases running
  | cancel locals looping filled => exact fun locals running => by cases running
  | start locals op rest looping front going =>
    intro locals' running
    cases running
    obtain ⟨fine,ledger⟩ := accounted locals (by rw [looping]; rfl)
    refine ⟨fine,?_⟩
    rw [looping,front] at ledger
    simpa [thisRun,foundIn,Control.current,tickets,enqueuedIn,succeededIn] using ledger
  | succeed locals op body executing =>
    intro locals' running
    cases running
    obtain ⟨fine,ledger⟩ := accounted locals (by rw [executing]; rfl)
    refine ⟨fine,?_⟩
    rw [executing] at ledger
    simpa [thisRun,foundIn,Control.current,tickets,enqueuedIn,succeededIn] using ledger
  | fail locals op body e executing => exact fun locals running => by cases running

def Answered (m : Machine) : Prop :=
  ∀ result log, m.log = .returned result :: log →
    (result = .ok () ↔
      ∀ t, t ∈ foundIn log ∨ t ∈ enqueuedIn (thisRun log) → .finished t true ∈ thisRun log) ∧
    (result = .ok () → m.queue.pending = [])

theorem answered_of_other {m : Machine} {e : Event} {log : List Event} (latest : m.log = e :: log)
    (other : ∀ result, e ≠ .returned result) : m.Answered := by
  intro result log' answered
  rw [latest] at answered
  exact absurd (List.cons.inj answered).1 (other result)

theorem Accounted.waiting {m : Machine} {locals : ApplyLocals} (accounted : m.Accounted)
    (advancing : m.Advancing) (running : m.control.locals = some locals) {t : Nat}
    (waits : t ∈ tickets m.control.current ++ tickets m.queue.pending) :
    (t ∈ foundIn m.log ∨ t ∈ enqueuedIn (thisRun m.log)) ∧ .finished t true ∉ thisRun m.log := by
  have ledger := (accounted locals running).2
  constructor
  · have member : t ∈ enqueuedIn (thisRun m.log) ++ (foundIn m.log).reverse := by
      rw [ledger]
      rcases List.mem_append.mp waits with current | pending
      · simp [current]
      · simp [pending]
    rcases List.mem_append.mp member with received | found
    · exact .inr received
    · exact .inl (List.mem_reverse.mp found)
  · intro finished
    have before := advancing.behind t (mem_succeededIn.mpr (thisRun_subset _ finished))
    exact Nat.lt_irrefl t (before.2 t waits)

theorem Move.answered {m m' : Machine} (move : Move m m') (advancing : m.Advancing)
    (accounted : m.Accounted) : m'.Answered := by
  cases move with
  | enqueue body reached => exact answered_of_other rfl (by simp)
  | requestCancel reached => exact answered_of_other rfl (by simp)
  | drop queue gone idle pending history split => exact answered_of_other rfl (by simp)
  | undo older last body state idle at_end completed settled => exact answered_of_other rfl (by simp)
  | idleRun idle empty =>
    intro result log latest
    obtain ⟨answer,rfl⟩ := List.cons.inj latest
    cases answer
    exact ⟨by simp [foundIn,thisRun,enqueuedIn],fun _ => empty⟩
  | begin idle filled => exact answered_of_other rfl (by simp)
  | finish locals looping empty =>
    intro result log latest
    obtain ⟨answer,rfl⟩ := List.cons.inj latest
    obtain ⟨fine,ledger⟩ := accounted locals (by rw [looping]; rfl)
    rw [if_pos fine] at answer
    cases answer
    refine ⟨iff_of_true rfl ?_,fun _ => empty⟩
    intro t member
    apply mem_succeededIn.mp
    simp only [empty,looping,Control.current,tickets,List.map_nil,List.reverse_nil,List.nil_append] at ledger
    rw [← ledger]
    rcases member with found | received
    · exact List.mem_append_right _ (List.mem_reverse.mpr found)
    · exact List.mem_append_left _ received
  | cancel locals looping filled =>
    intro result log latest
    obtain ⟨answer,rfl⟩ := List.cons.inj latest
    obtain ⟨op,rest,front⟩ := List.exists_cons_of_ne_nil filled
    have running : m.control.locals = some locals := by rw [looping]; rfl
    have waits := accounted.waiting advancing running (t := op.ticket) (by simp [front,tickets])
    have failed : result ≠ .ok () := by
      rw [← Event.returned.inj answer]
      simp [OperationQueue.canceled,ErrorInfo.fromCode]
    exact ⟨iff_of_false failed (fun all => waits.2 (all _ waits.1)),fun fine => absurd fine failed⟩
  | start locals op rest looping front going => exact answered_of_other rfl (by simp)
  | succeed locals op body executing => exact answered_of_other rfl (by simp)
  | fail locals op body e executing =>
    intro result log latest
    obtain ⟨answer,rfl⟩ := List.cons.inj latest
    have running : m.control.locals = some locals := by rw [executing]; rfl
    have waits := accounted.waiting advancing running (t := op.ticket)
      (by simp [executing,Control.current,tickets])
    have failed : result ≠ .ok () := by
      rw [← Event.returned.inj answer,if_neg e.isError]
      simp
    refine ⟨iff_of_false failed (fun all => waits.2 ?_),fun fine => absurd fine failed⟩
    have finished := all _ waits.1
    simpa [thisRun] using finished

/-- All of the above, as one step keeps it. -/
structure Ledger (m : Machine) : Prop where
  staged : m.Staged
  numbered : enqueuedIn m.log = (List.range m.issued).reverse
  conserved : m.Conserved
  ascending : m.held.Pairwise (· < ·)
  advancing : m.Advancing
  heeding : m.Heeding
  accounted : m.Accounted
  answered : m.Answered

theorem ledger_initial : Ledger {} where
  staged := ⟨by simp,by simp⟩
  numbered := rfl
  conserved := List.Perm.refl _
  ascending := List.Pairwise.nil
  advancing := ⟨List.Pairwise.nil,by simp [startedIn],by simp [startedIn],by simp [succeededIn]⟩
  heeding := ⟨by simp,by simp⟩
  accounted := by simp [Accounted,Control.locals]
  answered := by simp [Answered]

theorem ledger_step (m : Machine) (action : Action) (ledger : m.Ledger) : (m.step action).Ledger := by
  rcases m.step_move action with same | move
  · rwa [same]
  · exact ⟨move.staged ledger.staged,move.numbered ledger.numbered,move.conserved ledger.conserved,
      move.ascending ledger.conserved ledger.ascending,
      move.advancing ledger.conserved ledger.ascending ledger.advancing,move.heeding ledger.heeding,
      move.accounted ledger.accounted,move.answered ledger.advancing ledger.accounted⟩

/-- What the queue promises of every point of a run. -/
structure Sound (m : Machine) : Prop where
  /-- Tickets are issued in the order of the calls of `enqueue`. -/
  numbered : enqueuedIn m.log = (List.range m.issued).reverse
  /-- The latest start first: each operation once, in the order they were enqueued. -/
  order : (startedIn m.log).Pairwise (· > ·)
  known : ∀ t ∈ startedIn m.log, t ∈ enqueuedIn m.log
  pending : ∀ op ∈ m.queue.pending, op.state = .pending
  history : ∀ op ∈ m.queue.history, op.state = .completed ∨ op.state = .failed ∨ op.state = .undone
  /-- Between a failure or a cancel request and a later start lies another call of `applyAll`. -/
  heeds : ∀ later t middle e earlier, m.log = later ++ .started t :: (middle ++ e :: earlier) →
    (e = .cancelRequested ∨ ∃ u, e = .finished u false) → ∃ found, .began found ∈ middle
  answers : ∀ result log, m.log = .returned result :: log →
    (result = .ok () ↔
      ∀ t, t ∈ foundIn log ∨ t ∈ enqueuedIn (thisRun log) → .finished t true ∈ thisRun log) ∧
    (result = .ok () → m.queue.pending = [])
  conserved : (tickets m.queue.history ++ tickets m.control.current ++ tickets m.queue.pending
    ++ droppedIn m.log).Perm (List.range m.issued)

theorem Ledger.sound {m : Machine} (ledger : m.Ledger) : m.Sound where
  numbered := ledger.numbered
  order := ledger.advancing.order
  known := by
    intro t started
    rw [ledger.numbered,List.mem_reverse,List.mem_range]
    exact ledger.advancing.issued t started
  pending := ledger.staged.pending
  history := ledger.staged.history
  heeds := fun later t middle e earlier split stops =>
    began_of_not_stopped stops (ledger.heeding.obeyed later t _ split)
  answers := ledger.answered
  conserved := ledger.conserved

/-- Every point of every run of the queue keeps its promises. -/
theorem run_sound (actions : List Action) : ∀ m ∈ Run.trace step {} actions, m.Sound :=
  fun m visited => (Run.trace_invariant step Ledger ledger_step {} actions ledger_initial m visited).sound

/-- One operation is queued, and a run executes it. -/
def oneRun : List Action :=
  [.enqueue ⟨"Create partition",true⟩,.applyAll,.proceed,.finish (.ok (),⟨"Create partition",true⟩),.proceed]

theorem oneRun_sound : (oneRun.foldl step {}).log.head? = some (.returned (.ok ())) ∧
    Machine.Sound (oneRun.foldl step {}) :=
  ⟨by decide,run_sound oneRun _ (Run.foldl_mem_trace step {} oneRun)⟩

end Machine
end SetecWizard.Core
