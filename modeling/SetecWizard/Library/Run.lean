import Mathlib.Data.List.Basic

/-! Runs of a deterministic step function and the rules that carry an invariant
along them. A guard is a condition on the state before a step and on the step's
argument, so that a run is guarded when every one of its steps is.
-/
namespace SetecWizard.Library.Run

variable {σ α : Type*}

/-- Every state a run visits, the initial one included. -/
def trace (step : σ → α → σ) : σ → List α → List σ
  | s, [] => [s]
  | s, a :: rest => s :: trace step (step s a) rest

/-- The guard holds at every step of the run, in the state that step starts from. -/
def Guarded (step : σ → α → σ) (guard : σ → α → Prop) : σ → List α → Prop
  | _, [] => True
  | s, a :: rest => guard s a ∧ Guarded step guard (step s a) rest

instance (step : σ → α → σ) (guard : σ → α → Prop) [∀ s a, Decidable (guard s a)] :
    ∀ (s : σ) (calls : List α), Decidable (Guarded step guard s calls)
  | _, [] => isTrue trivial
  | s, a :: rest =>
    have := instDecidableGuarded step guard (step s a) rest
    inferInstanceAs (Decidable (guard s a ∧ Guarded step guard (step s a) rest))

theorem mem_trace_self (step : σ → α → σ) (s : σ) (calls : List α) : s ∈ trace step s calls := by
  cases calls <;> simp [trace]

theorem foldl_mem_trace (step : σ → α → σ) (s : σ) (calls : List α) :
    calls.foldl step s ∈ trace step s calls := by
  induction calls generalizing s with
  | nil => simp [trace]
  | cons a rest ih => exact List.mem_cons_of_mem _ (ih (step s a))

theorem guarded_of_forall (step : σ → α → σ) (guard : σ → α → Prop) (s : σ) (calls : List α)
    (each : ∀ a ∈ calls, ∀ s, guard s a) : Guarded step guard s calls := by
  induction calls generalizing s with
  | nil => trivial
  | cons a rest ih =>
    exact ⟨each a (by simp) s,ih _ (fun b member => each b (by simp [member]))⟩

/-- The rule of the invariant: what a guarded step keeps, a guarded run keeps. -/
theorem guarded_invariant (step : σ → α → σ) (guard : σ → α → Prop) (inv : σ → Prop)
    (kept : ∀ s a, inv s → guard s a → inv (step s a)) (s : σ) (calls : List α)
    (initial : inv s) (guarded : Guarded step guard s calls) :
    ∀ t ∈ trace step s calls, inv t := by
  induction calls generalizing s with
  | nil => simpa [trace] using initial
  | cons a rest ih =>
    intro t visited
    rcases List.mem_cons.mp visited with rfl | later
    · exact initial
    · exact ih _ (kept s a initial guarded.1) guarded.2 t later

theorem trace_invariant (step : σ → α → σ) (inv : σ → Prop)
    (kept : ∀ s a, inv s → inv (step s a)) (s : σ) (calls : List α) (initial : inv s) :
    ∀ t ∈ trace step s calls, inv t :=
  guarded_invariant step (fun _ _ => True) inv (fun s a held _ => kept s a held) s calls initial
    (guarded_of_forall _ _ _ _ (fun _ _ _ => trivial))

/-- When one step keeps the property exactly under the guard, a run keeps it in
every visited state exactly when the run is guarded. The side invariant is kept
by every step and may be used to judge a single one. -/
theorem invariant_iff_guarded (step : σ → α → σ) (guard : σ → α → Prop) (side prop : σ → Prop)
    (sideKept : ∀ s a, side s → side (step s a))
    (exact : ∀ s a, side s → prop s → (prop (step s a) ↔ guard s a))
    (s : σ) (calls : List α) (sideInitial : side s) (initial : prop s) :
    (∀ t ∈ trace step s calls, prop t) ↔ Guarded step guard s calls := by
  induction calls generalizing s with
  | nil => simpa [trace,Guarded] using initial
  | cons a rest ih =>
    have once := exact s a sideInitial initial
    constructor
    · intro all
      have next : prop (step s a) :=
        all _ (List.mem_cons_of_mem _ (mem_trace_self step (step s a) rest))
      refine ⟨once.mp next,(ih _ (sideKept s a sideInitial) next).mp ?_⟩
      exact fun t visited => all t (List.mem_cons_of_mem _ visited)
    · intro guarded t visited
      rcases List.mem_cons.mp visited with rfl | later
      · exact initial
      · exact (ih _ (sideKept s a sideInitial) (once.mpr guarded.1)).mpr guarded.2 t later

end SetecWizard.Library.Run
