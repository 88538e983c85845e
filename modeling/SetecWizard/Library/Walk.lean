import Mathlib.Data.Fintype.Card
import Mathlib.Data.Fintype.EquivFin
import Mathlib.Logic.Relation

/-! A walk along the links of a partial function that stops once a budget is
spent. Only some of its states cost anything, so the budget alone does not bound
the walk: over finitely many states it ends exactly when it meets no circle of
states that cost nothing before the budget is spent.
-/
namespace SetecWizard.Library.Walk

variable {σ : Type*} (next : σ → Option σ) (costs : σ → Prop)

/-- A link that leaves the budget as it is. -/
def Free (s t : σ) : Prop := next s = some t ∧ ¬ costs s

/-- A state that links back to itself at no cost. -/
def Idle (s : σ) : Prop := Relation.TransGen (Free next costs) s s

/-- The links lead from one state to another, at the given cost. -/
inductive Reaches : Nat → σ → σ → Prop
  | refl (s : σ) : Reaches 0 s s
  | free {cost : Nat} {s t u : σ} (link : Free next costs s t) (rest : Reaches cost t u) :
      Reaches cost s u
  | paid {cost : Nat} {s t u : σ} (link : next s = some t) (pays : costs s) (rest : Reaches cost t u) :
      Reaches (cost + 1) s u

/-- The walk from a state ends, with a budget for so many costly states. -/
inductive Halts : Nat → σ → Prop
  | spent (s : σ) : Halts 0 s
  | stuck (room : Nat) (s : σ) (ended : next s = none) : Halts (room + 1) s
  | free (room : Nat) (s t : σ) (link : Free next costs s t) (rest : Halts (room + 1) t) :
      Halts (room + 1) s
  | paid (room : Nat) (s t : σ) (link : next s = some t) (pays : costs s) (rest : Halts room t) :
      Halts (room + 1) s

variable {next costs}

theorem Idle.linked {s : σ} (idle : Idle next costs s) : ∃ t, Free next costs s t := by
  obtain ⟨t,link,_⟩ := Relation.TransGen.head'_iff.mp idle
  exact ⟨t,link⟩

theorem Idle.turned {s t : σ} (idle : Idle next costs s) (link : next s = some t) :
    Idle next costs t := by
  obtain ⟨u,first,back⟩ := Relation.TransGen.head'_iff.mp idle
  have same : u = t := Option.some.inj (first.1.symm.trans link)
  subst same
  exact Relation.TransGen.tail' back first

theorem Halts.meets_no_idle {room : Nat} {s : σ} (halts : Halts next costs room s) :
    ¬ ∃ cost t, cost < room ∧ Reaches next costs cost s t ∧ Idle next costs t := by
  induction halts with
  | spent s =>
    rintro ⟨cost,t,below,_⟩
    exact Nat.not_lt_zero _ below
  | stuck room s ended =>
    rintro ⟨cost,t,_,reaches,idle⟩
    cases reaches with
    | refl =>
      obtain ⟨u,link⟩ := idle.linked
      exact absurd link.1 (by simp [ended])
    | free link => exact absurd link.1 (by simp [ended])
    | paid link => exact absurd link (by simp [ended])
  | free room s t link rest ih =>
    rintro ⟨cost,u,below,reaches,idle⟩
    cases reaches with
    | refl => exact ih ⟨0,t,Nat.succ_pos room,.refl t,idle.turned link.1⟩
    | free first later =>
      cases Option.some.inj (first.1.symm.trans link.1)
      exact ih ⟨cost,u,below,later,idle⟩
    | paid first pays later => exact link.2 pays
  | paid room s t link pays rest ih =>
    rintro ⟨cost,u,below,reaches,idle⟩
    cases reaches with
    | refl =>
      obtain ⟨v,first⟩ := idle.linked
      exact first.2 pays
    | free first later => exact first.2 pays
    | paid first _ later =>
      cases Option.some.inj (first.symm.trans link)
      exact ih ⟨_,u,Nat.lt_of_succ_lt_succ below,later,idle⟩

theorem free_wellFounded [Finite σ] :
    WellFounded (fun t s => Relation.TransGen (Free next costs) s t ∧ ¬ Idle next costs t) := by
  have transitive : IsTrans σ (fun t s => Relation.TransGen (Free next costs) s t ∧ ¬ Idle next costs t) :=
    ⟨fun a b c first second => ⟨second.1.trans first.1,first.2⟩⟩
  have irreflexive : Std.Irrefl
      (fun t s : σ => Relation.TransGen (Free next costs) s t ∧ ¬ Idle next costs t) :=
    ⟨fun a both => both.2 both.1⟩
  exact Finite.wellFounded_of_trans_of_irrefl _

theorem halts_of_meets_no_idle [Finite σ] (room : Nat) (s : σ)
    (none : ¬ ∃ cost t, cost < room ∧ Reaches next costs cost s t ∧ Idle next costs t) :
    Halts next costs room s := by
  induction room generalizing s with
  | zero => exact .spent s
  | succ room ih =>
    -- the states of one cost level, in the order of their free links
    induction s using (@free_wellFounded σ next costs _).induction with
    | h s level =>
      cases linked : next s with
      | none => exact .stuck room s linked
      | some t =>
        by_cases pays : costs s
        · refine .paid room s t linked pays (ih t ?_)
          rintro ⟨cost,u,below,reaches,idle⟩
          exact none ⟨cost + 1,u,by omega,.paid linked pays reaches,idle⟩
        · have link : Free next costs s t := ⟨linked,pays⟩
          refine .free room s t link (level t ⟨.single link,?_⟩ ?_)
          · intro idle
            exact none ⟨0,t,Nat.succ_pos room,.free link (.refl t),idle⟩
          · rintro ⟨cost,u,below,reaches,idle⟩
            exact none ⟨cost,u,below,.free link reaches,idle⟩

theorem halts_iff [Finite σ] (room : Nat) (s : σ) :
    Halts next costs room s ↔
      ¬ ∃ cost t, cost < room ∧ Reaches next costs cost s t ∧ Idle next costs t :=
  ⟨Halts.meets_no_idle,halts_of_meets_no_idle room s⟩

end SetecWizard.Library.Walk
