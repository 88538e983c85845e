import Mathlib.Data.List.Basic

/-! Half-open ranges of addresses and lists of ranges that do not meet. All
arithmetic is on naturals, so that a range given by machine words is compared
here only after its bounds are known not to wrap.
-/
namespace SetecWizard.Library

/-- The addresses `start, …, start + count - 1`. -/
structure Extent where
  start : Nat
  count : Nat
deriving DecidableEq

namespace Extent

def stop (e : Extent) : Nat := e.start + e.count

def Covers (e : Extent) (x : Nat) : Prop := e.start ≤ x ∧ x < e.stop

def Apart (a b : Extent) : Prop := a.stop ≤ b.start ∨ b.stop ≤ a.start

def Within (a b : Extent) : Prop := b.start ≤ a.start ∧ a.stop ≤ b.stop

instance (e : Extent) (x : Nat) : Decidable (e.Covers x) :=
  inferInstanceAs (Decidable (_ ∧ _))

instance (a b : Extent) : Decidable (a.Apart b) :=
  inferInstanceAs (Decidable (_ ∨ _))

instance (a b : Extent) : Decidable (a.Within b) :=
  inferInstanceAs (Decidable (_ ∧ _))

theorem apart_comm {a b : Extent} (apart : a.Apart b) : b.Apart a := apart.symm

theorem eq_iff {a b : Extent} : a = b ↔ a.start = b.start ∧ a.count = b.count := by
  cases a
  cases b
  exact Iff.of_eq (Extent.mk.injEq _ _ _ _)

/-- Two ranges have an address in common. -/
def Meets (a b : Extent) : Prop := ∃ x, a.Covers x ∧ b.Covers x

theorem meets_iff {a b : Extent} (nonempty : 0 < a.count) :
    a.Meets b ↔ 0 < b.count ∧ a.start < b.stop ∧ b.start < a.stop := by
  unfold Meets Covers stop
  constructor
  · rintro ⟨x,first,second⟩
    omega
  · rintro ⟨some_address,before,after⟩
    exact ⟨max a.start b.start,by omega,by omega⟩

end Extent

def Housed (outer inner : List Extent) : Prop := ∀ x ∈ inner, ∃ y, outer = [y] ∧ x.Within y

namespace Housed

variable {outer before after inner : List Extent} {old new : Extent}

theorem nil (outer : List Extent) : Housed outer [] := fun x member => by cases member

theorem mono (housed : Housed outer inner) {fewer : List Extent} (sub : ∀ x ∈ fewer, x ∈ inner) :
    Housed outer fewer :=
  fun x member => housed x (sub x member)

theorem concat_iff (housed : Housed outer inner) : Housed (outer ++ [new]) inner ↔ inner = [] := by
  constructor
  · intro still
    by_contra inhabited
    obtain ⟨x,member⟩ := List.exists_mem_of_ne_nil _ inhabited
    obtain ⟨y,only,_⟩ := housed x member
    obtain ⟨z,only',_⟩ := still x member
    simp [only] at only'
  · rintro rfl
    exact nil _

theorem replace_inner_iff (housed : Housed outer (before ++ old :: after)) :
    Housed outer (before ++ new :: after) ↔ ∀ y ∈ outer, new.Within y := by
  obtain ⟨y,only,_⟩ := housed old (by simp)
  constructor
  · intro still z member
    obtain ⟨w,only',within⟩ := still new (by simp)
    rw [only'] at member
    rw [List.mem_singleton.mp member]
    exact within
  · intro inside x member
    rcases List.mem_append.mp member with early | late
    · exact housed x (List.mem_append_left _ early)
    · rcases List.mem_cons.mp late with rfl | late
      · exact ⟨y,only,inside y (by simp [only])⟩
      · exact housed x (List.mem_append_right _ (List.mem_cons_of_mem _ late))

theorem replace_outer_iff (housed : Housed (before ++ old :: after) inner) :
    Housed (before ++ new :: after) inner ↔ ∀ x ∈ inner, x.Within new := by
  have alone (x : Extent) (member : x ∈ inner) : before = [] ∧ after = [] := by
    obtain ⟨y,only,_⟩ := housed x member
    have length := congrArg List.length only
    simp only [List.length_append,List.length_cons,List.length_nil] at length
    exact ⟨List.eq_nil_of_length_eq_zero (by omega),List.eq_nil_of_length_eq_zero (by omega)⟩
  constructor
  · intro still x member
    obtain ⟨rfl,rfl⟩ := alone x member
    obtain ⟨y,only,within⟩ := still x member
    rw [List.nil_append,List.singleton_inj] at only
    exact only ▸ within
  · intro covers x member
    obtain ⟨rfl,rfl⟩ := alone x member
    exact ⟨new,rfl,covers x member⟩

end Housed

theorem pairwise_concat {α : Type*} {R : α → α → Prop} {xs : List α} {y : α}
    (old : xs.Pairwise R) (fresh : ∀ x ∈ xs, R x y) : (xs ++ [y]).Pairwise R := by
  rw [List.pairwise_append]
  refine ⟨old,List.pairwise_singleton _ _,?_⟩
  intro x member z last
  rw [List.mem_singleton] at last
  exact last ▸ fresh x member

theorem pairwise_set {α : Type*} {R : α → α → Prop} (symm : ∀ a b, R a b → R b a)
    {xs : List α} {i : Nat} {y : α} (old : xs.Pairwise R)
    (fresh : ∀ j (bound : j < xs.length), j ≠ i → R xs[j] y) : (xs.set i y).Pairwise R := by
  rw [List.pairwise_iff_getElem] at old ⊢
  intro j k hj hk order
  rw [List.length_set] at hj hk
  rw [List.getElem_set,List.getElem_set]
  by_cases first : i = j
  · have second : ¬ i = k := by omega
    rw [if_pos first,if_neg second]
    exact symm _ _ (fresh k hk (by omega))
  · rw [if_neg first]
    by_cases second : i = k
    · rw [if_pos second]
      exact fresh j hj (by omega)
    · rw [if_neg second]
      exact old j k hj hk order

/-- Non-empty ranges inside `[low, high)` that do not meet. -/
structure Packed (low high : Nat) (xs : List Extent) : Prop where
  nonempty : ∀ x ∈ xs, 1 ≤ x.count
  inside : ∀ x ∈ xs, low ≤ x.start ∧ x.stop ≤ high
  apart : xs.Pairwise Extent.Apart

namespace Packed

variable {low high : Nat} {xs ys : List Extent} {y : Extent}

theorem nil : Packed low high [] :=
  ⟨by simp,by simp,List.Pairwise.nil⟩

theorem sublist (packed : Packed low high xs) (sub : ys.Sublist xs) : Packed low high ys :=
  ⟨fun x member => packed.nonempty x (sub.subset member),
    fun x member => packed.inside x (sub.subset member),packed.apart.sublist sub⟩

theorem concat (packed : Packed low high xs) (nonempty : 1 ≤ y.count) (lower : low ≤ y.start)
    (upper : y.stop ≤ high) (clear : ∀ x ∈ xs, x.Apart y) : Packed low high (xs ++ [y]) := by
  refine ⟨?_,?_,pairwise_concat packed.apart clear⟩
  · intro x member
    rcases List.mem_append.mp member with old | last
    · exact packed.nonempty x old
    · rw [List.mem_singleton.mp last]
      exact nonempty
  · intro x member
    rcases List.mem_append.mp member with old | last
    · exact packed.inside x old
    · rw [List.mem_singleton.mp last]
      exact ⟨lower,upper⟩

theorem set {i : Nat} (packed : Packed low high xs) (nonempty : 1 ≤ y.count)
    (lower : low ≤ y.start) (upper : y.stop ≤ high)
    (clear : ∀ j (bound : j < xs.length), j ≠ i → xs[j].Apart y) :
    Packed low high (xs.set i y) := by
  refine ⟨?_,?_,pairwise_set (fun a b => Extent.apart_comm) packed.apart clear⟩
  · intro x member
    rcases List.mem_or_eq_of_mem_set member with old | rfl
    · exact packed.nonempty x old
    · exact nonempty
  · intro x member
    rcases List.mem_or_eq_of_mem_set member with old | rfl
    · exact packed.inside x old
    · exact ⟨lower,upper⟩

end Packed

end SetecWizard.Library
