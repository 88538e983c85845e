import Mathlib.Algebra.Group.Nat.Defs
import Mathlib.Data.List.Basic
import Mathlib.Order.Monotone.Basic

/-! Computations that are bounded from outside. A loop takes the number of its rounds as an
argument and returns a value when some number is enough. A list that grows by pieces reaches
every length if no piece is empty, and none that it does not have if all pieces are. A function is
iterated until it stands still: under an antitone one a value may swing between two others and never
settle, but after an even number of rounds it lies on the side of the fixed point it started from.
-/
namespace SetecWizard.Library

section Bounded

variable {α β : Type}

/-- All bounds from some one on give the value. -/
def Returns (run : Nat → Option α) (value : α) : Prop := ∃ least, ∀ fuel, least ≤ fuel → run fuel = some value

namespace Returns

theorem unique {run : Nat → Option α} {a b : α} (first : Returns run a) (second : Returns run b) : a = b := by
  obtain ⟨least,enough⟩ := first
  obtain ⟨later,enough'⟩ := second
  have same := enough (max least later) (Nat.le_max_left _ _)
  rw [enough' _ (Nat.le_max_right _ _)] at same
  exact (Option.some.inj same).symm

theorem not_none {run : Nat → Option α} {value : α} (returns : Returns run value) : ∃ fuel, run fuel ≠ none := by
  obtain ⟨least,enough⟩ := returns
  exact ⟨least,by rw [enough least (Nat.le_refl _)]; exact Option.some_ne_none _⟩

end Returns

def grow (limit : Nat) (piece : Nat → List α) : Nat → List α → Option (List α)
  | 0,_ => none
  | fuel + 1,xs => if xs.length < limit then grow limit piece fuel (xs ++ piece xs.length) else some xs

attribute [simp] grow

variable {limit : Nat} {piece : Nat → List α} {xs : List α}

theorem grow_enough (long : limit ≤ xs.length) : Returns (fun fuel => grow limit piece fuel xs) xs := by
  refine ⟨1,fun fuel positive => ?_⟩
  obtain ⟨rounds,rfl⟩ : ∃ rounds, fuel = rounds + 1 := ⟨fuel - 1,by omega⟩
  change grow limit piece (rounds + 1) xs = some xs
  rw [grow,if_neg (Nat.not_lt.mpr long)]

/-- The measure is what the list lacks. -/
theorem grow_returns (positive : ∀ old, 0 < (piece old).length) (xs : List α) :
    ∃ ys, Returns (fun fuel => grow limit piece fuel xs) ys ∧ limit ≤ ys.length ∧ xs.length ≤ ys.length := by
  induction lacks : limit - xs.length using Nat.strongRecOn generalizing xs with
  | ind lack ih =>
    by_cases short : xs.length < limit
    · have more := positive xs.length
      obtain ⟨ys,⟨least,enough⟩,long,longer⟩ := ih (limit - (xs ++ piece xs.length).length)
        (by rw [List.length_append]; omega) (xs ++ piece xs.length) rfl
      rw [List.length_append] at longer
      refine ⟨ys,⟨least + 1,fun fuel reached => ?_⟩,long,by omega⟩
      obtain ⟨rounds,rfl⟩ : ∃ rounds, fuel = rounds + 1 := ⟨fuel - 1,by omega⟩
      change grow limit piece (rounds + 1) xs = some ys
      rw [grow,if_pos short]
      exact enough rounds (by omega)
    · exact ⟨xs,grow_enough (Nat.not_lt.mp short),Nat.not_lt.mp short,Nat.le_refl _⟩

theorem grow_stuck (empty : ∀ old, piece old = []) (short : xs.length < limit) (fuel : Nat) :
    grow limit piece fuel xs = none := by
  induction fuel with
  | zero => rfl
  | succ fuel ih => rw [grow,if_pos short,empty,List.append_nil,ih]

theorem grow_length_lt {most : Nat} (pieces : ∀ old, (piece old).length ≤ most) {fuel : Nat} {ys : List α}
    (grown : grow limit piece fuel xs = some ys) : ys.length < limit + most ∨ ys = xs := by
  induction fuel generalizing xs with
  | zero => cases grown
  | succ fuel ih =>
    rw [grow] at grown
    by_cases short : xs.length < limit
    · rw [if_pos short] at grown
      have more := pieces xs.length
      rcases ih grown with bounded | rfl
      · exact .inl bounded
      · left
        rw [List.length_append]
        omega
    · rw [if_neg short] at grown
      exact .inr (Option.some.inj grown).symm

end Bounded

section Settling

variable {α : Type*} [DecidableEq α]

/-- At most so many rounds of a function, or fewer if a round changes nothing. -/
def settle (f : α → α) : Nat → α → α
  | 0,x => x
  | rounds + 1,x => if f x = x then x else settle f rounds (f x)

theorem settle_mem {f : α → α} {holds : α → Prop} (step : ∀ x, holds x → holds (f x)) (rounds : Nat) {x : α}
    (start : holds x) : holds (settle f rounds x) := by
  induction rounds generalizing x with
  | zero => exact start
  | succ rounds ih =>
    rw [settle]
    split
    · exact start
    · exact ih (step x start)

/-- What every two rounds keep is kept by an even number of them, and by standing still. -/
theorem settle_even {f : α → α} {holds : α → Prop} (twice : ∀ x, holds x → holds (f (f x))) (rounds : Nat) {x : α}
    (start : holds x) (still : ∀ x, f x = x → holds x) : holds (settle f (2 * rounds) x) := by
  induction rounds generalizing x with
  | zero => exact start
  | succ rounds ih =>
    rw [Nat.mul_succ,settle]
    split
    next => exact start
    next =>
      rw [settle]
      split
      next fixed => exact still _ fixed
      next => exact ih (twice x start)

theorem settle_above [PartialOrder α] {f : α → α} (anti : Antitone f) (rounds : Nat) {x : α} (above : f x ≤ x) :
    f (settle f (2 * rounds) x) ≤ settle f (2 * rounds) x :=
  @settle_even _ _ f (fun x => f x ≤ x) (fun _ above => anti (anti above)) rounds x above (fun _ => le_of_eq)

/-- Two numbers that differ by so much at most. -/
def Close (d x y : Nat) : Prop := x ≤ y + d ∧ y ≤ x + d

/-- A function under which distances shrink to a part settles on a value, or ends one away from
the value before. -/
theorem settle_close {f : Nat → Nat} {part : Nat} (shrink : ∀ d x y, Close (part * d) x y → Close d (f x) (f y))
    (rounds : Nat) {x : Nat} (start : Close (part ^ rounds) x (f x)) :
    f (settle f (rounds + 1) x) = settle f (rounds + 1) x ∨
      ∃ y, f y = settle f (rounds + 1) x ∧ Close 1 y (settle f (rounds + 1) x) := by
  induction rounds generalizing x with
  | zero =>
    rw [settle]
    split
    next still => exact .inl still
    next =>
      rw [settle]
      exact .inr ⟨x,rfl,start⟩
  | succ rounds ih =>
    rw [settle]
    split
    next still => exact .inl still
    next => exact ih (shrink _ _ _ (by rw [← Nat.pow_succ']; exact start))

end Settling

end SetecWizard.Library
