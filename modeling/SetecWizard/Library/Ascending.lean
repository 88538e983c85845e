import Mathlib.Data.List.Basic
import Mathlib.Data.List.Nodup
import Mathlib.Data.List.Pairwise
import Mathlib.Data.List.Range

/-! Ascending lists of numbers that are not negative. Such a list holds at a position at
least that position, and exactly it as long as no number below is missing. The numbers at a
fixed distance from one another are those a counting loop goes through.
-/
namespace SetecWizard.Library

structure Ascending (xs : List Int) : Prop where
  sorted : xs.Pairwise (· < ·)
  low : ∀ x ∈ xs, 0 ≤ x

namespace Ascending

variable {xs : List Int}

theorem sublist {ys : List Int} (asc : Ascending xs) (sub : ys.Sublist xs) : Ascending ys :=
  ⟨asc.sorted.sublist sub,fun y member => asc.low y (sub.subset member)⟩

theorem lt {i j : Nat} {x y : Int} (asc : Ascending xs) (at_i : xs[i]? = some x) (at_j : xs[j]? = some y)
    (before : i < j) : x < y := by
  obtain ⟨low,rfl⟩ := List.getElem?_eq_some_iff.mp at_i
  obtain ⟨high,rfl⟩ := List.getElem?_eq_some_iff.mp at_j
  exact List.pairwise_iff_getElem.mp asc.sorted i j low high before

theorem le_value {i : Nat} {x : Int} (asc : Ascending xs) (at_i : xs[i]? = some x) : (i : Int) ≤ x := by
  induction i generalizing x with
  | zero => exact asc.low x (List.mem_of_getElem? at_i)
  | succ i ih =>
    obtain ⟨bound,_⟩ := List.getElem?_eq_some_iff.mp at_i
    have previous : xs[i]? = some xs[i] := List.getElem?_eq_getElem (by omega)
    have step := asc.lt previous at_i (Nat.lt_succ_self i)
    have below := ih previous
    omega

theorem own_before {i n : Nat} (asc : Ascending xs) (own : xs[i]? = some (i : Int)) (within : n ≤ i) :
    xs[i - n]? = some ((i - n : Nat) : Int) := by
  obtain ⟨bound,_⟩ := List.getElem?_eq_some_iff.mp own
  induction n with
  | zero => exact own
  | succ n ih =>
    have next := ih (by omega)
    have here : xs[i - (n + 1)]? = some xs[i - (n + 1)] := List.getElem?_eq_getElem (by omega)
    have least := asc.le_value here
    have most := asc.lt here next (by omega)
    have value : xs[i - (n + 1)] = ((i - (n + 1) : Nat) : Int) := by omega
    rw [here,value]

theorem own_of_present {n : Nat} (asc : Ascending xs) (present : ∀ k : Int, 0 ≤ k → k ≤ n → k ∈ xs) :
    xs[n]? = some (n : Int) := by
  induction n using Nat.strongRecOn with
  | ind n ih =>
    obtain ⟨p,at_p⟩ := List.getElem?_of_mem (present n (by omega) (by omega))
    have least := asc.le_value at_p
    rcases Nat.lt_or_ge p n with before | after
    · have own := ih p before (fun k low high => present k low (by omega))
      rw [at_p] at own
      have same := Option.some.inj own
      omega
    · obtain rfl : p = n := by omega
      exact at_p

theorem own_iff {i : Nat} (asc : Ascending xs) :
    xs[i]? = some (i : Int) ↔ ∀ k : Int, 0 ≤ k → k ≤ i → k ∈ xs := by
  refine ⟨fun own k low high => ?_,asc.own_of_present⟩
  obtain ⟨j,rfl⟩ := Int.eq_ofNat_of_zero_le low
  have below : j ≤ i := by omega
  have found := asc.own_before own (Nat.sub_le i j)
  rw [Nat.sub_sub_self below] at found
  exact List.mem_of_getElem? found

end Ascending

/-- Values of a list that rise, from a lower bound on and below an upper one. -/
structure Rising {α : Type*} (value : α → Nat) (low high : Nat) (xs : List α) : Prop where
  sorted : xs.Pairwise (fun x y => value x < value y)
  bounds : ∀ x ∈ xs, low ≤ value x ∧ value x < high

namespace Rising

variable {α : Type*} {value : α → Nat} {low mid middle high : Nat} {xs ys : List α}

theorem nil : Rising value low high [] := ⟨List.Pairwise.nil,fun _ member => absurd member List.not_mem_nil⟩

theorem append (first : Rising value low mid xs) (second : Rising value middle high ys) (apart : mid ≤ middle)
    (below : low ≤ middle) (above : mid ≤ high) : Rising value low high (xs ++ ys) where
  sorted := by
    apply List.pairwise_append.mpr
    refine ⟨first.sorted,second.sorted,fun x left y right => ?_⟩
    have before := (first.bounds x left).2
    have after := (second.bounds y right).1
    omega
  bounds := by
    intro x member
    rcases List.mem_append.mp member with left | right
    · have here := first.bounds x left
      omega
    · have here := second.bounds x right
      omega

theorem nodup (rising : Rising value low high xs) : xs.Nodup := by
  have apart : xs.Pairwise (· ≠ ·) := rising.sorted.imp (fun less same => Nat.ne_of_lt less (congrArg value same))
  exact apart

theorem sublist (rising : Rising value low high xs) (sub : ys.Sublist xs) : Rising value low high ys :=
  ⟨rising.sorted.sublist sub,fun x member => rising.bounds x (sub.subset member)⟩

end Rising
def strided (start step limit : Nat) : List Nat := List.range' start ((limit - start + step - 1) / step) step

section Stride

variable {start step limit : Nat}

theorem strided_end (ended : limit ≤ start) : strided start step limit = [] := by
  have none : (limit - start + step - 1) / step = 0 := by
    rw [Nat.sub_eq_zero_of_le ended,Nat.zero_add]
    rcases Nat.eq_zero_or_pos step with zero | positive
    · rw [zero,Nat.div_zero]
    · exact Nat.div_eq_of_lt (by omega)
  rw [strided,none,List.range'_zero]

theorem strided_next (positive : 0 < step) (below : start < limit) :
    strided start step limit = start :: strided (start + step) step limit := by
  have count : (limit - start + step - 1) / step = (limit - (start + step) + step - 1) / step + 1 := by
    rcases Nat.lt_or_ge (start + step) limit with more | last
    · have split : limit - start + step - 1 = limit - (start + step) + step - 1 + step := by omega
      rw [split,Nat.add_div_right _ positive]
    · have rest : limit - (start + step) + step - 1 = step - 1 := by omega
      rw [rest,Nat.div_eq_of_lt (by omega : step - 1 < step),Nat.zero_add]
      exact Nat.div_eq_of_lt_le (by omega) (by omega)
  rw [strided,count,List.range'_succ]
  rfl

theorem mem_strided (positive : 0 < step) {x : Nat} :
    x ∈ strided start step limit ↔ x < limit ∧ ∃ k, x = start + k * step := by
  rw [strided,List.mem_range']
  constructor
  · rintro ⟨k,below,rfl⟩
    have whole := (Nat.lt_div_iff_mul_lt positive).mp below
    rw [Nat.mul_comm step k]
    exact ⟨by omega,k,rfl⟩
  · rintro ⟨below,k,rfl⟩
    refine ⟨k,(Nat.lt_div_iff_mul_lt positive).mpr ?_,by rw [Nat.mul_comm]⟩
    omega

theorem strided_nodup (positive : 0 < step) : (strided start step limit).Nodup :=
  List.nodup_range' _ positive

end Stride
end SetecWizard.Library
