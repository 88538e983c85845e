import SetecWizard.Library.Extent

/-! The gaps that a walk over a list of ranges finds, from its position behind the last range to
the start of the next one. In a list that is sorted by the starts they are apart and none
is missed, and they are free when the position is behind all ranges whenever it counts.
-/
namespace SetecWizard.Library

namespace Extent

def between (low high : Nat) : List Extent := if low < high then [⟨low,high - low⟩] else []

theorem mem_between {low high : Nat} {g : Extent} : g ∈ between low high ↔ low < high ∧ g = ⟨low,high - low⟩ := by
  unfold between
  split
  next below =>
    rw [List.mem_singleton]
    exact (and_iff_right below).symm
  next past => exact iff_of_false List.not_mem_nil (fun both => past both.1)

theorem stop_between {low high : Nat} (below : low < high) : (⟨low,high - low⟩ : Extent).stop = high :=
  Nat.add_sub_of_le (Nat.le_of_lt below)

def next (limit : Nat) : List Extent → Nat
  | [] => limit
  | e::_ => e.start

def gaps (limit : Nat) : Nat → List Extent → List Extent
  | position,[] => between position limit
  | position,e::rest => between position e.start ++ gaps limit e.stop rest

def Sorted (xs : List Extent) : Prop := xs.Pairwise (fun a b => a.start ≤ b.start)

instance (xs : List Extent) : Decidable (Sorted xs) := inferInstanceAs (Decidable (xs.Pairwise _))

variable {limit position : Nat} {xs : List Extent}

theorem start_le_stop (e : Extent) : e.start ≤ e.stop := Nat.le_add_right _ _

theorem mem_gaps {g : Extent} : g ∈ gaps limit position xs ↔ g ∈ between position (next limit xs) ∨
    ∃ before p after, xs = before ++ p::after ∧ g ∈ between p.stop (next limit after) := by
  induction xs generalizing position with
  | nil =>
    rw [gaps,next]
    refine (or_iff_left ?_).symm
    rintro ⟨before,p,after,split,_⟩
    cases before <;> cases split
  | cons e rest ih =>
    rw [gaps,List.mem_append,ih,next]
    apply or_congr_right
    constructor
    · rintro (first | ⟨before,p,after,rfl,gap⟩)
      · exact ⟨[],e,rest,rfl,first⟩
      · exact ⟨e::before,p,after,rfl,gap⟩
    · rintro ⟨before,p,after,split,gap⟩
      cases before with
      | nil =>
        obtain ⟨rfl,rfl⟩ := List.cons.inj split
        exact .inl gap
      | cons first before =>
        obtain ⟨rfl,rfl⟩ := List.cons.inj split
        exact .inr ⟨before,p,after,rfl,gap⟩

theorem gaps_above {low : Nat} (ahead : low ≤ position) (starts : ∀ e ∈ xs, low ≤ e.start) :
    ∀ g ∈ gaps limit position xs, low ≤ g.start := by
  intro g member
  rcases mem_gaps.mp member with first | ⟨before,p,after,rfl,gap⟩
  · rw [(mem_between.mp first).2]
    exact ahead
  · rw [(mem_between.mp gap).2]
    have start := starts p (by simp)
    exact Nat.le_trans start p.start_le_stop

theorem gaps_apart (sorted : Sorted xs) : (gaps limit position xs).Pairwise Apart := by
  induction xs generalizing position with
  | nil =>
    rw [gaps,between]
    split
    next => exact List.pairwise_singleton _ _
    next => exact List.Pairwise.nil
  | cons e rest ih =>
    obtain ⟨first,others⟩ := List.pairwise_cons.mp sorted
    rw [gaps,List.pairwise_append]
    refine ⟨?_,ih others,?_⟩
    · rw [between]
      split
      next => exact List.pairwise_singleton _ _
      next => exact List.Pairwise.nil
    · intro g front h later
      obtain ⟨below,rfl⟩ := mem_between.mp front
      have behind := gaps_above e.start_le_stop first h later
      rw [Apart,stop_between below]
      exact .inl behind

theorem gaps_complete {x : Nat} (behind : position ≤ x) (inside : x < limit) (free : ∀ e ∈ xs, ¬ e.Covers x) :
    ∃ g ∈ gaps limit position xs, g.Covers x := by
  have found {low high : Nat} (first : low ≤ x) (last : x < high) : ∃ g ∈ between low high, g.Covers x := by
    have below : low < high := Nat.lt_of_le_of_lt first last
    refine ⟨⟨low,high - low⟩,mem_between.mpr ⟨below,rfl⟩,first,?_⟩
    rw [stop_between below]
    exact last
  induction xs generalizing position with
  | nil => exact found behind inside
  | cons e rest ih =>
    rw [gaps]
    by_cases before : x < e.start
    · obtain ⟨g,member,covers⟩ := found behind before
      exact ⟨g,List.mem_append_left _ member,covers⟩
    · have past : e.stop ≤ x := by
        by_contra under
        exact free e (by simp) ⟨Nat.not_lt.mp before,Nat.not_le.mp under⟩
      obtain ⟨g,member,covers⟩ := ih past (fun other member => free other (List.mem_cons_of_mem _ member))
      exact ⟨g,List.mem_append_right _ member,covers⟩

theorem gaps_inside (within : ∀ e ∈ xs, e.stop ≤ limit) : ∀ g ∈ gaps limit position xs, g.stop ≤ limit := by
  have upto (ys : List Extent) (sub : ∀ e ∈ ys, e ∈ xs) : next limit ys ≤ limit := by
    cases ys with
    | nil => exact Nat.le_refl _
    | cons e rest => exact Nat.le_trans e.start_le_stop (within e (sub e (by simp)))
  have ends {low high : Nat} {g : Extent} (member : g ∈ between low high) (most : high ≤ limit) : g.stop ≤ limit := by
    obtain ⟨below,rfl⟩ := mem_between.mp member
    rw [stop_between below]
    exact most
  intro g member
  rcases mem_gaps.mp member with first | ⟨before,p,after,split,gap⟩
  · exact ends first (upto xs (fun _ member => member))
  · exact ends gap (upto after (fun e member => by rw [split]; simp [member]))

/-- No range that a gap follows is outlasted by an earlier one. -/
def Outermost (limit : Nat) (xs : List Extent) : Prop :=
  ∀ before p after, xs = before ++ p::after → p.stop < next limit after → ∀ q ∈ before, q.stop ≤ p.stop

theorem outermost_of_apart (sorted : Sorted xs) (apart : xs.Pairwise Apart) (nonempty : ∀ e ∈ xs, 0 < e.count) :
    Outermost limit xs := by
  rintro before p after rfl _ q member
  have order := (List.pairwise_append.mp sorted).2.2 q member p (by simp)
  have start := p.start_le_stop
  rcases (List.pairwise_append.mp apart).2.2 q member p (by simp) with first | second
  · omega
  · have positive := nonempty p (by simp)
    rw [stop] at second
    omega

theorem next_le (sorted : Sorted xs) {e : Extent} (member : e ∈ xs) : next limit xs ≤ e.start := by
  cases xs with
  | nil => cases member
  | cons first rest =>
    rcases List.mem_cons.mp member with rfl | later
    · exact Nat.le_refl _
    · exact (List.pairwise_cons.mp sorted).1 e later

theorem gaps_free_iff (sorted : Sorted xs) :
    (∀ g ∈ gaps limit 0 xs, ∀ e ∈ xs, ∀ x, g.Covers x → ¬ e.Covers x) ↔ Outermost limit xs := by
  constructor
  · intro free before p after split gap q member
    subst split
    by_contra longer
    have order := (List.pairwise_append.mp sorted).2.2 q member p (by simp)
    have start := p.start_le_stop
    refine free ⟨p.stop,next limit after - p.stop⟩ (mem_gaps.mpr (.inr ⟨before,p,after,rfl,mem_between.mpr ⟨gap,rfl⟩⟩))
      q (by simp [member]) p.stop ⟨Nat.le_refl _,?_⟩ ⟨Nat.le_trans order start,Nat.not_le.mp longer⟩
    rw [stop_between gap]
    exact gap
  · rintro outermost g member e inside x ⟨low,high⟩ ⟨first,last⟩
    rcases mem_gaps.mp member with front | ⟨before,p,after,rfl,gap⟩
    · obtain ⟨below,rfl⟩ := mem_between.mp front
      have least := @next_le limit xs sorted e inside
      rw [stop_between below] at high
      omega
    · obtain ⟨below,rfl⟩ := mem_between.mp gap
      have ends := outermost before p after rfl below
      obtain ⟨_,behind,_⟩ := List.pairwise_append.mp sorted
      rw [stop_between below] at high
      change p.stop ≤ x at low
      rcases List.mem_append.mp inside with earlier | later
      · have end_ := ends e earlier
        omega
      · rcases List.mem_cons.mp later with rfl | rest
        · omega
        · have least := @next_le limit after (List.pairwise_cons.mp behind).2 e rest
          omega

end Extent

end SetecWizard.Library
