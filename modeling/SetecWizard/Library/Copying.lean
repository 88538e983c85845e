import SetecWizard.Library.Block

/-! Filling a store piece by piece. The values wanted are a function of the distance
from an origin; a piece puts them where they belong, may spill a little further, and
leaves the rest of the store alone. Adjacent pieces that do not spill are one piece.
Pieces of a source may also be laid into the store one after the other: each is put where the unit
begins in which it starts, and is filled up to whole units, so it arrives where it belongs only if
it starts at the beginning of one.
-/
namespace SetecWizard.Library

variable {α : Type*}

/-- From `low` to `high` the store holds what is wanted, from `high` to `limit` anything. -/
structure Copied (wanted : Nat → α) (origin low high limit : Nat) (before after : Nat → α) : Prop where
  inside : ∀ i, low ≤ i → i < high → after (origin + i) = wanted i
  outside : ∀ i, i < origin + low ∨ origin + limit ≤ i → after i = before i

namespace Copied

variable {wanted : Nat → α} {origin low high limit : Nat} {before after : Nat → α}

theorem refl (wanted : Nat → α) (origin low : Nat) (store : Nat → α) :
    Copied wanted origin low low low store store :=
  ⟨fun i above below => absurd above (by omega),fun _ _ => rfl⟩

theorem append {mid : Nat} {between : Nat → α} (first : Copied wanted origin low mid mid before between)
    (second : Copied wanted origin mid high limit between after) (ordered : low ≤ mid) (within : mid ≤ limit) :
    Copied wanted origin low high limit before after := by
  refine ⟨fun i above below => ?_,fun i apart => ?_⟩
  · by_cases early : i < mid
    · rw [second.outside _ (.inl (by omega)),first.inside i above early]
    · exact second.inside i (by omega) below
  · rw [second.outside i (by omega),first.outside i (by omega)]

theorem of_patch {block : List α} (size : low + block.length ≤ limit)
    (holds : ∀ i, low ≤ i → i < high → block[i - low]? = some (wanted i)) :
    Copied wanted origin low high limit before (patch before (origin + low) block) := by
  refine ⟨fun i above below => ?_,fun i apart => ?_⟩
  · have index : origin + i - (origin + low) = i - low := by omega
    rw [patch,if_pos (by omega : origin + low ≤ origin + i),index,holds i above below]
    rfl
  · exact patch_apart _ _ _ _ (by omega)

end Copied

theorem window_wanted {store : Nat → α} {start low high n : Nat} (size : high ≤ low + n) :
    ∀ i, low ≤ i → i < high → (window store (start + low) n)[i - low]? = some (store (start + i)) := by
  intro i above below
  have index : start + low + (i - low) = start + i := by omega
  rw [getElem?_window,if_pos (by omega),index]

/-- The next multiple of a number, from a number on. -/
def roundUp (n m : Nat) : Nat := (n + m - 1) / m * m

section Rounding

variable {n m : Nat}

theorem le_roundUp (positive : 0 < m) : n ≤ roundUp n m := by
  have above := Nat.lt_div_mul_add (a := n + m - 1) positive
  unfold roundUp
  omega

theorem roundUp_lt (positive : 0 < m) : roundUp n m < n + m := by
  have below := Nat.div_mul_le_self (n + m - 1) m
  unfold roundUp
  omega

theorem dvd_roundUp (n m : Nat) : m ∣ roundUp n m := Nat.dvd_mul_left _ _

theorem roundUp_add {a : Nat} (positive : 0 < m) (whole : m ∣ a) : roundUp (a + n) m = a + roundUp n m := by
  obtain ⟨k,rfl⟩ := whole
  have shifted : m * k + n + m - 1 = m * k + (n + m - 1) := by omega
  rw [roundUp,shifted,Nat.mul_add_div positive,Nat.add_mul,Nat.mul_comm k m,roundUp]

theorem roundUp_of_dvd (positive : 0 < m) (whole : m ∣ n) : roundUp n m = n := by
  have added := roundUp_add (n := 0) positive whole
  have none : roundUp 0 m = 0 := by
    rw [roundUp,Nat.div_eq_of_lt (by omega),Nat.zero_mul]
  rw [none] at added
  exact added

theorem roundUp_le_of_dvd {a : Nat} (positive : 0 < m) (below : n ≤ a) (whole : m ∣ a) : roundUp n m ≤ a := by
  have close := roundUp_lt (n := n) positive
  obtain ⟨k,rfl⟩ := whole
  obtain ⟨j,rounded⟩ := dvd_roundUp n m
  rw [rounded] at close ⊢
  have next : m * j < m * (k + 1) := by
    rw [Nat.mul_add,Nat.mul_one]
    omega
  exact Nat.mul_le_mul_left m (Nat.lt_succ_iff.mp (Nat.lt_of_mul_lt_mul_left next))

end Rounding

def padPiece (m : Nat) (fill : α) (piece : List α) : List α :=
  piece ++ List.replicate (roundUp piece.length m - piece.length) fill

def lay (m : Nat) (fill : α) : Nat → List (List α) → (Nat → α) → Nat → α
  | _,[],store => store
  | pos,piece :: rest,store => lay m fill (pos + piece.length) rest (patch store (pos / m * m) (padPiece m fill piece))

/-- The pieces reach the end, and each begins on a boundary. -/
def Delivers (m high : Nat) : Nat → List Nat → Prop
  | pos,[] => high ≤ pos
  | pos,size :: rest => m ∣ pos ∧ Delivers m high (pos + size) rest

/-- The piece that has a position begins on a boundary. -/
def Lands (m j : Nat) : Nat → List Nat → Prop
  | _,[] => False
  | pos,size :: rest => (pos ≤ j ∧ j < pos + size ∧ m ∣ pos) ∨ Lands m j (pos + size) rest

/-- No piece comes to lie over a position. -/
def Missed (m i : Nat) : Nat → List Nat → Prop
  | _,[] => True
  | pos,size :: rest => (i < pos / m * m ∨ pos / m * m + size ≤ i) ∧ Missed m i (pos + size) rest

def Compared (m : Nat) (source store : Nat → α) : Nat → List Nat → Prop
  | _,[] => True
  | pos,size :: rest => window source pos size = window store (pos / m * m) size ∧
      Compared m source store (pos + size) rest

def Delivers.decide (m high : Nat) : (pos : Nat) → (sizes : List Nat) → Decidable (Delivers m high pos sizes)
  | pos,[] => inferInstanceAs (Decidable (high ≤ pos))
  | pos,size :: rest =>
    match Delivers.decide m high (pos + size) rest with
    | .isTrue later => if starts : m ∣ pos then .isTrue ⟨starts,later⟩ else .isFalse fun both => starts both.1
    | .isFalse not => .isFalse fun both => not both.2

instance (m high pos : Nat) (sizes : List Nat) : Decidable (Delivers m high pos sizes) :=
  Delivers.decide m high pos sizes

section

variable {m high pos j : Nat} {fill : α}

theorem floor_of_dvd (starts : m ∣ pos) : pos / m * m = pos := Nat.div_mul_cancel starts

theorem floor_lt (off : ¬ m ∣ pos) : pos / m * m < pos := by
  have below := Nat.div_mul_le_self pos m
  have apart : pos / m * m ≠ pos := fun equal => off ⟨pos / m,by rw [Nat.mul_comm]; exact equal.symm⟩
  omega

theorem getElem?_padPiece {piece : List α} {i : Nat} (inside : i < piece.length) :
    (padPiece m fill piece)[i]? = piece[i]? := List.getElem?_append_left inside

theorem lay_delivers (pieces : List (List α)) (delivers : Delivers m high pos (pieces.map List.length))
    (store : Nat → α) : (∀ i < pos, lay m fill pos pieces store i = store i) ∧
      ∀ i, pos ≤ i → i < high → pieces.flatten[i - pos]? = some (lay m fill pos pieces store i) := by
  induction pieces generalizing pos store with
  | nil =>
    have past : high ≤ pos := delivers
    exact ⟨fun i _ => rfl,fun i above below => absurd above (by omega)⟩
  | cons piece rest ih =>
    obtain ⟨starts,later⟩ := delivers
    obtain ⟨kept,content⟩ := ih later (patch store (pos / m * m) (padPiece m fill piece))
    simp only [lay]
    rw [floor_of_dvd starts] at kept content ⊢
    constructor
    · intro i before
      rw [kept i (by omega),patch_apart _ _ _ _ (.inl before)]
    · intro i above below
      rw [List.flatten_cons]
      by_cases early : i < pos + piece.length
      · rw [List.getElem?_append_left (by omega),kept i early,patch,if_pos above,getElem?_padPiece (by omega),
          List.getElem?_eq_getElem (by omega),Option.getD_some]
      · have index : i - pos - piece.length = i - (pos + piece.length) := by omega
        rw [List.getElem?_append_right (by omega),index]
        exact content i (by omega) below

/-- If two sources differ in one place only, so do the stores, where the piece that has
the place begins on a boundary. -/
theorem lay_differs (first second : List (List α)) (sizes : first.map List.length = second.map List.length)
    (same : ∀ i, pos + i ≠ j → first.flatten[i]? = second.flatten[i]?) (store store' : Nat → α)
    (agree : store j = store' j) (apart : lay m fill pos first store j ≠ lay m fill pos second store' j) :
    Lands m j pos (first.map List.length) := by
  induction first generalizing second pos store store' with
  | nil =>
    have none : second = [] := List.map_eq_nil_iff.mp sizes.symm
    subst none
    exact absurd agree apart
  | cons piece rest ih =>
    match second,sizes with
    | other :: others,sizes =>
      obtain ⟨size,later⟩ := List.cons.inj sizes
      have behind (i : Nat) (elsewhere : pos + piece.length + i ≠ j) : rest.flatten[i]? = others.flatten[i]? := by
        have equal := same (piece.length + i) (by omega)
        rw [List.flatten_cons,List.flatten_cons,List.getElem?_append_right (by omega),
          List.getElem?_append_right (by omega)] at equal
        rwa [← size,Nat.add_sub_cancel_left] at equal
      by_cases here : patch store (pos / m * m) (padPiece m fill piece) j
          = patch store' (pos / m * m) (padPiece m fill other) j
      · simp only [lay,← size] at apart
        exact .inr (ih others later behind _ _ here apart)
      · left
        have below := Nat.div_mul_le_self pos m
        by_cases before : pos / m * m ≤ j
        · by_cases inside : j - pos / m * m < piece.length
          · have place : pos + (j - pos / m * m) = j := by
              by_contra elsewhere
              have equal := same (j - pos / m * m) elsewhere
              rw [List.flatten_cons,List.flatten_cons,List.getElem?_append_left inside,
                List.getElem?_append_left (by omega)] at equal
              apply here
              rw [patch,patch,if_pos before,if_pos before,getElem?_padPiece inside,
                getElem?_padPiece (by omega),equal,agree]
            have starts : pos / m * m = pos := by omega
            exact ⟨by omega,by omega,⟨pos / m,by rw [Nat.mul_comm]; exact starts.symm⟩⟩
          · refine absurd ?_ here
            rw [patch,patch,if_pos before,if_pos before,padPiece,padPiece,
              List.getElem?_append_right (by omega),List.getElem?_append_right (by omega),← size,agree]
        · refine absurd ?_ here
          rw [patch,patch,if_neg before,if_neg before,agree]

theorem le_of_lands {sizes : List Nat} (lands : Lands m j pos sizes) : pos ≤ j := by
  induction sizes generalizing pos with
  | nil => exact lands.elim
  | cons size rest ih =>
    rcases lands with here | later
    · exact here.1
    · exact Nat.le_of_add_right_le (ih later)

theorem delivers_of_lands (sizes : List Nat) (nonempty : ∀ size ∈ sizes, 0 < size) (bounded : pos + sizes.sum ≤ high)
    (lands : ∀ j, pos ≤ j → j < high → Lands m j pos sizes) : Delivers m high pos sizes := by
  induction sizes generalizing pos with
  | nil =>
    by_contra short
    have below : pos < high := Nat.lt_of_not_le short
    exact (lands pos (Nat.le_refl _) below).elim
  | cons size rest ih =>
    have some_ := nonempty size List.mem_cons_self
    rw [List.sum_cons] at bounded
    refine ⟨?_,ih (fun other member => nonempty other (List.mem_cons_of_mem _ member)) (by omega) ?_⟩
    · rcases lands pos (Nat.le_refl _) (by omega) with here | later
      · exact here.2.2
      · exact absurd (le_of_lands later) (by omega)
    · intro j above below
      rcases lands j (by omega) below with here | later
      · exact absurd here.2.1 (by omega)
      · exact later

theorem le_of_delivers (sizes : List Nat) (delivers : Delivers m high pos sizes) : high ≤ pos + sizes.sum := by
  induction sizes generalizing pos with
  | nil => exact delivers
  | cons size rest ih =>
    have later := ih delivers.2
    rw [List.sum_cons]
    omega

theorem missed_before {i start : Nat} (boundary : m ∣ start) (before : i < start)
    (sizes : List Nat) (above : start ≤ pos) : Missed m i pos sizes := by
  induction sizes generalizing pos with
  | nil => trivial
  | cons size rest ih =>
    have floor : start ≤ pos / m * m := by
      have monotone := Nat.mul_le_mul_right m (Nat.div_le_div_right (c := m) above)
      rwa [floor_of_dvd boundary] at monotone
    exact ⟨.inl (by omega),ih (by omega)⟩

theorem exists_missed (sizes : List Nat) (nonempty : ∀ size ∈ sizes, 0 < size)
    (bounded : pos + sizes.sum ≤ high) (not : ¬ Delivers m high pos sizes) :
    ∃ i, pos ≤ i ∧ i < high ∧ Missed m i pos sizes := by
  induction sizes generalizing pos with
  | nil =>
    have short : pos < high := Nat.lt_of_not_le not
    exact ⟨pos,Nat.le_refl _,short,trivial⟩
  | cons size rest ih =>
    have some_ := nonempty size List.mem_cons_self
    have below := Nat.div_mul_le_self pos m
    rw [List.sum_cons] at bounded
    by_cases later : Delivers m high (pos + size) rest
    · have off : ¬ m ∣ pos := fun starts => not ⟨starts,later⟩
      have shifted := floor_lt off
      refine ⟨pos + size - 1,by omega,by omega,.inr (by omega),?_⟩
      match rest,later with
      | [],_ => trivial
      | next :: more,later => exact missed_before later.1 (by omega) _ (Nat.le_refl _)
    · obtain ⟨i,above,under,missed⟩ := ih (fun other member => nonempty other (List.mem_cons_of_mem _ member))
        (by omega) later
      exact ⟨i,by omega,under,.inr (by omega),missed⟩

theorem compared_delivered {source store : Nat → α} (sizes : List Nat) (delivers : Delivers m high pos sizes)
    (compared : Compared m source store pos sizes) : ∀ i, pos ≤ i → i < high → store i = source i := by
  induction sizes generalizing pos with
  | nil =>
    have past : high ≤ pos := delivers
    exact fun i above below => absurd above (by omega)
  | cons size rest ih =>
    obtain ⟨starts,later⟩ := delivers
    obtain ⟨here,behind⟩ := compared
    rw [floor_of_dvd starts] at here
    intro i above below
    by_cases early : i < pos + size
    · have index : pos + (i - pos) = i := by omega
      have cell := congrArg (fun cells => cells[i - pos]?) here
      simp only [getElem?_window,if_pos (by omega : i - pos < size),index,Option.some.injEq] at cell
      exact cell.symm
    · exact ih later behind i (by omega) below

theorem compared_missed {i : Nat} (a b : α) (sizes : List Nat) (missed : Missed m i pos sizes) :
    Compared m (fun _ => a) (fun k => if k = i then b else a) pos sizes := by
  induction sizes generalizing pos with
  | nil => trivial
  | cons size rest ih =>
    obtain ⟨here,later⟩ := missed
    refine ⟨?_,ih later⟩
    apply List.ext_getElem?
    intro k
    rw [getElem?_window,getElem?_window]
    split
    next inside => rw [if_neg (by omega)]
    next => rfl

end

end SetecWizard.Library
