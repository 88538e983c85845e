import Mathlib.Data.List.Basic
import Mathlib.Data.List.Range
import Mathlib.Tactic.Ring

/-! Blocks of a buffer and of a store. `slice` and `splice` read and overwrite a
block of a list, `window` and `patch` do the same to a store, which is a function
from addresses. What is read back from an overwritten buffer is decided by where
the two blocks lie, and by nothing else.
-/
namespace SetecWizard.Library

variable {α : Type*}

def slice (xs : List α) (off n : Nat) : List α := (xs.drop off).take n

def splice (xs : List α) (off : Nat) (block : List α) : List α :=
  xs.take off ++ block ++ xs.drop (off + block.length)

theorem getElem?_slice (xs : List α) (off n i : Nat) :
    (slice xs off n)[i]? = if i < n then xs[off + i]? else none := by
  simp only [slice,List.getElem?_take,List.getElem?_drop]

/-- A block depends on the cells it covers only. -/
theorem slice_keep {first second : List α} {off n : Nat}
    (same : ∀ i, off ≤ i → i < off + n → first[i]? = second[i]?) : slice first off n = slice second off n := by
  apply List.ext_getElem?
  intro i
  rw [getElem?_slice,getElem?_slice]
  split
  · exact same _ (by omega) (by omega)
  · rfl

theorem slice_drop (xs : List α) (a b n : Nat) : slice (xs.drop a) b n = slice xs (a + b) n := by
  rw [slice,slice,List.drop_drop]

theorem length_slice (xs : List α) (off n : Nat) (fits : off + n ≤ xs.length) :
    (slice xs off n).length = n := by
  simp only [slice,List.length_take,List.length_drop]
  omega

theorem slice_all (xs : List α) : slice xs 0 xs.length = xs := by
  simp [slice]

theorem slice_replicate (a : α) (size off n : Nat) (fits : off + n ≤ size) :
    slice (List.replicate size a) off n = List.replicate n a := by
  simp only [slice,List.drop_replicate,List.take_replicate]
  congr 1
  omega

theorem slice_slice (xs : List α) (a n b m : Nat) (fits : b + m ≤ n) :
    slice (slice xs a n) b m = slice xs (a + b) m := by
  apply List.ext_getElem?
  intro i
  simp only [getElem?_slice]
  by_cases inside : i < m
  · rw [if_pos inside,if_pos (by omega),if_pos inside]
    congr 1
    omega
  · rw [if_neg inside,if_neg inside]

theorem slice_add (xs : List α) (off n m : Nat) :
    slice xs off (n + m) = slice xs off n ++ slice xs (off + n) m := by
  simp only [slice]
  rw [List.take_add,List.drop_drop]

theorem slice_append_left (xs ys : List α) (off n : Nat) (fits : off + n ≤ xs.length) :
    slice (xs ++ ys) off n = slice xs off n := by
  apply List.ext_getElem?
  intro i
  simp only [getElem?_slice]
  split
  · rw [List.getElem?_append_left (by omega)]
  · rfl

theorem slice_append_right (xs ys : List α) (off n : Nat) :
    slice (xs ++ ys) (xs.length + off) n = slice ys off n := by
  apply List.ext_getElem?
  intro i
  simp only [getElem?_slice]
  split
  · rw [List.getElem?_append_right (by omega)]
    congr 1
    omega
  · rfl

theorem slice_middle (before block after : List α) :
    slice (before ++ (block ++ after)) before.length block.length = block := by
  have skipped := slice_append_right before (block ++ after) 0 block.length
  rw [Nat.add_zero] at skipped
  rw [skipped,slice_append_left _ _ _ _ (by omega),slice_all]

theorem slice_flatten (blocks : List (List α)) (i : Nat) {block : List α} (found : blocks[i]? = some block)
    {off n : Nat} (start : ((blocks.take i).map List.length).sum = off) (size : block.length = n) :
    slice blocks.flatten off n = block := by
  have bound := (List.getElem?_eq_some_iff.mp found).1
  have split : blocks = blocks.take i ++ (block :: blocks.drop (i + 1)) := by
    have same := (List.getElem?_eq_some_iff.mp found).2
    rw [← same,List.getElem_cons_drop,List.take_append_drop]
  have front : (blocks.take i).flatten.length = off := by rw [List.length_flatten,start]
  have read := slice_middle (blocks.take i).flatten block (blocks.drop (i + 1)).flatten
  rw [front,size] at read
  conv_lhs => rw [split]
  rw [List.flatten_append,List.flatten_cons]
  exact read

theorem length_splice (xs block : List α) (off : Nat) (fits : off + block.length ≤ xs.length) :
    (splice xs off block).length = xs.length := by
  simp only [splice,List.length_append,List.length_take,List.length_drop]
  omega

theorem getElem?_splice (xs block : List α) (off i : Nat) (fits : off + block.length ≤ xs.length) :
    (splice xs off block)[i]? =
      if off ≤ i ∧ i < off + block.length then block[i - off]? else xs[i]? := by
  have taken : (xs.take off).length = off := by simp only [List.length_take]; omega
  have front : (xs.take off ++ block).length = off + block.length := by
    rw [List.length_append,taken]
  simp only [splice]
  by_cases before : i < off
  · rw [List.getElem?_append_left (by omega),List.getElem?_append_left (by omega),
      List.getElem?_take,if_pos before,if_neg (by omega)]
  · by_cases inside : i < off + block.length
    · rw [List.getElem?_append_left (by omega),List.getElem?_append_right (by omega),taken,
        if_pos ⟨by omega,inside⟩]
    · rw [List.getElem?_append_right (by omega),front,List.getElem?_drop,if_neg (by omega)]
      congr 1
      omega

theorem slice_splice_same (xs block : List α) (off : Nat) (fits : off + block.length ≤ xs.length) :
    slice (splice xs off block) off block.length = block := by
  apply List.ext_getElem?
  intro i
  rw [getElem?_slice,getElem?_splice _ _ _ _ fits]
  by_cases inside : i < block.length
  · rw [if_pos inside,if_pos (by omega)]
    congr 1
    omega
  · rw [if_neg inside,List.getElem?_eq_none (by omega)]

theorem slice_splice_apart (xs block : List α) (off a n : Nat)
    (fits : off + block.length ≤ xs.length) (apart : a + n ≤ off ∨ off + block.length ≤ a) :
    slice (splice xs off block) a n = slice xs a n := by
  apply List.ext_getElem?
  intro i
  rw [getElem?_slice,getElem?_slice]
  split
  · rw [getElem?_splice _ _ _ _ fits,if_neg (by omega)]
  · rfl

theorem slice_splice_inside (xs block : List α) (off a n : Nat)
    (fits : off + block.length ≤ xs.length) (inside : a + n ≤ block.length) :
    slice (splice xs off block) (off + a) n = slice block a n := by
  apply List.ext_getElem?
  intro i
  rw [getElem?_slice,getElem?_slice]
  split
  · rw [getElem?_splice _ _ _ _ fits,if_pos (by omega)]
    congr 1
    omega
  · rfl

theorem splice_append_left (xs rest block : List α) (off : Nat) (fits : off + block.length ≤ xs.length) :
    splice (xs ++ rest) off block = splice xs off block ++ rest := by
  rw [splice,splice,List.take_append_of_le_length (by omega),List.drop_append_of_le_length fits,
    List.append_assoc _ _ rest]

theorem splice_end (xs block : List α) : splice xs xs.length block = xs ++ block := by
  rw [splice,List.take_length,List.drop_of_length_le (by omega),List.append_nil]

theorem splice_middle (before part after block : List α) (same : block.length = part.length) :
    splice (before ++ (part ++ after)) before.length block = before ++ (block ++ after) := by
  rw [splice,List.take_left,same,← List.append_assoc before part,← List.length_append,List.drop_left,
    List.append_assoc]

theorem splice_slice {xs block : List α} {off : Nat} (same : slice xs off block.length = block) :
    splice xs off block = xs := by
  rw [splice,← same,slice,List.length_take,List.length_drop,List.append_assoc]
  by_cases fits : off + block.length ≤ xs.length
  · rw [Nat.min_eq_left (by omega),← List.drop_drop,List.take_append_drop,List.take_append_drop]
  · have size := congrArg List.length same
    rw [slice,List.length_take,List.length_drop] at size
    have empty : block.length = 0 := by omega
    rw [empty]
    simp

theorem splice_splice_same (xs first second : List α) (off : Nat) (same : first.length = second.length)
    (fits : off + first.length ≤ xs.length) :
    splice (splice xs off first) off second = splice xs off second := by
  have kept := length_splice xs first off fits
  apply List.ext_getElem?
  intro i
  rw [getElem?_splice (splice xs off first) second _ _ (by omega),
    getElem?_splice xs second _ _ (by omega)]
  split
  · rfl
  · rw [getElem?_splice xs first _ _ fits,if_neg (by omega)]

theorem take_splice (xs block : List α) (off n : Nat) (inside : off + block.length ≤ n)
    (fits : n ≤ xs.length) : (splice xs off block).take n = splice (xs.take n) off block := by
  have taken : (xs.take n).length = n := by simp only [List.length_take]; omega
  apply List.ext_getElem?
  intro i
  rw [List.getElem?_take,getElem?_splice _ _ _ _ (by omega),getElem?_splice _ _ _ _ (by omega),
    List.getElem?_take]
  by_cases low : i < n
  · simp only [if_pos low]
  · simp only [if_neg low]
    rw [if_neg (by omega)]

def overwrite (buf : List α) (fields : List (Nat × List α)) : List α :=
  fields.foldl (fun buf field => splice buf field.1 field.2) buf

def Outside (field : Nat × List α) (off n : Nat) : Prop := off + n ≤ field.1 ∨ field.1 + field.2.length ≤ off

/-- Fields that lie in a buffer of a size and do not meet. -/
structure Fields (size : Nat) (fields : List (Nat × List α)) : Prop where
  fit : ∀ field ∈ fields, field.1 + field.2.length ≤ size
  apart : fields.Pairwise (fun f g => Outside g f.1 f.2.length)

theorem length_overwrite {size : Nat} {buf : List α} {fields : List (Nat × List α)}
    (fit : ∀ field ∈ fields, field.1 + field.2.length ≤ size) (whole : buf.length = size) :
    (overwrite buf fields).length = size := by
  induction fields generalizing buf with
  | nil => exact whole
  | cons field rest ih =>
    have first := fit field (by simp)
    exact ih (fun f member => fit f (by simp [member])) ((length_splice _ _ _ (by omega)).trans whole)

theorem slice_overwrite_apart {size : Nat} {buf : List α} {fields : List (Nat × List α)} {off n : Nat}
    (fit : ∀ field ∈ fields, field.1 + field.2.length ≤ size) (whole : buf.length = size)
    (apart : ∀ field ∈ fields, Outside field off n) :
    slice (overwrite buf fields) off n = slice buf off n := by
  induction fields generalizing buf with
  | nil => rfl
  | cons field rest ih =>
    have first := fit field (by simp)
    have kept := (length_splice buf field.2 field.1 (by omega)).trans whole
    refine (ih (fun f member => fit f (by simp [member])) kept
      (fun f member => apart f (by simp [member]))).trans ?_
    exact slice_splice_apart _ _ _ _ _ (by omega) (apart field (by simp))

theorem Fields.read {size : Nat} {fields : List (Nat × List α)} (layout : Fields size fields)
    {buf : List α} (whole : buf.length = size) {off : Nat} {block : List α}
    (member : (off,block) ∈ fields) : slice (overwrite buf fields) off block.length = block := by
  induction fields generalizing buf with
  | nil => cases member
  | cons field rest ih =>
    obtain ⟨fit,apart⟩ := layout
    obtain ⟨clear,tail⟩ := List.pairwise_cons.mp apart
    have first := fit field (by simp)
    have kept := (length_splice buf field.2 field.1 (by omega)).trans whole
    have inside : ∀ f ∈ rest, f.1 + f.2.length ≤ size := fun f member => fit f (by simp [member])
    rcases List.mem_cons.mp member with rfl | later
    · refine (slice_overwrite_apart inside kept clear).trans ?_
      exact slice_splice_same _ _ _ (by omega)
    · exact ih ⟨inside,tail⟩ kept later

theorem slice_flatMap {β : Type*} (f : β → List α) (n : Nat) (each : ∀ x, (f x).length = n)
    (xs : List β) (i : Nat) :
    slice (xs.flatMap f) (n * i) n = (xs[i]?).elim [] f := by
  induction xs generalizing i with
  | nil => simp [slice]
  | cons x xs ih =>
    rw [List.flatMap_cons]
    cases i with
    | zero =>
      rw [Nat.mul_zero,slice_append_left _ _ _ _ (by rw [each]; omega)]
      have whole := slice_all (f x)
      rw [each] at whole
      simpa using whole
    | succ i =>
      have shifted : n * (i + 1) = (f x).length + n * i := by
        rw [each,Nat.mul_succ,Nat.add_comm]
      rw [shifted,slice_append_right,ih]
      simp

theorem length_flatMap_blocks {β : Type*} (f : β → List α) (n : Nat) (each : ∀ x, (f x).length = n)
    (xs : List β) : (xs.flatMap f).length = n * xs.length := by
  induction xs with
  | nil => simp
  | cons x xs ih =>
    rw [List.flatMap_cons,List.length_append,ih,each,List.length_cons,Nat.mul_succ,Nat.add_comm]

def window (store : Nat → α) (off n : Nat) : List α :=
  (List.range n).map (fun i => store (off + i))

/-- Overwriting consecutive cells of a store. -/
def patch (store : Nat → α) (off : Nat) (block : List α) : Nat → α :=
  fun i => if off ≤ i then (block[i - off]?).getD (store i) else store i

@[simp] theorem length_window (store : Nat → α) (off n : Nat) : (window store off n).length = n := by
  simp [window]

theorem getElem?_window (store : Nat → α) (off n i : Nat) :
    (window store off n)[i]? = if i < n then some (store (off + i)) else none := by
  simp only [window,List.getElem?_map]
  by_cases inside : i < n
  · simp [inside]
  · simp [inside]

theorem window_congr (first second : Nat → α) (off n : Nat)
    (same : ∀ i, off ≤ i → i < off + n → first i = second i) :
    window first off n = window second off n := by
  apply List.ext_getElem?
  intro i
  rw [getElem?_window,getElem?_window]
  split
  · rw [same _ (by omega) (by omega)]
  · rfl

theorem window_append (store : Nat → α) (off n m : Nat) :
    window store off (n + m) = window store off n ++ window store (off + n) m := by
  apply List.ext_getElem?
  intro i
  rw [getElem?_window,List.getElem?_append,length_window,getElem?_window,getElem?_window]
  by_cases first : i < n
  · rw [if_pos (by omega),if_pos first,if_pos first]
  · rw [if_neg first]
    by_cases second : i < n + m
    · rw [if_pos second,if_pos (by omega)]
      congr 2
      omega
    · rw [if_neg second,if_neg (by omega)]

theorem window_getD (xs : List α) (a : α) : window (fun i => xs.getD i a) 0 xs.length = xs := by
  apply List.ext_getElem?
  intro i
  rw [getElem?_window]
  split
  next inside => simp [inside]
  next outside => rw [List.getElem?_eq_none (by omega)]

theorem slice_window (store : Nat → α) (off n a m : Nat) (inside : a + m ≤ n) :
    slice (window store off n) a m = window store (off + a) m := by
  apply List.ext_getElem?
  intro i
  rw [getElem?_slice,getElem?_window,getElem?_window]
  split
  · rw [if_pos (by omega),Nat.add_assoc]
  · rfl

theorem take_window (store : Nat → α) (off n m : Nat) (fits : m ≤ n) :
    (window store off n).take m = window store off m := by
  have read := slice_window store off n 0 m (by omega)
  simpa [slice] using read

theorem patch_apart (store : Nat → α) (off : Nat) (block : List α) (i : Nat)
    (apart : i < off ∨ off + block.length ≤ i) : patch store off block i = store i := by
  unfold patch
  split
  · rw [List.getElem?_eq_none (by omega)]
    rfl
  · rfl

theorem patch_get (store : Nat → α) (off : Nat) {block : List α} {i : Nat} (inside : i < block.length) :
    some (patch store off block (off + i)) = block[i]? := by
  rw [patch,if_pos (Nat.le_add_right _ _),Nat.add_sub_cancel_left,List.getElem?_eq_getElem inside]
  rfl

theorem patch_append (store : Nat → α) (off : Nat) (first second : List α) :
    patch (patch store off first) (off + first.length) second = patch store off (first ++ second) := by
  funext i
  by_cases within : off ≤ i ∧ i - off < first.length
  · rw [patch_apart _ _ _ _ (by omega),patch,patch,if_pos within.1,if_pos within.1,
      List.getElem?_append_left within.2]
  · by_cases before : i < off
    · rw [patch_apart _ _ _ _ (by omega),patch_apart _ _ _ _ (by omega),patch_apart _ _ _ _ (by omega)]
    · have distance : i - (off + first.length) = i - off - first.length := by omega
      rw [patch,if_pos (by omega),patch_apart _ _ _ _ (by omega),patch,if_pos (by omega),
        List.getElem?_append_right (by omega),distance]

theorem patch_splice_window (store : Nat → α) (start n off : Nat) (block : List α) (fits : off + block.length ≤ n) :
    patch store start (splice (window store start n) off block) = patch store (start + off) block := by
  funext i
  unfold patch
  by_cases behind : start ≤ i
  · rw [if_pos behind,getElem?_splice _ _ _ _ (by rw [length_window]; exact fits),getElem?_window]
    by_cases inside : off ≤ i - start ∧ i - start < off + block.length
    · have index : i - start - off = i - (start + off) := by omega
      rw [if_pos inside,if_pos (by omega),index]
    · have kept : (if i - start < n then some (store (start + (i - start))) else none).getD (store i) = store i := by
        split
        · rw [Nat.add_sub_cancel' behind]
          rfl
        · rfl
      rw [if_neg inside,kept]
      split
      · rw [List.getElem?_eq_none (by omega)]
        rfl
      · rfl
  · rw [if_neg behind,if_neg (by omega)]

theorem window_patch_apart (store : Nat → α) (off : Nat) (block : List α) (a n : Nat)
    (apart : a + n ≤ off ∨ off + block.length ≤ a) :
    window (patch store off block) a n = window store a n :=
  window_congr _ _ _ _ (fun i _ _ => patch_apart store off block i (by omega))

theorem window_patch_inside (store : Nat → α) (off : Nat) (block : List α) (a n : Nat)
    (inside : a + n ≤ block.length) :
    window (patch store off block) (off + a) n = slice block a n := by
  apply List.ext_getElem?
  intro i
  rw [getElem?_window,getElem?_slice]
  split
  · have index : off + a + i - off = a + i := by omega
    have found : a + i < block.length := by omega
    simp only [patch,if_pos (by omega : off ≤ off + a + i),index,List.getElem?_eq_getElem found,
      Option.getD_some]
  · rfl

theorem window_patch_whole (store : Nat → α) (off : Nat) {block : List α} {n : Nat}
    (size : block.length = n) : window (patch store off block) off n = block := by
  have read := window_patch_inside store off block 0 n (by omega)
  rw [← size] at read ⊢
  simpa [slice] using read

end SetecWizard.Library
