import SetecWizard.Library.Block

/-! Frames of one size that a sequence is cut into. A frame is a header, as much of the sequence
as there is room for and padding up to its end; the payloads behind each other, cut to the length
of the sequence, are the sequence.
-/
namespace SetecWizard.Library

variable {α : Type*}

def framed (size : Nat) (pad : α) (header data : List α) : List α :=
  header ++ (data.take (size - header.length) ++ List.replicate (size - header.length - data.length) pad)

theorem length_framed {size : Nat} (pad : α) {header : List α} (short : header.length ≤ size) (data : List α) :
    (framed size pad header data).length = size := by
  simp only [framed,List.length_append,List.length_take,List.length_replicate]
  omega

theorem slice_framed (size : Nat) (pad : α) {header : List α} (data : List α) {off n : Nat}
    (inside : off + n ≤ header.length) : slice (framed size pad header data) off n = slice header off n :=
  slice_append_left header _ off n inside

theorem getD_framed (size : Nat) (pad : α) {header : List α} (data : List α) {i : Nat} (inside : i < header.length)
    (a : α) : (framed size pad header data).getD i a = header.getD i a := by
  rw [List.getD_eq_getElem?_getD,framed,List.getElem?_append_left inside,← List.getD_eq_getElem?_getD]

theorem take_payload (size : Nat) (pad : α) (header data : List α) {later : List α}
    (carried : later.take (data.drop (size - header.length)).length = data.drop (size - header.length)) :
    ((framed size pad header data).drop header.length ++ later).take data.length = data := by
  rw [framed,List.drop_left]
  by_cases full : size - header.length ≤ data.length
  · have none : size - header.length - data.length = 0 := by omega
    have taken : (data.take (size - header.length)).length = size - header.length := by
      rw [List.length_take,Nat.min_eq_left full]
    have cut : data.length = size - header.length + (data.drop (size - header.length)).length := by
      rw [List.length_drop,Nat.add_sub_cancel' full]
    rw [none,List.replicate_zero,List.append_nil]
    conv_lhs => rw [cut]
    rw [List.take_append,taken,Nat.add_sub_cancel_left,carried,List.take_of_length_le (by omega),
      List.take_append_drop]
  · have whole : data.take (size - header.length) = data := List.take_of_length_le (by omega)
    rw [whole,List.append_assoc,List.take_left]

theorem splice_padding (pad : α) (front block : List α) {n : Nat} (fits : block.length ≤ n) :
    splice (front ++ List.replicate n pad) front.length block =
      (front ++ block) ++ List.replicate (n - block.length) pad := by
  have parts : List.replicate n pad = List.replicate block.length pad ++ List.replicate (n - block.length) pad := by
    rw [List.replicate_append_replicate,Nat.add_sub_cancel' fits]
  rw [parts,splice_middle _ _ _ _ List.length_replicate.symm,List.append_assoc]

def placed : Nat → List (List α) → List (Nat × List α)
  | _,[] => []
  | off,block :: rest => (off,block) :: placed (off + block.length) rest

theorem overwrite_placed (pad : α) (blocks : List (List α)) {front : List α} {n : Nat} (fits : blocks.flatten.length ≤ n) :
    overwrite (front ++ List.replicate n pad) (placed front.length blocks) =
      front ++ (blocks.flatten ++ List.replicate (n - blocks.flatten.length) pad) := by
  induction blocks generalizing front n with
  | nil => rfl
  | cons block rest ih =>
    rw [List.flatten_cons,List.length_append] at fits
    have later := @ih (front ++ block) (n - block.length) (by omega)
    have written : overwrite (front ++ List.replicate n pad) (placed front.length (block :: rest)) =
        overwrite ((front ++ block) ++ List.replicate (n - block.length) pad)
          (placed (front ++ block).length rest) := by
      rw [← splice_padding pad front block (by omega),List.length_append]
      rfl
    rw [written,later,List.flatten_cons,List.append_assoc,List.append_assoc,List.length_append,Nat.sub_sub]

theorem overwrite_framed {size : Nat} (pad : α) (parts : List (List α)) (data : List α)
    (short : parts.flatten.length ≤ size) :
    overwrite (List.replicate size pad) (placed 0 (parts ++ [data.take (size - parts.flatten.length)])) =
      framed size pad parts.flatten data := by
  have blocks : (parts ++ [data.take (size - parts.flatten.length)]).flatten =
      parts.flatten ++ data.take (size - parts.flatten.length) := by
    rw [List.flatten_append,List.flatten_singleton]
  have written := @overwrite_placed _ pad (parts ++ [data.take (size - parts.flatten.length)]) [] size (by
    rw [blocks,List.length_append,List.length_take]
    omega)
  rw [blocks,List.length_append,List.length_take] at written
  have left : size - (parts.flatten.length + min (size - parts.flatten.length) data.length) =
      size - parts.flatten.length - data.length := by omega
  rw [left,List.append_assoc] at written
  exact written

end SetecWizard.Library
