import Mathlib.Data.List.Infix

/-! Formats of byte streams and decoders that are called again and again with some input
and some room for output. A format says what a sequence of bytes decodes to and where
its first stream ends; an ideal decoder does as the documentation of such interfaces says.
-/
namespace SetecWizard.Library

inductive Verdict where
  | truncated
  | complete (length : Nat)
  | corrupt
deriving DecidableEq

/-- What a sequence of bytes decodes to, and whether it begins with a complete stream. -/
structure Format (α β : Type) where
  produced : List α → List β
  verdict : List α → Verdict
  verdict_nil : verdict [] = .truncated
  produced_nil : produced [] = []
  produced_append : ∀ xs ys, produced xs <+: produced (xs ++ ys)
  complete_le : ∀ xs n, verdict xs = .complete n → n ≤ xs.length
  complete_append : ∀ xs ys n, verdict xs = .complete n → verdict (xs ++ ys) = .complete n
  complete_produced : ∀ xs ys n, verdict xs = .complete n → produced (xs ++ ys) = produced xs
  corrupt_append : ∀ xs ys, verdict xs = .corrupt → verdict (xs ++ ys) = .corrupt

/-- The streams that follow one another in a whole file, and what they decode to. -/
inductive Format.Whole {α β : Type} (F : Format α β) : List α → List β → Prop where
  | last {input : List α} (ends : F.verdict input = .complete input.length) : F.Whole input (F.produced input)
  | more {input : List α} {n : Nat} {content : List β} (ends : F.verdict input = .complete n)
      (rest : F.Whole (input.drop n) content) : F.Whole input (F.produced (input.take n) ++ content)

inductive DecoderReturn where
  | ok
  | streamEnd
  | bufError
  | failed (code : Nat) (message : String)
deriving DecidableEq

structure DecoderCall (σ β : Type) where
  next : σ
  used : Nat
  output : List β
  ret : DecoderReturn

/-- A decoder stops when its input is used up or its output is full, and reports the end of
the stream, an error, or that it could do nothing. Its state remembers what it was fed and
what it has given out. -/
structure IdealDecoder {α β : Type} (F : Format α β) where
  State : Type
  start : State
  run : State → List α → Nat → DecoderCall State β
  fed : State → List α
  given : State → List β
  stalled : State → Bool
  fed_start : fed start = []
  given_start : given start = []
  used_le : ∀ s input room, (run s input room).used ≤ input.length
  fed_run : ∀ s input room, fed (run s input room).next = fed s ++ input.take (run s input room).used
  given_run : ∀ s input room, given (run s input room).next = given s ++ (run s input room).output
  output_le : ∀ s input room, (run s input room).output.length ≤ room
  given_prefix : ∀ s input room, given (run s input room).next <+: F.produced (fed (run s input room).next)
  processed : ∀ s input room, (run s input room).ret = .ok ∨ (run s input room).ret = .bufError →
    (run s input room).output.length < room → (run s input room).used = input.length ∧
      given (run s input room).next = F.produced (fed (run s input room).next) ∧
      F.verdict (fed (run s input room).next) = .truncated
  ended : ∀ s input room, (run s input room).ret = .streamEnd →
    F.verdict (fed (run s input room).next) = .complete (fed (run s input room).next).length ∧
      given (run s input room).next = F.produced (fed (run s input room).next)
  corrupt : ∀ s input room code message, (run s input room).ret = .failed code message →
    F.verdict (fed s ++ input) = .corrupt
  progress : ∀ s input room, (run s input room).ret = .ok → (run s input room).used = 0 →
    (run s input room).output = [] → stalled s = false ∧ stalled (run s input room).next = true
  idle : ∀ s input room, (run s input room).ret = .bufError →
    (run s input room).used = 0 ∧ (run s input room).output = []

namespace IdealDecoder

variable {α β : Type} {F : Format α β} (D : IdealDecoder F)

/-- How much output the decoder still owes for the input. -/
def owed (s : D.State) (input : List α) : Nat :=
  (F.produced (D.fed s ++ input)).length - (D.given s).length

theorem fed_rest (s : D.State) (input : List α) (room : Nat) :
    D.fed (D.run s input room).next ++ input.drop (D.run s input room).used = D.fed s ++ input := by
  rw [D.fed_run,List.append_assoc,List.take_append_drop]

theorem owed_run (s : D.State) (input : List α) (room : Nat) :
    (D.given s).length + (D.run s input room).output.length ≤ (F.produced (D.fed s ++ input)).length ∧
    D.owed (D.run s input room).next (input.drop (D.run s input room).used)
      = D.owed s input - (D.run s input room).output.length := by
  have given := congrArg List.length (D.given_run s input room)
  rw [List.length_append] at given
  have within := (D.given_prefix s input room).length_le
  have more := (F.produced_append (D.fed (D.run s input room).next)
    (input.drop (D.run s input room).used)).length_le
  rw [fed_rest] at more
  refine ⟨by omega,?_⟩
  unfold owed
  rw [fed_rest]
  omega

/-- Every position that a piece of output takes in the file can be written. -/
def Fits (writable : Nat → Bool) (written piece : List β) : Prop :=
  ∀ i < piece.length, writable (written.length + i) = true

instance (writable : Nat → Bool) (written piece : List β) : Decidable (Fits writable written piece) :=
  inferInstanceAs (Decidable (∀ i < piece.length, _))

inductive Outcome where
  | paused
  | ended
  | failed (code : Nat) (message : String)
  | unwritable
deriving DecidableEq

structure Drained where
  state : D.State
  written : List β
  outcome : Outcome

/-- Calls the decoder until it leaves room in the output, and writes what each call gives;
the output of a call that fails is not written. -/
def drain (room : Nat) (writable : Nat → Bool) (s : D.State) (input : List α) (written : List β) : D.Drained :=
  match (D.run s input room).ret with
  | .failed code message => { state := s, written := written, outcome := .failed code message }
  | ret =>
    if Fits writable written (D.run s input room).output then
      if (D.run s input room).output.length = room ∧ 0 < room then
        drain room writable (D.run s input room).next (input.drop (D.run s input room).used)
          (written ++ (D.run s input room).output)
      else
        { state := (D.run s input room).next, written := written ++ (D.run s input room).output,
          outcome := if ret = .streamEnd then .ended else .paused }
    else { state := s, written := written, outcome := .unwritable }
termination_by D.owed s input
decreasing_by
  have bound := D.owed_run s input room
  rw [bound.2]
  unfold owed
  omega

attribute [elab_as_elim] drain.induct_unfolding

section

variable (room : Nat) (writable : Nat → Bool)

def Tells (s : D.State) (input : List α) (drained : D.Drained) : Prop :=
  match drained.outcome with
  | .paused => D.fed drained.state = D.fed s ++ input ∧ drained.written = D.given drained.state ∧
      D.given drained.state = F.produced (D.fed s ++ input) ∧ F.verdict (D.fed s ++ input) = .truncated
  | .ended => (∃ n, F.verdict (D.fed s ++ input) = .complete n) ∧
      drained.written = F.produced (D.fed s ++ input)
  | .failed _ _ => F.verdict (D.fed s ++ input) = .corrupt
  | .unwritable => True

theorem run_ended {s : D.State} {input : List α} {room : Nat} (ends : (D.run s input room).ret = .streamEnd) :
    (∃ n, F.verdict (D.fed s ++ input) = .complete n) ∧
      D.given (D.run s input room).next = F.produced (D.fed s ++ input) := by
  obtain ⟨complete,given⟩ := D.ended s input room ends
  rw [← D.fed_rest s input room]
  refine ⟨⟨_,F.complete_append _ _ _ complete⟩,?_⟩
  rw [given,F.complete_produced _ _ _ complete]

theorem run_paused {s : D.State} {input : List α} {room : Nat}
    (continues : (D.run s input room).ret = .ok ∨ (D.run s input room).ret = .bufError)
    (short : (D.run s input room).output.length < room) :
    D.fed (D.run s input room).next = D.fed s ++ input ∧
      D.given (D.run s input room).next = F.produced (D.fed s ++ input) ∧
      F.verdict (D.fed s ++ input) = .truncated := by
  obtain ⟨used,given,verdict⟩ := D.processed s input room continues short
  have fed : D.fed (D.run s input room).next = D.fed s ++ input := by
    rw [D.fed_run,used,List.take_length]
  rw [fed] at given verdict
  exact ⟨fed,given,verdict⟩

theorem drain_tells (positive : 0 < room) (s : D.State) (input : List α) (written : List β)
    (same : written = D.given s) : D.Tells s input (D.drain room writable s input written) := by
  fun_induction drain with
  | case1 s input written code message failed =>
    exact D.corrupt s input room code message failed
  | case2 s input written fits full other ih =>
    have next := ih (by rw [D.given_run,same])
    unfold Tells at next ⊢
    rw [D.fed_rest] at next
    exact next
  | case3 s input written fits full other =>
    have size := D.output_le s input room
    have short : (D.run s input room).output.length < room := by omega
    have total : written ++ (D.run s input room).output = D.given (D.run s input room).next := by
      rw [D.given_run,same]
    cases ret : (D.run s input room).ret with
    | failed code message => exact absurd ret (fun equal => other code message equal)
    | streamEnd =>
      obtain ⟨complete,given⟩ := D.run_ended ret
      exact ⟨complete,total.trans given⟩
    | ok =>
      obtain ⟨fed,given,verdict⟩ := D.run_paused (.inl ret) short
      exact ⟨fed,total,given,verdict⟩
    | bufError =>
      obtain ⟨fed,given,verdict⟩ := D.run_paused (.inr ret) short
      exact ⟨fed,total,given,verdict⟩
  | case4 => trivial

theorem drain_written_prefix (s : D.State) (input : List α) (written : List β) :
    written <+: (D.drain room writable s input written).written := by
  fun_induction drain with
  | case1 => exact List.prefix_rfl
  | case2 s input written fits full other ih => exact (List.prefix_append _ _).trans ih
  | case3 => exact List.prefix_append _ _
  | case4 => exact List.prefix_rfl

/-- Every byte from a position on that would be written can be. -/
def Accepts (written total : List β) : Prop :=
  ∀ i, written.length ≤ i → i < total.length → writable i = true

theorem fits_of_accepts {written piece total : List β} (within : written ++ piece <+: total)
    (accepts : Accepts writable written total) : Fits writable written piece := by
  intro i inside
  have size := within.length_le
  rw [List.length_append] at size
  exact accepts (written.length + i) (by omega) (by omega)

theorem accepts_split {written mid total : List β} (longer : written.length ≤ mid.length)
    (here : Accepts writable written mid) : Accepts writable written total ↔ Accepts writable mid total := by
  constructor
  · intro all i above below
    exact all i (by omega) below
  · intro all i above below
    by_cases early : i < mid.length
    · exact here i above early
    · exact all i (by omega) below

theorem accepts_self (written : List β) : Accepts writable written written :=
  fun i above below => absurd (Nat.lt_of_lt_of_le below above) (Nat.lt_irrefl i)

theorem accepts_prefix {written mid total : List β} (within : mid <+: total)
    (all : Accepts writable written total) : Accepts writable written mid :=
  fun i above below => all i above (Nat.lt_of_lt_of_le below within.length_le)

theorem accepts_piece {written piece : List β} (fits : Fits writable written piece) :
    Accepts writable written (written ++ piece) := by
  intro i above below
  rw [List.length_append] at below
  have index : written.length + (i - written.length) = i := by omega
  have here := fits (i - written.length) (by omega)
  rwa [index] at here

theorem drain_continues {s : D.State} {input : List α} {room : Nat}
    (other : ∀ code message, (D.run s input room).ret = .failed code message → False) (written : List β) :
    D.drain room (fun _ => true) s input written
      = if (D.run s input room).output.length = room ∧ 0 < room then
          D.drain room (fun _ => true) (D.run s input room).next (input.drop (D.run s input room).used)
            (written ++ (D.run s input room).output)
        else
          { state := (D.run s input room).next, written := written ++ (D.run s input room).output,
            outcome := if (D.run s input room).ret = .streamEnd then .ended else .paused } := by
  have always : Fits (fun _ => true) written (D.run s input room).output := fun _ _ => rfl
  rw [drain]
  split
  next code message failed => exact absurd failed (fun equal => other code message equal)
  next => rw [if_pos always]

/-- Draining fails to write exactly if one of the bytes it would write cannot be written, and
otherwise it is as if all could. -/
theorem drain_writable (s : D.State) (input : List α) (written : List β) :
    (Accepts writable written (D.drain room (fun _ => true) s input written).written →
      D.drain room writable s input written = D.drain room (fun _ => true) s input written) ∧
    (¬ Accepts writable written (D.drain room (fun _ => true) s input written).written →
      (D.drain room writable s input written).outcome = .unwritable) := by
  fun_induction D.drain room writable s input written with
  | case1 s input written code message failed =>
    have all : D.drain room (fun _ => true) s input written
        = { state := s, written := written, outcome := .failed code message } := by
      rw [drain,failed]
    rw [all]
    exact ⟨fun _ => rfl,fun not => absurd (accepts_self writable written) not⟩
  | case2 s input written fits full other ih =>
    have all : D.drain room (fun _ => true) s input written
        = D.drain room (fun _ => true) (D.run s input room).next (input.drop (D.run s input room).used)
            (written ++ (D.run s input room).output) := by
      rw [D.drain_continues other,if_pos full]
    have longer := (List.prefix_append written (D.run s input room).output).length_le
    rw [all,accepts_split writable longer (accepts_piece writable fits)]
    exact ih
  | case3 s input written fits full other =>
    have all : D.drain room (fun _ => true) s input written
        = { state := (D.run s input room).next, written := written ++ (D.run s input room).output,
            outcome := if (D.run s input room).ret = .streamEnd then .ended else .paused } := by
      rw [D.drain_continues other,if_neg full]
    rw [all]
    exact ⟨fun _ => rfl,fun not => absurd (accepts_piece writable fits) not⟩
  | case4 s input written unfit other =>
    refine ⟨fun accepts => absurd ?_ unfit,fun _ => rfl⟩
    refine fits_of_accepts writable ?_ accepts
    rw [D.drain_continues other]
    split
    next => exact drain_written_prefix ..
    next => exact List.prefix_rfl

theorem drain_total (s : D.State) (input : List α) (written : List β) :
    (D.drain room (fun _ => true) s input written).outcome ≠ .unwritable := by
  fun_induction D.drain room (fun _ => true) s input written with
  | case1 => simp
  | case2 s input written fits full other ih => exact ih
  | case3 =>
    dsimp only
    split <;> simp
  | case4 s input written unfit => exact absurd (fun _ _ => rfl) unfit

/-- Drains one piece of input after the other, until the decoder stops or the input is over. -/
def feed (room : Nat) (writable : Nat → Bool) (s : D.State) : List (List α) → List β → List β × Outcome
  | [],written => (written,.paused)
  | piece :: rest,written =>
    let drained := D.drain room writable s piece written
    if drained.outcome = .paused then feed room writable drained.state rest drained.written
    else (drained.written,drained.outcome)

attribute [simp] feed

/-- What the outcome says about a whole file. -/
def TellsAll (input : List α) (fed : List β × Outcome) : Prop :=
  match fed.2 with
  | .paused => F.verdict input = .truncated
  | .ended => (∃ n, F.verdict input = .complete n) ∧ fed.1 = F.produced input
  | .failed _ _ => F.verdict input = .corrupt
  | .unwritable => True

theorem feed_tells (positive : 0 < room) (pieces : List (List α)) (s : D.State)
    (open_ : F.verdict (D.fed s) = .truncated) (written : List β) (same : written = D.given s) :
    TellsAll (F := F) (D.fed s ++ pieces.flatten) (D.feed room writable s pieces written) := by
  induction pieces generalizing s written with
  | nil =>
    simp only [feed,List.flatten_nil,List.append_nil]
    exact open_
  | cons piece rest ih =>
    have tells := D.drain_tells room writable positive s piece written same
    rw [List.flatten_cons,← List.append_assoc]
    simp only [feed]
    unfold Tells at tells
    split
    next paused =>
      rw [paused] at tells
      obtain ⟨fed,total,_,verdict⟩ := tells
      have next := ih _ (by rw [fed]; exact verdict) _ total
      rwa [fed] at next
    next stops =>
      unfold TellsAll
      cases outcome : (D.drain room writable s piece written).outcome with
      | paused => exact absurd outcome stops
      | ended =>
        rw [outcome] at tells
        obtain ⟨⟨n,complete⟩,total⟩ := tells
        exact ⟨⟨n,F.complete_append _ _ n complete⟩,total.trans (F.complete_produced _ _ n complete).symm⟩
      | failed code message =>
        rw [outcome] at tells
        exact F.corrupt_append _ _ tells
      | unwritable => trivial

theorem feed_written_prefix (pieces : List (List α)) (s : D.State) (written : List β) :
    written <+: (D.feed room writable s pieces written).1 := by
  induction pieces generalizing s written with
  | nil => exact List.prefix_rfl
  | cons piece rest ih =>
    simp only [feed]
    have first := D.drain_written_prefix room writable s piece written
    split
    next => exact first.trans (ih _ _)
    next => exact first

theorem feed_writable (pieces : List (List α)) (s : D.State) (written : List β) :
    (Accepts writable written (D.feed room (fun _ => true) s pieces written).1 →
      D.feed room writable s pieces written = D.feed room (fun _ => true) s pieces written) ∧
    (¬ Accepts writable written (D.feed room (fun _ => true) s pieces written).1 →
      (D.feed room writable s pieces written).2 = .unwritable) := by
  induction pieces generalizing s written with
  | nil => exact ⟨fun _ => rfl,fun not => absurd (accepts_self writable written) not⟩
  | cons piece rest ih =>
    have drained := D.drain_writable room writable s piece written
    have first := D.drain_written_prefix room (fun _ => true) s piece written
    simp only [feed]
    by_cases here : Accepts writable written (D.drain room (fun _ => true) s piece written).written
    · rw [drained.1 here]
      split
      next =>
        rw [accepts_split writable first.length_le here]
        exact ih _ _
      next => exact ⟨fun _ => rfl,fun not => absurd here not⟩
    · have stops := drained.2 here
      have other : Outcome.unwritable ≠ Outcome.paused := by
        intro same
        cases same
      rw [stops,if_neg other]
      refine ⟨fun all => absurd ?_ here,fun _ => rfl⟩
      refine accepts_prefix writable ?_ all
      split
      next => exact D.feed_written_prefix ..
      next => exact List.prefix_rfl

theorem feed_total (pieces : List (List α)) (s : D.State) (written : List β) :
    (D.feed room (fun _ => true) s pieces written).2 ≠ .unwritable := by
  induction pieces generalizing s written with
  | nil => simp [feed]
  | cons piece rest ih =>
    simp only [feed]
    split
    next => exact ih _ _
    next => exact D.drain_total room s piece written

end

section

variable (room : Nat) (writable : Nat → Bool) (failing : Bool)

/-- More input is read only when none is left. After the last piece a read gives nothing,
or fails. -/
def refill (input : List α) (pieces : List (List α)) : Option (List α × List (List α)) :=
  match input,pieces with
  | [],[] => if failing then none else some ([],[])
  | [],piece :: rest => some (piece,rest)
  | input,pieces => some (input,pieces)

inductive PumpOutcome where
  | ended
  | stuck
  | failed (code : Nat) (message : String)
  | unwritable
  | unreadable
deriving DecidableEq

theorem refill_flatten {input next : List α} {pieces later : List (List α)}
    (refilled : refill failing input pieces = some (next,later)) :
    next ++ later.flatten = input ++ pieces.flatten := by
  unfold refill at refilled
  split at refilled
  next =>
    split at refilled
    next => cases refilled
    next =>
      cases refilled
      rfl
  next =>
    cases refilled
    rfl
  next =>
    cases refilled
    rfl

/-- Without a new piece the input is what it was. -/
theorem refill_input {input next : List α} {pieces later : List (List α)}
    (refilled : refill failing input pieces = some (next,later)) :
    later.length < pieces.length ∨ later = pieces ∧ next = input := by
  unfold refill at refilled
  split at refilled
  next =>
    split at refilled
    next => cases refilled
    next =>
      cases refilled
      exact .inr ⟨rfl,rfl⟩
  next piece rest =>
    cases refilled
    exact .inl (by simp)
  next =>
    cases refilled
    exact .inr ⟨rfl,rfl⟩

/-- Calls the decoder with the input there is, and writes what each call gives, also the
last one, until it does not return that all is well. -/
def pump (s : D.State) (input : List α) (pieces : List (List α)) (written : List β) : List β × PumpOutcome :=
  match _ : refill failing input pieces with
  | none => (written,.unreadable)
  | some (next,later) =>
    let call := D.run s next room
    if Fits writable written call.output then
      match _ : call.ret with
      | .ok => pump call.next (next.drop call.used) later (written ++ call.output)
      | .streamEnd => (written ++ call.output,.ended)
      | .bufError => (written ++ call.output,.stuck)
      | .failed code message => (written ++ call.output,.failed code message)
    else (written,.unwritable)
termination_by (pieces.length,input.length,D.owed s input,if D.stalled s then 0 else 1)
decreasing_by
  rename_i found _ ret
  rcases refill_input failing found with fewer | ⟨samePieces,sameInput⟩
  · exact Prod.Lex.left _ _ fewer
  · subst samePieces sameInput
    refine Prod.Lex.right _ ?_
    have used := D.used_le s next room
    have bound := D.owed_run s next room
    by_cases consumed : 0 < (D.run s next room).used
    · refine Prod.Lex.left _ _ ?_
      rw [List.length_drop]
      omega
    · have none_ : (D.run s next room).used = 0 := by omega
      have whole : (next.drop (D.run s next room).used).length = next.length := by rw [none_,List.drop_zero]
      rw [whole]
      refine Prod.Lex.right _ ?_
      by_cases produces : 0 < (D.run s next room).output.length
      · refine Prod.Lex.left _ _ ?_
        rw [bound.2]
        unfold owed
        omega
      · have silent : (D.run s next room).output = [] := List.length_eq_zero_iff.mp (by omega)
        have same : D.owed (D.run s next room).next (next.drop (D.run s next room).used) = D.owed s next := by
          rw [bound.2,silent,List.length_nil,Nat.sub_zero]
        obtain ⟨before,after⟩ := D.progress s next room ret none_ silent
        rw [same]
        refine Prod.Lex.right _ ?_
        simp [before,after]

attribute [elab_as_elim] pump.induct_unfolding

/-- There is no input only when there are no pieces left. -/
theorem refill_empty {input : List α} {pieces later : List (List α)} (nonempty : ∀ piece ∈ pieces, piece ≠ [])
    (refilled : refill failing input pieces = some ([],later)) : later = [] := by
  unfold refill at refilled
  split at refilled
  next =>
    split at refilled
    next => cases refilled
    next =>
      cases refilled
      rfl
  next piece rest =>
    cases refilled
    exact absurd rfl (nonempty [] (by simp))
  next first second =>
    cases refilled
    cases pieces with
    | nil => rfl
    | cons piece rest => exact (second piece rest rfl rfl).elim

theorem refill_subset {input next : List α} {pieces later : List (List α)}
    (refilled : refill failing input pieces = some (next,later)) : ∀ piece ∈ later, piece ∈ pieces := by
  unfold refill at refilled
  split at refilled
  next =>
    split at refilled
    next => cases refilled
    next =>
      cases refilled
      exact fun _ member => member
  next =>
    cases refilled
    exact fun _ member => List.mem_cons_of_mem _ member
  next =>
    cases refilled
    exact fun _ member => member

/-- What the outcome says about a whole file. -/
def TellsPumped (total : List α) (pumped : List β × PumpOutcome) : Prop :=
  match pumped.2 with
  | .ended => (∃ n, F.verdict total = .complete n) ∧ pumped.1 = F.produced total
  | .stuck => F.verdict total = .truncated
  | .failed _ _ => F.verdict total = .corrupt
  | .unwritable => True
  | .unreadable => True

theorem pump_tells (positive : 0 < room) (s : D.State) (input : List α) (pieces : List (List α))
    (nonempty : ∀ piece ∈ pieces, piece ≠ []) (written : List β) (same : written = D.given s) :
    TellsPumped (F := F) (D.fed s ++ (input ++ pieces.flatten))
      (D.pump room writable failing s input pieces written) := by
  fun_induction pump with
  | case1 => trivial
  | case2 s input pieces written next later refilled call fits ok ih =>
    rw [← refill_flatten failing refilled,← List.append_assoc]
    have rest := ih (fun piece member => nonempty piece (refill_subset failing refilled piece member))
      (by rw [D.given_run,same])
    rw [← List.append_assoc,D.fed_rest] at rest
    exact rest
  | case3 s input pieces written next later refilled call fits ends =>
    rw [← refill_flatten failing refilled,← List.append_assoc]
    obtain ⟨⟨n,complete⟩,given⟩ := D.run_ended ends
    refine ⟨⟨n,F.complete_append _ _ n complete⟩,?_⟩
    rw [F.complete_produced _ _ n complete,← given,D.given_run,same]
  | case4 s input pieces written next later refilled call fits idle =>
    obtain ⟨used,silent⟩ := D.idle s next room idle
    have short : (D.run s next room).output.length < room := by
      rw [silent]
      exact positive
    obtain ⟨usedAll,_,verdict⟩ := D.processed s next room (.inr idle) short
    have empty : next = [] := List.length_eq_zero_iff.mp (usedAll.symm.trans used)
    subst empty
    have last := refill_empty failing nonempty refilled
    rw [← refill_flatten failing refilled,last]
    simpa [TellsPumped,D.fed_run] using verdict
  | case5 s input pieces written next later refilled call fits code message failed =>
    rw [← refill_flatten failing refilled,← List.append_assoc]
    exact F.corrupt_append _ _ (D.corrupt s next room code message failed)
  | case6 => trivial

theorem pump_written_prefix (s : D.State) (input : List α) (pieces : List (List α)) (written : List β) :
    written <+: (D.pump room writable failing s input pieces written).1 := by
  fun_induction pump with
  | case1 => exact List.prefix_rfl
  | case2 s input pieces written next later refilled call fits ok ih => exact (List.prefix_append _ _).trans ih
  | case3 => exact List.prefix_append _ _
  | case4 => exact List.prefix_append _ _
  | case5 => exact List.prefix_append _ _
  | case6 => exact List.prefix_rfl

theorem pump_call {s : D.State} {input next : List α} {pieces later : List (List α)} {written : List β}
    (refilled : refill failing input pieces = some (next,later))
    (fits : Fits writable written (D.run s next room).output) :
    D.pump room writable failing s input pieces written = match (D.run s next room).ret with
      | .ok => D.pump room writable failing (D.run s next room).next (next.drop (D.run s next room).used) later
          (written ++ (D.run s next room).output)
      | .streamEnd => (written ++ (D.run s next room).output,.ended)
      | .bufError => (written ++ (D.run s next room).output,.stuck)
      | .failed code message => (written ++ (D.run s next room).output,.failed code message) := by
  rw [pump]
  split
  next none_ =>
    rw [refilled] at none_
    cases none_
  next other rest some_ =>
    rw [refilled] at some_
    cases some_
    rw [if_pos fits]
    split <;> simp_all

theorem pump_writable (s : D.State) (input : List α) (pieces : List (List α)) (written : List β) :
    (Accepts writable written (D.pump room (fun _ => true) failing s input pieces written).1 →
      D.pump room writable failing s input pieces written
        = D.pump room (fun _ => true) failing s input pieces written) ∧
    (¬ Accepts writable written (D.pump room (fun _ => true) failing s input pieces written).1 →
      (D.pump room writable failing s input pieces written).2 = .unwritable) := by
  fun_induction D.pump room writable failing s input pieces written with
  | case1 s input pieces written none_ =>
    have same : D.pump room (fun _ => true) failing s input pieces written = (written,.unreadable) := by
      rw [pump]
      split
      next => rfl
      next some_ =>
        rw [none_] at some_
        cases some_
    rw [same]
    exact ⟨fun _ => rfl,fun not => absurd (accepts_self writable written) not⟩
  | case2 s input pieces written next later refilled call fits ok ih =>
    have always : Fits (fun _ => true) written (D.run s next room).output := fun _ _ => rfl
    have longer := (List.prefix_append written (D.run s next room).output).length_le
    rw [D.pump_call room _ failing refilled always,ok]
    dsimp only
    rw [accepts_split writable longer (accepts_piece writable fits)]
    exact ih
  | case6 s input pieces written next later refilled call unfit =>
    have always : Fits (fun _ => true) written (D.run s next room).output := fun _ _ => rfl
    refine ⟨fun accepts => absurd (fits_of_accepts writable ?_ accepts) unfit,fun _ => rfl⟩
    rw [D.pump_call room _ failing refilled always]
    split
    next => exact D.pump_written_prefix ..
    all_goals exact List.prefix_rfl
  | case3 s input pieces written next later refilled call fits ret =>
    have always : Fits (fun _ => true) written (D.run s next room).output := fun _ _ => rfl
    rw [D.pump_call room _ failing refilled always,ret]
    exact ⟨fun _ => rfl,fun not => absurd (accepts_piece writable fits) not⟩
  | case4 s input pieces written next later refilled call fits ret =>
    have always : Fits (fun _ => true) written (D.run s next room).output := fun _ _ => rfl
    rw [D.pump_call room _ failing refilled always,ret]
    exact ⟨fun _ => rfl,fun not => absurd (accepts_piece writable fits) not⟩
  | case5 s input pieces written next later refilled call fits code message ret =>
    have always : Fits (fun _ => true) written (D.run s next room).output := fun _ _ => rfl
    rw [D.pump_call room _ failing refilled always,ret]
    exact ⟨fun _ => rfl,fun not => absurd (accepts_piece writable fits) not⟩

theorem pump_total (s : D.State) (input : List α) (pieces : List (List α)) (written : List β) :
    (D.pump room (fun _ => true) failing s input pieces written).2 ≠ .unwritable := by
  fun_induction D.pump room (fun _ => true) failing s input pieces written with
  | case2 s input pieces written next later refilled call fits ok ih => exact ih
  | case6 s input pieces written next later refilled call unfit => exact absurd (fun _ _ => rfl) unfit
  | _ => simp

end

end IdealDecoder

end SetecWizard.Library
