import Mathlib.Data.List.Basic
import Mathlib.Logic.Function.Iterate

/-! Computations that may fail, with the accesses to buffers they make on the way.
A computation is safe when each access lies inside its buffer; what is read
outside one is immaterial, since the computation is unsafe by then. A computation may also leave a trace of what
it did on the way to its value.
-/
namespace SetecWizard.Library

/-- So many bytes from an offset on, of a buffer of a given size. -/
structure Access where
  size : Nat
  offset : Nat
  length : Nat

def Access.Inside (a : Access) : Prop := a.offset + a.length ≤ a.size

structure Footprint (ε α : Type) where
  accesses : List Access
  result : Except ε α

namespace Footprint

variable {ε α β : Type}

def bind (first : Footprint ε α) (rest : α → Footprint ε β) : Footprint ε β :=
  match first.result with
  | .error e => ⟨first.accesses,.error e⟩
  | .ok a => ⟨first.accesses ++ (rest a).accesses,(rest a).result⟩

instance : Monad (Footprint ε) where
  pure a := ⟨[],.ok a⟩
  bind := bind

/-- A computation that touches no buffer. -/
def lift (result : Except ε α) : Footprint ε α := ⟨[],result⟩

/-- A value that comes with touching a range of a buffer. -/
def access (size offset length : Nat) (value : α) : Footprint ε α := ⟨[⟨size,offset,length⟩],.ok value⟩

def Safe (run : Footprint ε α) : Prop := ∀ a ∈ run.accesses, a.Inside

@[simp] theorem safe_pure (a : α) : (pure a : Footprint ε α).Safe ↔ True := by
  simp [Safe,pure]

@[simp] theorem safe_lift (result : Except ε α) : (lift result).Safe ↔ True := by
  simp [Safe,lift]

@[simp] theorem safe_access (size offset length : Nat) (value : α) :
    (access size offset length value : Footprint ε α).Safe ↔ offset + length ≤ size := by
  simp [Safe,access,Access.Inside]

@[simp] theorem safe_bind (first : Footprint ε α) (rest : α → Footprint ε β) :
    (first >>= rest).Safe ↔ first.Safe ∧ ∀ a, first.result = .ok a → (rest a).Safe := by
  change (bind first rest).Safe ↔ _
  unfold bind Safe
  cases first.result with
  | error e => simp
  | ok a =>
    simp only [List.mem_append,Except.ok.injEq,forall_eq']
    exact ⟨fun all => ⟨fun b member => all b (.inl member),fun b member => all b (.inr member)⟩,
      fun both b member => member.elim (both.1 b) (both.2 b)⟩

@[simp] theorem result_pure (a : α) : (pure a : Footprint ε α).result = .ok a := rfl

@[simp] theorem result_lift (result : Except ε α) : (lift result).result = result := rfl

@[simp] theorem result_access (size offset length : Nat) (value : α) :
    (access size offset length value : Footprint ε α).result = .ok value := rfl

@[simp] theorem result_bind (first : Footprint ε α) (rest : α → Footprint ε β) :
    (first >>= rest).result = first.result >>= fun a => (rest a).result := by
  change (bind first rest).result = _
  unfold bind
  cases first.result <;> rfl

end Footprint

/-- Alternatives are tried until one of them yields something; the trace is that of the ones tried. -/
structure Traced (ω α : Type) where
  trace : List ω
  value : α

namespace Traced

variable {ω α β : Type}

instance : Monad (Traced ω) where
  pure a := ⟨[],a⟩
  bind first rest := ⟨first.trace ++ (rest first.value).trace,(rest first.value).value⟩

/-- One step. -/
def tell (o : ω) (value : α) : Traced ω α := ⟨[o],value⟩

def Holds (P : ω → Prop) (run : Traced ω α) : Prop := ∀ o ∈ run.trace, P o

section Rules

variable (P : ω → Prop)

@[simp] theorem holds_pure (a : α) : (pure a : Traced ω α).Holds P :=
  fun _ member => absurd member List.not_mem_nil

@[simp] theorem holds_tell (o : ω) (value : α) : (tell o value).Holds P ↔ P o := List.forall_mem_singleton

@[simp] theorem holds_bind (first : Traced ω α) (rest : α → Traced ω β) :
    (first >>= rest).Holds P ↔ first.Holds P ∧ (rest first.value).Holds P := List.forall_mem_append

theorem holds_ite (c : Prop) [Decidable c] (first second : Traced ω α) :
    (if c then first else second).Holds P ↔ (c → first.Holds P) ∧ (¬ c → second.Holds P) := by
  split
  next yes => exact ⟨fun held => ⟨fun _ => held,fun no => absurd yes no⟩,fun both => both.1 yes⟩
  next no => exact ⟨fun held => ⟨fun yes => absurd yes no,fun _ => held⟩,fun both => both.2 no⟩

@[simp] theorem value_pure (a : α) : (pure a : Traced ω α).value = a := rfl

@[simp] theorem value_tell (o : ω) (value : α) : (tell o value).value = value := rfl

@[simp] theorem value_bind (first : Traced ω α) (rest : α → Traced ω β) :
    (first >>= rest).value = (rest first.value).value := rfl

theorem value_ite (c : Prop) [Decidable c] (first second : Traced ω α) :
    (if c then first else second).value = if c then first.value else second.value := apply_ite _ _ _ _

/-- Only the rest from the value on matters. -/
theorem bind_same {first : Traced ω α} {rest other : α → Traced ω β} (same : rest first.value = other first.value) :
    (first >>= rest) = (first >>= other) := by
  change Traced.mk _ _ = Traced.mk _ _
  rw [same]

end Rules

section Alternatives

def firstSome : List (Traced ω (Option α)) → Traced ω (Option α)
  | [] => pure none
  | alternative :: rest => do
    match ← alternative with
    | some a => return some a
    | none => firstSome rest

variable (P : ω → Prop)

theorem holds_firstSome_cons (alternative : Traced ω (Option α)) (rest : List (Traced ω (Option α))) :
    (firstSome (alternative :: rest)).Holds P ↔
      alternative.Holds P ∧ (alternative.value = none → (firstSome rest).Holds P) := by
  rw [firstSome,holds_bind]
  cases alternative.value with
  | none => exact and_congr_right fun _ => ⟨fun held _ => held,fun held => held rfl⟩
  | some a => exact and_congr_right fun _ => ⟨fun _ none => (nomatch none),fun _ => holds_pure P _⟩

theorem holds_firstSome_append {first second : List (Traced ω (Option α))} (harmless : ∀ a ∈ first, a.Holds P) :
    (firstSome (first ++ second)).Holds P ↔
      ((∀ a ∈ first, a.value = none) → (firstSome second).Holds P) := by
  induction first with
  | nil => exact ⟨fun held _ => held,fun held => held (fun _ member => absurd member List.not_mem_nil)⟩
  | cons alternative rest ih =>
    obtain ⟨here,later⟩ := List.forall_mem_cons.mp harmless
    rw [List.cons_append,holds_firstSome_cons,ih later,List.forall_mem_cons]
    exact ⟨fun both all => both.2 all.1 all.2,fun held => ⟨here,fun none others => held ⟨none,others⟩⟩⟩

end Alternatives

section Yields

variable {P : ω → Prop} {a b : α}

/-- Each step of a computation is as it should be, and it comes to a value. -/
def Yields (P : ω → Prop) (run : Traced ω α) (value : α) : Prop := run.Holds P ∧ run.value = value

theorem yields_pure (a : α) : Yields P (pure a) a := ⟨holds_pure P a,rfl⟩

theorem yields_tell {o : ω} (sound : P o) (value : α) : Yields P (tell o value) value := ⟨(holds_tell P o value).mpr sound,rfl⟩

theorem Yields.bind {first : Traced ω β} {rest : β → Traced ω α} {between : β} (here : Yields P first between)
    (later : Yields P (rest between) a) : Yields P (first >>= rest) a := by
  obtain ⟨sound,rfl⟩ := here
  exact ⟨(holds_bind P first rest).mpr ⟨sound,later.1⟩,later.2⟩

theorem yields_ite {c : Prop} [Decidable c] {first second : Traced ω α} (yes : c → Yields P first a)
    (no : ¬ c → Yields P second b) : Yields P (if c then first else second) (if c then a else b) := by
  split
  next holds => exact yes holds
  next fails => exact no fails

def iterate (step : α → Traced ω α) : Nat → α → Traced ω α
  | 0,a => pure a
  | n + 1,a => step a >>= iterate step n

theorem yields_iterate {step : α → Traced ω α} {next : α → α} (each : ∀ a, Yields P (step a) (next a)) (n : Nat) (a : α) :
    Yields P (iterate step n a) (next^[n] a) := by
  induction n generalizing a with
  | zero => exact yields_pure a
  | succ n ih => exact (each a).bind (ih (next a))

end Yields

end Traced

end SetecWizard.Library
