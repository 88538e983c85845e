import Mathlib.Logic.Function.Basic
import Mathlib.Tactic.Ring

/-! Codes of compressed data. A history is continued by values and by copies of what it has
already. For range coding, a computation asks for decisions, one after another; which one it asks
for next depends on the answers so far. Each answer takes a part of an interval of numbers, so the
answers along a path leave a span of them, and a number of the span is read back as that path.
-/
namespace SetecWizard.Library

section History

variable {α : Type}

/-- What a history is continued with. A copy starts so far behind the last value, and may run into
itself. -/
inductive Token (α : Type) where
  | literal (value : α)
  | copy (distance len : Nat)
deriving DecidableEq

def repeated (distance : Nat) : Nat → List α → List α
  | 0,history => history
  | len + 1,history => repeated distance len (history ++ (history[history.length - 1 - distance]?).toList)

namespace Token

def extend : Token α → List α → List α
  | .literal value,history => history ++ [value]
  | .copy distance len,history => repeated distance len history

def Valid : Token α → List α → Prop
  | .literal _,_ => True
  | .copy distance _,history => distance < history.length

def length : Token α → Nat
  | .literal _ => 1
  | .copy _ len => len

def cut (space : Nat) : Token α → Token α
  | .literal value => .literal value
  | .copy distance len => .copy distance (min space len)

instance (token : Token α) (history : List α) : Decidable (token.Valid history) :=
  match token with
  | .literal _ => inferInstanceAs (Decidable True)
  | .copy _ _ => inferInstanceAs (Decidable (_ < _))

end Token

def expand (history : List α) : List (Token α) → List α
  | [] => history
  | token :: rest => expand (token.extend history) rest

/-- Every copy is one of what is there when its turn comes. -/
def Parses (history : List α) : List (Token α) → Prop
  | [] => True
  | token :: rest => token.Valid history ∧ Parses (token.extend history) rest

variable {history : List α} {distance len : Nat}

theorem repeated_succ (valid : distance < history.length) :
    repeated distance (len + 1) history =
      repeated distance len (history ++ [history.get ⟨history.length - 1 - distance,by omega⟩]) := by
  rw [repeated,List.getElem?_eq_getElem (by omega : history.length - 1 - distance < history.length)]
  rfl

theorem length_repeated (valid : distance < history.length) :
    (repeated distance len history).length = history.length + len := by
  induction len generalizing history with
  | zero => rfl
  | succ len ih =>
    rw [repeated_succ valid,ih (by rw [List.length_append]; omega),List.length_append]
    exact Nat.add_right_comm _ _ _

theorem Token.length_extend {token : Token α} (valid : token.Valid history) :
    (token.extend history).length = history.length + token.length := by
  cases token with
  | literal value => exact List.length_append
  | copy distance len => exact length_repeated valid

theorem Token.valid_cut {token : Token α} (space : Nat) : (token.cut space).Valid history ↔ token.Valid history := by
  cases token <;> exact Iff.rfl

theorem length_expand {tokens : List (Token α)} (parses : Parses history tokens) :
    (expand history tokens).length = history.length + (tokens.map Token.length).sum := by
  induction tokens generalizing history with
  | nil => rfl
  | cons token tokens ih =>
    rw [expand,ih parses.2,Token.length_extend parses.1,List.map_cons,List.sum_cons,Nat.add_assoc]

end History

/-- Decisions that follow the odds kept in a slot, decisions that are even, and a way to go
astray. -/
inductive Asking (κ α : Type) : Type where
  | done (value : α)
  | stray
  | ask (slot : κ) (next : Bool → Asking κ α)
  | toss (next : Bool → Asking κ α)

namespace Asking

variable {κ α β γ : Type}

protected def bind : Asking κ α → (α → Asking κ β) → Asking κ β
  | .done value,rest => rest value
  | .stray,_ => .stray
  | .ask slot next,rest => .ask slot fun bit => (next bit).bind rest
  | .toss next,rest => .toss fun bit => (next bit).bind rest

instance : Monad (Asking κ) where
  pure := .done
  bind := Asking.bind

@[simp] theorem done_bind (value : α) (rest : α → Asking κ β) : (Asking.done value >>= rest) = rest value := rfl

@[simp] theorem ask_bind (slot : κ) (next : Bool → Asking κ α) (rest : α → Asking κ β) :
    (Asking.ask slot next >>= rest) = .ask slot fun bit => next bit >>= rest := rfl

protected theorem bind_assoc (q : Asking κ α) (rest : α → Asking κ β) (last : β → Asking κ γ) :
    (q >>= rest) >>= last = q >>= fun value => rest value >>= last := by
  induction q with
  | done value => rfl
  | stray => rfl
  | ask slot next ih => exact congrArg (Asking.ask slot) (funext ih)
  | toss next ih => exact congrArg Asking.toss (funext ih)

/-- Whatever the answers are, the slots asked for and the value are as they should be, and
nothing goes astray. -/
def Sound (P : κ → Prop) (Q : α → Prop) : Asking κ α → Prop
  | .done value => Q value
  | .stray => False
  | .ask slot next => P slot ∧ ∀ bit, (next bit).Sound P Q
  | .toss next => ∀ bit, (next bit).Sound P Q

/-- The value at the end of a path of answers. -/
inductive Leads : Asking κ α → List Bool → α → Prop
  | done (value : α) : Leads (.done value) [] value
  | ask (slot : κ) {next : Bool → Asking κ α} {bit : Bool} {bits : List Bool} {value : α}
      (rest : Leads (next bit) bits value) : Leads (.ask slot next) (bit :: bits) value
  | toss {next : Bool → Asking κ α} {bit : Bool} {bits : List Bool} {value : α}
      (rest : Leads (next bit) bits value) : Leads (.toss next) (bit :: bits) value

/-- Both ask for the same decisions, whatever the answers are, and come to values that belong together. -/
inductive Alike (R : α → β → Prop) : Asking κ α → Asking κ β → Prop
  | done {value : α} {other : β} (related : R value other) : Alike R (.done value) (.done other)
  | stray : Alike R .stray .stray
  | ask (slot : κ) {next : Bool → Asking κ α} {next' : Bool → Asking κ β} (rest : ∀ bit, Alike R (next bit) (next' bit)) :
      Alike R (.ask slot next) (.ask slot next')
  | toss {next : Bool → Asking κ α} {next' : Bool → Asking κ β} (rest : ∀ bit, Alike R (next bit) (next' bit)) :
      Alike R (.toss next) (.toss next')

section Rules

variable {P : κ → Prop} {Q : α → Prop} {R : β → Prop} {q : Asking κ α} {rest : α → Asking κ β}

theorem Sound.bind (first : q.Sound P Q) (second : ∀ value, Q value → (rest value).Sound P R) :
    (q >>= rest).Sound P R := by
  induction q with
  | done value => exact second value first
  | stray => exact first.elim
  | ask slot next ih => exact ⟨first.1,fun bit => ih bit (first.2 bit)⟩
  | toss next ih => exact fun bit => ih bit (first bit)

theorem Sound.leads {bits : List Bool} {value : α} (sound : q.Sound P Q) (leads : Leads q bits value) : Q value := by
  induction leads with
  | done value => exact sound
  | ask slot _ ih => exact ih (sound.2 _)
  | toss _ ih => exact ih (sound _)

theorem Sound.alike (sound : q.Sound P Q) : Alike (fun value other => other = value ∧ Q value) q q := by
  induction q with
  | done value => exact .done ⟨rfl,sound⟩
  | stray => exact .stray
  | ask slot next ih => exact .ask slot fun bit => ih bit (sound.2 bit)
  | toss next ih => exact .toss fun bit => ih bit (sound bit)

theorem Alike.bind {T : α → γ → Prop} {q' : Asking κ γ} {δ : Type} {rest' : γ → Asking κ δ}
    {U : β → δ → Prop} (first : Alike T q q') (second : ∀ value other, T value other → Alike U (rest value) (rest' other)) :
    Alike U (q >>= rest) (q' >>= rest') := by
  induction first with
  | done related => exact second _ _ related
  | stray => exact .stray
  | ask slot _ ih => exact .ask slot ih
  | toss _ ih => exact .toss ih

end Rules

end Asking

def number (base : Nat) (digits : Nat → Nat) : Nat → Nat → Nat
  | _,0 => 0
  | pos,count + 1 => digits pos * base ^ count + number base digits (pos + 1) count

section Numbers

variable {base : Nat} {digits : Nat → Nat}

theorem number_congr {other : Nat → Nat} {pos count : Nat} (same : ∀ i, pos ≤ i → i < pos + count → digits i = other i) :
    number base digits pos count = number base other pos count := by
  induction count generalizing pos with
  | zero => rfl
  | succ count ih =>
    rw [number,number,same pos (Nat.le_refl _) (by omega),ih fun i above below => same i (by omega) (by omega)]

theorem number_add (pos count more : Nat) : number base digits pos (count + more) =
    number base digits pos count * base ^ more + number base digits (pos + count) more := by
  induction count generalizing pos with
  | zero => simp [number]
  | succ count ih =>
    have later : pos + 1 + count = pos + (count + 1) := by omega
    rw [Nat.succ_add,number,number,ih,later,pow_add]
    ring

theorem digit_below {i count n : Nat} (below : i < count) : n % base ^ count / base ^ i % base = n / base ^ i % base := by
  obtain ⟨k,rfl⟩ := Nat.exists_eq_add_of_lt below
  rw [Nat.add_assoc,pow_add,Nat.mod_mul_right_div_self,Nat.mod_mod_of_dvd _ (Dvd.intro_left _ (pow_succ base k).symm)]

theorem number_digits (positive : 0 < base) (pos count : Nat) {n : Nat} (below : n < base ^ count) :
    number base (fun i => n / base ^ (pos + count - 1 - i) % base) pos count = n := by
  induction count generalizing pos n with
  | zero => rw [number,Nat.lt_one_iff.mp below]
  | succ count ih =>
    have top : n / base ^ count < base := Nat.div_lt_of_lt_mul (by rwa [pow_succ] at below)
    have index : pos + (count + 1) - 1 - pos = count := by omega
    have low : n % base ^ count < base ^ count := Nat.mod_lt _ (Nat.pow_pos positive)
    rw [number,index,Nat.mod_eq_of_lt top]
    have rest : number base (fun i => n / base ^ (pos + (count + 1) - 1 - i) % base) (pos + 1) count =
        n % base ^ count := by
      rw [← ih (pos + 1) low]
      apply number_congr
      intro i above inside
      have index : pos + (count + 1) - 1 - i = pos + 1 + count - 1 - i := by omega
      rw [digit_below (by omega : pos + 1 + count - 1 - i < count),index]
    rw [rest]
    exact Nat.div_add_mod' n (base ^ count)

end Numbers

/-- How a width is split for the answers no and yes, and how odds adapt to an answer. A part of
a width that reaches the top can be widened by one digit to reach it again. -/
structure Coder (ω : Type) where
  base : Nat
  top : Nat
  bound : ω → Nat → Nat
  adapt : ω → Bool → ω
  positive : 0 < top
  split : ∀ odds width, top ≤ width → top ≤ base * bound odds width ∧ top ≤ base * (width - bound odds width)
  halved : ∀ width, top ≤ width → top ≤ base * (width / 2)

namespace Coder

variable {ω κ α : Type} (coder : Coder ω)

/-- The digits that are due before a split. -/
def owed (width : Nat) : Nat := if width < coder.top then 1 else 0

def renewed (width : Nat) : Nat := width * coder.base ^ coder.owed width

/-- Where the numbers of an answer start, and how many there are. -/
def start (bound : Nat) (bit : Bool) : Nat := if bit then bound else 0

def part (room bound : Nat) (bit : Bool) : Nat := if bit then room - bound else bound

def adapted [DecidableEq κ] (odds : κ → ω) (slot : κ) (bit : Bool) : κ → ω :=
  Function.update odds slot (coder.adapt (odds slot) bit)

/-- A part of the coded numbers, and the odds at the end of the path it belongs to. -/
structure Span (κ ω : Type) where
  low : Nat
  width : Nat
  digits : Nat
  odds : κ → ω

def Span.above (base start owed : Nat) (rest : Span κ ω) : Span κ ω :=
  ⟨start * base ^ rest.digits + rest.low,rest.width,owed + rest.digits,rest.odds⟩

def span [DecidableEq κ] : Asking κ α → List Bool → Nat → (κ → ω) → Span κ ω
  | .ask slot next,bit :: bits,width,odds =>
    let room := coder.renewed width
    let bound := coder.bound (odds slot) room
    (span (next bit) bits (part room bound bit) (coder.adapted odds slot bit)).above coder.base (start bound bit)
      (coder.owed width)
  | .toss next,bit :: bits,width,odds =>
    let half := coder.renewed width / 2
    (span (next bit) bits half odds).above coder.base (start half bit) (coder.owed width)
  | _,_,width,odds => ⟨0,width,0,odds⟩

/-- A reader of coded numbers: how far the number is above the start of the width. -/
structure Reader (κ ω : Type) where
  code : Nat
  width : Nat
  pos : Nat
  odds : κ → ω

def Reader.renew (coder : Coder ω) (input : Nat → Nat) (reader : Reader κ ω) : Reader κ ω :=
  { reader with
    code := reader.code * coder.base ^ coder.owed reader.width +
      number coder.base input reader.pos (coder.owed reader.width)
    width := coder.renewed reader.width
    pos := reader.pos + coder.owed reader.width }

def Reader.narrow (reader : Reader κ ω) (start part : Nat) (odds : κ → ω) : Reader κ ω :=
  { reader with code := reader.code - start,width := part,odds := odds }

/-- An answer in front of the ones that are read after it. -/
def answered (bit : Bool) (rest : α × List Bool × Reader κ ω) : α × List Bool × Reader κ ω := ⟨rest.1,bit :: rest.2.1,rest.2.2⟩

def read [DecidableEq κ] (input : Nat → Nat) : Asking κ α → Reader κ ω → Option (α × List Bool × Reader κ ω)
  | .done value,reader => some (value,[],reader)
  | .stray,_ => none
  | .ask slot next,reader =>
    let renewed := reader.renew coder input
    let bound := coder.bound (renewed.odds slot) renewed.width
    let bit := decide (bound ≤ renewed.code)
    (read input (next bit) (renewed.narrow (start bound bit) (part renewed.width bound bit)
      (coder.adapted renewed.odds slot bit))).map (answered bit)
  | .toss next,reader =>
    let renewed := reader.renew coder input
    let half := renewed.width / 2
    let bit := decide (half ≤ renewed.code)
    if renewed.code < 2 * half then (read input (next bit) (renewed.narrow (start half bit) half renewed.odds)).map (answered bit)
    else none

variable {coder}

section Spans

variable {q : Asking κ α} {bits : List Bool} {value : α} {width : Nat} {odds : κ → ω}

theorem renewed_top (wide : coder.top ≤ coder.base * width) : coder.top ≤ coder.renewed width := by
  unfold renewed owed
  split
  next => rwa [pow_one,Nat.mul_comm]
  next reached => simpa using reached

theorem bound_within {odds : ω} {room : Nat} (reached : coder.top ≤ room) : coder.bound odds room < room := by
  have some := Nat.lt_of_lt_of_le coder.positive (coder.split odds room reached).2
  have left : room - coder.bound odds room ≠ 0 := fun none => by simp [none] at some
  omega

theorem part_wide {odds : ω} {room : Nat} (reached : coder.top ≤ room) (bit : Bool) :
    coder.top ≤ coder.base * part room (coder.bound odds room) bit := by
  obtain ⟨below,above⟩ := coder.split odds room reached
  cases bit with
  | false => exact below
  | true => exact above

theorem start_part {room bound : Nat} (within : bound ≤ room) (bit : Bool) : start bound bit + part room bound bit ≤ room := by
  cases bit with
  | false => simpa [start,part] using within
  | true => exact Nat.le_of_eq (Nat.add_sub_cancel' within)

theorem start_half (room : Nat) (bit : Bool) : start (room / 2) bit + room / 2 ≤ room := by
  cases bit <;> simp only [start] <;> simp <;> omega

/-- The span lies within a width, and it can be read on from. -/
structure Span.Inside (coder : Coder ω) (span : Span κ ω) (width : Nat) : Prop where
  wide : coder.top ≤ coder.base * span.width
  within : span.low + span.width ≤ width * coder.base ^ span.digits

theorem Span.Inside.above {rest : Span κ ω} {part start : Nat} (inside : rest.Inside coder part)
    (room : start + part ≤ coder.renewed width) : (rest.above coder.base start (coder.owed width)).Inside coder width := by
  refine ⟨inside.wide,?_⟩
  have scaled := Nat.mul_le_mul_right (coder.base ^ rest.digits) room
  have within := inside.within
  rw [Nat.add_mul,renewed] at scaled
  simp only [Span.above,pow_add,← Nat.mul_assoc]
  omega

theorem span_inside [DecidableEq κ] (leads : q.Leads bits value) (wide : coder.top ≤ coder.base * width) (odds : κ → ω) :
    (coder.span q bits width odds).Inside coder width := by
  induction leads generalizing width odds with
  | done value => exact ⟨wide,by simp [span]⟩
  | @ask slot next bit bits value rest ih =>
    have reached := renewed_top wide
    apply (ih (part_wide reached bit) _).above
    exact start_part (Nat.le_of_lt (bound_within reached)) bit
  | @toss next bit bits value rest ih =>
    apply (ih (coder.halved _ (renewed_top wide)) odds).above
    exact start_half _ bit

theorem span_digits [DecidableEq κ] (leads : q.Leads bits value) (width : Nat) (odds : κ → ω) :
    (coder.span q bits width odds).digits ≤ bits.length := by
  have one (width : Nat) : coder.owed width ≤ 1 := by
    unfold owed
    split
    · exact Nat.le_refl _
    · exact Nat.zero_le _
  induction leads generalizing width odds with
  | done value => exact Nat.le_refl _
  | ask slot _ ih =>
    rw [List.length_cons,Nat.add_comm]
    exact Nat.add_le_add (one width) (ih _ _)
  | toss _ ih =>
    rw [List.length_cons,Nat.add_comm]
    exact Nat.add_le_add (one width) (ih _ _)

variable {input : Nat → Nat}

theorem number_lt (digits : ∀ i, input i < coder.base) (pos count : Nat) :
    number coder.base input pos count < coder.base ^ count := by
  induction count generalizing pos with
  | zero => exact Nat.one_pos
  | succ count ih =>
    have first := Nat.mul_le_mul_right (coder.base ^ count) (digits pos)
    have rest := ih (pos + 1)
    rw [number,pow_succ,Nat.mul_comm (coder.base ^ count)]
    rw [Nat.succ_mul] at first
    omega

def Reader.ahead (coder : Coder ω) (input : Nat → Nat) (reader : Reader κ ω) (count : Nat) : Nat :=
  reader.code * coder.base ^ count + number coder.base input reader.pos count

theorem Reader.ahead_renew (reader : Reader κ ω) (count : Nat) :
    (reader.renew coder input).ahead coder input count = reader.ahead coder input (coder.owed reader.width + count) := by
  simp only [Reader.ahead,Reader.renew,number_add,pow_add]
  ring

theorem Reader.enter (digits : ∀ i, input i < coder.base) (reader : Reader κ ω) {rest : Span κ ω} {start part : Nat}
    (inside : rest.Inside coder part)
    (above : start * coder.base ^ rest.digits + rest.low ≤ reader.ahead coder input rest.digits)
    (below : reader.ahead coder input rest.digits < start * coder.base ^ rest.digits + rest.low + rest.width)
    (odds : κ → ω) :
    start ≤ reader.code ∧ reader.code < start + part ∧
      (reader.narrow start part odds).ahead coder input rest.digits + start * coder.base ^ rest.digits =
        reader.ahead coder input rest.digits := by
  have low := number_lt digits reader.pos rest.digits
  have within := inside.within
  simp only [Reader.ahead,Reader.narrow] at above below ⊢
  have least : start ≤ reader.code := by
    have scaled : start * coder.base ^ rest.digits < (reader.code + 1) * coder.base ^ rest.digits := by
      rw [Nat.succ_mul]
      omega
    exact Nat.le_of_lt_succ (Nat.lt_of_mul_lt_mul_right scaled)
  refine ⟨least,?_,?_⟩
  · have scaled : reader.code * coder.base ^ rest.digits < (start + part) * coder.base ^ rest.digits := by
      rw [Nat.add_mul]
      omega
    exact Nat.lt_of_mul_lt_mul_right scaled
  · rw [Nat.sub_mul]
    have scaled := Nat.mul_le_mul_right (coder.base ^ rest.digits) least
    omega

theorem start_le_iff {bound code room : Nat} {bit : Bool} (least : start bound bit ≤ code)
    (under : code < start bound bit + part room bound bit) : decide (bound ≤ code) = bit := by
  cases bit with
  | false => simpa [start,part] using under
  | true => simpa [start] using least

theorem read_ask [DecidableEq κ] {slot : κ} {next : Bool → Asking κ α} {reader : Reader κ ω} {bit : Bool}
    (answer : decide (coder.bound (reader.odds slot) (coder.renewed reader.width) ≤ (reader.renew coder input).code) = bit) :
    coder.read input (.ask slot next) reader = (coder.read input (next bit) ((reader.renew coder input).narrow
      (start (coder.bound (reader.odds slot) (coder.renewed reader.width)) bit)
      (part (coder.renewed reader.width) (coder.bound (reader.odds slot) (coder.renewed reader.width)) bit)
      (coder.adapted reader.odds slot bit))).map (answered bit) := by
  subst answer
  rfl

theorem read_toss [DecidableEq κ] {next : Bool → Asking κ α} {reader : Reader κ ω} {bit : Bool}
    (answer : decide (coder.renewed reader.width / 2 ≤ (reader.renew coder input).code) = bit)
    (whole : (reader.renew coder input).code < 2 * (coder.renewed reader.width / 2)) :
    coder.read input (.toss next) reader = (coder.read input (next bit) ((reader.renew coder input).narrow
      (start (coder.renewed reader.width / 2) bit) (coder.renewed reader.width / 2) reader.odds)).map (answered bit) := by
  subst answer
  exact if_pos whole

theorem read_span [DecidableEq κ] (digits : ∀ i, input i < coder.base) (leads : q.Leads bits value)
    (reader : Reader κ ω) (wide : coder.top ≤ coder.base * reader.width) {span : Span κ ω}
    (spanned : coder.span q bits reader.width reader.odds = span) (above : span.low ≤ reader.ahead coder input span.digits)
    (below : reader.ahead coder input span.digits < span.low + span.width) :
    coder.read input q reader = some (value,bits,
      ⟨reader.ahead coder input span.digits - span.low,span.width,reader.pos + span.digits,span.odds⟩) := by
  induction leads generalizing reader span with
  | done value =>
    subst spanned
    simp [read,Coder.span,Reader.ahead,number]
  | @ask slot next bit bits value rest ih =>
    have wider := @part_wide _ _ (reader.odds slot) _ (renewed_top wide) bit
    have inside := span_inside rest wider (coder.adapted reader.odds slot bit)
    rw [Coder.span] at spanned
    generalize found : coder.span (next bit) bits _ (coder.adapted reader.odds slot bit) = inner at inside spanned
    subst spanned
    simp only [Span.above,← Reader.ahead_renew] at above below ⊢
    obtain ⟨least,under,place⟩ := (reader.renew coder input).enter digits inside above below (coder.adapted reader.odds slot bit)
    rw [read_ask (start_le_iff least under),ih _ wider found (by omega) (by omega)]
    simp only [Option.map_some,answered]
    congr 4
    · omega
    · exact Nat.add_assoc _ _ _
  | @toss next bit bits value rest ih =>
    have wider := coder.halved _ (renewed_top wide)
    have inside := span_inside rest wider reader.odds
    rw [Coder.span] at spanned
    generalize found : coder.span (next bit) bits _ reader.odds = inner at inside spanned
    subst spanned
    simp only [Span.above,← Reader.ahead_renew] at above below ⊢
    obtain ⟨least,under,place⟩ := (reader.renew coder input).enter digits inside above below reader.odds
    have answer : decide (coder.renewed reader.width / 2 ≤ (reader.renew coder input).code) = bit := by
      cases bit with
      | false => simpa [start] using under
      | true => simpa [start] using least
    have whole : (reader.renew coder input).code < 2 * (coder.renewed reader.width / 2) := by
      cases bit <;> simp only [start] at under <;> simp at under <;> omega
    rw [read_toss answer whole,ih _ wider found (by omega) (by omega)]
    simp only [Option.map_some,answered]
    congr 4
    · omega
    · exact Nat.add_assoc _ _ _

/-- Every path has its digits: there are a place in the width and digits that are read as the path,
up to the start of its span. -/
theorem exists_coded [DecidableEq κ] (leads : q.Leads bits value) (wide : coder.top ≤ coder.base * width) (odds : κ → ω) :
    ∃ (code : Nat) (digits : Nat → Nat), code < width ∧ (∀ i, digits i < coder.base) ∧ ∀ input pos, (∀ i, input i < coder.base) →
      (∀ i, i < (coder.span q bits width odds).digits → input (pos + i) = digits i) →
      coder.read input q ⟨code,width,pos,odds⟩ = some (value,bits,⟨0,(coder.span q bits width odds).width,
        pos + (coder.span q bits width odds).digits,(coder.span q bits width odds).odds⟩) := by
  have inside := span_inside leads wide odds
  obtain ⟨span,spanned⟩ : ∃ span, coder.span q bits width odds = span := ⟨_,rfl⟩
  rw [spanned] at inside ⊢
  have base : 0 < coder.base := Nat.pos_of_mul_pos_right (Nat.lt_of_lt_of_le coder.positive wide)
  have some : 0 < span.width := Nat.pos_of_mul_pos_left (Nat.lt_of_lt_of_le coder.positive inside.wide)
  have within := inside.within
  refine ⟨span.low / coder.base ^ span.digits,
    fun i => span.low % coder.base ^ span.digits / coder.base ^ (span.digits - 1 - i) % coder.base,
    Nat.div_lt_of_lt_mul (by rw [Nat.mul_comm]; omega),fun i => Nat.mod_lt _ base,fun input pos digits same => ?_⟩
  have ahead : (⟨span.low / coder.base ^ span.digits,width,pos,odds⟩ : Reader κ ω).ahead coder input span.digits = span.low := by
    have low : span.low % coder.base ^ span.digits < coder.base ^ span.digits := Nat.mod_lt _ (Nat.pow_pos base)
    have read : number coder.base input pos span.digits = span.low % coder.base ^ span.digits := by
      rw [← number_digits base pos span.digits low]
      apply number_congr
      intro i above below
      obtain ⟨k,rfl⟩ := Nat.exists_eq_add_of_le above
      have index : pos + span.digits - 1 - (pos + k) = span.digits - 1 - k := by omega
      rw [same k (by omega)]
      dsimp only
      rw [index,digit_below (by omega)]
    rw [Reader.ahead,read]
    exact Nat.div_add_mod' _ _
  rw [read_span digits leads _ wide spanned (Nat.le_of_eq ahead.symm) (by rw [ahead]; omega),ahead,Nat.sub_self]

end Spans

end Coder

end SetecWizard.Library
