import SetecWizard.Security.Channel
import Mathlib.Data.List.TakeWhile

/-! Putting a response together from the reports that arrive. The initial packet is looked
for on the channel; what follows it is taken as it comes, so that a response is put
together right where nothing comes between its packets and a hundred reports suffice.
-/
namespace SetecWizard.Core.Fido2Manager
open SetecWizard.Library

/-- Packets in their order, with noise before, between and behind them. -/
inductive Among {α : Type*} (noise : α → Prop) : List α → List α → Prop where
  | nil : Among noise [] []
  | packet (p : α) {packets arriving : List α} (rest : Among noise packets arriving) :
      Among noise (p :: packets) (p :: arriving)
  | noise {r : α} {packets arriving : List α} (other : noise r) (rest : Among noise packets arriving) :
      Among noise packets (r :: arriving)

def OnChannel (cid : UInt32) (report : Bytes 64) : Prop := readLE32 report.data 0 = cid

instance (cid : UInt32) (report : Bytes 64) : Decidable (OnChannel cid report) :=
  inferInstanceAs (Decidable (_ = _))

/-- The authenticator is still at work: a message of one byte, its status. -/
def IsKeepalive (cid : UInt32) (report : Bytes 64) : Prop :=
  OnChannel cid report ∧ slice report.data 4 3 = [0xBB,0x00,0x01]

instance (cid : UInt32) (report : Bytes 64) : Decidable (IsKeepalive cid report) :=
  inferInstanceAs (Decidable (_ ∧ _))

/-- A report that is no packet of the response. -/
def Noise (cid : UInt32) (report : Bytes 64) : Prop := ¬ OnChannel cid report ∨ IsKeepalive cid report

/-- The initial packet of a message: a command that is no KEEPALIVE, the length, and as much of
the message as there is room for. -/
structure Initial (cid : UInt32) (message : List UInt8) (report : Bytes 64) : Prop where
  channel : OnChannel cid report
  command : report.data.getD 4 0 &&& 0x80 ≠ 0 ∧ report.data.getD 4 0 ≠ 0xBB
  length : slice report.data 5 2 = [UInt8.ofNat (message.length / 256),UInt8.ofNat message.length]
  payload : (report.data.drop 7).take message.length = message.take 57

/-- The reports carry a sequence of bytes from their sixth byte on, one after the other. -/
inductive Bears : List UInt8 → List (Bytes 64) → Prop where
  | nil (reports : List (Bytes 64)) : Bears [] reports
  | cons {rest : List UInt8} {report : Bytes 64} {reports : List (Bytes 64)} (some_left : rest ≠ [])
      (payload : (report.data.drop 5).take rest.length = rest.take 59) (later : Bears (rest.drop 59) reports) :
      Bears rest (report :: reports)

/-- How many continuation packets carry so many bytes. -/
def continuations (length : Nat) : Nat := (length + 58) / 59

/-- A message on a channel as an initial packet and numbered continuation packets. -/
structure Fragmented (cid : UInt32) (message : List UInt8) (packets : List (Bytes 64)) : Prop where
  initial : ∃ first, packets.head? = some first ∧ Initial cid message first
  count : packets.tail.length = continuations (message.drop 57).length
  payload : Bears (message.drop 57) packets.tail
  numbered : ∀ seq report, packets.tail[seq]? = some report →
    OnChannel cid report ∧ report.data.getD 4 0 = UInt8.ofNat seq

/-- What is returned is the message without its status. -/
def Faithful (host : HidHost) (traffic : HidTraffic) (channel : CtapHidChannel) (command : UInt8)
    (cborPayload body : List UInt8) : Prop :=
  ∀ payload after, ctapHidCborCommand host traffic channel command cborPayload = .ok (payload,after) → payload = body

/-- One of the next reports cannot be sent. -/
def SendFails (host : HidHost) (traffic : HidTraffic) (n : Nat) : Prop :=
  ∃ i < n, host.write (traffic.sent.length + i) ≠ none

/-- One of the next reports cannot be received. -/
def ReceiveFails (host : HidHost) (traffic : HidTraffic) (n : Nat) : Prop :=
  ∃ i < n, host.read (traffic.received + i) ≠ none

def skip (traffic : HidTraffic) (n : Nat) : HidTraffic := { traffic with received := traffic.received + n }

def lead (cid : UInt32) (reports : List (Bytes 64)) : Nat := (reports.takeWhile (¬ OnChannel cid ·)).length

theorem receiveFails_zero (host : HidHost) (traffic : HidTraffic) : ¬ ReceiveFails host traffic 0 := by
  rintro ⟨i,inside,_⟩
  exact absurd inside (Nat.not_lt_zero i)

theorem receiveFails_add (host : HidHost) (traffic : HidTraffic) (m n : Nat) :
    ReceiveFails host traffic (m + n) ↔ ReceiveFails host traffic m ∨ ReceiveFails host (skip traffic m) n := by
  constructor
  · rintro ⟨i,inside,fails⟩
    by_cases early : i < m
    · exact .inl ⟨i,early,fails⟩
    · refine .inr ⟨i - m,by omega,?_⟩
      have place : traffic.received + m + (i - m) = traffic.received + i := by omega
      rw [skip,place]
      exact fails
  · rintro (⟨i,inside,fails⟩ | ⟨i,inside,fails⟩)
    · exact ⟨i,by omega,fails⟩
    · refine ⟨m + i,by omega,?_⟩
      rw [← Nat.add_assoc]
      exact fails

theorem receiveFails_one (host : HidHost) (traffic : HidTraffic) :
    ReceiveFails host traffic 1 ↔ host.read traffic.received ≠ none := by
  constructor
  · rintro ⟨i,inside,fails⟩
    obtain rfl : i = 0 := by omega
    exact fails
  · intro fails
    exact ⟨0,Nat.one_pos,fails⟩

theorem receiveFails_succ (host : HidHost) (traffic : HidTraffic) (n : Nat) :
    ReceiveFails host traffic (n + 1) ↔
      host.read traffic.received ≠ none ∨ ReceiveFails host (skip traffic 1) n := by
  rw [Nat.add_comm,receiveFails_add,receiveFails_one]

theorem recv_fails {host : HidHost} {traffic : HidTraffic} (fails : host.read traffic.received ≠ none)
    (maxLen timeoutMs : Nat) : ∃ e, recvHidReport host traffic maxLen timeoutMs = .error e := by
  unfold recvHidReport
  cases answer : host.read traffic.received with
  | none => exact absurd answer fails
  | some fault => cases fault <;> exact ⟨_,rfl⟩

theorem continuations_pos {length : Nat} (positive : 0 < length) : 0 < continuations length := by
  unfold continuations
  omega

theorem continuations_step {length : Nat} (more : 59 < length) :
    continuations length = continuations (length - 59) + 1 := by
  unfold continuations
  omega

theorem continuations_last {length : Nat} (positive : 0 < length) (last : length ≤ 59) : continuations length = 1 := by
  unfold continuations
  omega

theorem bears_step {rest : List UInt8} (some_left : rest ≠ []) (report : Bytes 64) (reports : List (Bytes 64)) :
    Bears rest (report :: reports) ↔
      (report.data.drop 5).take rest.length = rest.take 59 ∧ Bears (rest.drop 59) reports := by
  constructor
  · rintro (_ | ⟨_,payload,later⟩)
    · exact absurd rfl some_left
    · exact ⟨payload,later⟩
  · rintro ⟨payload,later⟩
    exact .cons some_left payload later

theorem recv_next {host : HidHost} {traffic : HidTraffic} {report : Bytes 64} {reports : List (Bytes 64)}
    (held : host.reports.drop traffic.received = report :: reports) (reads : host.read traffic.received = none)
    (timeoutMs : Nat) : recvHidReport host traffic CTAPHID_REPORT_SIZE timeoutMs = .ok (report.data,skip traffic 1) ∧
      host.reports.drop (skip traffic 1).received = reports := by
  have found : host.reports[traffic.received]? = some report := by
    have head := congrArg List.head? held
    rwa [List.head?_drop,List.head?_cons] at head
  refine ⟨recv_report host traffic timeoutMs reads found,?_⟩
  rw [skip,← List.drop_drop,held]
  rfl

theorem recvResponse_cont {host : HidHost} {traffic : HidTraffic} {report : Bytes 64} (cid : UInt32) (attempt : Nat)
    (full : List UInt8) (expectedLen : UInt16)
    (received : recvHidReport host traffic CTAPHID_REPORT_SIZE 5000 = .ok (report.data,skip traffic 1)) :
    recvResponse host cid (attempt + 1) (some expectedLen) full traffic =
      if expectedLen.toNat ≤ (full ++ (report.data.drop 5).take (expectedLen.toNat - full.length)).length then
        .ok (full ++ (report.data.drop 5).take (expectedLen.toNat - full.length),skip traffic 1)
      else recvResponse host cid attempt (some expectedLen)
        (full ++ (report.data.drop 5).take (expectedLen.toNat - full.length)) (skip traffic 1) := by
  have whole : ¬ report.data.length < 7 := by rw [report.size]; decide
  rw [recvResponse,received]
  exact if_neg whole

/-- What the loop gathers behind the initial packet, by induction on the attempts left: the
bytes of the reports that come next, right if these bear them and are few enough. -/
theorem recvResponse_rest {host : HidHost} {cid : UInt32} {expectedLen : UInt16} (attempt : Nat)
    {full rest : List UInt8} {traffic : HidTraffic} {reports : List (Bytes 64)} (some_left : rest ≠ [])
    (expected : expectedLen.toNat = full.length + rest.length)
    (held : host.reports.drop traffic.received = reports) (enough : continuations rest.length ≤ reports.length) :
    (ReceiveFails host traffic (min attempt (continuations rest.length)) →
      ∃ e, recvResponse host cid attempt (some expectedLen) full traffic = .error e) ∧
    (¬ ReceiveFails host traffic (min attempt (continuations rest.length)) →
      ∃ got after, recvResponse host cid attempt (some expectedLen) full traffic = .ok (full ++ got,after) ∧
        (got = rest ↔ continuations rest.length ≤ attempt ∧ Bears rest reports)) := by
  have positive := List.length_pos_iff.mpr some_left
  have needed := continuations_pos positive
  induction attempt generalizing full rest traffic reports with
  | zero =>
    refine ⟨fun fails => absurd fails (by rw [Nat.zero_min]; exact receiveFails_zero host traffic),fun _ => ?_⟩
    refine ⟨[],traffic,by rw [recvResponse,List.append_nil],?_⟩
    constructor
    · intro none
      exact absurd none.symm some_left
    · rintro ⟨none,_⟩
      omega
  | succ attempt ih =>
    obtain ⟨report,reports,rfl⟩ : ∃ report later, reports = report :: later := by
      cases reports with
      | nil => exact absurd enough (by simp; omega)
      | cons report later => exact ⟨report,later,rfl⟩
    have split_min : min (attempt + 1) (continuations rest.length) =
        min attempt (continuations rest.length - 1) + 1 := by omega
    rw [split_min,receiveFails_succ]
    cases reads : host.read traffic.received with
    | some fault =>
      have fails : host.read traffic.received ≠ none := by rw [reads]; exact nofun
      refine ⟨fun _ => ?_,fun works => absurd (.inl nofun) works⟩
      obtain ⟨e,failed⟩ := recv_fails fails CTAPHID_REPORT_SIZE 5000
      exact ⟨e,by rw [recvResponse,failed]; rfl⟩
    | none =>
      obtain ⟨received,later⟩ := recv_next held reads 5000
      have size : (report.data.drop 5).length = 59 := by rw [List.length_drop,report.size]
      have step := recvResponse_cont cid attempt full expectedLen received
      have asked : expectedLen.toNat - full.length = rest.length := by omega
      rw [asked] at step
      rw [step]
      generalize taken : (report.data.drop 5).take rest.length = piece
      have length : piece.length = min rest.length 59 := by rw [← taken,List.length_take,size]
      simp only [ne_eq,not_true_eq_false,false_or]
      by_cases last : rest.length ≤ 59
      · have one := continuations_last positive last
        have ended : expectedLen.toNat ≤ (full ++ piece).length := by
          rw [List.length_append]
          omega
        rw [if_pos ended,one,Nat.sub_self,Nat.min_zero]
        refine ⟨fun fails => absurd fails (receiveFails_zero _ _),fun _ => ⟨piece,_,rfl,?_⟩⟩
        have all : rest.take 59 = rest := List.take_of_length_le last
        have none : rest.drop 59 = [] := List.drop_eq_nil_of_le last
        rw [bears_step some_left,taken,all,none]
        exact ⟨fun same => ⟨by omega,same,.nil _⟩,fun right => right.2.1⟩
      · have left : (rest.drop 59).length = rest.length - 59 := List.length_drop
        have needs := continuations_step (Nat.lt_of_not_le last)
        have more : ¬ expectedLen.toNat ≤ (full ++ piece).length := by
          rw [List.length_append]
          omega
        have some_more : rest.drop 59 ≠ [] := List.length_pos_iff.mp (by omega)
        have counted : expectedLen.toNat = (full ++ piece).length + (rest.drop 59).length := by
          rw [List.length_append]
          omega
        rw [List.length_cons] at enough
        obtain ⟨failed,gathered⟩ := ih some_more counted later (by rw [left]; omega) (by omega)
          (continuations_pos (by omega))
        have same_min : min attempt (continuations rest.length - 1) =
            min attempt (continuations (rest.drop 59).length) := by
          rw [left]
          omega
        rw [if_neg more,same_min]
        refine ⟨failed,fun works => ?_⟩
        obtain ⟨got,after,done,right⟩ := gathered works
        refine ⟨piece ++ got,after,by rw [done,List.append_assoc],?_⟩
        have cut : rest = rest.take 59 ++ rest.drop 59 := (List.take_append_drop 59 rest).symm
        have front : piece.length = (rest.take 59).length := by rw [List.length_take]; omega
        rw [bears_step some_left,taken]
        constructor
        · intro same
          rw [cut] at same
          obtain ⟨first,others⟩ := List.append_inj same front
          obtain ⟨few,bears⟩ := right.mp others
          rw [left] at few
          exact ⟨by omega,first,bears⟩
        · rintro ⟨few,first,bears⟩
          rw [first,right.mpr ⟨by rw [left]; omega,bears⟩]
          exact cut.symm

theorem recvResponse_other {host : HidHost} {cid : UInt32} {traffic : HidTraffic} {report : Bytes 64} (attempt : Nat)
    (full : List UInt8) (other : ¬ OnChannel cid report)
    (received : recvHidReport host traffic CTAPHID_REPORT_SIZE 5000 = .ok (report.data,skip traffic 1)) :
    recvResponse host cid (attempt + 1) none full traffic =
      recvResponse host cid attempt none full (skip traffic 1) := by
  have whole : ¬ report.data.length < 7 := by rw [report.size]; decide
  rw [recvResponse,received]
  exact (if_neg whole).trans (if_pos other)

theorem recvResponse_lead {host : HidHost} {cid : UInt32} (attempt : Nat) {before reports : List (Bytes 64)}
    {traffic : HidTraffic} (others : ∀ report ∈ before, ¬ OnChannel cid report)
    (held : host.reports.drop traffic.received = before ++ reports) :
    (ReceiveFails host traffic (min attempt before.length) →
      ∃ e, recvResponse host cid attempt none [] traffic = .error e) ∧
    (¬ ReceiveFails host traffic (min attempt before.length) →
      recvResponse host cid attempt none [] traffic =
        recvResponse host cid (attempt - before.length) none [] (skip traffic (min attempt before.length))) := by
  induction before generalizing attempt traffic with
  | nil => exact ⟨fun fails => absurd fails (by simpa using receiveFails_zero host traffic),fun _ => by simp [skip]⟩
  | cons report before ih =>
    cases attempt with
    | zero =>
      rw [Nat.zero_min,Nat.zero_sub]
      exact ⟨fun fails => absurd fails (receiveFails_zero host traffic),fun _ => rfl⟩
    | succ attempt =>
      rw [List.length_cons,Nat.succ_min_succ,Nat.succ_sub_succ,Nat.succ_eq_add_one,receiveFails_succ]
      cases reads : host.read traffic.received with
      | some fault =>
        have fails : host.read traffic.received ≠ none := by rw [reads]; exact nofun
        refine ⟨fun _ => ?_,fun works => absurd (.inl nofun) works⟩
        obtain ⟨e,failed⟩ := recv_fails fails CTAPHID_REPORT_SIZE 5000
        exact ⟨e,by rw [recvResponse,failed]; rfl⟩
      | none =>
        obtain ⟨received,later⟩ := recv_next held reads 5000
        rw [recvResponse_other attempt [] (others report List.mem_cons_self) received]
        obtain ⟨failed,passed⟩ := ih attempt (fun r member => others r (List.mem_cons_of_mem _ member)) later
        simp only [ne_eq,not_true_eq_false,false_or]
        refine ⟨failed,fun works => ?_⟩
        rw [passed works,skip,skip,skip,Nat.add_assoc,Nat.add_comm 1]

theorem expectedLen_toNat {n : Nat} (small : n < 2 ^ 16) :
    ((UInt8.ofNat (n / 256)).toUInt16 <<< 8 ||| (UInt8.ofNat n).toUInt16).toNat = n := by
  have high : (UInt8.ofNat (n / 256)).toUInt16.toNat = n / 256 := by
    rw [UInt8.toNat_toUInt16,UInt8.toNat_ofNat',Nat.mod_eq_of_lt (by omega)]
  have low : (UInt8.ofNat n).toUInt16.toNat = n % 256 := by
    rw [UInt8.toNat_toUInt16,UInt8.toNat_ofNat']
  have shifted : ((UInt8.ofNat (n / 256)).toUInt16 <<< 8).toNat = (n / 256) <<< 8 := by
    have eight : (8 : UInt16).toNat % 16 = 8 := rfl
    rw [UInt16.toNat_shiftLeft,high,eight,Nat.shiftLeft_eq]
    exact Nat.mod_eq_of_lt (by omega)
  have below : n % 256 < 2 ^ 8 := Nat.mod_lt n (by decide)
  rw [UInt16.toNat_or,shifted,low,Nat.or_comm,or_shiftLeft _ _ _ below]
  omega

/-- The first report of the channel is taken for the response, whatever it is. -/
theorem recvResponse_first {host : HidHost} {cid : UInt32} {traffic : HidTraffic} {report : Bytes 64} (attempt : Nat)
    (own : OnChannel cid report) (initial : report.data.getD 4 0 &&& 0x80 ≠ 0)
    (received : recvHidReport host traffic CTAPHID_REPORT_SIZE 5000 = .ok (report.data,skip traffic 1))
    {n : Nat} (small : n < 2 ^ 16) (length : slice report.data 5 2 = [UInt8.ofNat (n / 256),UInt8.ofNat n]) :
    ∃ expectedLen : UInt16, expectedLen.toNat = n ∧
      recvResponse host cid (attempt + 1) none [] traffic =
        if n ≤ ((report.data.drop 7).take n).length then .ok ((report.data.drop 7).take n,skip traffic 1)
        else recvResponse host cid attempt (some expectedLen) ((report.data.drop 7).take n) (skip traffic 1) := by
  have high := getD_slice report.data 5 2 0 (by decide)
  have low := getD_slice report.data 5 2 1 (by decide)
  rw [length] at high low
  have expected := expectedLen_toNat small
  have whole : ¬ report.data.length < 7 := by rw [report.size]; decide
  refine ⟨(UInt8.ofNat (n / 256)).toUInt16 <<< 8 ||| (UInt8.ofNat n).toUInt16,expected,?_⟩
  rw [recvResponse,received]
  refine (if_neg whole).trans ?_
  refine (if_neg (not_not.mpr own)).trans ((if_neg initial).trans ?_)
  simp only [← high,← low,List.getD_cons_zero,List.getD_cons_succ,expected,List.nil_append]

theorem among_length {α : Type*} {noise : α → Prop} {packets arriving : List α} (among : Among noise packets arriving) :
    packets.length ≤ arriving.length := by
  induction among with
  | nil => exact Nat.le_refl _
  | packet p _ ih => exact Nat.succ_le_succ ih
  | noise _ _ ih => exact Nat.le_succ_of_le ih

theorem among_first {cid : UInt32} {p : Bytes 64} {packets reports : List (Bytes 64)} (own : OnChannel cid p)
    (among : Among (Noise cid) (p :: packets) reports) :
    ∃ first after, reports = reports.takeWhile (¬ OnChannel cid ·) ++ first :: after ∧
      (IsKeepalive cid first ∨ first = p ∧ packets.length ≤ after.length) := by
  generalize whole : p :: packets = all at among
  induction among with
  | nil => cases whole
  | packet q rest _ =>
    cases whole
    refine ⟨p,_,?_,.inr ⟨rfl,among_length rest⟩⟩
    rw [List.takeWhile_cons_of_neg (by simpa using own)]
    rfl
  | @noise r packets arriving other rest ih =>
    by_cases here : OnChannel cid r
    · have alive : IsKeepalive cid r := other.resolve_left (not_not.mpr here)
      refine ⟨r,arriving,?_,.inl alive⟩
      rw [List.takeWhile_cons_of_neg (by simpa using here)]
      rfl
    · obtain ⟨first,after,same,kind⟩ := ih whole
      refine ⟨first,after,?_,kind⟩
      rw [List.takeWhile_cons_of_pos (by simpa using here),List.cons_append,← same]

/-- Sending takes no reports in, and fails only where a write does. -/
theorem sendPackets_spec (host : HidHost) (packets : List (List UInt8)) (traffic : HidTraffic) :
    (SendFails host traffic packets.length → ∃ e, sendPackets host traffic packets = .error e) ∧
    (¬ SendFails host traffic packets.length →
      ∃ sent, sendPackets host traffic packets = .ok sent ∧ sent.received = traffic.received) := by
  induction packets generalizing traffic with
  | nil => exact ⟨fun ⟨i,inside,_⟩ => absurd inside (Nat.not_lt_zero i),fun _ => ⟨traffic,rfl,rfl⟩⟩
  | cons pkt packets ih =>
    cases answer : host.write traffic.sent.length with
    | some fault =>
      have failed : ∃ e, sendPackets host traffic (pkt :: packets) = .error e := by
        rw [sendPackets]
        cases fault <;> simp only [sendHidReport,answer] <;> exact ⟨_,rfl⟩
      exact ⟨fun _ => failed,fun works => absurd ⟨0,Nat.succ_pos _,by simp [answer]⟩ works⟩
    | none =>
      obtain ⟨next,sent,count,received⟩ : ∃ next, sendHidReport host traffic pkt = .ok next ∧
          next.sent.length = traffic.sent.length + 1 ∧ next.received = traffic.received := by
        simp only [sendHidReport,answer]
        exact ⟨_,rfl,by simp,rfl⟩
      have later : SendFails host traffic (packets.length + 1) ↔ SendFails host next packets.length := by
        constructor
        · rintro ⟨i,inside,fails⟩
          cases i with
          | zero => exact absurd answer fails
          | succ i =>
            refine ⟨i,Nat.lt_of_succ_lt_succ inside,?_⟩
            rw [count,Nat.add_assoc,Nat.add_comm 1]
            exact fails
        · rintro ⟨i,inside,fails⟩
          refine ⟨i + 1,Nat.succ_lt_succ inside,?_⟩
          rw [count,Nat.add_assoc,Nat.add_comm 1] at fails
          exact fails
      obtain ⟨failed,worked⟩ := ih next
      rw [List.length_cons,later,sendPackets,sent,← received]
      exact ⟨failed,worked⟩

/-- When the response is put together as it was sent: a call fails before, no packet is among
the first hundred reports, what comes first is a KEEPALIVE that reports work in progress or
stands for an empty answer, the status is an error, or the reports right behind the initial
packet bear the rest of the message, and are few enough. -/
def Undisturbed (host : HidHost) (traffic : HidTraffic) (cid : UInt32) (request : List UInt8) (status : UInt8)
    (body : List UInt8) : Prop :=
  let reports := host.reports.drop traffic.received
  let before := lead cid reports
  let needed := before + 1 + continuations (body.drop 56).length
  SendFails host traffic (buildInitPackets cid CTAPHID_CBOR request).length ∨ 100 ≤ before ∨
    ∃ first after, reports.drop before = first :: after ∧
      (IsKeepalive cid first ∧
          (ReceiveFails host traffic (before + 1) ∨ first.data.getD 7 0 ≠ 0 ∨ body = []) ∨
        ¬ IsKeepalive cid first ∧
          (ReceiveFails host traffic (min 100 needed) ∨ status ≠ 0 ∨
            needed ≤ 100 ∧ Bears (body.drop 56) after))

theorem faithful_error {host : HidHost} {traffic : HidTraffic} {channel : CtapHidChannel} {command : UInt8}
    {cborPayload : List UInt8} {e : ErrorInfo} (failed : ctapHidCborCommand host traffic channel command cborPayload = .error e)
    (body : List UInt8) : Faithful host traffic channel command cborPayload body := by
  intro payload after done
  rw [failed] at done
  cases done

theorem faithful_received {host : HidHost} {traffic sent after : HidTraffic} {channel : CtapHidChannel} {command : UInt8}
    {cborPayload full : List UInt8}
    (sending : sendPackets host traffic (buildInitPackets channel.cid CTAPHID_CBOR (command :: cborPayload)) = .ok sent)
    (received : recvResponse host channel.cid 100 none [] sent = .ok (full,after)) (body : List UInt8) :
    Faithful host traffic channel command cborPayload body ↔
      ∀ status payload, full = status :: payload → status = 0 → payload = body := by
  unfold Faithful ctapHidCborCommand
  rw [sending]
  cases full with
  | nil =>
    simp only [bind,Except.bind,received]
    constructor
    · rintro _ _ _ none
      cases none
    · rintro _ _ _ done
      cases done
  | cons status payload =>
    simp only [bind,Except.bind,received]
    by_cases zero : status = 0x00
    · rw [if_neg (not_not.mpr zero)]
      constructor
      · rintro faithful _ _ same _
        cases same
        exact faithful payload after rfl
      · rintro right _ _ done
        cases done
        exact right status payload rfl zero
    · rw [if_pos zero]
      constructor
      · rintro _ _ _ same none
        cases same
        exact absurd none zero
      · rintro _ _ _ done
        cases done

theorem recvResponse_keepalive {host : HidHost} {cid : UInt32} {traffic : HidTraffic} {report : Bytes 64} (attempt : Nat)
    (alive : IsKeepalive cid report)
    (received : recvHidReport host traffic CTAPHID_REPORT_SIZE 5000 = .ok (report.data,skip traffic 1)) :
    recvResponse host cid (attempt + 1) none [] traffic = .ok ([report.data.getD 7 0],skip traffic 1) := by
  obtain ⟨own,header⟩ := alive
  have command := getD_slice report.data 4 3 0 (by decide)
  rw [header] at command
  have length : slice report.data 5 2 = [UInt8.ofNat (1 / 256),UInt8.ofNat 1] := by
    have inner := slice_slice report.data 4 3 1 2 (by decide)
    rw [header] at inner
    exact inner.symm
  have initial : report.data.getD 4 0 &&& 0x80 ≠ 0 := by
    rw [← command]
    decide
  obtain ⟨_,_,taken⟩ := recvResponse_first attempt own initial received (by decide) length
  have size := report.size
  have byte : (report.data.drop 7).take 1 = [report.data.getD 7 0] := by
    simp [List.take_one,size]
  rw [taken,byte]
  exact if_pos (Nat.le_refl 1)

theorem recvResponse_initial {host : HidHost} {cid : UInt32} {traffic : HidTraffic} {report : Bytes 64}
    {status : UInt8} {body : List UInt8} {after : List (Bytes 64)} (attempt : Nat)
    (initial : Initial cid (status :: body) report) (short : body.length < 7609)
    (received : recvHidReport host traffic CTAPHID_REPORT_SIZE 5000 = .ok (report.data,skip traffic 1))
    (held : host.reports.drop (skip traffic 1).received = after)
    (enough : continuations (body.drop 56).length ≤ after.length) :
    (ReceiveFails host (skip traffic 1) (min attempt (continuations (body.drop 56).length)) →
      ∃ e, recvResponse host cid (attempt + 1) none [] traffic = .error e) ∧
    (¬ ReceiveFails host (skip traffic 1) (min attempt (continuations (body.drop 56).length)) →
      ∃ got last, recvResponse host cid (attempt + 1) none [] traffic = .ok (status :: (body.take 56 ++ got),last) ∧
        (got = body.drop 56 ↔ continuations (body.drop 56).length ≤ attempt ∧ Bears (body.drop 56) after)) := by
  have small : (status :: body).length < 2 ^ 16 := by
    rw [List.length_cons]
    omega
  obtain ⟨expectedLen,expected,taken⟩ :=
    recvResponse_first attempt initial.channel initial.command.1 received small initial.length
  have piece : (status :: body).take 57 = status :: body.take 56 := rfl
  rw [taken,initial.payload,piece]
  have size : (status :: body.take 56).length = min 56 body.length + 1 := by
    rw [List.length_cons,List.length_take]
  have rest : (body.drop 56).length = body.length - 56 := List.length_drop
  by_cases whole : body.length ≤ 56
  · have none : body.drop 56 = [] := List.drop_eq_nil_of_le whole
    have ended : (status :: body).length ≤ (status :: body.take 56).length := by
      rw [size,List.length_cons]
      omega
    rw [if_pos ended,none]
    refine ⟨fun fails => absurd fails (by simpa [continuations] using receiveFails_zero _ _),fun _ => ?_⟩
    refine ⟨[],_,by rw [List.append_nil],?_⟩
    exact ⟨fun _ => ⟨Nat.zero_le _,.nil _⟩,fun _ => rfl⟩
  · have more : ¬ (status :: body).length ≤ (status :: body.take 56).length := by
      rw [size,List.length_cons]
      omega
    have some_left : body.drop 56 ≠ [] := List.length_pos_iff.mp (by omega)
    have counted : expectedLen.toNat = (status :: body.take 56).length + (body.drop 56).length := by
      rw [expected,size,rest,List.length_cons]
      omega
    rw [if_neg more]
    exact recvResponse_rest attempt some_left counted held enough

section Outcome

variable {host : HidHost} {traffic sent : HidTraffic} {channel : CtapHidChannel} {command : UInt8}
  {cborPayload : List UInt8} {status : UInt8} {body : List UInt8} {first : Bytes 64} {after : List (Bytes 64)}
  {before attempt : Nat}

theorem faithful_failed {e : ErrorInfo}
    (sending : sendPackets host traffic (buildInitPackets channel.cid CTAPHID_CBOR (command :: cborPayload)) = .ok sent)
    (failed : recvResponse host channel.cid 100 none [] sent = .error e) (body : List UInt8) :
    Faithful host traffic channel command cborPayload body := by
  refine faithful_error (e := e) ?_ body
  rw [ctapHidCborCommand,sending]
  simp only [bind,Except.bind,failed]

/-- A KEEPALIVE is an answer without a payload, where its status is none of an error. -/
theorem faithful_keepalive
    (sending : sendPackets host traffic (buildInitPackets channel.cid CTAPHID_CBOR (command :: cborPayload)) = .ok sent)
    (reached : recvResponse host channel.cid 100 none [] sent =
      recvResponse host channel.cid (attempt + 1) none [] (skip sent before))
    (alive : IsKeepalive channel.cid first)
    (received : recvHidReport host (skip sent before) CTAPHID_REPORT_SIZE 5000 =
      .ok (first.data,skip (skip sent before) 1)) :
    Faithful host traffic channel command cborPayload body ↔ first.data.getD 7 0 ≠ 0 ∨ body = [] := by
  rw [faithful_received sending (reached.trans (recvResponse_keepalive attempt alive received))]
  constructor
  · intro right
    by_cases zero : first.data.getD 7 0 = 0
    · exact .inr (right _ _ rfl zero).symm
    · exact .inl zero
  · rintro (working | empty) _ _ same zero
    · cases same
      exact absurd zero working
    · cases same
      exact empty.symm

theorem faithful_initial
    (sending : sendPackets host traffic (buildInitPackets channel.cid CTAPHID_CBOR (command :: cborPayload)) = .ok sent)
    (reached : recvResponse host channel.cid 100 none [] sent =
      recvResponse host channel.cid (attempt + 1) none [] (skip sent before))
    (initial : Initial channel.cid (status :: body) first) (short : body.length < 7609)
    (received : recvHidReport host (skip sent before) CTAPHID_REPORT_SIZE 5000 =
      .ok (first.data,skip (skip sent before) 1))
    (held : host.reports.drop (skip (skip sent before) 1).received = after)
    (enough : continuations (body.drop 56).length ≤ after.length) :
    Faithful host traffic channel command cborPayload body ↔
      ReceiveFails host (skip sent (before + 1)) (min attempt (continuations (body.drop 56).length)) ∨ status ≠ 0 ∨
        continuations (body.drop 56).length ≤ attempt ∧ Bears (body.drop 56) after := by
  obtain ⟨failed,gathered⟩ := recvResponse_initial attempt initial short received held enough
  have twice : skip (skip sent before) 1 = skip sent (before + 1) := rfl
  rw [twice] at failed gathered
  by_cases unread : ReceiveFails host (skip sent (before + 1)) (min attempt (continuations (body.drop 56).length))
  · obtain ⟨e,failed⟩ := failed unread
    exact iff_of_true (faithful_failed sending (reached.trans failed) body) (.inl unread)
  · obtain ⟨got,last,done,right⟩ := gathered unread
    rw [faithful_received sending (reached.trans done),← right,or_iff_right unread]
    have cut : body = body.take 56 ++ body.drop 56 := (List.take_append_drop 56 body).symm
    constructor
    · intro whole
      by_cases zero : status = 0
      · exact .inr (List.append_cancel_left ((whole _ _ rfl zero).trans cut))
      · exact .inl zero
    · rintro (error | rfl) _ _ same zero
      · cases same
        exact absurd zero error
      · cases same
        exact cut.symm

theorem Initial.not_keepalive {cid : UInt32} {message : List UInt8} {report : Bytes 64}
    (initial : Initial cid message report) : ¬ IsKeepalive cid report := by
  rintro ⟨_,header⟩
  have command := getD_slice report.data 4 3 0 (by decide)
  rw [header] at command
  exact initial.command.2 command.symm

theorem Fragmented.split {cid : UInt32} {packets : List (Bytes 64)} (fragmented : Fragmented cid (status :: body) packets) :
    ∃ p rest, packets = p :: rest ∧ Initial cid (status :: body) p ∧
      rest.length = continuations (body.drop 56).length := by
  obtain ⟨p,head,initial⟩ := fragmented.initial
  cases packets with
  | nil => cases head
  | cons q rest =>
    cases head
    exact ⟨p,rest,rfl,initial,fragmented.count⟩

end Outcome

/-- A response comes out as it was sent exactly if nothing disturbs it. -/
theorem reassembly_iff (host : HidHost) (traffic : HidTraffic) (channel : CtapHidChannel) (command : UInt8)
    (cborPayload : List UInt8) {status : UInt8} {body : List UInt8} {packets : List (Bytes 64)}
    (short : body.length < 7609) (fragmented : Fragmented channel.cid (status :: body) packets)
    (arriving : Among (Noise channel.cid) packets (host.reports.drop traffic.received)) :
    Faithful host traffic channel command cborPayload body ↔
      Undisturbed host traffic channel.cid (command :: cborPayload) status body := by
  have sends := sendPackets_spec host (buildInitPackets channel.cid CTAPHID_CBOR (command :: cborPayload)) traffic
  unfold Undisturbed
  by_cases unsent : SendFails host traffic (buildInitPackets channel.cid CTAPHID_CBOR (command :: cborPayload)).length
  · obtain ⟨e,failed⟩ := sends.1 unsent
    refine ⟨fun _ => .inl unsent,fun _ => faithful_error (e := e) ?_ body⟩
    rw [ctapHidCborCommand,failed]
    rfl
  obtain ⟨sent,sending,same⟩ := sends.2 unsent
  have fails_iff (n : Nat) : ReceiveFails host traffic n ↔ ReceiveFails host sent n := by
    unfold ReceiveFails
    rw [same]
  simp only [fails_iff,unsent,false_or]
  rw [← same] at arriving ⊢
  generalize held : host.reports.drop sent.received = reports at arriving ⊢
  obtain ⟨p,rest,rfl,initial,count⟩ := fragmented.split
  obtain ⟨first,after,split_at,kind⟩ := among_first initial.channel arriving
  have others : ∀ report ∈ reports.takeWhile (¬ OnChannel channel.cid ·), ¬ OnChannel channel.cid report :=
    fun report member => by simpa using List.mem_takeWhile_imp member
  have behind : reports.drop (lead channel.cid reports) = first :: after := by
    rw [lead]
    conv => lhs; arg 2; rw [split_at]
    exact List.drop_left
  obtain ⟨failed,passed⟩ := recvResponse_lead 100 others (held.trans split_at)
  rw [← lead] at failed passed
  generalize lead channel.cid reports = before at *
  have pick (P : Bytes 64 → List (Bytes 64) → Prop) :
      (∃ first after, reports.drop before = first :: after ∧ P first after) ↔ P first after := by
    simp only [behind,List.cons.injEq]
    constructor
    · rintro ⟨_,_,⟨rfl,rfl⟩,right⟩
      exact right
    · intro right
      exact ⟨first,after,⟨rfl,rfl⟩,right⟩
  rw [pick]
  by_cases late : 100 ≤ before
  · -- All attempts go to other channels.
    rw [Nat.min_eq_left late] at failed passed
    rw [Nat.sub_eq_zero_of_le late] at passed
    refine iff_of_true ?_ (.inl late)
    by_cases fails : ReceiveFails host sent 100
    · obtain ⟨e,failed⟩ := failed fails
      exact faithful_failed sending failed body
    · refine (faithful_received sending (passed fails) body).mpr ?_
      rintro _ _ none
      cases none
  rw [Nat.min_eq_right (Nat.le_of_not_le late)] at failed passed
  rw [or_iff_right late]
  have limit : min 100 (before + 1 + continuations (body.drop 56).length) =
      before + 1 + min (99 - before) (continuations (body.drop 56).length) := by omega
  have few : before + 1 + continuations (body.drop 56).length ≤ 100 ↔
      continuations (body.drop 56).length ≤ 99 - before := by omega
  rw [limit,few]
  simp only [receiveFails_add host sent (before + 1)]
  by_cases through : ReceiveFails host sent (before + 1)
  · refine iff_of_true ?_ (by simp only [through,true_or,and_true]; exact Classical.em _)
    rw [receiveFails_add,receiveFails_one] at through
    by_cases fails : ReceiveFails host sent before
    · obtain ⟨e,failed⟩ := failed fails
      exact faithful_failed sending failed body
    · obtain ⟨e,failed⟩ := recv_fails (through.resolve_left fails) CTAPHID_REPORT_SIZE 5000
      have attempts : 100 - before = 99 - before + 1 := by omega
      refine faithful_failed (e := e) sending ?_ body
      rw [passed fails,attempts,recvResponse,failed]
      rfl
  · simp only [through,false_or]
    rw [receiveFails_add,receiveFails_one] at through
    obtain ⟨fails,reads⟩ := not_or.mp through
    have attempts : 100 - before = 99 - before + 1 := by omega
    have reached := passed fails
    rw [attempts] at reached
    have next : host.reports.drop (skip sent before).received = first :: after := by
      rw [skip,← List.drop_drop,held,behind]
    obtain ⟨received,later⟩ := recv_next next (not_not.mp reads) 5000
    rcases kind with alive | ⟨rfl,enough⟩
    · rw [faithful_keepalive sending reached alive received]
      simp only [alive,not_true_eq_false,true_and,false_and,or_false]
    · rw [faithful_initial sending reached initial short received later (by rw [← count]; exact enough)]
      simp only [initial.not_keepalive,not_false_eq_true,true_and,false_and,false_or]

section Sample

def sampleChannel : CtapHidChannel := { handle := 7,cid := 0x01020304 }

/-- A successful answer of 58 bytes, one more than the initial packet holds. -/
def sampleBody : List UInt8 := List.replicate 57 0x11

def sampleInitial : Bytes 64 :=
  .copy (le32 sampleChannel.cid ++ [0x90,0x00,0x3A,0x00] ++ List.replicate 56 0x11) 0 64

def sampleContinuation : Bytes 64 := .copy (le32 sampleChannel.cid ++ [0x00,0x11]) 0 64

def sampleKeepalive : Bytes 64 := .copy (le32 sampleChannel.cid ++ [0xBB,0x00,0x01,0x02]) 0 64

/-- The request as it is written: the report ID and one packet. -/
def sampleRequest : List UInt8 :=
  0x00 :: le32 sampleChannel.cid ++ [0x90,0x00,0x01,0x04] ++ List.replicate 56 0x00

def sampleHost (reports : List (Bytes 64)) : HidHost where
  createFile := .ok 7
  random := none
  write := fun _ => none
  read := fun _ => none
  reports := reports

theorem sample_fragmented :
    Fragmented sampleChannel.cid (0x00 :: sampleBody) [sampleInitial,sampleContinuation] where
  initial := ⟨sampleInitial,rfl,by decide,by decide,by decide,by decide⟩
  count := by decide
  payload := .cons (by decide) (by decide) (.nil _)
  numbered := by
    rintro (_ | seq) report found
    · cases found
      exact ⟨by decide,by decide⟩
    · cases found

/-- Between a report of another channel and the response nothing goes wrong. -/
theorem reassembly_sample :
    Faithful (sampleHost [.zero 64,sampleInitial,sampleContinuation]) {} sampleChannel 0x04 [] sampleBody := by
  have arriving : Among (Noise sampleChannel.cid) [sampleInitial,sampleContinuation]
      [.zero 64,sampleInitial,sampleContinuation] :=
    .noise (.inl (by decide)) (.packet _ (.packet _ .nil))
  refine (reassembly_iff (sampleHost [.zero 64,sampleInitial,sampleContinuation]) {} sampleChannel 0x04 []
    (by decide) sample_fragmented arriving).mpr (.inr (.inr ⟨sampleInitial,[sampleContinuation],by decide,.inr ⟨by decide,.inr (.inr ⟨by decide,?_⟩)⟩⟩))
  exact .cons (by decide) (by decide) (.nil _)

/-- A KEEPALIVE between the two packets is taken for the second one. -/
theorem keepalive_mixed :
    Fragmented sampleChannel.cid (0x00 :: sampleBody) [sampleInitial,sampleContinuation] ∧
      Among (Noise sampleChannel.cid) [sampleInitial,sampleContinuation]
        [sampleInitial,sampleKeepalive,sampleContinuation] ∧
      ¬ Faithful (sampleHost [sampleInitial,sampleKeepalive,sampleContinuation]) {} sampleChannel 0x04 []
        sampleBody := by
  refine ⟨sample_fragmented,.packet _ (.noise (.inr (by decide)) (.packet _ .nil)),?_⟩
  intro faithful
  have single : buildContPackets sampleChannel.cid 0 ([0x04].drop (CTAPHID_REPORT_SIZE - 7)) = [] := by
    rw [buildContPackets]
    rfl
  have sending : sendPackets (sampleHost [sampleInitial,sampleKeepalive,sampleContinuation]) {}
      (buildInitPackets sampleChannel.cid CTAPHID_CBOR [0x04]) = .ok { sent := [sampleRequest] } := by
    rw [buildInitPackets,single]
    decide
  have received : recvResponse (sampleHost [sampleInitial,sampleKeepalive,sampleContinuation]) sampleChannel.cid 100
      none [] { sent := [sampleRequest] } =
        .ok (0x00 :: (List.replicate 56 0x11 ++ [0x00]),{ sent := [sampleRequest],received := 2 }) := by
    decide
  have same := (faithful_received sending received sampleBody).mp faithful _ _ rfl rfl
  revert same
  decide

end Sample

end SetecWizard.Core.Fido2Manager
