import SetecWizard.Core.DownloadManager
import SetecWizard.Library.Run

/-! The life of a download: it is accepted, runs, and ends with one signal unless it is
cancelled. The history of a manager keeps what has been signalled for each download it accepted.
-/
namespace SetecWizard.Core.DownloadManager
open SetecWizard.Library

/-- An event, and for the start of a download what is asked for, where it is to go and what
is there. -/
structure Call where
  event : DownloadEvent
  resource : List UInt8 := []
  outputPath : String := ""
  file : Option (List UInt8) := none

def Call.isStart (call : Call) : Bool :=
  match call.event with
  | .startDownload _ _ => true
  | _ => false

def handle (m : DownloadManager) (call : Call) : DownloadManager :=
  if call.isStart ∧ m.m_downloading = false then
    step call.resource call.outputPath { m with file := call.file } call.event
  else step call.resource call.outputPath m call.event

def terminal : DownloadSignal → Bool
  | .progressChanged _ _ => false
  | .downloadComplete _ => true
  | .downloadError _ => true

def terminals (m : DownloadManager) : List DownloadSignal := m.emitted.filter terminal

/-- A download that was accepted: the signals of its end and whether it was cancelled. -/
structure Transfer where
  signals : List DownloadSignal
  cancelled : Bool
deriving DecidableEq

/-- The manager and the downloads it accepted, the latest first. -/
structure History where
  manager : DownloadManager := {}
  transfers : List Transfer := []

/-- The start of a download that is refused belongs to no download. -/
def History.next (h : History) (call : Call) : History where
  manager := handle h.manager call
  transfers :=
    let signals := terminals (handle h.manager call)
    if call.isStart then
      if h.manager.m_downloading then h.transfers else ⟨signals,false⟩ :: h.transfers
    else h.transfers.modifyHead fun t =>
      ⟨t.signals ++ signals,t.cancelled || (h.manager.m_downloading && call.event = .cancelDownload)⟩

def Transfer.Ended (t : Transfer) : Prop := t.signals.length = if t.cancelled then 0 else 1

def Finishes (m : DownloadManager) : DownloadEvent → Prop
  | .finished _ => ∀ reply, m.m_reply = some reply → reply.coming = []
  | .networkError _ _ => True
  | .readyRead writeError => writeError.isSome
  | _ => False

/-- What holds of the downloads between two events. -/
structure LifeCycle (h : History) : Prop where
  reply : h.manager.m_reply.isSome = h.manager.m_downloading
  file : h.manager.m_file = h.manager.m_downloading
  once : ∀ t ∈ h.transfers, t.signals.length ≤ 1
  running : h.manager.m_downloading = true →
    ∃ ended, h.transfers = ⟨[],false⟩ :: ended ∧ ∀ t ∈ ended, t.Ended
  ended : h.manager.m_downloading = false → ∀ t ∈ h.transfers, t.Ended
  idle : h.manager.m_downloading = false → ∀ call, call.isStart = false →
    handle h.manager call = { h.manager with emitted := [] }
  finishes : ∀ call, Finishes h.manager call.event → (handle h.manager call).m_downloading = false
  cancelled : ∀ call, call.event = .cancelDownload →
    (handle h.manager call).m_downloading = false ∧ terminals (handle h.manager call) = []
  busy : h.manager.m_downloading = true → ∀ call, call.isStart = true →
    handle h.manager call = { h.manager with emitted := [.downloadError "A download is already in progress."] }

section Steps

variable {m : DownloadManager}

/-- The flag, the reply and the file of a manager that is busy, or is not. -/
structure Phase (busy : Bool) (m : DownloadManager) : Prop where
  downloading : m.m_downloading = busy
  reply : m.m_reply.isSome = busy
  file : m.m_file = busy

theorem cleanup_phase (m : DownloadManager) : Phase false m.cleanup := ⟨rfl,rfl,rfl⟩

theorem emit_phase {busy : Bool} (phase : Phase busy m) (signal : DownloadSignal) : Phase busy (m.emit signal) :=
  ⟨phase.downloading,phase.reply,phase.file⟩

theorem write_phase {busy : Bool} (phase : Phase busy m) (data : List UInt8) : Phase busy (m.write data) :=
  ⟨phase.downloading,phase.reply,phase.file⟩

theorem terminals_emit (signal : DownloadSignal) :
    terminals (m.emit signal) = terminals m ++ [signal].filter terminal :=
  List.filter_append _ _

/-- A download goes on without a signal, or ends with one. -/
def Proceeds (after : DownloadManager) : Prop :=
  (Phase true after ∧ terminals after = []) ∨ (Phase false after ∧ (terminals after).length = 1)

theorem proceeds_signal {signal : DownloadSignal} (silent : terminals m = []) (ends : terminal signal = true) :
    Proceeds (m.cleanup.emit signal) := by
  refine .inr ⟨emit_phase (cleanup_phase m) signal,?_⟩
  have cleaned : terminals m.cleanup = [] := silent
  rw [terminals_emit,cleaned,List.filter_cons_of_pos ends]
  rfl

theorem startDownload_proceeds (free : m.m_downloading = false) (silent : terminals m = [])
    (resource : List UInt8) (outputPath : String) (openError : Option String) (answer : ServerAnswer) :
    Proceeds (startDownload resource m outputPath openError answer) := by
  rw [startDownload,if_neg (by rw [free]; exact Bool.false_ne_true)]
  cases openError with
  | none => exact .inl ⟨⟨rfl,rfl,rfl⟩,silent⟩
  | some errorString =>
    refine .inr ⟨cleanup_phase _,?_⟩
    refine (congrArg List.length (List.filter_append _ _)).trans ?_
    rw [List.length_append]
    exact congrArg (· + 1) (List.length_eq_zero_iff.mpr silent)

theorem startDownload_busy (busy : m.m_downloading = true) (resource : List UInt8) (outputPath : String)
    (openError : Option String) (answer : ServerAnswer) :
    startDownload resource m outputPath openError answer =
      m.emit (.downloadError "A download is already in progress.") := by
  rw [startDownload,if_pos busy]

theorem onFinished_proceeds (phase : Phase true m) (silent : terminals m = []) {error : ReplyError}
    (notAborted : error ≠ .operationCanceled) (writeError : Option String) :
    Proceeds (m.onFinished error writeError) := by
  obtain ⟨reply,open_⟩ := Option.isSome_iff_exists.mp phase.reply
  rw [onFinished,open_]
  dsimp only
  have flushed : terminals (if reply.unread ≠ [] ∧ m.m_file = true ∧ writeError = none then
      m.write reply.unread else m) = [] := by
    split
    · exact silent
    · exact silent
  cases error with
  | noError => exact proceeds_signal flushed rfl
  | operationCanceled => exact absurd rfl notAborted
  | failed errorString => exact proceeds_signal flushed rfl

theorem onFinished_stops (phase : Phase true m) (error : ReplyError) (writeError : Option String) :
    (m.onFinished error writeError).m_downloading = false := by
  obtain ⟨reply,open_⟩ := Option.isSome_iff_exists.mp phase.reply
  rw [onFinished,open_]
  cases error with
  | noError => rfl
  | operationCanceled => rfl
  | failed errorString => rfl

/-- Cancelling ends a download without another signal. -/
theorem cancelDownload_ends (phase : Phase true m) :
    Phase false m.cancelDownload ∧ terminals m.cancelDownload = terminals m := by
  obtain ⟨reply,open_⟩ := Option.isSome_iff_exists.mp phase.reply
  rw [cancelDownload,if_neg (not_not.mpr phase.downloading)]
  refine ⟨cleanup_phase _,?_⟩
  simp only [onFinished,open_,Option.map_some]
  rfl

theorem read_phase (phase : Phase true m) (reply : NetworkReply) : Phase true { m with m_reply := some reply } :=
  ⟨phase.downloading,rfl,phase.file⟩

theorem onReadyRead_failed (phase : Phase true m) (errorString : String) :
    Phase false (m.onReadyRead (some errorString)) ∧ terminals (m.onReadyRead (some errorString)) =
      terminals m ++ [.downloadError ("Failed to write to disk: " ++ errorString)] := by
  obtain ⟨reply,open_⟩ := Option.isSome_iff_exists.mp phase.reply
  rw [onReadyRead,open_]
  dsimp only
  rw [if_neg (not_not.mpr phase.file)]
  have cancelled := cancelDownload_ends (emit_phase (read_phase phase { reply with unread := [] })
    (.downloadError ("Failed to write to disk: " ++ errorString)))
  exact ⟨cancelled.1,cancelled.2.trans (terminals_emit _)⟩

theorem onReadyRead_proceeds (phase : Phase true m) (silent : terminals m = []) (writeError : Option String) :
    Proceeds (m.onReadyRead writeError) := by
  cases writeError with
  | none =>
    obtain ⟨reply,open_⟩ := Option.isSome_iff_exists.mp phase.reply
    rw [onReadyRead,open_]
    dsimp only
    rw [if_neg (not_not.mpr phase.file)]
    exact .inl ⟨write_phase (read_phase phase _) _,silent⟩
  | some errorString =>
    have failed := onReadyRead_failed phase errorString
    refine .inr ⟨failed.1,?_⟩
    rw [failed.2,silent]
    rfl

theorem step_finishes (phase : Phase true m) (resource : List UInt8) (outputPath : String) {event : DownloadEvent}
    (finishes : Finishes m event) : (step resource outputPath m event).m_downloading = false := by
  have silent : Phase true { m with emitted := [] } := ⟨phase.downloading,phase.reply,phase.file⟩
  obtain ⟨reply,open_⟩ := Option.isSome_iff_exists.mp phase.reply
  cases event with
  | finished writeError =>
    have stops := onFinished_stops silent (ServerAnswer.error reply.answer) writeError
    simp only [step,open_,finishes reply open_,if_true] at stops ⊢
    exact stops
  | networkError errorString writeError => exact onFinished_stops silent _ writeError
  | readyRead writeError =>
    obtain ⟨errorString,rfl⟩ := Option.isSome_iff_exists.mp finishes
    exact (onReadyRead_failed silent errorString).1.downloading
  | _ => exact finishes.elim

theorem step_proceeds (phase : Phase true m) (resource : List UInt8) (outputPath : String) (event : DownloadEvent)
    (notStart : ∀ openError answer, event ≠ .startDownload openError answer) (goesOn : event ≠ .cancelDownload) :
    Proceeds (step resource outputPath m event) := by
  have silent : Phase true { m with emitted := [] } := ⟨phase.downloading,phase.reply,phase.file⟩
  cases event with
  | startDownload openError answer => exact absurd rfl (notStart openError answer)
  | cancelDownload => exact absurd rfl goesOn
  | arrive count => exact .inl ⟨⟨phase.downloading,Option.isSome_map.trans phase.reply,phase.file⟩,rfl⟩
  | readyRead writeError => exact onReadyRead_proceeds silent rfl writeError
  | downloadProgress bytesReceived bytesTotal =>
    rw [step]
    dsimp only
    rw [if_pos phase.reply]
    exact .inl ⟨emit_phase silent _,rfl⟩
  | finished writeError =>
    rw [step]
    dsimp only
    split
    next => exact .inl ⟨silent,rfl⟩
    next reply _ =>
      split
      · refine @onFinished_proceeds _ silent rfl (ServerAnswer.error reply.answer) ?_ writeError
        cases reply.answer with
        | partialContent => exact fun same => nomatch same
        | ok => exact fun same => nomatch same
        | status errorString body => exact fun same => nomatch same
      · exact .inl ⟨silent,rfl⟩
  | networkError errorString writeError =>
    exact @onFinished_proceeds _ silent rfl (.failed errorString) (fun same => nomatch same) writeError

theorem step_idle (phase : Phase false m) (resource : List UInt8) (outputPath : String) (event : DownloadEvent)
    (notStart : ∀ openError answer, event ≠ .startDownload openError answer) :
    step resource outputPath m event = { m with emitted := [] } := by
  have closed : m.m_reply = none := Option.isSome_eq_false_iff.mp phase.reply |> Option.isNone_iff_eq_none.mp
  have same : { m with m_reply := none, emitted := [] } = { m with emitted := [] } := by rw [← closed]
  cases event with
  | startDownload openError answer => exact absurd rfl (notStart openError answer)
  | cancelDownload =>
    rw [step,cancelDownload,if_pos (by rw [phase.downloading]; exact Bool.false_ne_true)]
  | arrive count => simp only [step,closed,Option.map_none,same]
  | readyRead writeError => simp only [step,onReadyRead,closed,same]
  | downloadProgress bytesReceived bytesTotal => simp only [step,closed,Option.isSome_none,Bool.false_eq_true,if_false,same]
  | finished writeError => simp only [step,closed,same]
  | networkError errorString writeError => simp only [step,onFinished,closed,same]

end Steps

section Calls

variable {m : DownloadManager} {call : Call}

theorem isStart_false (other : call.isStart = false) (openError : Option String) (answer : ServerAnswer) :
    call.event ≠ .startDownload openError answer := by
  intro start
  rw [Call.isStart,start] at other
  cases other

theorem handle_other (other : call.isStart = false) :
    handle m call = step call.resource call.outputPath m call.event := by
  rw [handle,if_neg (fun both => by rw [other] at both; exact Bool.false_ne_true both.1)]

theorem handle_proceeds (phase : Phase true m) (other : call.isStart = false) (goesOn : call.event ≠ .cancelDownload) :
    Proceeds (handle m call) := by
  rw [handle_other other]
  exact step_proceeds phase _ _ _ (isStart_false other) goesOn

theorem handle_idle (phase : Phase false m) (other : call.isStart = false) :
    handle m call = { m with emitted := [] } := by
  rw [handle_other other]
  exact step_idle phase _ _ _ (isStart_false other)

theorem handle_start (phase : Phase false m) (start : call.isStart = true) : Proceeds (handle m call) := by
  rw [handle,if_pos ⟨start,phase.downloading⟩]
  cases event : call.event with
  | startDownload openError answer =>
    exact @startDownload_proceeds { m with file := call.file, emitted := [] } phase.downloading rfl _ _ _ _
  | _ =>
    rw [Call.isStart,event] at start
    cases start

theorem isStart_of_finishes (finishes : Finishes m call.event) : call.isStart = false := by
  rw [Call.isStart]
  split
  next event =>
    rw [event] at finishes
    exact finishes.elim
  next => rfl

theorem handle_finishes (phase : Phase true m) (finishes : Finishes m call.event) :
    (handle m call).m_downloading = false := by
  rw [handle_other (isStart_of_finishes finishes)]
  exact step_finishes phase _ _ finishes

theorem handle_busy (phase : Phase true m) (start : call.isStart = true) :
    handle m call = { m with emitted := [.downloadError "A download is already in progress."] } := by
  rw [handle,if_neg (fun both => by rw [phase.downloading] at both; cases both.2)]
  cases event : call.event with
  | startDownload openError answer =>
    exact @startDownload_busy { m with emitted := [] } phase.downloading _ _ _ _
  | _ =>
    rw [Call.isStart,event] at start
    cases start

theorem handle_cancel {busy : Bool} (phase : Phase busy m) (cancel : call.event = .cancelDownload) :
    Phase false (handle m call) ∧ terminals (handle m call) = [] := by
  have other : call.isStart = false := by rw [Call.isStart,cancel]
  cases busy with
  | true =>
    rw [handle_other other,cancel]
    exact cancelDownload_ends ⟨phase.downloading,phase.reply,phase.file⟩
  | false =>
    rw [handle_idle phase other]
    exact ⟨⟨phase.downloading,phase.reply,phase.file⟩,rfl⟩

end Calls

section Histories

variable {h : History}

/-- The downloads before the running one have ended; when none runs, all of them have. -/
inductive Accounted : History → Prop where
  | running {m : DownloadManager} {ended : List Transfer} : Phase true m → (∀ t ∈ ended, t.Ended) →
      Accounted ⟨m,⟨[],false⟩ :: ended⟩
  | idle {m : DownloadManager} {ended : List Transfer} : Phase false m → (∀ t ∈ ended, t.Ended) →
      Accounted ⟨m,ended⟩

theorem accounted_proceeds {m : DownloadManager} {ended : List Transfer} (proceeds : Proceeds m)
    (before : ∀ t ∈ ended, t.Ended) : Accounted ⟨m,⟨terminals m,false⟩ :: ended⟩ := by
  rcases proceeds with ⟨phase,none⟩ | ⟨phase,one⟩
  · rw [none]
    exact .running phase before
  · exact .idle phase (List.forall_mem_cons.mpr ⟨one,before⟩)

theorem next_accounted (accounted : Accounted h) (call : Call) : Accounted (h.next call) := by
  cases start : call.isStart with
  | true =>
    cases accounted with
    | running phase before =>
      rw [History.next,handle_busy phase start]
      dsimp only
      rw [if_pos start,if_pos phase.downloading]
      exact .running ⟨phase.downloading,phase.reply,phase.file⟩ before
    | idle phase before =>
      rw [History.next]
      dsimp only
      rw [if_pos start,if_neg (by rw [phase.downloading]; exact Bool.false_ne_true)]
      exact accounted_proceeds (handle_start phase start) before
  | false =>
    have other : ¬ call.isStart = true := by rw [start]; exact Bool.false_ne_true
    cases accounted with
    | running phase before =>
      rw [History.next]
      dsimp only
      rw [if_neg other,List.modifyHead_cons,phase.downloading,List.nil_append,Bool.false_or,Bool.true_and]
      by_cases cancel : call.event = .cancelDownload
      · obtain ⟨stopped,none⟩ := handle_cancel phase cancel
        rw [none,decide_eq_true cancel]
        exact .idle stopped (List.forall_mem_cons.mpr ⟨rfl,before⟩)
      · rw [decide_eq_false cancel]
        exact accounted_proceeds (handle_proceeds phase start cancel) before
    | @idle m ended phase before =>
      rw [History.next,handle_idle phase start]
      dsimp only
      have same : (fun t : Transfer => (⟨t.signals ++ terminals { m with emitted := [] },
          t.cancelled || (m.m_downloading && decide (call.event = .cancelDownload))⟩ : Transfer)) = id := by
        funext t
        have none : terminals { m with emitted := [] } = [] := rfl
        rw [none,phase.downloading,List.append_nil,Bool.false_and,Bool.or_false]
        rfl
      rw [if_neg other,same,List.modifyHead_id]
      exact .idle ⟨phase.downloading,phase.reply,phase.file⟩ before

theorem lifeCycle_of_accounted (accounted : Accounted h) : LifeCycle h := by
  have single {t : Transfer} (ended : t.Ended) : t.signals.length ≤ 1 := by
    rw [ended]
    split
    · exact Nat.zero_le 1
    · exact Nat.le_refl 1
  cases accounted with
  | @running m _ phase before =>
    have busy {p : Prop} (idle : m.m_downloading = false) : p := by
      rw [phase.downloading] at idle
      cases idle
    exact {
      reply := phase.reply.trans phase.downloading.symm
      file := phase.file.trans phase.downloading.symm
      once := List.forall_mem_cons.mpr ⟨Nat.zero_le 1,fun t member => single (before t member)⟩
      running := fun _ => ⟨_,rfl,before⟩
      ended := fun idle => busy idle
      idle := fun idle => busy idle
      finishes := fun _ finishes => handle_finishes phase finishes
      cancelled := fun call cancel => ⟨(handle_cancel phase cancel).1.downloading,(handle_cancel phase cancel).2⟩
      busy := fun _ call start => handle_busy phase start }
  | @idle m _ phase before =>
    have free {p : Prop} (busy : m.m_downloading = true) : p := by
      rw [phase.downloading] at busy
      cases busy
    exact {
      reply := phase.reply.trans phase.downloading.symm
      file := phase.file.trans phase.downloading.symm
      once := fun t member => single (before t member)
      running := fun busy => free busy
      ended := fun _ => before
      idle := fun _ call other => handle_idle phase other
      finishes := fun call finishes => by
        have other : call.isStart = false := isStart_of_finishes finishes
        rw [handle_idle phase other]
        exact phase.downloading
      cancelled := fun call cancel => ⟨(handle_cancel phase cancel).1.downloading,(handle_cancel phase cancel).2⟩
      busy := fun busy => free busy }

/-- Whatever is called and arrives in whatever order. -/
theorem lifeCycle_run (calls : List Call) : LifeCycle (calls.foldl History.next {}) := by
  apply lifeCycle_of_accounted
  refine Run.trace_invariant History.next Accounted (fun _ call accounted => next_accounted accounted call)
    {} calls ?_ _ (Run.foldl_mem_trace History.next {} calls)
  exact .idle ⟨rfl,rfl,rfl⟩ (fun t member => absurd member List.not_mem_nil)

end Histories

end SetecWizard.Core.DownloadManager
