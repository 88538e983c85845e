import SetecWizard.Core.DownloadManager
import SetecWizard.Library.Run

/-! Downloads of one resource to one path, over any number of runs. Bytes are appended
to the file whatever the status of the answer says, so the file follows the resource as
long as the bytes taken over belong behind what the file already has.
-/
namespace SetecWizard.Core.DownloadManager
open SetecWizard.Library

/-- The body of the answer belongs where it is written: the suffix asked for, or the whole
resource into a file that is empty. -/
def Fits (m : DownloadManager) (reply : NetworkReply) : Prop :=
  match reply.answer with
  | .partialContent => True
  | .ok => m.m_resumeOffset = 0
  | .status _ _ => False

instance (m : DownloadManager) (reply : NetworkReply) : Decidable (Fits m reply) := by
  unfold Fits
  split <;> infer_instance

/-- The outcome of the local write when the event reads the reply, if it does. -/
def DownloadEvent.reads : DownloadEvent → Option (Option String)
  | .readyRead writeError => some writeError
  | .finished writeError => some writeError
  | .networkError _ writeError => some writeError
  | _ => none

/-- The file is written when the reply is read, and what is read from a 200 to a range
request or from an error status has no bytes. -/
def Resumable (m : DownloadManager) (event : DownloadEvent) : Prop :=
  ∀ writeError, DownloadEvent.reads event = some writeError →
    writeError = none ∧ ∀ reply, m.m_reply = some reply → Fits m reply ∨ reply.unread = []

instance (m : DownloadManager) (event : DownloadEvent) : Decidable (Resumable m event) :=
  match found : DownloadEvent.reads event with
  | none => isTrue (by
      intro writeError reading
      rw [found] at reading
      cases reading)
  | some writeError => decidable_of_iff
      (writeError = none ∧ ∀ reply ∈ m.m_reply, Fits m reply ∨ reply.unread = []) (by
        constructor
        · intro both outcome reading
          rw [found] at reading
          cases reading
          exact both
        · intro each
          exact each writeError found)

/-- What the user may rely on: a completed file is the resource, and a run that has ended
leaves a prefix of it. -/
structure Faithful (resource : List UInt8) (m : DownloadManager) : Prop where
  complete : ∀ path, .downloadComplete path ∈ m.emitted → m.file = some resource
  ended : m.m_downloading = false → m.file.getD [] <+: resource

/-- While a reply is open its bytes continue the file, or none of them has been read. -/
structure Receiving (resource : List UInt8) (m : DownloadManager) (reply : NetworkReply) : Prop where
  opened : m.m_file = true
  created : m.file.isSome
  fits : Fits m reply → m.file.getD [] ++ reply.unread ++ reply.coming = resource
  refused : reply.answer = .ok → 0 < m.m_resumeOffset →
    resource ≠ [] ∧ reply.unread ++ reply.coming = resource

structure Inv (resource : List UInt8) (m : DownloadManager) : Prop extends Faithful resource m where
  kept : m.file.getD [] <+: resource
  receiving : ∀ reply, m.m_reply = some reply → Receiving resource m reply

theorem cleanup_inv {resource : List UInt8} {m : DownloadManager} (kept : m.file.getD [] <+: resource)
    (complete : ∀ path, .downloadComplete path ∈ m.emitted → m.file = some resource) :
    Inv resource m.cleanup where
  complete := complete
  ended _ := kept
  kept := kept
  receiving reply open_ := by cases open_

theorem emit_inv {resource : List UInt8} {m : DownloadManager} {signal : DownloadSignal}
    (inv : Inv resource m) (other : ∀ path, signal ≠ .downloadComplete path) :
    Inv resource (m.emit signal) where
  complete path member := by
    rcases List.mem_append.mp member with before | now
    · exact inv.complete path before
    · exact absurd (List.mem_singleton.mp now).symm (other path)
  ended := inv.ended
  kept := inv.kept
  receiving reply open_ := by
    have before := inv.receiving reply open_
    exact ⟨before.opened,before.created,before.fits,before.refused⟩

theorem silent_inv {resource : List UInt8} {m : DownloadManager} (inv : Inv resource m) :
    Inv resource { m with emitted := [] } where
  complete path member := by cases member
  ended := inv.ended
  kept := inv.kept
  receiving reply open_ := by
    have before := inv.receiving reply open_
    exact ⟨before.opened,before.created,before.fits,before.refused⟩

theorem startDownload_inv {resource : List UInt8} {m : DownloadManager} (inv : Inv resource m)
    (silent : m.emitted = []) (outputPath : String) (openError : Option String) (answer : ServerAnswer) :
    Inv resource (startDownload resource m outputPath openError answer) := by
  unfold startDownload
  split
  next => exact emit_inv inv (fun path same => by cases same)
  next =>
    cases openError with
    | some errorString =>
      refine cleanup_inv inv.kept ?_
      intro path member
      simp [emit,silent] at member
    | none =>
      by_cases resume : m.file.isSome ∧ 0 < (m.file.getD []).length
      · simp only [if_pos resume,if_pos resume.2]
        refine ⟨⟨?_,fun idle => by cases idle⟩,inv.kept,?_⟩
        · intro path member
          exact absurd member (by simp [silent])
        · intro reply open_
          cases open_
          obtain ⟨rest,whole⟩ := inv.kept
          have nonempty : resource ≠ [] := by
            intro empty
            have sizes := congrArg List.length whole
            simp only [List.length_append,empty,List.length_nil] at sizes
            omega
          refine ⟨rfl,resume.1,?_,fun _ _ => ⟨nonempty,?_⟩⟩
          · intro fits
            cases answer with
            | partialContent =>
              simp only [respond,Option.getD_some,List.append_nil]
              rw [← whole,List.drop_left]
            | ok =>
              have zero : (m.file.getD []).length = 0 := fits
              omega
            | status errorString body => exact fits.elim
          · cases answer with
            | ok => rfl
            | _ => contradiction
      · have empty : ¬ 0 < (0 : Nat) := Nat.lt_irrefl 0
        simp only [if_neg resume,if_neg empty]
        refine ⟨⟨?_,fun idle => by cases idle⟩,List.nil_prefix,?_⟩
        · intro path member
          exact absurd member (by simp [silent])
        · intro reply open_
          cases open_
          refine ⟨rfl,rfl,?_,fun _ positive => absurd positive empty⟩
          intro fits
          cases answer with
          | status errorString body => exact fits.elim
          | _ => rfl

theorem flushed_file {m : DownloadManager} {reply : NetworkReply} (opened : m.m_file = true)
    (created : m.file.isSome) :
    (if reply.unread ≠ [] ∧ m.m_file = true ∧ (none : Option String) = none then m.write reply.unread
      else m).file = some (m.file.getD [] ++ reply.unread) := by
  obtain ⟨content,file⟩ := Option.isSome_iff_exists.mp created
  by_cases more : reply.unread ≠ []
  · rw [if_pos ⟨more,opened,rfl⟩,write]
  · rw [if_neg (fun both => more both.1),not_not.mp more,List.append_nil,file,Option.getD_some]

theorem onFinished_inv {resource : List UInt8} {m : DownloadManager} (inv : Inv resource m)
    (silent : ∀ path, .downloadComplete path ∉ m.emitted) (error : ReplyError)
    (safe : ∀ reply, m.m_reply = some reply → Fits m reply ∨ reply.unread = [])
    (whole : error = .noError → ∀ reply, m.m_reply = some reply →
      reply.coming = [] ∧ ServerAnswer.error reply.answer = .noError) :
    Inv resource (m.onFinished error none) := by
  unfold onFinished
  split
  next => exact inv
  next reply open_ =>
    have receiving := inv.receiving reply open_
    have file := @flushed_file m reply receiving.opened receiving.created
    have kept : m.file.getD [] ++ reply.unread <+: resource := by
      rcases safe reply open_ with fits | nothing
      · exact ⟨reply.coming,receiving.fits fits⟩
      · rw [nothing,List.append_nil]
        exact inv.kept
    dsimp only
    have emitted : (if reply.unread ≠ [] ∧ m.m_file = true ∧ (none : Option String) = none then
        m.write reply.unread else m).emitted = m.emitted := by
      split <;> rfl
    generalize (if reply.unread ≠ [] ∧ m.m_file = true ∧ (none : Option String) = none then
      m.write reply.unread else m) = flushed at file emitted ⊢
    have cleaned : Inv resource flushed.cleanup := by
      refine cleanup_inv ?_ ?_
      · rw [file]
        exact kept
      · intro path member
        rw [emitted] at member
        exact absurd member (silent path)
    cases error with
    | operationCanceled => exact cleaned
    | failed errorString => exact emit_inv cleaned (fun path same => by cases same)
    | noError =>
      obtain ⟨last,success⟩ := whole rfl reply open_
      have equal : m.file.getD [] ++ reply.unread = resource := by
        by_cases fits : Fits m reply
        · have total := receiving.fits fits
          rwa [last,List.append_nil] at total
        · -- a 200 that ignored the range request has sent its whole body, which is not empty
          have nothing := (safe reply open_).resolve_left fits
          have refused : reply.answer = .ok ∧ 0 < m.m_resumeOffset := by
            unfold Fits at fits
            cases answer : reply.answer with
            | partialContent => simp [answer] at fits
            | ok => exact ⟨rfl,Nat.pos_of_ne_zero (by simpa [answer] using fits)⟩
            | status errorString body => simp [answer,ServerAnswer.error] at success
          obtain ⟨nonempty,total⟩ := receiving.refused refused.1 refused.2
          rw [nothing,last,List.append_nil] at total
          exact absurd total.symm nonempty
      refine ⟨⟨fun path _ => ?_,cleaned.ended⟩,cleaned.kept,?_⟩
      · exact file.trans (congrArg some equal)
      · intro next now
        cases now

theorem cancelDownload_eq {m : DownloadManager} (busy : m.m_downloading = true) :
    m.cancelDownload = m.cleanup := by
  unfold cancelDownload
  rw [if_neg (not_not.mpr busy)]
  cases open_ : m.m_reply with
  | none => simp [onFinished,cleanup]
  | some reply => simp [onFinished,cleanup]

theorem cancelDownload_inv {resource : List UInt8} {m : DownloadManager} (inv : Inv resource m) :
    Inv resource m.cancelDownload := by
  cases busy : m.m_downloading with
  | true => exact (cancelDownload_eq busy).symm ▸ cleanup_inv inv.kept inv.complete
  | false => simpa [cancelDownload,busy] using inv

theorem onReadyRead_inv {resource : List UInt8} {m : DownloadManager} (inv : Inv resource m)
    (silent : m.emitted = [])
    (safe : ∀ reply, m.m_reply = some reply → Fits m reply ∨ reply.unread = []) :
    Inv resource (m.onReadyRead none) := by
  unfold onReadyRead
  split
  next => exact inv
  next reply open_ =>
    have receiving := inv.receiving reply open_
    rw [if_neg (not_not.mpr receiving.opened)]
    have kept : m.file.getD [] ++ reply.unread <+: resource := by
      rcases safe reply open_ with fits | nothing
      · exact ⟨reply.coming,receiving.fits fits⟩
      · rw [nothing,List.append_nil]
        exact inv.kept
    refine ⟨⟨?_,fun _ => kept⟩,kept,?_⟩
    · intro path member
      exact absurd member (by simp [write,silent])
    · intro next now
      cases now
      refine ⟨receiving.opened,rfl,?_,?_⟩
      · intro fits
        have total := receiving.fits fits
        simpa [write] using total
      · intro answer positive
        have unfit : ¬ Fits m reply := by
          intro fits
          rw [Fits,answer] at fits
          exact absurd fits (Nat.pos_iff_ne_zero.mp positive)
        have nothing := (safe reply open_).resolve_left unfit
        have refused := receiving.refused answer positive
        rw [nothing] at refused
        exact refused

theorem arrive_inv {resource : List UInt8} {m : DownloadManager} (inv : Inv resource m) (count : Nat) :
    Inv resource { m with m_reply := m.m_reply.map fun reply =>
      { reply with unread := reply.unread ++ reply.coming.take count,
                   coming := reply.coming.drop count } } where
  complete := inv.complete
  ended := inv.ended
  kept := inv.kept
  receiving next now := by
    obtain ⟨reply,open_,rfl⟩ := Option.map_eq_some_iff.mp now
    have before := inv.receiving reply open_
    refine ⟨before.opened,before.created,?_,?_⟩
    · intro fits
      have total := before.fits fits
      simpa [List.append_assoc] using total
    · intro answer positive
      have refused := before.refused answer positive
      simpa [List.append_assoc] using refused

/-- One event keeps the invariant when what it reads may be appended. -/
theorem step_inv (resource : List UInt8) (outputPath : String) (m : DownloadManager)
    (event : DownloadEvent) (inv : Inv resource m) (resumable : Resumable m event) :
    Inv resource (step resource outputPath m event) := by
  have start := silent_inv inv
  cases event with
  | startDownload openError answer => exact startDownload_inv start rfl outputPath openError answer
  | cancelDownload => exact cancelDownload_inv start
  | arrive count => exact arrive_inv start count
  | downloadProgress bytesReceived bytesTotal =>
    simp only [step]
    split
    next => exact emit_inv start (fun path same => by cases same)
    next => exact start
  | readyRead writeError =>
    obtain ⟨written,safe⟩ := resumable writeError rfl
    subst written
    exact onReadyRead_inv start rfl safe
  | networkError errorString writeError =>
    obtain ⟨written,safe⟩ := resumable writeError rfl
    subst written
    exact onFinished_inv start (by simp) (.failed errorString) safe (by simp)
  | finished writeError =>
    obtain ⟨written,safe⟩ := resumable writeError rfl
    subst written
    simp only [step]
    split
    next => exact start
    next reply open_ =>
      split
      next last =>
        refine onFinished_inv start (by simp) _ safe ?_
        intro success other now
        have same : reply = other := Option.some.inj (open_.symm.trans now)
        exact same ▸ ⟨last,success⟩
      next => exact start

/-- Over any number of downloads of the resource to the path, from no file on. -/
theorem downloads_faithful (resource : List UInt8) (outputPath : String) (events : List DownloadEvent)
    (resumable : Run.Guarded (step resource outputPath) Resumable {} events) :
    ∀ m ∈ Run.trace (step resource outputPath) {} events, Faithful resource m := by
  have initial : Inv resource {} :=
    ⟨⟨fun _ => by simp,fun _ => List.nil_prefix⟩,List.nil_prefix,fun _ => by simp⟩
  intro m visited
  exact (Run.guarded_invariant (step resource outputPath) Resumable (Inv resource)
    (step_inv resource outputPath) {} events initial resumable m visited).toFaithful

/-- Two of four bytes arrive before the connection is lost, and the rest after a restart. -/
def resumedEvents : List DownloadEvent :=
  [.startDownload none .ok,.arrive 2,.readyRead none,.networkError "Connection closed" none,
    .startDownload none .partialContent,.arrive 2,.finished none]

theorem resumed_sample : Run.Guarded (step [1,2,3,4] "image.iso") Resumable {} resumedEvents ∧
    ∀ m ∈ Run.trace (step [1,2,3,4] "image.iso") {} resumedEvents, Faithful [1,2,3,4] m := by
  have resumable : Run.Guarded (step [1,2,3,4] "image.iso") Resumable {} resumedEvents := by decide
  exact ⟨resumable,downloads_faithful [1,2,3,4] "image.iso" resumedEvents resumable⟩

/-- Two of four bytes arrive before the connection is lost; the server answers the request for
the rest with 200 and the whole resource. -/
def ignoredRange : List DownloadEvent :=
  [.startDownload none .ok,.arrive 2,.readyRead none,.networkError "Connection closed" none,
    .startDownload none .ok,.arrive 4,.finished none]

/-- Every local write succeeds, and the download completes with the first two bytes doubled. -/
theorem beginning_doubled :
    (∀ event ∈ ignoredRange, ∀ writeError, DownloadEvent.reads event = some writeError → writeError = none) ∧
    (ignoredRange.foldl (step [1,2,3,4] "image.iso") {}).emitted = [.downloadComplete "image.iso"] ∧
    (ignoredRange.foldl (step [1,2,3,4] "image.iso") {}).file = some [1,2,1,2,3,4] ∧
    ¬ ∀ m ∈ Run.trace (step [1,2,3,4] "image.iso") {} ignoredRange, Faithful [1,2,3,4] m := by
  have completed : (ignoredRange.foldl (step [1,2,3,4] "image.iso") {}).emitted
      = [.downloadComplete "image.iso"] := by decide
  have doubled : (ignoredRange.foldl (step [1,2,3,4] "image.iso") {}).file = some [1,2,1,2,3,4] := by
    decide
  refine ⟨?_,completed,doubled,?_⟩
  · simp [ignoredRange,DownloadEvent.reads]
  · intro faithful
    have last := faithful _ (Run.foldl_mem_trace _ _ _)
    have equal := last.complete "image.iso" (by rw [completed]; exact List.mem_singleton.mpr rfl)
    rw [doubled] at equal
    exact absurd equal (by decide)

end SetecWizard.Core.DownloadManager
