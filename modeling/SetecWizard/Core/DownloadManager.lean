import SetecWizard.Core.Common

/-! DownloadManager: one download at a time into the file at the output path, which a
later download continues. The remote resource is fixed; how the server answers a
request and when its bytes arrive are events. Speed measurement is left out.
-/
namespace SetecWizard.Core

inductive ReplyError where
  | noError
  | operationCanceled
  | failed (errorString : String)
deriving DecidableEq

/-- The answer of the server: 206 with the bytes asked for, 200 with the whole resource, or
an error status with some body. -/
inductive ServerAnswer where
  | partialContent
  | ok
  | status (errorString : String) (body : List UInt8)
deriving DecidableEq

/-- Bytes received and not read yet, and the rest of the body. -/
structure NetworkReply where
  answer : ServerAnswer
  unread : List UInt8 := []
  coming : List UInt8
deriving DecidableEq

inductive DownloadSignal where
  | progressChanged (bytesReceived bytesTotal : Int)
  | downloadComplete (filePath : String)
  | downloadError (error : String)
deriving DecidableEq

/-- The manager, the file at the output path and the signals of the last event. -/
structure DownloadManager where
  m_reply : Option NetworkReply := none
  m_file : Bool := false
  m_outputPath : String := ""
  m_resumeOffset : Nat := 0
  m_downloading : Bool := false
  file : Option (List UInt8) := none
  emitted : List DownloadSignal := []
deriving DecidableEq

inductive DownloadEvent where
  | startDownload (openError : Option String) (answer : ServerAnswer)
  | arrive (count : Nat)
  | readyRead (writeError : Option String)
  | downloadProgress (bytesReceived bytesTotal : Int)
  | finished (writeError : Option String)
  | networkError (errorString : String) (writeError : Option String)
  | cancelDownload
deriving DecidableEq

namespace DownloadManager

def emit (m : DownloadManager) (signal : DownloadSignal) : DownloadManager :=
  { m with emitted := m.emitted ++ [signal] }

def cleanup (m : DownloadManager) : DownloadManager :=
  { m with m_downloading := false, m_reply := none, m_file := false, m_resumeOffset := 0 }

/-- The file is open at its end. -/
def write (m : DownloadManager) (data : List UInt8) : DownloadManager :=
  { m with file := some (m.file.getD [] ++ data) }

/-- The body sent for a request that asks for the bytes from `range` on, or for all. -/
def respond (resource : List UInt8) (range : Option Nat) (answer : ServerAnswer) : NetworkReply where
  answer := answer
  coming := match answer with
    | .partialContent => resource.drop (range.getD 0)
    | .ok => resource
    | .status _ body => body

def startDownload (resource : List UInt8) (m : DownloadManager) (outputPath : String)
    (openError : Option String) (answer : ServerAnswer) : DownloadManager :=
  if m.m_downloading then m.emit (.downloadError "A download is already in progress.")
  else
    let size := (m.file.getD []).length
    let resume := m.file.isSome ∧ 0 < size
    let started : DownloadManager :=
      { m with m_outputPath := outputPath, m_downloading := true,
               m_resumeOffset := if resume then size else 0 }
    match openError with
    | some errorString =>
      (started.emit (.downloadError ("Failed to open file for writing: " ++ errorString))).cleanup
    | none =>
      -- Append keeps what is there, WriteOnly truncates
      let opened : DownloadManager :=
        { started with m_file := true, file := if resume then started.file else some [] }
      let range := if 0 < opened.m_resumeOffset then some opened.m_resumeOffset else none
      { opened with m_reply := some (respond resource range answer) }

/-- What is read last is written without looking at the outcome. -/
def onFinished (m : DownloadManager) (error : ReplyError) (writeError : Option String) : DownloadManager :=
  match m.m_reply with
  | none => m
  | some reply =>
    let remaining := reply.unread
    let flushed := if remaining ≠ [] ∧ m.m_file = true ∧ writeError = none then m.write remaining else m
    match error with
    | .noError => flushed.cleanup.emit (.downloadComplete flushed.m_outputPath)
    | .operationCanceled => flushed.cleanup
    | .failed errorString => flushed.cleanup.emit (.downloadError errorString)

/-- `abort` discards what is unread and calls the finished slot before it returns. -/
def cancelDownload (m : DownloadManager) : DownloadManager :=
  if ¬ m.m_downloading then m
  else
    let discarded : DownloadManager := { m with m_reply := m.m_reply.map fun reply => { reply with unread := [] } }
    (discarded.onFinished .operationCanceled none).cleanup

def onReadyRead (m : DownloadManager) (writeError : Option String) : DownloadManager :=
  match m.m_reply with
  | none => m
  | some reply =>
    if ¬ m.m_file then m
    else
      let read : DownloadManager := { m with m_reply := some { reply with unread := [] } }
      match writeError with
      | some errorString =>
        (read.emit (.downloadError ("Failed to write to disk: " ++ errorString))).cancelDownload
      | none => read.write reply.unread

def onDownloadProgress (m : DownloadManager) (bytesReceived bytesTotal : Int) : DownloadManager :=
  m.emit (.progressChanged (bytesReceived + m.m_resumeOffset)
    (if 0 < bytesTotal then bytesTotal + m.m_resumeOffset else -1))

/-- What `error()` returns when the whole body has arrived. -/
def ServerAnswer.error : ServerAnswer → ReplyError
  | .partialContent => .noError
  | .ok => .noError
  | .status errorString _ => .failed errorString

/-- One event of the download of `resource` to `outputPath`. A reply sends nothing once it is
disconnected, and finishes without a network error only when its body has arrived. -/
def step (resource : List UInt8) (outputPath : String) (last : DownloadManager) (event : DownloadEvent) :
    DownloadManager :=
  let m : DownloadManager := { last with emitted := [] }
  match event with
  | .startDownload openError answer => startDownload resource m outputPath openError answer
  | .cancelDownload => m.cancelDownload
  | .arrive count =>
    { m with m_reply := m.m_reply.map fun reply =>
        { reply with unread := reply.unread ++ reply.coming.take count,
                     coming := reply.coming.drop count } }
  | .readyRead writeError => m.onReadyRead writeError
  | .downloadProgress bytesReceived bytesTotal =>
    if m.m_reply.isSome then m.onDownloadProgress bytesReceived bytesTotal else m
  | .finished writeError =>
    match m.m_reply with
    | none => m
    | some reply =>
      if reply.coming = [] then m.onFinished (ServerAnswer.error reply.answer) writeError else m
  | .networkError errorString writeError => m.onFinished (.failed errorString) writeError

end DownloadManager

end SetecWizard.Core
