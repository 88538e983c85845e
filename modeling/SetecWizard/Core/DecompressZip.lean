import SetecWizard.Core.ByteOrder
import SetecWizard.Core.Decompressor
import SetecWizard.Library.Path

/-! Extraction of zip archives. The input file can be read throughout; which directories
exist, what can be created, opened and written, and how names are decoded is the host.
Progress is left out.
-/
namespace SetecWizard.Core
open SetecWizard.Library

def kZipLocalFileHeaderSig : UInt32 := 0x04034b50

structure ZipLocalHeader where
  versionNeeded : UInt16
  flags : UInt16
  method : UInt16
  modTime : UInt16
  modDate : UInt16
  crc32 : UInt32
  compressedSize : UInt32
  uncompressedSize : UInt32
  nameLen : UInt16
  extraLen : UInt16
deriving DecidableEq

/-- A local header with the name behind it, and where its data starts. -/
structure ZipEntry where
  header : ZipLocalHeader
  nameBuf : List UInt8
  dataOffset : Nat
deriving DecidableEq

structure ZipHost where
  opens : Bool := true
  current : Place.Current
  isAbsolutePath : List Char → Bool
  fromUtf8 : List UInt8 → List Char
  existing : Place → Bool
  creatable : Place → Bool := fun _ => true
  openable : Place → Bool := fun _ => true
  initializes : Bool := true
  writable : Place → Nat → Bool := fun _ _ => true

/-- The directories created, the files created or truncated, and what they hold. -/
structure ZipWorld where
  created : List Place := []
  opened : List Place := []
  files : List (Place × List UInt8) := []
deriving DecidableEq

namespace Decompressor

def parseLocalHeader (data : List UInt8) : ZipLocalHeader where
  versionNeeded := readLE16 data 4
  flags := readLE16 data 6
  method := readLE16 data 8
  modTime := readLE16 data 10
  modDate := readLE16 data 12
  crc32 := readLE32 data 14
  compressedSize := readLE32 data 18
  uncompressedSize := readLE32 data 22
  nameLen := readLE16 data 26
  extraLen := readLE16 data 28

/-- `QDir::filePath`: absolute names are returned unchanged, others joined. -/
def filePath (host : ZipHost) (outputDir name : List Char) : List Char :=
  if host.isAbsolutePath name then name
  else if outputDir = [] ∨ outputDir.getLast? = some '/' then outputDir ++ name
  else outputDir ++ '/' :: name

/-- `QFileInfo::dir`: the path up to its last slash, which stays when it is the root's. -/
def dirPart (path : List Char) : List Char :=
  match path.reverse.findIdx? Place.isSeparator with
  | none => if path[1]? = some ':' then path.take 2 else ['.']
  | some back =>
    let last := path.length - 1 - back
    if last = 0 ∨ last = 2 ∧ path[1]? = some ':' then path.take (last + 1) else path.take last

def exists_ (host : ZipHost) (world : ZipWorld) (place : Place) : Bool :=
  host.existing place || world.created.contains place

/-- Missing directories are created one by one, until one cannot be. -/
def makeDirectories (host : ZipHost) : ZipWorld → List Place → Bool × ZipWorld
  | world,[] => (true,world)
  | world,place :: rest =>
    if exists_ host world place then makeDirectories host world rest
    else if host.creatable place then
      makeDirectories host { world with created := world.created ++ [place] } rest
    else (false,world)

def mkpath (host : ZipHost) (world : ZipWorld) (path : List Char) : Bool × ZipWorld :=
  makeDirectories host world (Place.resolve host.current path).leading

/-- The next entry, unless the file ends or something else begins. -/
def entryAt (input : List UInt8) (bytesProcessed : Nat) : Option ZipEntry :=
  let headerBuf := slice input bytesProcessed 30
  if headerBuf.length < 30 then none
  else if readLE32 headerBuf 0 ≠ kZipLocalFileHeaderSig then none
  else
    let hdr := parseLocalHeader headerBuf
    -- what the file does not have of the name stays zero
    let got := slice input (bytesProcessed + 30) hdr.nameLen.toNat
    some {
      header := hdr
      nameBuf := got ++ List.replicate (hdr.nameLen.toNat - got.length) 0
      dataOffset := bytesProcessed + 30 + hdr.nameLen.toNat + hdr.extraLen.toNat }

def endsWithSlash (name : List Char) : Bool := name.getLast?.any Place.isSeparator

inductive Extraction where
  | done
  | readError
  | writeError
  | failed (message : String)
deriving DecidableEq

def copyStored (input : List UInt8) (writable : Nat → Bool) (pos remaining : Nat) (written : List UInt8) :
    Extraction × List UInt8 :=
  if remaining = 0 then (.done,written)
  else
    let got := slice input pos (min remaining kChunkSize)
    if got = [] then (.readError,written)
    else if ¬ IdealDecoder.Fits writable written got then (.writeError,written)
    else copyStored input writable (pos + got.length) (remaining - got.length) (written ++ got)
termination_by remaining
decreasing_by
  have some_ := List.length_pos_iff.mpr ‹¬slice input pos (min remaining kChunkSize) = []›
  omega

variable {F : Format UInt8 UInt8} (D : IdealDecoder F)

def inflateEntry (input : List UInt8) (writable : Nat → Bool) (strm : D.State) (pos compRemaining : Nat)
    (written : List UInt8) : Extraction × List UInt8 :=
  if compRemaining = 0 then (.done,written)
  else
    let got := slice input pos (min compRemaining kChunkSize)
    if got = [] then (.readError,written)
    else
      let drained := D.drain kChunkSize writable strm got written
      match drained.outcome with
      | .failed _ message => (.failed message,drained.written)
      | .unwritable => (.writeError,drained.written)
      | .ended => (.done,drained.written)
      | .paused =>
        inflateEntry input writable drained.state (pos + got.length) (compRemaining - got.length) drained.written
termination_by compRemaining
decreasing_by
  have some_ := List.length_pos_iff.mpr ‹¬slice input pos (min compRemaining kChunkSize) = []›
  omega

def nextOffset (input : List UInt8) (entry : ZipEntry) : Nat :=
  let next := entry.dataOffset + entry.header.compressedSize.toNat
  if entry.header.flags &&& 0x08 = 0 then next
  else
    let ddBuf := slice input next 16
    if ddBuf.length < 12 then next
    else if readLE32 ddBuf 0 = 0x08074b50 then next + 16
    else next + 12

/-- A directory: the path is made, whether or not that succeeds. -/
def makeEntry (host : ZipHost) (outputDir : List Char) (world : ZipWorld) (entryName : List Char) : ZipWorld :=
  (mkpath host world (filePath host outputDir entryName)).2

def extractEntry (host : ZipHost) (input : List UInt8) (outputDir : List Char) (world : ZipWorld)
    (entry : ZipEntry) : Result Unit × ZipWorld :=
  let entryName := host.fromUtf8 entry.nameBuf
  let text := String.ofList entryName
  let outPath := filePath host outputDir entryName
  let place := Place.resolve host.current outPath
  let made := (mkpath host world (dirPart outPath)).2
  if ¬ host.openable place then
    (.error (.fromCode .fileCreateFailed ("Cannot create file: " ++ String.ofList outPath)),made)
  else
    let truncated := { made with opened := made.opened ++ [place] }
    let filled (content : List UInt8) : ZipWorld := { truncated with files := (place,content) :: truncated.files }
    if entry.header.method = 0 then
      match copyStored input (host.writable place) entry.dataOffset entry.header.compressedSize.toNat [] with
      | (.done,content) => (.ok (),filled content)
      | (.readError,content) =>
        (.error (.fromCode .imageReadError ("Read error extracting stored entry: " ++ text)),filled content)
      | (.writeError,content) =>
        (.error (.fromCode .imageWriteError ("Write error extracting: " ++ text)),filled content)
      | (.failed message,content) => (.error (.fromCode .decompressionFailed message),filled content)
    else if entry.header.method = 8 then
      if ¬ host.initializes then
        (.error (.fromCode .decompressionFailed ("inflateInit2 failed for zip entry: " ++ text)),filled [])
      else
        match inflateEntry D input (host.writable place) D.start entry.dataOffset
            entry.header.compressedSize.toNat [] with
        | (.done,content) => (.ok (),filled content)
        | (.readError,content) =>
          (.error (.fromCode .imageReadError ("Read error inflating zip entry: " ++ text)),filled content)
        | (.writeError,content) =>
          (.error (.fromCode .imageWriteError ("Write error inflating zip entry: " ++ text)),filled content)
        | (.failed message,content) =>
          (.error (.fromCode .decompressionFailed
            ("Deflate error in zip entry '" ++ text ++ "': " ++ message)),filled content)
    else
      -- the file is removed again
      (.error (.fromCode .decompressionFailed ("Unsupported zip compression method "
        ++ toString entry.header.method.toNat ++ " for entry: " ++ text)),
        { truncated with files := truncated.files.filter (fun file => file.1 ≠ place) })

def performEntry (host : ZipHost) (input : List UInt8) (outputDir : List Char) (world : ZipWorld)
    (entry : ZipEntry) : Result Unit × ZipWorld :=
  if endsWithSlash (host.fromUtf8 entry.nameBuf) then
    (.ok (),makeEntry host outputDir world (host.fromUtf8 entry.nameBuf))
  else extractEntry D host input outputDir world entry

def nextPosition (host : ZipHost) (input : List UInt8) (entry : ZipEntry) : Nat :=
  if endsWithSlash (host.fromUtf8 entry.nameBuf) then entry.dataOffset + entry.header.compressedSize.toNat
  else nextOffset input entry

theorem nextPosition_gt {host : ZipHost} {input : List UInt8} {pos : Nat} {entry : ZipEntry}
    (found : entryAt input pos = some entry) : pos < nextPosition host input entry := by
  simp only [entryAt] at found
  have start : pos + 30 ≤ entry.dataOffset := by
    split at found
    next => cases found
    next =>
      split at found
      next => cases found
      next =>
        cases found
        dsimp only
        omega
  unfold nextPosition nextOffset
  split
  next => omega
  next =>
    dsimp only
    split
    next => omega
    next =>
      split
      next => omega
      next => split <;> omega

def extractLoop (host : ZipHost) (input : List UInt8) (outputDir : List Char) (bytesProcessed : Nat)
    (world : ZipWorld) : Result Unit × ZipWorld :=
  if input.length ≤ bytesProcessed then (.ok (),world)
  else
    match _found : entryAt input bytesProcessed with
    | none => (.ok (),world)
    | some entry =>
      match performEntry D host input outputDir world entry with
      | (.error e,after) => (.error e,after)
      | (.ok (),after) => extractLoop host input outputDir (nextPosition host input entry) after
termination_by input.length - bytesProcessed
decreasing_by
  have forward := @nextPosition_gt host _ _ _ _found
  omega

def decompressZip (host : ZipHost) (input : List UInt8) (inputPath : String) (outputDir : List Char) :
    Result Unit × ZipWorld :=
  if ¬ host.opens then (.error (.fromCode .fileNotFound ("Cannot open zip file: " ++ inputPath)),{})
  else
    let (made,world) := mkpath host {} (filePath host outputDir ['.'])
    if ¬ made then
      (.error (.fromCode .fileCreateFailed
        ("Cannot create output directory: " ++ String.ofList outputDir)),world)
    else extractLoop D host input outputDir 0 world

end Decompressor

end SetecWizard.Core
