import SetecWizard.Core.Common
import SetecWizard.Library.Decoder

/-! Decompression of .xz and .gz files. zlib and xz-embedded are ideal decoders; how the
input file is cut into reads, which read or write fails and what can be opened is the
host. Progress is left out.
-/
namespace SetecWizard.Core
open SetecWizard.Library

def kChunkSize : Nat := 4 * 1024 * 1024

/-- The reads of the input give its pieces one by one, and then nothing, or fail at the
bytes that are left. A write fails when it takes in a position that cannot be written. -/
structure DecompressHost where
  inputOpens : Bool := true
  outputOpens : Bool := true
  initializes : Bool := true
  pieces : List (List UInt8)
  nonempty : ∀ piece ∈ pieces, piece ≠ []
  unread : Option (List UInt8) := none
  writable : Nat → Bool := fun _ => true

def DecompressHost.input (host : DecompressHost) : List UInt8 := host.pieces.flatten ++ host.unread.getD []

namespace Decompressor

variable {F : Format UInt8 UInt8} (D : IdealDecoder F)

/-- The result and what is at the output path, if anything was put there. -/
abbrev Decompressed := Result Unit × Option (List UInt8)

def XZ_BUF_ERROR : Nat := 8

def decompressXz (host : DecompressHost) (inputPath outputPath : String) : Decompressed :=
  if ¬ host.inputOpens then
    (.error (.fromCode .fileNotFound ("Cannot open input file: " ++ inputPath)),none)
  else if ¬ host.outputOpens then
    (.error (.fromCode .fileCreateFailed ("Cannot create output file: " ++ outputPath)),none)
  else if ¬ host.initializes then
    (.error (.fromCode .decompressionFailed "Failed to initialize xz decoder"),some [])
  else
    -- the decoder is started with an empty input buffer
    match D.pump kChunkSize host.writable host.unread.isSome D.start [] host.pieces [] with
    | (written,.unreadable) =>
      (.error (.fromCode .imageReadError ("Read error on input file: " ++ inputPath)),some written)
    | (written,.unwritable) =>
      (.error (.fromCode .imageWriteError ("Write error on output file: " ++ outputPath)),some written)
    | (written,.ended) => (.ok (),some written)
    | (_,.stuck) => (.error (.fromCode .decompressionFailed
        ("XZ decompression failed (error code " ++ toString XZ_BUF_ERROR ++ ")")),none)
    | (_,.failed ret _) => (.error (.fromCode .decompressionFailed
        ("XZ decompression failed (error code " ++ toString ret ++ ")")),none)

def decompressGz (host : DecompressHost) (inputPath outputPath : String) : Decompressed :=
  if ¬ host.inputOpens then
    (.error (.fromCode .fileNotFound ("Cannot open input file: " ++ inputPath)),none)
  else if ¬ host.outputOpens then
    (.error (.fromCode .fileCreateFailed ("Cannot create output file: " ++ outputPath)),none)
  else if ¬ host.initializes then
    (.error (.fromCode .decompressionFailed "inflateInit2 failed: unknown error"),some [])
  else
    match D.feed kChunkSize host.writable D.start host.pieces [] with
    | (written,.paused) =>
      if host.unread.isSome then
        (.error (.fromCode .imageReadError ("Read error on input file: " ++ inputPath)),some written)
      else (.ok (),some written)
    | (written,.ended) => (.ok (),some written)
    | (_,.failed _ errMsg) =>
      (.error (.fromCode .decompressionFailed ("Gzip decompression failed: " ++ errMsg)),none)
    | (written,.unwritable) =>
      (.error (.fromCode .imageWriteError ("Write error on output file: " ++ outputPath)),some written)

end Decompressor

end SetecWizard.Core
