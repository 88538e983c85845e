import SetecWizard.Core.ByteOrder
import SetecWizard.Core.FormatFat32
import SetecWizard.Library.Growing

/-! The tool that encrypts source files: the key stream that is derived from a passphrase, the
tag of a ciphertext, and the two directions. What is printed on success is left out.
-/
namespace SetecWizard.Core.SrcCipher
open SetecWizard.Library

def MAGIC : List UInt8 := FormatEngine.asciiBytes "SPWSRC01"
def MAGIC_LEN : Nat := 8
def TAG_LEN : Nat := 32

def mixByte (roundKey : UInt8) (state : List UInt8) (i : Nat) : List UInt8 :=
  let len := state.length
  let state := state.set i (state.getD i 0 ^^^ roundKey)
  let state := state.set i (state.getD i 0 <<< 3 ||| state.getD i 0 >>> 5)
  let state := state.set i (state.getD i 0 + state.getD ((i + 7) % len) 0)
  state.set i (state.getD i 0 ^^^ state.getD ((i + 13) % len) 0)

def mixRound (state : List UInt8) (roundKey : UInt8) : List UInt8 :=
  (List.range state.length).foldl (mixByte roundKey) state

/-- What is appended to a key that is too short. -/
def keyPiece (passphrase : List UInt8) (old : Nat) : List UInt8 :=
  passphrase.mapIdx (fun i b => b ^^^ UInt8.ofNat (old + i) ^^^ 0xC3)

/-- What is appended to a state that is too short. -/
def statePiece (key : List UInt8) (old : Nat) : List UInt8 :=
  key.mapIdx (fun i b => b ^^^ UInt8.ofNat (old + i))

def mixRounds (key state : List UInt8) : List UInt8 :=
  (List.range 256).foldl
    (fun state round => mixRound state (UInt8.ofNat round ^^^ key.getD (round % key.length) 0)) state

/-- The bound is on the rounds of each of the two loops. A range that ends behind the state
has no outcome either. -/
def deriveKeystream (fuel : Nat) (passphrase : List UInt8) (streamLen : UInt64) : Option (List UInt8) := do
  let key ← grow 64 (keyPiece passphrase) fuel passphrase
  let state ← grow (streamLen + 64).toNat (statePiece key) fuel key
  let mixed := mixRounds key state
  if mixed.length < streamLen.toNat then none else some (mixed.take streamLen.toNat)

def accumulateByte (acc b : UInt8) : UInt8 :=
  let acc := acc ^^^ b
  acc <<< 1 ||| acc >>> 7

def accumulate (data : List UInt8) : UInt8 := data.foldl accumulateByte 0

def computeTag (fuel : Nat) (data passphrase : List UInt8) : Option (List UInt8) := do
  let stream ← deriveKeystream fuel (passphrase ++ FormatEngine.asciiBytes "_tag_verify") (UInt64.ofNat (TAG_LEN + data.length))
  return (List.range TAG_LEN).map (fun i => stream.getD i 0 ^^^ accumulate data ^^^ UInt8.ofNat i)

/-- How a run of the tool ends: its exit code, what it has written to the output file, if it
has opened that, and what it has printed on stderr. -/
structure ToolRun where
  exitCode : Nat
  output : Option (List UInt8) := none
  message : String := ""

def fails (message : String) : ToolRun := { exitCode := 1,message := message }

/-- `input` is the content of the input file, if it can be opened; `opens` is whether the
output file can be. -/
def doEncrypt (fuel : Nat) (key : List UInt8) (inpath outpath : String) (input : Option (List UInt8)) (opens : Bool) :
    Option ToolRun :=
  match input with
  | none => some (fails s!"Cannot open input: {inpath}\n")
  | some plaintext => do
    let keystream ← deriveKeystream fuel key (UInt64.ofNat plaintext.length)
    let ciphertext := plaintext.mapIdx (fun i b => b ^^^ keystream.getD i 0)
    let tag ← computeTag fuel ciphertext key
    if opens then
      return { exitCode := 0,output := some (MAGIC ++ le32 (UInt32.ofNat plaintext.length) ++ ciphertext ++ tag) }
    else return fails s!"Cannot open output: {outpath}\n"

def doDecrypt (fuel : Nat) (key : List UInt8) (inpath outpath : String) (input : Option (List UInt8)) (opens : Bool) :
    Option ToolRun :=
  match input with
  | none => some (fails s!"Cannot open input: {inpath}\n")
  | some raw =>
    if raw.length < MAGIC_LEN + 4 + TAG_LEN then some (fails "File too small or corrupt\n")
    else if raw.take MAGIC_LEN ≠ MAGIC then some (fails "Invalid file magic\n")
    else
      let origSize := readLE32 raw MAGIC_LEN
      let cipherOffset := MAGIC_LEN + 4
      let cipherLen := raw.length - MAGIC_LEN - 4 - TAG_LEN
      if cipherLen ≠ origSize.toNat then
        some (fails s!"Size mismatch: expected {origSize}, got {cipherLen}\n")
      else do
        let ciphertext := slice raw cipherOffset cipherLen
        let fileTag := slice raw (cipherOffset + cipherLen) TAG_LEN
        let expectedTag ← computeTag fuel ciphertext key
        if fileTag ≠ expectedTag then return fails "Tag verification failed — wrong key or corrupt file\n"
        else
          let keystream ← deriveKeystream fuel key (UInt64.ofNat cipherLen)
          if opens then
            return { exitCode := 0,output := some (ciphertext.mapIdx (fun i b => b ^^^ keystream.getD i 0)) }
          else return fails s!"Cannot open output: {outpath}\n"

end SetecWizard.Core.SrcCipher
