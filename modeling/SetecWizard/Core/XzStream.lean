import SetecWizard.Core.ByteOrder
import SetecWizard.Core.LzmaDecoder

/-! The stream decoder of xz-embedded: the headers of a stream and of its blocks, the index and the
footer around what the LZMA2 decoder decodes. The sums over the blocks that nothing reads are left out.
-/
namespace SetecWizard.Core.Xz
open SetecWizard.Library

section Crc32

def xzCrc32Entry (i : UInt32) : UInt32 :=
  (List.range 8).foldl (fun r _ => (r >>> 1) ^^^ (0xEDB88320 &&& ~~~((r &&& 1) - 1))) i

def xzCrc32 (buf : List UInt8) (crc : UInt32) : UInt32 :=
  ~~~(buf.foldl (fun crc byte => xzCrc32Entry ((crc ^^^ byte.toUInt32) &&& 0xFF) ^^^ (crc >>> 8)) (~~~crc))

end Crc32

def XZ_HEADER_MAGIC : List UInt8 := [0xFD,0x37,0x7A,0x58,0x5A,0x00]
def XZ_FOOTER_MAGIC : List UInt8 := [0x59,0x5A]
def STREAM_HEADER_SIZE : Nat := 12
def BLOCK_HEADER_SIZE_MAX : Nat := 1024
def VLI_UNKNOWN : UInt64 := 0xFFFFFFFFFFFFFFFF
def VLI_BYTES_MAX : UInt32 := 9

def check_sizes : List UInt32 := [0,4,4,4,8,8,8,16,16,16,32,32,32,64,64,64]

inductive XzDecStreamState where
  | streamHeader
  | blockStart
  | blockHeader
  | blockUncompress
  | blockPadding
  | blockCheck
  | index
  | indexPadding
  | indexCrc32
  | streamFooter
deriving DecidableEq

structure Temp where
  buf : Nat → UInt8 := fun _ => 0
  pos : Nat := 0
  size : Nat := 0

/-- A byte of the temporary buffer, at a place that is read from the input. -/
def Temp.read (temp : Temp) (pos : Nat) : Option UInt8 := if pos < BLOCK_HEADER_SIZE_MAX then some (temp.buf pos) else none

def Temp.reads (temp : Temp) (pos count : Nat) : Option (List UInt8) :=
  if pos + count ≤ BLOCK_HEADER_SIZE_MAX then some (window temp.buf pos count) else none

structure Vli where
  value : UInt64 := 0
  count : UInt32 := 0
deriving DecidableEq

structure Block where
  compressed : UInt64 := 0
  uncompressed : UInt64 := 0
  countCompressed : UInt64 := 0
  countUncompressed : UInt64 := 0
  checkSize : UInt32 := 0
  checkType : UInt32 := 0
deriving DecidableEq

structure XzDec where
  sequence : XzDecStreamState := .streamHeader
  pos : UInt32 := 0
  vli : Vli := {}
  allowBufError : Bool := false
  temp : Temp := {}
  block : Block := {}
  indexCount : UInt32 := 0
  indexHashCount : UInt32 := 0
  checkPos : UInt32 := 0
  streamFlags : UInt32 := 0
  lzma2 : XzDecLzma2

def getLE32 (buf : Nat → UInt8) (off : Nat) : UInt32 := readLE32 (window buf off 4) 0

/-- Whether the temporary buffer is full. -/
def fillTemp (s : XzDec) (b : XzBuf) : Option (Bool × XzDec × XzBuf) :=
  let copySize := min ((s.temp.size + (2 ^ 64 - s.temp.pos)) % 2 ^ 64) b.available
  if s.temp.pos + copySize ≤ BLOCK_HEADER_SIZE_MAX then
    let temp : Temp := { s.temp with
      buf := patch s.temp.buf s.temp.pos (window b.input b.inPos copySize)
      pos := s.temp.pos + copySize }
    let b := { b with inPos := b.inPos + copySize }
    if temp.pos = temp.size then some (true,{ s with temp := { temp with pos := 0 } },b)
    else some (false,{ s with temp := temp },b)
  else none

def decVliLoop (input : Nat → UInt8) : Nat → Vli → Nat → XzRet × Vli × Nat
  | 0,vli,inPos => (.ok,vli,inPos)
  | left + 1,vli,inPos =>
    let byte := input inPos
    let vli := { vli with value := vli.value ||| ((byte &&& 0x7F).toUInt64 <<< ((vli.count - 1) * 7).toUInt64) }
    if byte &&& 0x80 = 0 then
      if byte = 0 ∧ vli.count > 1 then (.dataError,vli,inPos + 1) else (.streamEnd,{ vli with count := 0 },inPos + 1)
    else if vli.count ≥ VLI_BYTES_MAX then (.dataError,vli,inPos + 1)
    else decVliLoop input left { vli with count := vli.count + 1 } (inPos + 1)

def decVli (vli : Vli) (input : Nat → UInt8) (inPos inSize : Nat) : XzRet × Vli × Nat :=
  decVliLoop input (inSize - inPos) (if vli.count = 0 then ⟨0,1⟩ else vli) inPos

def decStreamHeader (s : XzDec) : XzRet × XzDec :=
  if window s.temp.buf 0 6 ≠ XZ_HEADER_MAGIC then (.formatError,s)
  else if s.temp.buf 6 ≠ 0 then (.optionsError,s)
  else
    let streamFlags := (s.temp.buf 7).toUInt32
    let checkType := streamFlags &&& 0x0F
    let s := { s with
      streamFlags := streamFlags
      block := { s.block with checkType := checkType,checkSize := check_sizes.getD checkType.toNat 0 } }
    if xzCrc32 (window s.temp.buf 6 2) 0 ≠ getLE32 s.temp.buf 8 then (.dataError,s) else (.ok,s)

def blockSize (present : Bool) (s : XzDec) (pos headerSize : Nat) :
    Option (Except (XzRet × XzDec) (UInt64 × XzDec × Nat)) :=
  if present then
    match decVli ⟨s.vli.value,0⟩ s.temp.buf pos headerSize with
    | (ret,vli,next) => do
      let _ ← s.temp.reads pos (next - pos)
      let s := { s with vli := vli }
      if ret ≠ .streamEnd then return .error (if ret = .ok then .dataError else ret,s) else return .ok (vli.value,s,next)
  else some (.ok (VLI_UNKNOWN,s,pos))

def filterFlags (temp : Temp) (pos headerSize : Nat) : Option (Except XzRet UInt8) :=
  if pos ≥ headerSize - 4 then some (.error .dataError)
  else do
    if (← temp.read pos) ≠ 0x21 then return .error .optionsError
    else if pos + 1 ≥ headerSize - 4 then return .error .dataError
    else if (← temp.read (pos + 1)) ≠ 1 then return .error .optionsError
    else if pos + 2 ≥ headerSize - 4 then return .error .dataError
    else
      let lzma2Props ← temp.read (pos + 2)
      if (← temp.reads (pos + 3) (headerSize - 4 - (pos + 3))).any (· ≠ 0) then return .error .optionsError
      else return .ok lzma2Props

def blockHeaderFields (memory : Nat → UInt8) (bflags : UInt8) (headerSize : Nat) (s : XzDec) : Option (XzRet × XzDec) := do
  match ← blockSize (bflags &&& 0x40 ≠ 0) s 2 headerSize with
  | .error failed => return failed
  | .ok (compressed,s,pos) =>
    let s := { s with block := { s.block with compressed := compressed } }
    match ← blockSize (bflags &&& 0x80 ≠ 0) s pos headerSize with
    | .error failed => return failed
    | .ok (uncompressed,s,pos) =>
      let s := { s with block := { s.block with uncompressed := uncompressed } }
      match ← filterFlags s.temp pos headerSize with
      | .error ret => return (ret,s)
      | .ok lzma2Props =>
        match xzDecLzma2Reset memory s.lzma2 lzma2Props with
        | (.ok,lzma2) => return (.ok,{ s with
            lzma2 := lzma2
            block := { s.block with countCompressed := 0,countUncompressed := 0 } })
        | (ret,lzma2) => return (ret,{ s with lzma2 := lzma2 })

/-- The header is as long as its first byte says, whatever the temporary buffer was filled to. -/
def decBlockHeader (memory : Nat → UInt8) (s : XzDec) : Option (XzRet × XzDec) := do
  let headerSize := ((← s.temp.read 0).toNat + 1) * 4
  let covered ← s.temp.reads 0 (headerSize - 4)
  let sum ← s.temp.reads (headerSize - 4) 4
  let bflags ← s.temp.read 1
  if xzCrc32 covered 0 ≠ readLE32 sum 0 then return (.dataError,s)
  else if bflags &&& 0x03 ≠ 0 then return (.optionsError,s)
  else if bflags &&& 0x3C ≠ 0 then return (.optionsError,s)
  else blockHeaderFields memory bflags headerSize s

def decStreamFooter (s : XzDec) : XzRet :=
  if s.temp.buf 10 ≠ 0x59 ∨ s.temp.buf 11 ≠ 0x5A then .dataError
  else if xzCrc32 (window s.temp.buf 4 6) 0 ≠ getLE32 s.temp.buf 0 then .dataError
  else if s.temp.buf 8 ≠ 0 then .optionsError
  else if s.temp.buf 9 ≠ s.streamFlags.toUInt8 then .dataError
  else .streamEnd

/-- A pass of the main loop goes on with the next one or returns, unless it goes astray or the LZMA2
decoder does not return. -/
inductive StreamPass where
  | again (s : XzDec) (b : XzBuf)
  | ret (ret : XzRet) (s : XzDec) (b : XzBuf)
  | strayed
  | running

/-- The passes that fill the temporary buffer wait for it. -/
def withTemp (s : XzDec) (b : XzBuf) (full : XzDec → XzBuf → StreamPass) : StreamPass :=
  match fillTemp s b with
  | none => .strayed
  | some (false,s,b) => .ret .ok s b
  | some (true,s,b) => full s b

def streamHeaderPass (s : XzDec) (b : XzBuf) : StreamPass :=
  withTemp { s with temp := { s.temp with size := STREAM_HEADER_SIZE } } b fun s b =>
    match decStreamHeader s with
    | (.ok,s) => .again { s with sequence := .blockStart } b
    | (ret,s) => .ret ret s b

def blockStartPass (s : XzDec) (b : XzBuf) : StreamPass :=
  if b.inPos ≥ b.inSize then .ret .ok s b
  else if b.input b.inPos = 0x00 then
    .again { s with
      vli := { s.vli with count := 0 }
      indexCount := 0
      indexHashCount := 0
      sequence := .index } { b with inPos := b.inPos + 1 }
  else
    .again { s with
      temp := { s.temp with size := ((b.input b.inPos).toNat + 1) * 4,pos := 0 }
      sequence := .blockHeader } b

def blockHeaderPass (memory : Nat → UInt8) (s : XzDec) (b : XzBuf) : StreamPass :=
  withTemp s b fun s b =>
    match decBlockHeader memory s with
    | none => .strayed
    | some (.ok,s) => .again { s with sequence := .blockUncompress } b
    | some (ret,s) => .ret ret s b

def sizesFit (fits : UInt64 → UInt64 → Bool) (block : Block) : Bool :=
  (block.compressed = VLI_UNKNOWN || fits block.countCompressed block.compressed) &&
    (block.uncompressed = VLI_UNKNOWN || fits block.countUncompressed block.uncompressed)

def blockUncompressPass (fuel : Nat) (s : XzDec) (b : XzBuf) : StreamPass :=
  match xzDecLzma2Run fuel s.lzma2 b with
  | none => .running
  | some .strayed => .strayed
  | some (.returned ret lzma2 after) =>
    let s := { s with
      lzma2 := lzma2
      block := { s.block with
        countCompressed := s.block.countCompressed + UInt64.ofNat (after.inPos - b.inPos)
        countUncompressed := s.block.countUncompressed + UInt64.ofNat (after.out.length - b.out.length) } }
    match ret with
    | .streamEnd =>
      if ¬ sizesFit (fun counted size => counted = size) s.block then .ret .dataError s after
      else .again { s with pos := 0,sequence := .blockPadding } after
    | .ok => if ¬ sizesFit (fun counted size => counted ≤ size) s.block then .ret .dataError s after else .ret .ok s after
    | ret => .ret ret s after

/-- The third byte is the last one that can be due. -/
def blockPaddingLoop : Nat → XzDec → XzBuf → StreamPass
  | 0,s,b => .again { s with checkPos := 0,sequence := .blockCheck } b
  | left + 1,s,b =>
    if (s.block.countCompressed + s.pos.toUInt64) &&& 3 = 0 then .again { s with checkPos := 0,sequence := .blockCheck } b
    else if b.inPos ≥ b.inSize then .ret .ok s b
    else if b.input b.inPos ≠ 0 then .ret .dataError s { b with inPos := b.inPos + 1 }
    else blockPaddingLoop left { s with pos := s.pos + 1 } { b with inPos := b.inPos + 1 }

def blockCheckPass (s : XzDec) (b : XzBuf) : StreamPass :=
  let copySize := min (s.block.checkSize - s.checkPos).toNat b.available
  let b := { b with inPos := b.inPos + copySize }
  let s := { s with checkPos := s.checkPos + UInt32.ofNat copySize }
  if s.checkPos < s.block.checkSize then .ret .ok s b else .again { s with sequence := .blockStart } b

def indexRecordsLoop : Nat → XzDec → XzBuf → StreamPass
  | 0,s,b => .ret .ok s b
  | rounds + 1,s,b =>
    if s.indexHashCount < s.indexCount then
      match decVli ⟨s.vli.value,0⟩ b.input b.inPos b.inSize with
      | (ret,vli,inPos) =>
        let s := { s with vli := vli }
        let b := { b with inPos := inPos }
        if ret ≠ .streamEnd then .ret ret s b
        else if s.pos = 0 then indexRecordsLoop rounds { s with pos := 1 } b
        else indexRecordsLoop rounds { s with pos := 0,indexHashCount := s.indexHashCount + 1 } b
    else .again { s with sequence := .indexPadding,pos := 0 } b

def indexPass (s : XzDec) (b : XzBuf) : StreamPass :=
  if s.indexCount = 0 ∧ s.vli.count = 0 then
    match decVli s.vli b.input b.inPos b.inSize with
    | (ret,vli,inPos) =>
      let s := { s with vli := vli }
      let b := { b with inPos := inPos }
      if ret ≠ .streamEnd then .ret ret s b
      else indexRecordsLoop (b.inSize - b.inPos + 1) { s with indexCount := vli.value.toUInt32,indexHashCount := 0,pos := 0 } b
  else indexRecordsLoop (b.inSize - b.inPos + 1) s b

def indexPaddingLoop : Nat → XzDec → XzBuf → XzDec × XzBuf
  | 0,s,b => (s,b)
  | left + 1,s,b =>
    if b.inPos < b.inSize ∧ s.pos < 3 ∧ b.input b.inPos = 0 then
      indexPaddingLoop left { s with pos := s.pos + 1 } { b with inPos := b.inPos + 1 }
    else (s,b)

def indexPaddingPass (s : XzDec) (b : XzBuf) : StreamPass :=
  match indexPaddingLoop 3 s b with
  | (s,b) => .again { s with temp := { s.temp with size := 4,pos := 0 },sequence := .indexCrc32 } b

def indexCrc32Pass (s : XzDec) (b : XzBuf) : StreamPass :=
  withTemp s b fun s b => .again { s with temp := { s.temp with size := 12,pos := 0 },sequence := .streamFooter } b

def streamFooterPass (s : XzDec) (b : XzBuf) : StreamPass := withTemp s b fun s b => .ret (decStreamFooter s) s b

def streamPass (memory : Nat → UInt8) (fuel : Nat) (s : XzDec) (b : XzBuf) : StreamPass :=
  match s.sequence with
  | .streamHeader => streamHeaderPass s b
  | .blockStart => blockStartPass s b
  | .blockHeader => blockHeaderPass memory s b
  | .blockUncompress => blockUncompressPass fuel s b
  | .blockPadding => blockPaddingLoop 3 s b
  | .blockCheck => blockCheckPass s b
  | .index => indexPass s b
  | .indexPadding => indexPaddingPass s b
  | .indexCrc32 => indexCrc32Pass s b
  | .streamFooter => streamFooterPass s b

/-- The calls that have returned within so many passes. A second pass without progress is an error. -/
def xzDecRun (memory : Nat → UInt8) : Nat → XzDec → XzBuf → Option (Called XzDec)
  | 0,_,_ => none
  | fuel + 1,s,b =>
    match streamPass memory fuel s b with
    | .running => none
    | .strayed => some .strayed
    | .ret ret s b => some (.returned ret s b)
    | .again after b' =>
      if b'.inPos = b.inPos ∧ b'.out.length = b.out.length then
        if after.allowBufError then some (.returned .bufError after b')
        else xzDecRun memory fuel { after with allowBufError := true } b'
      else xzDecRun memory fuel { after with allowBufError := false } b'

def xzDecReset (s : XzDec) : XzDec := { lzma2 := s.lzma2,vli := { s.vli with count := 0 } }

def xzDecInit (dictMax : UInt32) : XzDec := { lzma2 := xzDecLzma2Create dictMax }

end SetecWizard.Core.Xz
