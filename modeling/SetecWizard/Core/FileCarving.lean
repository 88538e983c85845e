import SetecWizard.Core.FileRecovery

/-! File carving: the scan of the sectors of a partition for the headers of known types of
files, and the copy of a file from its header up to its footer.
-/
namespace SetecWizard.Core.FileRecovery
open SetecWizard.Library

structure CarvedFileSignature where
  header : List UInt8
  headerOffset : UInt32
  extension : List Char
  footer : List UInt8
  maxSize : UInt64
deriving DecidableEq

def mebibyte : UInt64 := 1024 * 1024

def getDefaultSignatures : List CarvedFileSignature := [
  ⟨[0xFF,0xD8,0xFF],0,['j','p','g'],[0xFF,0xD9],50 * mebibyte⟩,
  ⟨[0x89,0x50,0x4E,0x47,0x0D,0x0A,0x1A,0x0A],0,['p','n','g'],[0x49,0x45,0x4E,0x44,0xAE,0x42,0x60,0x82],100 * mebibyte⟩,
  ⟨[0x25,0x50,0x44,0x46],0,['p','d','f'],[],500 * mebibyte⟩,
  ⟨[0x50,0x4B,0x03,0x04],0,['z','i','p'],[],2 * 1024 * mebibyte⟩,
  ⟨[0x66,0x74,0x79,0x70],4,['m','p','4'],[],4 * 1024 * mebibyte⟩,
  ⟨[0x47,0x49,0x46,0x38,0x39,0x61],0,['g','i','f'],[0x00,0x3B],50 * mebibyte⟩,
  ⟨[0x42,0x4D],0,['b','m','p'],[],100 * mebibyte⟩,
  ⟨[0x52,0x61,0x72,0x21,0x1A,0x07],0,['r','a','r'],[],2 * 1024 * mebibyte⟩,
  ⟨[0x37,0x7A,0xBC,0xAF,0x27,0x1C],0,['7','z'],[],2 * 1024 * mebibyte⟩,
  ⟨[0x49,0x49,0x2A,0x00],0,['t','i','f'],[],500 * mebibyte⟩,
  ⟨[0x4D,0x4D,0x00,0x2A],0,['t','i','f'],[],500 * mebibyte⟩,
  ⟨[0x4D,0x5A],0,['e','x','e'],[],500 * mebibyte⟩,
  ⟨[0x53,0x51,0x4C,0x69,0x74,0x65,0x20,0x66,0x6F,0x72,0x6D,0x61,0x74,0x20,0x33],0,['s','q','l','i','t','e'],[],
    2 * 1024 * mebibyte⟩]

/-- How far into a sector the signatures reach. -/
def maxHeaderCheck : UInt32 :=
  getDefaultSignatures.foldl (fun most sig => max most (sig.headerOffset + .ofNat sig.header.length)) 0

def carvedName (carvedCount : UInt32) (extension : List Char) : List Char :=
  let digits := Nat.toDigits 10 carvedCount.toNat
  ['c','a','r','v','e','d','_'] ++ List.replicate (6 - digits.length) '0' ++ digits ++ '.' :: extension

/-- Files so far, and their number, which is one of 32 bits. -/
structure Carved where
  results : List RecoverableFile := []
  carvedCount : UInt32 := 0

section Scan

variable (env : RecoveryEnv) (r : FileRecovery) (disk : Disk)

def carvedFile (sig : CarvedFileSignature) (carvedLba : UInt64) (carvedCount : UInt32) : RecoverableFile where
  filename := carvedName carvedCount sig.extension
  sizeBytes := sig.maxSize
  sourceFs := .other
  extension := sig.extension
  confidence := 50
  partitionStartLba := r.partStart
  sectorSize := r.sectorSize
  carvedLba := carvedLba

def checkSignature (chunk : List UInt8) (sectorIdx off : UInt64) (s : Carved) (sig : CarvedFileSignature) : Carved :=
  let headerStart := (off + sig.headerOffset.toUInt64).toNat
  if chunk.length < headerStart + sig.header.length then s
  else if slice chunk headerStart sig.header.length = sig.header then
    { results := s.results ++
        [carvedFile r sig (r.partStart + sectorIdx + off / r.sectorSize.toUInt64) s.carvedCount]
      carvedCount := s.carvedCount + 1 }
  else s

/-- The sectors of a chunk from some byte on, `none` while they have not ended. -/
def checkSectors (chunk : List UInt8) (sectorIdx : UInt64) : Nat → UInt64 → Carved → Option Carved
  | 0, _, _ => none
  | fuel + 1, off, s =>
    if chunk.length < (off + maxHeaderCheck.toUInt64).toNat then some s
    else checkSectors chunk sectorIdx fuel (off + r.sectorSize.toUInt64)
      (getDefaultSignatures.foldl (checkSignature r chunk sectorIdx off) s)

def chunkSectors : UInt64 := 128

def carveChunks (sectorFuel : Nat) : Nat → UInt64 → Carved → Option (Result (List RecoverableFile))
  | 0, _, _ => none
  | fuel + 1, sectorIdx, s =>
    if ¬ sectorIdx < r.partSectors then some (.ok s.results)
    else if env.canceled sectorIdx then some (.error (.fromCode .operationCanceled ""))
    else
      let sectorsToRead := min chunkSectors (r.partSectors - sectorIdx)
      match readPartitionBytes env r disk (sectorIdx * r.sectorSize.toUInt64)
        (sectorsToRead * r.sectorSize.toUInt64).toUInt32 with
      | .error _ => carveChunks sectorFuel fuel (sectorIdx + chunkSectors) s
      | .ok chunk =>
        match checkSectors r chunk sectorIdx sectorFuel 0 s with
        | none => none
        | some s => carveChunks sectorFuel fuel (sectorIdx + chunkSectors) s

def scanCarving (sectorFuel fuel : Nat) : Option (Result (List RecoverableFile)) :=
  carveChunks env r disk sectorFuel fuel 0 {}

end Scan

section Copy

variable (env : RecoveryEnv) (r : FileRecovery) (disk : Disk)

/-- The first place of a footer in what was read. -/
def footerIn (footer data : List UInt8) : Option Nat :=
  if footer = [] then none
  else (List.range (data.length + 1 - footer.length)).find? (fun i => slice data i footer.length = footer)

def carveReadChunk : UInt32 := 256 * 1024

def copyCarved (carvedLba maxSize : UInt64) (footer : List UInt8) : Nat → UInt64 → List UInt8 → Option (List UInt8)
  | 0, _, _ => none
  | fuel + 1, bytesWritten, out =>
    if ¬ bytesWritten < maxSize then some out
    else
      let toRead := (min carveReadChunk.toUInt64 (maxSize - bytesWritten)).toUInt32
      match RawDiskHandle.readSectors env.device disk (carvedLba + bytesWritten / r.sectorSize.toUInt64)
        ((toRead + r.sectorSize - 1) / r.sectorSize).toUInt64 r.sectorSize with
      | .error _ => some out
      | .ok data =>
        match footerIn footer data with
        | some i => some (out ++ data.take (i + footer.length))
        | none =>
          let toWrite := min data.length (maxSize - bytesWritten).toNat
          copyCarved carvedLba maxSize footer fuel (bytesWritten + .ofNat toWrite) (out ++ data.take toWrite)

def carvedLimits (file : RecoverableFile) : List UInt8 × UInt64 :=
  let limits := match getDefaultSignatures.find? (fun sig => sig.extension = file.extension) with
    | some sig =>
      (sig.footer,if file.sizeBytes = 0 ∨ sig.maxSize < file.sizeBytes then sig.maxSize else file.sizeBytes)
    | none => ([],file.sizeBytes)
  (limits.1,if limits.2 = 0 then 10 * mebibyte else limits.2)

def recoverCarvedFile (file : RecoverableFile) (outputPath : String) (fuel : Nat) :
    Option (Result Unit × Option (List UInt8)) :=
  if env.creates outputPath = false then
    some (.error (.fromCode .fileCreateFailed ("Cannot create output file: " ++ outputPath)),none)
  else
    (copyCarved env r disk file.carvedLba (carvedLimits file).2 (carvedLimits file).1 fuel 0 []).map
      (fun out => (.ok (),some out))

end Copy

section Reads

/-- The reads that one copy makes, in their order: what the read of a number delivers when it
asks for some sectors. -/
abbrev SectorReads := Nat → UInt64 → UInt64 → Result (List UInt8)

variable (sectorSize : UInt32) (read : SectorReads) (carvedLba maxSize : UInt64)

def carvedRead (n : Nat) (bytesWritten : UInt64) : Result (List UInt8) :=
  let toRead := (min carveReadChunk.toUInt64 (maxSize - bytesWritten)).toUInt32
  read n (carvedLba + bytesWritten / sectorSize.toUInt64) ((toRead + sectorSize - 1) / sectorSize).toUInt64

def copyReads (footer : List UInt8) : Nat → Nat → UInt64 → List UInt8 → Option (List UInt8)
  | 0,_,_,_ => none
  | fuel + 1,n,bytesWritten,out =>
    if ¬ bytesWritten < maxSize then some out
    else
      match carvedRead sectorSize read carvedLba maxSize n bytesWritten with
      | .error _ => some out
      | .ok data =>
        match footerIn footer data with
        | some i => some (out ++ data.take (i + footer.length))
        | none =>
          let toWrite := min data.length (maxSize - bytesWritten).toNat
          copyReads footer fuel (n + 1) (bytesWritten + .ofNat toWrite) (out ++ data.take toWrite)

end Reads
end SetecWizard.Core.FileRecovery
