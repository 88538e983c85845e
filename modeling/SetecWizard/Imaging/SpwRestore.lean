import SetecWizard.Core.ImageRestorer
import SetecWizard.Imaging.SpwCreate

/-! What a restore makes of an image that was made when everything worked: header and
table are read back, and every chunk arrives on the disk as it left it.
-/
namespace SetecWizard.Core
open SetecWizard.Library

/-- No call fails, and nobody cancels. SHA-256 may be missing. -/
structure RestoreEnv.Works (env : RestoreEnv) : Prop where
  disk : env.disk = .working
  readHeader : env.readHeader = some SPW_HEADER_SIZE
  readTable : ∀ n, env.readTable n = some n
  readChunk : ∀ chunkIdx n, env.readChunk chunkIdx n = some n
  cancelRequested : ∀ chunkIdx, env.cancelRequested chunkIdx = false
  progressCb : ∀ a b, env.progressCb a b = true

namespace ImageRestorer
open ImageCreator

variable {codec : Codec} {env : RestoreEnv}

section Tables

theorem parseTable_tableBytes {n : UInt32} {chunkTable : List SpwChunkEntry} (count : chunkTable.length = n.toNat) :
    parseTable n (tableBytes chunkTable) = chunkTable := by
  apply List.ext_getElem
  · rw [parseTable,List.length_map,List.length_range,count]
  · intro i _ inside
    simp only [parseTable,List.getElem_map,List.getElem_range]
    exact parse_tableBytes chunkTable inside

theorem readTables_works (works : env.Works) {header : SpwImageHeader} {chunkTable : List SpwChunkEntry}
    {stored : List UInt8} {dstTotalBytes destOffsetBytes : UInt64} (magic : header.magic = SPW_IMAGE_MAGIC)
    (version : header.version = 1) (count : chunkTable.length = header.chunkCount.toNat)
    (fits : header.chunkCount.toNat * SPW_ENTRY_SIZE < 2 ^ 32)
    (room : destOffsetBytes.toNat + header.imageDataSize.toNat ≤ dstTotalBytes.toNat) :
    readTables env (header.serialize ++ (tableBytes chunkTable ++ stored)) dstTotalBytes destOffsetBytes =
      .ok (header,chunkTable) := by
  have size := header.length_serialize
  have first : ((header.serialize ++ (tableBytes chunkTable ++ stored)).take SPW_HEADER_SIZE).take SPW_HEADER_SIZE =
      header.serialize := by
    rw [List.take_take,Nat.min_self,← size,List.take_left]
  have length : tableSize header.chunkCount = (tableBytes chunkTable).length := by
    rw [tableSize_small fits,length_tableBytes,count]
  have second : (slice (header.serialize ++ (tableBytes chunkTable ++ stored)) SPW_HEADER_SIZE
      (tableBytes chunkTable).length).take (tableBytes chunkTable).length = tableBytes chunkTable := by
    rw [← size,slice_middle,List.take_length]
  have enough : ¬ dstTotalBytes < destOffsetBytes + header.imageDataSize := by
    have limit := dstTotalBytes.toNat_lt
    rw [UInt64.lt_iff_toNat_lt,UInt64.toNat_add,Nat.mod_eq_of_lt (by omega)]
    omega
  unfold readTables
  rw [works.readHeader]
  simp only [first,size,Nat.lt_irrefl,if_false,SpwImageHeader.parse_serialize]
  refine bind_unit_ok.mpr ⟨refuse_ok.mpr (by simp [magic,version]),?_⟩
  refine bind_unit_ok.mpr ⟨refuse_ok.mpr enough,?_⟩
  simp only [length,works.readTable,second,Nat.lt_irrefl,if_false,parseTable_tableBytes count]
  rfl

end Tables

section Chunks

variable {content raw stored : List UInt8} {header : SpwImageHeader} {entry : SpwChunkEntry} {off : UInt64}
  {config : ImageCreateConfig}

theorem readStored_works (works : env.Works) (chunkIdx : Nat) (near : off.toNat < 2 ^ 63)
    (offset : entry.fileOffset = off) (size : entry.compressedSize.toNat = stored.length)
    (held : slice content off.toNat stored.length = stored) :
    readStored env content chunkIdx entry = .ok stored := by
  unfold readStored
  rw [offset,if_neg (by omega)]
  simp only [works.readChunk,size,held,List.take_length,Nat.lt_irrefl,if_false]

theorem ofNat_length {n : Nat} (short : n < 2 ^ 32) : (UInt32.ofNat n).toNat = n := by
  rw [UInt32.toNat_ofNat',Nat.mod_eq_of_lt short]

/-- Whichever way a chunk was encoded, its bytes are at the start of the buffer that is
written from. -/
theorem selectData_encodes (works : env.Works) (inverts : codec.Inverts) (chunkIdx : Nat)
    (encodes : Encodes codec config raw off entry stored) (short : raw.length < 2 ^ 32)
    (fits : raw.length ≤ header.chunkSize.toNat)
    (compression : config.enableCompression = true → header.compressionType ≠ 0) (near : off.toNat < 2 ^ 63)
    (held : slice content off.toNat stored.length = stored) :
    ∃ buffer, selectData codec env content header chunkIdx entry = .ok buffer ∧
      raw.length ≤ buffer.length ∧ buffer.take raw.length = raw := by
  unfold selectData
  cases encodes with
  | sparse zeros =>
    rw [if_pos (by simp [SpwChunkEntry.isSparse])]
    refine ⟨List.replicate header.chunkSize.toNat 0,rfl,by rwa [List.length_replicate],?_⟩
    rw [List.take_replicate,Nat.min_eq_left fits]
    exact zeros.symm
  | plain =>
    have read : readStored env content chunkIdx
        { uncompressedSize := UInt32.ofNat raw.length, crc32 := crc32 raw, fileOffset := off,
          compressedSize := UInt32.ofNat raw.length } = .ok raw :=
      readStored_works works chunkIdx near rfl (ofNat_length short) held
    rw [if_neg (by simp [SpwChunkEntry.isSparse]),read]
    refine ⟨raw,?_,Nat.le_refl _,List.take_length⟩
    simp [bind,Except.bind,pure,Except.pure]
  | compressed data enabled done smaller =>
    have read : readStored env content chunkIdx
        { uncompressedSize := UInt32.ofNat raw.length, crc32 := crc32 raw, fileOffset := off,
          compressedSize := UInt32.ofNat stored.length } = .ok stored :=
      readStored_works works chunkIdx near rfl (ofNat_length (by omega)) held
    have differ : UInt32.ofNat stored.length ≠ UInt32.ofNat raw.length := by
      intro same
      have lengths := congrArg UInt32.toNat same
      rw [ofNat_length (by omega),ofNat_length short] at lengths
      omega
    rw [if_neg (by simp [SpwChunkEntry.isSparse]),read]
    refine ⟨raw,?_,Nat.le_refl _,List.take_length⟩
    simp only [bind,Except.bind]
    rw [if_pos ⟨compression enabled,differ⟩,ofNat_length short]
    exact inverts raw stored done

theorem grab_of_take {buffer : List UInt8} (enough : raw.length ≤ buffer.length)
    (held : buffer.take raw.length = raw) : grab env buffer raw.length = raw := by
  rw [grab,held,Nat.sub_eq_zero_of_le enough]
  exact List.append_nil raw

theorem alignedWriteSize_whole {sectorSize : UInt32} (positive : 0 < sectorSize.toNat)
    (whole : sectorSize.toNat ∣ entry.uncompressedSize.toNat)
    (rounds : entry.uncompressedSize.toNat + sectorSize.toNat ≤ 2 ^ 32) :
    alignedWriteSize sectorSize entry = entry.uncompressedSize := by
  have one : (1 : UInt32).toNat = 1 := rfl
  have last : (entry.uncompressedSize + sectorSize - 1).toNat =
      entry.uncompressedSize.toNat + sectorSize.toNat - 1 := by
    rw [UInt32.toNat_sub,UInt32.toNat_add,one]
    omega
  have rounded := roundUp_of_dvd positive whole
  rw [roundUp] at rounded
  apply UInt32.toNat_inj.mp
  rw [alignedWriteSize,UInt32.toNat_mul,UInt32.toNat_div,last,rounded]
  exact Nat.mod_eq_of_lt (by omega)

theorem Encodes.described (encodes : Encodes codec config raw off entry stored) :
    entry.uncompressedSize = UInt32.ofNat raw.length ∧ entry.crc32 = crc32 raw := by
  cases encodes <;> exact ⟨rfl,rfl⟩

theorem chunkData_encodes (works : env.Works) (inverts : codec.Inverts) (chunkIdx : Nat) {sectorSize : UInt32}
    (hashing : Bool) (encodes : Encodes codec config raw off entry stored) (positive : 0 < sectorSize.toNat)
    (whole : sectorSize.toNat ∣ raw.length) (rounds : raw.length + sectorSize.toNat ≤ 2 ^ 32)
    (fits : raw.length ≤ header.chunkSize.toNat)
    (compression : config.enableCompression = true → header.compressionType ≠ 0) (near : off.toNat < 2 ^ 63)
    (held : slice content off.toNat stored.length = stored) :
    (chunkData codec env content header sectorSize hashing chunkIdx entry).result =
        .ok (if hashing then raw else [],raw) ∧ alignedWriteSize sectorSize entry = entry.uncompressedSize := by
  obtain ⟨buffer,selected,enough,taken⟩ := selectData_encodes works inverts chunkIdx encodes (by omega) fits
    compression near held
  obtain ⟨size,crc⟩ := Encodes.described encodes
  have count : entry.uncompressedSize.toNat = raw.length := by rw [size,ofNat_length (by omega)]
  have aligned : alignedWriteSize sectorSize entry = entry.uncompressedSize :=
    alignedWriteSize_whole positive (by rwa [count]) (by rwa [count])
  have bytes : grab env buffer raw.length = raw := grab_of_take enough taken
  refine ⟨?_,aligned⟩
  have crcChecked : (checkCrc env buffer chunkIdx entry).result = .ok () := by
    unfold checkCrc
    split
    next => rfl
    next =>
      simp only [Footprint.result_bind,readBuffer,Footprint.result_access,Footprint.result_lift,count,bytes,crc]
      exact bind_ok.mpr ⟨raw,rfl,if_pos rfl⟩
  have hashed : (hashInput env buffer hashing entry).result = .ok (if hashing then raw else []) := by
    unfold hashInput
    split
    next => rw [readBuffer,Footprint.result_access,count,bytes]
    next => rfl
  have written : (writeInput env buffer sectorSize entry).result = .ok raw := by
    unfold writeInput
    simp only [aligned,UInt32.lt_irrefl,if_false,readBuffer,Footprint.result_access,count,bytes]
  unfold chunkData
  simp only [Footprint.result_bind,Footprint.result_lift,selected,Footprint.result_pure]
  exact bind_ok.mpr ⟨buffer,rfl,bind_ok.mpr ⟨(),crcChecked,bind_ok.mpr ⟨_,hashed,bind_ok.mpr ⟨raw,written,rfl⟩⟩⟩⟩

end Chunks

section Loop

variable {sectorSize : UInt32} {dstOffset : UInt64} {config : ImageCreateConfig} {content : List UInt8}
  {header : SpwImageHeader} {piece : Nat → List UInt8}

/-- The image holds a chunk as its entry says. -/
def Holds (codec : Codec) (config : ImageCreateConfig) (content raw : List UInt8) (entry : SpwChunkEntry) : Prop :=
  ∃ off stored, Encodes codec config raw off entry stored ∧ off.toNat < 2 ^ 63 ∧
    slice content off.toNat stored.length = stored

/-- A header that describes the image, and a place for it on sector boundaries. -/
structure Describing (config : ImageCreateConfig) (header : SpwImageHeader) (sectorSize : UInt32)
    (dstOffset : UInt64) : Prop where
  chunkSize : header.chunkSize = config.chunkSize
  compression : config.enableCompression = true → header.compressionType ≠ 0
  positive : 0 < sectorSize.toNat
  chunkWhole : sectorSize.toNat ∣ config.chunkSize.toNat
  offsetWhole : sectorSize.toNat ∣ dstOffset.toNat

/-- A piece of whole sectors with room on the disk. -/
structure Placed (disk : Disk) (sectorSize chunkSize : UInt32) (dstOffset : UInt64) (k : Nat) (raw : List UInt8) :
    Prop where
  early : k < 2 ^ 64
  whole : sectorSize.toNat ∣ raw.length
  rounds : raw.length + sectorSize.toNat ≤ 2 ^ 32
  short : raw.length ≤ chunkSize.toNat
  inside : dstOffset.toNat + k * chunkSize.toNat + raw.length ≤ disk.totalBytes.toNat

theorem restoreChunk_works (works : env.Works) (inverts : codec.Inverts)
    (described : Describing config header sectorSize dstOffset) {disk : Disk} {k : Nat} {raw : List UInt8}
    (placed : Placed disk sectorSize config.chunkSize dstOffset k raw) {entry : SpwChunkEntry}
    (holds : Holds codec config content raw entry) (hashing : Bool) (st : ChunkState) :
    ∃ bytesWritten,
      (restoreChunk codec env content header sectorSize dstOffset hashing k entry st disk).result =
        .ok (st.1 ++ (if hashing then raw else []),bytesWritten) ∧
      (restoreChunk codec env content header sectorSize dstOffset hashing k entry st disk).disk =
        disk.patched (dstOffset.toNat + k * config.chunkSize.toNat) raw := by
  obtain ⟨off,stored,encodes,near,held⟩ := holds
  obtain ⟨early,whole,rounds,short,inside⟩ := placed
  have positive := described.positive
  have limit := disk.totalBytes.toNat_lt
  have fits : raw.length ≤ header.chunkSize.toNat := by rwa [described.chunkSize]
  obtain ⟨data,aligned⟩ := chunkData_encodes works inverts k hashing encodes positive whole rounds fits
    described.compression near held
  have uncompressed : entry.uncompressedSize.toNat = raw.length := by
    rw [(Encodes.described encodes).1,ofNat_length (by omega)]
  have place : (dstOffset + UInt64.ofNat k * header.chunkSize.toUInt64).toNat =
      dstOffset.toNat + k * config.chunkSize.toNat := by
    have product : (UInt64.ofNat k * header.chunkSize.toUInt64).toNat = k * config.chunkSize.toNat := by
      rw [UInt64.toNat_mul,UInt64.toNat_ofNat',UInt32.toNat_toUInt64,described.chunkSize,Nat.mod_eq_of_lt early,
        Nat.mod_eq_of_lt (by omega)]
    rw [UInt64.toNat_add,product,Nat.mod_eq_of_lt (by omega)]
  have start := (sector_start (p := dstOffset + UInt64.ofNat k * header.chunkSize.toUInt64)
    (by rw [place]; exact Nat.dvd_add described.offsetWhole (described.chunkWhole.mul_left k))).trans place
  have bytes : ((entry.uncompressedSize / sectorSize).toUInt64 * sectorSize.toUInt64).toNat = raw.length := by
    rw [UInt64.toNat_mul,UInt32.toNat_toUInt64,UInt32.toNat_toUInt64,UInt32.toNat_div,uncompressed,
      Nat.div_mul_cancel whole,Nat.mod_eq_of_lt (by omega)]
  have written := writeSectors_working disk _ _ raw start bytes rfl (by omega) (by omega)
  refine ⟨st.2 + entry.uncompressedSize.toUInt64,?_⟩
  simp only [restoreChunk,works.cancelRequested,Bool.false_eq_true,if_false,data,aligned,works.disk,written,
    works.progressCb,Bool.true_eq_false]
  exact ⟨trivial,trivial⟩

def hashedFrom (piece : Nat → List UInt8) : Nat → Nat → List UInt8
  | _,0 => []
  | k,left + 1 => piece k ++ hashedFrom piece (k + 1) left

def patchedFrom (piece : Nat → List UInt8) (origin chunkSize : Nat) : Nat → Nat → Disk → Disk
  | _,0,disk => disk
  | k,left + 1,disk =>
    patchedFrom piece origin chunkSize (k + 1) left (disk.patched (origin + k * chunkSize) (piece k))

/-- The loop, by induction on the chunks left: each puts its piece on the disk. -/
theorem restoreLoop_works (works : env.Works) (inverts : codec.Inverts)
    (described : Describing config header sectorSize dstOffset) (hashing : Bool) {entries : List SpwChunkEntry}
    {k : Nat} {disk : Disk}
    (placed : ∀ j < entries.length, Placed disk sectorSize config.chunkSize dstOffset (k + j) (piece (k + j)))
    (holds : ∀ j, (bound : j < entries.length) → Holds codec config content (piece (k + j)) entries[j])
    (st : ChunkState) :
    let run := restoreLoop codec env content header sectorSize dstOffset hashing entries k st disk
    ∃ bytesWritten, run.result =
        .ok (st.1 ++ (if hashing then hashedFrom piece k entries.length else []),bytesWritten) ∧
      run.disk = patchedFrom piece dstOffset.toNat config.chunkSize.toNat k entries.length disk := by
  intro run
  induction entries generalizing k disk st with
  | nil =>
    refine ⟨st.2,?_,rfl⟩
    simp [run,restoreLoop,hashedFrom]
  | cons entry rest ih =>
    have head : Holds codec config content (piece k) entry := holds 0 (Nat.succ_pos _)
    have here : Placed disk sectorSize config.chunkSize dstOffset k (piece k) := placed 0 (Nat.succ_pos _)
    obtain ⟨written,first,patched⟩ := restoreChunk_works works inverts described here head hashing st
    have next : ∀ j < rest.length,
        Placed (disk.patched (dstOffset.toNat + k * config.chunkSize.toNat) (piece k)) sectorSize config.chunkSize
          dstOffset (k + 1 + j) (piece (k + 1 + j)) := by
      intro j bound
      have later := placed (j + 1) (Nat.succ_lt_succ bound)
      rw [← Nat.add_assoc,Nat.add_right_comm] at later
      exact ⟨later.early,later.whole,later.rounds,later.short,later.inside⟩
    have held : ∀ j, (bound : j < rest.length) → Holds codec config content (piece (k + 1 + j)) rest[j] := by
      intro j bound
      have later := holds (j + 1) (Nat.succ_lt_succ bound)
      rwa [← Nat.add_assoc,Nat.add_right_comm] at later
    obtain ⟨total,result,disk_eq⟩ := ih next held (st.1 ++ (if hashing then piece k else []),written)
    rw [List.length_cons,hashedFrom,patchedFrom]
    refine ⟨total,?_,?_⟩
    · simp only [run,restoreLoop,first,patched]
      refine result.trans ?_
      cases hashing <;> simp
    · simp only [run,restoreLoop,first,patched]
      exact disk_eq

end Loop

section Pieces

theorem hashedBefore_append (piece : Nat → List UInt8) (k left : Nat) :
    hashedBefore piece k ++ hashedFrom piece k left = hashedBefore piece (k + left) := by
  induction left generalizing k with
  | zero => exact List.append_nil _
  | succ left ih =>
    rw [hashedFrom,← List.append_assoc,← hashedBefore_succ,ih]
    congr 1
    omega

theorem hashedFrom_start (piece : Nat → List UInt8) (n : Nat) : hashedFrom piece 0 n = hashedBefore piece n := by
  have joined := hashedBefore_append piece 0 n
  rw [Nat.zero_add] at joined
  exact joined

theorem patchedFrom_nothing (origin chunkSize k left : Nat) (disk : Disk) :
    patchedFrom (fun _ => []) origin chunkSize k left disk = disk := by
  induction left generalizing k with
  | zero => rfl
  | succ left ih =>
    rw [patchedFrom,Disk.patched,patch_nil]
    exact ih (k + 1)

theorem patchedFrom_range (src : Disk) (srcOffset length : UInt64) (chunkSize : UInt32) (origin k left : Nat)
    (disk : Disk) :
    Cloned (src.from srcOffset.toNat) origin (min (k * chunkSize.toNat) length.toNat)
      (min ((k + left) * chunkSize.toNat) length.toNat) (min ((k + left) * chunkSize.toNat) length.toNat) disk
      (patchedFrom (rangeChunk src srcOffset length chunkSize) origin chunkSize.toNat k left disk) := by
  induction left generalizing k disk with
  | zero => exact .refl _ _ _ _
  | succ left ih =>
    have high : min ((k + 1) * chunkSize.toNat) length.toNat =
        min (k * chunkSize.toNat) length.toNat + chunkLength length chunkSize k := by
      rw [chunkLength,Nat.add_mul,Nat.one_mul]
      omega
    have piece : Cloned (src.from srcOffset.toNat) origin (min (k * chunkSize.toNat) length.toNat)
        (min ((k + 1) * chunkSize.toNat) length.toNat) (min ((k + 1) * chunkSize.toNat) length.toNat) disk
        (disk.patched (origin + k * chunkSize.toNat) (rangeChunk src srcOffset length chunkSize k)) := by
      by_cases begun : k * chunkSize.toNat < length.toNat
      · rw [high,Nat.min_eq_left (Nat.le_of_lt begun)]
        refine ⟨.of_patch (by rw [length_rangeChunk]) (fun i above below => ?_),rfl⟩
        exact window_wanted (Nat.le_refl _) i above below
      · have none : chunkLength length chunkSize k = 0 := by
          rw [chunkLength]
          omega
        have empty : rangeChunk src srcOffset length chunkSize k = [] :=
          List.length_eq_zero_iff.mp ((length_rangeChunk _ _ _ _ _).trans none)
        rw [high,none,empty,Disk.patched,patch_nil]
        exact .refl _ _ _ _
    have grows := Nat.mul_le_mul_right chunkSize.toNat (Nat.le_add_right (k + 1) left)
    have further := ih (k + 1) (disk.patched (origin + k * chunkSize.toNat) (rangeChunk src srcOffset length chunkSize k))
    have counted : k + (left + 1) = k + 1 + left := by omega
    rw [counted]
    exact piece.append further (by omega) (by omega)

end Pieces

end ImageRestorer
end SetecWizard.Core
