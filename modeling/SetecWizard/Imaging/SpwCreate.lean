import SetecWizard.Core.ImageCreator
import SetecWizard.Imaging.Sectors
import SetecWizard.Core.SpwImage
import SetecWizard.Format.Integers

/-! Header and chunk table read back as they were written. -/
namespace SetecWizard.Core
open SetecWizard.Library

namespace SpwImageHeader

variable (h : SpwImageHeader)

def fieldSizes : List Nat := [8,4,4,64,64,8,4,4,8,4,4,4,4,8,32,4,4,128]

theorem sizes_blocks : h.blocks.map List.length = fieldSizes := by
  simp [blocks,fieldSizes,h.magic.size,h.diskModel.size,h.diskSerial.size,h.sha256.size,h.reserved.size]

@[simp] theorem length_serialize : h.serialize.length = SPW_HEADER_SIZE := by
  rw [serialize,List.length_flatten,sizes_blocks]
  rfl

theorem field (i : Nat) {block : List UInt8} (found : h.blocks[i]? = some block) {off n : Nat}
    (start : (fieldSizes.take i).sum = off) (size : block.length = n) : slice h.serialize off n = block := by
  refine slice_flatten _ i found ?_ size
  rw [List.map_take,sizes_blocks,start]

theorem field32 (i off : Nat) {v : UInt32} (found : h.blocks[i]? = some (le32 v))
    (start : (fieldSizes.take i).sum = off) : readLE32 h.serialize off = v :=
  readLE32_of_slice (h.field i found start (length_le32 v))

theorem field64 (i off : Nat) {v : UInt64} (found : h.blocks[i]? = some (le64 v))
    (start : (fieldSizes.take i).sum = off) : readLE64 h.serialize off = v :=
  readLE64_of_slice (h.field i found start (length_le64 v))

theorem fieldBytes (i off : Nat) {n : Nat} {b : Bytes n} (found : h.blocks[i]? = some b.data)
    (start : (fieldSizes.take i).sum = off) (fits : off + n ≤ SPW_HEADER_SIZE) :
    Bytes.copy h.serialize off n = b :=
  Bytes.copy_of_slice b (by rwa [length_serialize]) (h.field i found start b.size)

theorem parse_serialize : parse h.serialize = h := by
  rw [parse,h.fieldBytes 0 0 rfl rfl (by decide),h.field32 1 8 rfl rfl,h.field32 2 12 rfl rfl,
    h.fieldBytes 3 16 rfl rfl (by decide),h.fieldBytes 4 80 rfl rfl (by decide),h.field64 5 144 rfl rfl,
    h.field32 6 152 rfl rfl,h.field32 7 156 rfl rfl,h.field64 8 160 rfl rfl,h.field32 9 168 rfl rfl,
    h.field32 10 172 rfl rfl,h.field32 11 176 rfl rfl,h.field32 12 180 rfl rfl,h.field64 13 184 rfl rfl,
    h.fieldBytes 14 192 rfl rfl (by decide),h.field32 15 224 rfl rfl,h.field32 16 228 rfl rfl,
    h.fieldBytes 17 232 rfl rfl (by decide)]

end SpwImageHeader

namespace SpwChunkEntry

@[simp] theorem length_serialize (e : SpwChunkEntry) : e.serialize.length = SPW_ENTRY_SIZE := rfl

theorem parse_of_slice {e : SpwChunkEntry} {raw : List UInt8} {off : Nat}
    (held : slice raw off SPW_ENTRY_SIZE = e.serialize) : parse raw off = e := by
  have part (a n : Nat) (inside : a + n ≤ SPW_ENTRY_SIZE) : slice raw (off + a) n = slice e.serialize a n := by
    rw [← held,slice_slice _ _ _ _ _ inside]
  have fileOffset : readLE64 raw off = e.fileOffset := readLE64_of_slice (part 0 8 (by decide))
  have compressedSize : readLE32 raw (off + 8) = e.compressedSize := readLE32_of_slice (part 8 4 (by decide))
  have uncompressedSize : readLE32 raw (off + 12) = e.uncompressedSize := readLE32_of_slice (part 12 4 (by decide))
  have crc : readLE32 raw (off + 16) = e.crc32 := readLE32_of_slice (part 16 4 (by decide))
  have flags : readLE32 raw (off + 20) = e.flags := readLE32_of_slice (part 20 4 (by decide))
  rw [parse,fileOffset,compressedSize,uncompressedSize,crc,flags]

end SpwChunkEntry

@[simp] theorem length_tableBytes (chunkTable : List SpwChunkEntry) :
    (tableBytes chunkTable).length = chunkTable.length * SPW_ENTRY_SIZE := by
  rw [tableBytes,length_flatMap_blocks _ _ SpwChunkEntry.length_serialize,Nat.mul_comm]

theorem parse_tableBytes (chunkTable : List SpwChunkEntry) {i : Nat} (inside : i < chunkTable.length) :
    SpwChunkEntry.parse (tableBytes chunkTable) (i * SPW_ENTRY_SIZE) = chunkTable[i] := by
  apply SpwChunkEntry.parse_of_slice
  rw [Nat.mul_comm,tableBytes,slice_flatMap _ _ SpwChunkEntry.length_serialize,List.getElem?_eq_getElem inside]
  rfl

/-! What an image holds when every call works while it is made: the header, the table,
and behind them what is stored of the chunks, each where its entry says.
-/

/-- No call fails, and nobody cancels. -/
structure CreateEnv.Works (env : CreateEnv) : Prop where
  disk : env.disk = .working
  createFile : env.createFile = none
  writeFile : ∀ write n, env.writeFile write n = (none,n)
  seekToStart : env.seekToStart = none
  opensSha256 : env.opensSha256 = true
  createsHash : env.createsHash = true
  cancelRequested : ∀ chunkIdx, env.cancelRequested chunkIdx = false
  progressCb : ∀ a b c, env.progressCb a b c = true

/-- Decompression inverts compression. -/
def Codec.Inverts (codec : Codec) : Prop :=
  ∀ raw compressed, codec.compressLZNT1 raw = .ok compressed →
    codec.decompressLZNT1 compressed raw.length = .ok raw

namespace ImageCreator

section Encoding

variable {codec : Codec} {config : ImageCreateConfig} {raw : List UInt8}

def storedBytes (codec : Codec) (config : ImageCreateConfig) (raw : List UInt8) : List UInt8 :=
  (encodeChunk codec config raw 0).2.elim [] Prod.fst

/-- How a stored chunk is told apart and turned back: by its size. -/
inductive Encodes (codec : Codec) (config : ImageCreateConfig) (raw : List UInt8) (off : UInt64) :
    SpwChunkEntry → List UInt8 → Prop
  | sparse (zeros : raw = List.replicate raw.length 0) :
      Encodes codec config raw off
        { uncompressedSize := UInt32.ofNat raw.length, crc32 := crc32 raw, flags := 1 } []
  | plain : Encodes codec config raw off
      { uncompressedSize := UInt32.ofNat raw.length, crc32 := crc32 raw, fileOffset := off,
        compressedSize := UInt32.ofNat raw.length } raw
  | compressed (data : List UInt8) (enabled : config.enableCompression = true)
      (done : codec.compressLZNT1 raw = .ok data) (smaller : data.length < raw.length) :
      Encodes codec config raw off
        { uncompressedSize := UInt32.ofNat raw.length, crc32 := crc32 raw, fileOffset := off,
          compressedSize := UInt32.ofNat data.length } data

theorem eq_replicate_of_all {xs : List UInt8} (zeros : xs.all (· == 0) = true) :
    xs = List.replicate xs.length 0 := by
  rw [List.eq_replicate_iff]
  refine ⟨rfl,fun b member => ?_⟩
  exact eq_of_beq (List.all_eq_true.mp zeros b member)

theorem encodeChunk_encodes (codec : Codec) (config : ImageCreateConfig) (raw : List UInt8) (off : UInt64) :
    Encodes codec config raw off (encodeChunk codec config raw off).1 (storedBytes codec config raw) ∧
      ((encodeChunk codec config raw off).2.elim [] Prod.fst = storedBytes codec config raw) ∧
      ((encodeChunk codec config raw off).2 = none → storedBytes codec config raw = []) := by
  unfold storedBytes encodeChunk
  split
  next sparse => exact ⟨.sparse (eq_replicate_of_all sparse.2),rfl,fun _ => rfl⟩
  next =>
    split
    next enabled =>
      split
      next => exact ⟨.plain,rfl,fun none => by cases none⟩
      next data done =>
        split
        next smaller => exact ⟨.compressed data enabled done smaller,rfl,fun none => by cases none⟩
        next => exact ⟨.plain,rfl,fun none => by cases none⟩
    next => exact ⟨.plain,rfl,fun none => by cases none⟩

end Encoding

/-- A range that can be imaged in chunks of whole sectors. -/
structure Imageable (src : Disk) (sectorSize : UInt32) (srcOffset length : UInt64) (chunkSize : UInt32) : Prop where
  positive : 0 < sectorSize.toNat
  someChunk : 0 < chunkSize.toNat
  chunkWhole : sectorSize.toNat ∣ chunkSize.toNat
  offsetWhole : sectorSize.toNat ∣ srcOffset.toNat
  lengthWhole : sectorSize.toNat ∣ length.toNat
  inside : srcOffset.toNat + length.toNat ≤ src.totalBytes.toNat

/-! The pieces a disk is cut into, as they go into an image: what is stored of those before
one, what is hashed of them, and the entry of one where the chunks begin at `base`. -/

section Pieces

variable (codec : Codec) (config : ImageCreateConfig) (piece : Nat → List UInt8)

def storedBefore (k : Nat) : List UInt8 := (List.range k).flatMap (fun k => storedBytes codec config (piece k))

def hashedBefore (k : Nat) : List UInt8 := (List.range k).flatMap piece

def entryOf (base k : Nat) : SpwChunkEntry :=
  (encodeChunk codec config (piece k) (UInt64.ofNat (base + (storedBefore codec config piece k).length))).1

theorem storedBefore_succ (k : Nat) : storedBefore codec config piece (k + 1) =
    storedBefore codec config piece k ++ storedBytes codec config (piece k) := by
  rw [storedBefore,List.range_succ,List.flatMap_append,List.flatMap_singleton,storedBefore]

theorem hashedBefore_succ (k : Nat) : hashedBefore piece (k + 1) = hashedBefore piece k ++ piece k := by
  rw [hashedBefore,List.range_succ,List.flatMap_append,List.flatMap_singleton,hashedBefore]

/-- The state before a chunk, with `front` reserved for the header and the table. -/
structure Created (front : List UInt8) (k : Nat) (st : CreateState) : Prop where
  content : st.file.content = front ++ storedBefore codec config piece k
  pos : st.file.pos = st.file.content.length
  offset : st.currentFileOffset = UInt64.ofNat (front.length + (storedBefore codec config piece k).length)
  processed : st.bytesProcessed = UInt64.ofNat (hashedBefore piece k).length
  table : st.chunkTable = (List.range k).map (entryOf codec config piece front.length)
  hashed : st.hashed = hashedBefore piece k

end Pieces

section Range

variable (src : Disk) (sectorSize : UInt32) (srcOffset length : UInt64) (chunkSize : UInt32)

def chunkLength (k : Nat) : Nat := min chunkSize.toNat (length.toNat - k * chunkSize.toNat)

def rangeChunk (k : Nat) : List UInt8 :=
  window src.byte (srcOffset.toNat + k * chunkSize.toNat) (chunkLength length chunkSize k)

/-- The size of a chunk is rounded to sectors in 32 bits. Where this fails it fails for the
first chunk, nothing is read, and so it goes on for all others. -/
def Rounds : Prop := min chunkSize.toNat length.toNat + sectorSize.toNat ≤ 2 ^ 32

instance : Decidable (Rounds sectorSize length chunkSize) := inferInstanceAs (Decidable (_ ≤ _))

def pieceRead (k : Nat) : List UInt8 :=
  if Rounds sectorSize length chunkSize then rangeChunk src srcOffset length chunkSize k else []

/-- A chunk is read while the bytes processed are those of the pieces before it. -/
def Reads (piece : Nat → List UInt8) (k : Nat) : Prop :=
  let chunkOffset := srcOffset + UInt64.ofNat k * chunkSize.toUInt64
  let remaining := length - UInt64.ofNat (hashedBefore piece k).length
  let thisChunkSize := (min chunkSize.toUInt64 remaining).toUInt32
  ∃ read, RawDiskHandle.readSectors .working src (chunkOffset / sectorSize.toUInt64)
      ((thisChunkSize + sectorSize - 1) / sectorSize).toUInt64 sectorSize = .ok read ∧
    read.take thisChunkSize.toNat = piece k

@[simp] theorem length_rangeChunk (k : Nat) :
    (rangeChunk src srcOffset length chunkSize k).length = chunkLength length chunkSize k := length_window _ _ _

theorem chunkLength_le (k : Nat) : chunkLength length chunkSize k ≤ chunkSize.toNat ∧
    chunkLength length chunkSize k ≤ length.toNat - k * chunkSize.toNat :=
  ⟨Nat.min_le_left _ _,Nat.min_le_right _ _⟩

theorem length_hashedBefore_range (k : Nat) :
    (hashedBefore (rangeChunk src srcOffset length chunkSize) k).length =
      min (k * chunkSize.toNat) length.toNat := by
  induction k with
  | zero => simp [hashedBefore]
  | succ k ih =>
    rw [hashedBefore_succ,List.length_append,ih,length_rangeChunk,chunkLength,Nat.add_mul,Nat.one_mul]
    omega

variable {src sectorSize srcOffset length chunkSize}

theorem Imageable.chunkLength_dvd (range : Imageable src sectorSize srcOffset length chunkSize) (k : Nat) :
    sectorSize.toNat ∣ chunkLength length chunkSize k := by
  unfold chunkLength
  rcases Nat.le_total chunkSize.toNat (length.toNat - k * chunkSize.toNat) with le | le
  · rw [Nat.min_eq_left le]
    exact range.chunkWhole
  · rw [Nat.min_eq_right le]
    exact Nat.dvd_sub range.lengthWhole (range.chunkWhole.mul_left k)

theorem Imageable.reads_range (range : Imageable src sectorSize srcOffset length chunkSize)
    (rounds : Rounds sectorSize length chunkSize) {k : Nat} (before : k * chunkSize.toNat < length.toNat) :
    Reads src sectorSize srcOffset length chunkSize (rangeChunk src srcOffset length chunkSize) k := by
  have limit := src.totalBytes.toNat_lt
  have inside := range.inside
  have one : (1 : UInt32).toNat = 1 := rfl
  have early : k ≤ k * chunkSize.toNat := Nat.le_mul_of_pos_right k range.someChunk
  obtain ⟨short,ends⟩ := chunkLength_le length chunkSize k
  unfold Rounds at rounds
  unfold Reads
  intro chunkOffset remaining thisChunkSize
  have left : remaining.toNat = length.toNat - k * chunkSize.toNat := by
    have processed : (UInt64.ofNat (hashedBefore (rangeChunk src srcOffset length chunkSize) k).length).toNat =
        k * chunkSize.toNat := by
      rw [length_hashedBefore_range,UInt64.toNat_ofNat',Nat.mod_eq_of_lt (by omega)]
      omega
    rw [UInt64.toNat_sub_of_le _ _ (by rw [UInt64.le_iff_toNat_le]; omega),processed]
  have width := chunkSize.toNat_lt
  have size : thisChunkSize.toNat = chunkLength length chunkSize k := by
    rw [UInt64.toNat_toUInt32,UInt64.toNat_min,UInt32.toNat_toUInt64,left,chunkLength,Nat.mod_eq_of_lt (by omega)]
  have place : chunkOffset.toNat = srcOffset.toNat + k * chunkSize.toNat := by
    have product : (UInt64.ofNat k * chunkSize.toUInt64).toNat = k * chunkSize.toNat := by
      rw [UInt64.toNat_mul,UInt64.toNat_ofNat',UInt32.toNat_toUInt64,Nat.mod_eq_of_lt (by omega : k < 2 ^ 64),
        Nat.mod_eq_of_lt (by omega)]
    rw [UInt64.toNat_add,product,Nat.mod_eq_of_lt (by omega)]
  have whole := range.chunkLength_dvd k
  have start : (chunkOffset / sectorSize.toUInt64 * sectorSize.toUInt64).toNat =
      srcOffset.toNat + k * chunkSize.toNat := by
    rw [sector_start (by rw [place]; exact Nat.dvd_add range.offsetWhole (range.chunkWhole.mul_left k)),place]
  have last : (thisChunkSize + sectorSize - 1).toNat = chunkLength length chunkSize k + sectorSize.toNat - 1 := by
    have positive := range.positive
    rw [UInt32.toNat_sub,UInt32.toNat_add,one,size]
    omega
  have bytes : (((thisChunkSize + sectorSize - 1) / sectorSize).toUInt64 * sectorSize.toUInt64).toNat =
      chunkLength length chunkSize k := by
    have rounded := roundUp_of_dvd range.positive whole
    rw [roundUp] at rounded
    rw [UInt64.toNat_mul,UInt32.toNat_toUInt64,UInt32.toNat_toUInt64,UInt32.toNat_div,last,rounded,
      Nat.mod_eq_of_lt (by omega)]
  refine ⟨_,readSectors_working src _ _ start bytes (by omega) (by omega),?_⟩
  rw [size]
  exact List.take_of_length_le (by rw [length_window])

theorem hashedBefore_nothing (k : Nat) : hashedBefore (fun _ => []) k = [] := by
  simp [hashedBefore]

theorem reads_nothing (positive : 0 < sectorSize.toNat) (wraps : ¬ Rounds sectorSize length chunkSize) (k : Nat) :
    Reads src sectorSize srcOffset length chunkSize (fun _ => []) k := by
  unfold Rounds at wraps
  unfold Reads
  intro chunkOffset remaining thisChunkSize
  have one : (1 : UInt32).toNat = 1 := rfl
  have width := chunkSize.toNat_lt
  have all : remaining = length := by
    simp only [remaining,hashedBefore_nothing,List.length_nil]
    exact UInt64.sub_zero _
  have size : thisChunkSize.toNat = min chunkSize.toNat length.toNat := by
    rw [UInt64.toNat_toUInt32,UInt64.toNat_min,UInt32.toNat_toUInt64,all,Nat.mod_eq_of_lt (by omega)]
  have none : (thisChunkSize + sectorSize - 1) / sectorSize = 0 := by
    have sector := sectorSize.toNat_lt
    apply UInt32.toNat_inj.mp
    rw [UInt32.toNat_div,UInt32.toNat_sub,UInt32.toNat_add,one,size,Nat.div_eq_of_lt (by omega)]
    rfl
  refine ⟨[],?_,List.take_nil⟩
  rw [none,RawDiskHandle.readSectors]
  exact if_pos rfl

theorem Imageable.reads (range : Imageable src sectorSize srcOffset length chunkSize) {k : Nat}
    (before : k * chunkSize.toNat < length.toNat) :
    Reads src sectorSize srcOffset length chunkSize (pieceRead src sectorSize srcOffset length chunkSize) k := by
  by_cases rounds : Rounds sectorSize length chunkSize
  · have same : pieceRead src sectorSize srcOffset length chunkSize = rangeChunk src srcOffset length chunkSize := by
      funext k
      exact if_pos rounds
    rw [same]
    exact range.reads_range rounds before
  · have same : pieceRead src sectorSize srcOffset length chunkSize = fun _ => [] := by
      funext k
      exact if_neg rounds
    rw [same]
    exact reads_nothing range.positive rounds k

end Range

section Loop

variable {codec : Codec} {env : CreateEnv} {src : Disk} {sectorSize : UInt32} {srcOffset length : UInt64}
  {config : ImageCreateConfig} {piece : Nat → List UInt8}

theorem QFile.write_end {file : QFile} (stands : file.pos = file.content.length) (data : List UInt8) :
    (file.write data data.length).2 = { content := file.content ++ data, pos := (file.content ++ data).length } := by
  rw [QFile.write]
  simp only [List.take_length,stands,splice_end,List.length_append]

theorem createChunk_works (works : env.Works) {k : Nat}
    (reads : Reads src sectorSize srcOffset length config.chunkSize piece k) {front : List UInt8} {st : CreateState}
    (created : Created codec config piece front k st) :
    ∃ st', createChunk codec env src sectorSize srcOffset length config k st = .ok st' ∧
      Created codec config piece front (k + 1) st' := by
  obtain ⟨read,arrived,whole⟩ := reads
  rw [← created.processed] at arrived whole
  obtain ⟨_,same,unstored⟩ := encodeChunk_encodes codec config (piece k) st.currentFileOffset
  have entry : (encodeChunk codec config (piece k) st.currentFileOffset).1 =
      entryOf codec config piece front.length k := by rw [entryOf,created.offset]
  have table : st.chunkTable ++ [entryOf codec config piece front.length k] =
      (List.range (k + 1)).map (entryOf codec config piece front.length) := by
    rw [created.table,List.range_succ,List.map_append,List.map_singleton]
  have hashed : st.hashed ++ piece k = hashedBefore piece (k + 1) := by
    rw [created.hashed,hashedBefore_succ]
  have processed : st.bytesProcessed + UInt64.ofNat (piece k).length =
      UInt64.ofNat (hashedBefore piece (k + 1)).length := by
    rw [created.processed,hashedBefore_succ,List.length_append,UInt64.ofNat_add]
  unfold createChunk
  simp only [works.cancelRequested,works.progressCb,works.disk,works.writeFile,arrived,bind,Except.bind,whole,
    Bool.false_eq_true,Bool.true_eq_false,if_false,pure,Except.pure]
  cases kind : (encodeChunk codec config (piece k) st.currentFileOffset).2 with
  | none =>
    have nothing := storedBefore_succ codec config piece k
    rw [unstored kind,List.append_nil] at nothing
    refine ⟨_,rfl,?_,created.pos,?_,processed,?_,hashed⟩
    · rw [nothing]
      exact created.content
    · rw [nothing]
      exact created.offset
    · rw [← table,entry]
  | some stored =>
    obtain ⟨data,context⟩ := stored
    have data_eq : data = storedBytes codec config (piece k) := by
      rw [← same,kind]
      rfl
    have grown : st.file.content ++ data = front ++ storedBefore codec config piece (k + 1) := by
      rw [created.content,storedBefore_succ,data_eq,List.append_assoc]
    refine ⟨_,rfl,?_,?_,?_,processed,?_,hashed⟩
    · rw [← grown]
      exact congrArg QFile.content (QFile.write_end created.pos data)
    · simp only [QFile.write_end created.pos data]
    · have longer := congrArg List.length (storedBefore_succ codec config piece k)
      rw [List.length_append,← data_eq] at longer
      rw [longer,← Nat.add_assoc,UInt64.ofNat_add (front.length + _),created.offset]
    · rw [← table,entry]

theorem createLoop_works (works : env.Works) {left k : Nat}
    (reads : ∀ j < k + left, Reads src sectorSize srcOffset length config.chunkSize piece j) {front : List UInt8}
    {st : CreateState} (created : Created codec config piece front k st) :
    ∃ st', createLoop codec env src sectorSize srcOffset length config left k st = .ok st' ∧
      Created codec config piece front (k + left) st' := by
  induction left generalizing k st with
  | zero => exact ⟨st,rfl,created⟩
  | succ left ih =>
    obtain ⟨next,first,created'⟩ := createChunk_works works (reads k (by omega)) created
    obtain ⟨last,rest,complete⟩ := ih (fun j below => reads j (by omega)) created'
    refine ⟨last,?_,?_⟩
    · rw [createLoop,first]
      exact rest
    · rwa [Nat.add_assoc,Nat.add_comm 1] at complete

end Loop

section Tables

variable {env : CreateEnv}

theorem writeWhole_works (works : env.Works) (write : ImageWrite) (context : String) (before part after data : List UInt8)
    (same : data.length = part.length) :
    writeWhole env { content := before ++ (part ++ after), pos := before.length } write data context =
      (.ok (),{ content := before ++ (data ++ after), pos := before.length + data.length }) := by
  simp only [writeWhole,works.writeFile,QFile.write,List.take_length,splice_middle _ _ _ _ same,ne_eq,not_true,
    if_false]

theorem writeWhole_end (works : env.Works) (write : ImageWrite) (context : String) (content data : List UInt8) :
    writeWhole env { content := content, pos := content.length } write data context =
      (.ok (),{ content := content ++ data, pos := content.length + data.length }) := by
  simp only [writeWhole,works.writeFile,QFile.write,List.take_length,splice_end,ne_eq,not_true,if_false]

theorem chunkCount_toNat (length : UInt64) (chunkSize : UInt32) (someChunk : 0 < chunkSize.toNat) :
    (chunkCount length chunkSize).toNat =
      (length.toNat + chunkSize.toNat - 1) % 2 ^ 64 / chunkSize.toNat % 2 ^ 32 := by
  have one : (1 : UInt64).toNat = 1 := rfl
  have sum : (length + chunkSize.toUInt64 - 1).toNat = (length.toNat + chunkSize.toNat - 1) % 2 ^ 64 := by
    rw [UInt64.toNat_sub,UInt64.toNat_add,one,UInt32.toNat_toUInt64]
    omega
  rw [chunkCount,UInt64.toNat_toUInt32,UInt64.toNat_div,sum,UInt32.toNat_toUInt64]

theorem chunk_begins {length : UInt64} {chunkSize : UInt32} (someChunk : 0 < chunkSize.toNat) {j : Nat}
    (counted : j < (chunkCount length chunkSize).toNat) : j * chunkSize.toNat < length.toNat := by
  rw [chunkCount_toNat _ _ someChunk] at counted
  have rounded := (Nat.mod_le ((length.toNat + chunkSize.toNat - 1) % 2 ^ 64 / chunkSize.toNat) (2 ^ 32)).trans
    (Nat.div_le_div_right (Nat.mod_le _ _))
  have whole : (j + 1) * chunkSize.toNat ≤ length.toNat + chunkSize.toNat - 1 :=
    (Nat.le_div_iff_mul_le someChunk).mp (by omega)
  rw [Nat.add_mul,Nat.one_mul] at whole
  omega

theorem tableSize_small {n : UInt32} (fits : n.toNat * SPW_ENTRY_SIZE < 2 ^ 32) :
    tableSize n = n.toNat * SPW_ENTRY_SIZE := Nat.mod_eq_of_lt fits

theorem reserve_works (works : env.Works) {header : SpwImageHeader}
    (fits : header.chunkCount.toNat * SPW_ENTRY_SIZE < 2 ^ 32) :
    reserve env header = .ok
      { content := header.serialize ++ tableBytes (List.replicate header.chunkCount.toNat {}),
        pos := SPW_HEADER_SIZE + header.chunkCount.toNat * SPW_ENTRY_SIZE } := by
  have first := writeWhole_end works .header "Failed to write SPW header" [] header.serialize
  rw [List.nil_append,List.length_nil,Nat.zero_add] at first
  have all : (tableBytes (List.replicate header.chunkCount.toNat {})).take (tableSize header.chunkCount) =
      tableBytes (List.replicate header.chunkCount.toNat {}) := by
    rw [tableSize_small fits]
    exact List.take_of_length_le (by rw [length_tableBytes,List.length_replicate])
  have second := writeWhole_end works .table "Failed to write SPW chunk table placeholder" header.serialize
    (tableBytes (List.replicate header.chunkCount.toNat {}))
  rw [length_tableBytes,List.length_replicate,SpwImageHeader.length_serialize] at second
  rw [reserve,first]
  simp only [all,second,SpwImageHeader.length_serialize]

theorem finish_works (works : env.Works) (codec : Codec) {header placed : SpwImageHeader} {st : CreateState}
    {placeholder stored : List UInt8} (fits : header.chunkCount.toNat * SPW_ENTRY_SIZE < 2 ^ 32)
    (content : st.file.content = placed.serialize ++ (placeholder ++ stored))
    (reserved : placeholder.length = header.chunkCount.toNat * SPW_ENTRY_SIZE)
    (complete : st.chunkTable.length = header.chunkCount.toNat) :
    let final := { header with sha256 := codec.sha256 st.hashed, sparseChunkCount := st.sparseCount }
    ∃ pos, finish codec env header st =
      (.ok (),{ content := final.serialize ++ (tableBytes st.chunkTable ++ stored), pos := pos }) := by
  intro final
  have first := writeWhole_works works .finalHeader "Failed to rewrite SPW header" [] placed.serialize
    (placeholder ++ stored) final.serialize (by rw [final.length_serialize,placed.length_serialize])
  rw [List.nil_append,List.nil_append,List.length_nil,Nat.zero_add,← content] at first
  have table : (tableBytes st.chunkTable).length = placeholder.length := by
    rw [length_tableBytes,reserved,complete]
  have all : (tableBytes st.chunkTable).take (tableSize header.chunkCount) = tableBytes st.chunkTable := by
    rw [tableSize_small fits,← reserved,← table,List.take_length]
  have second := writeWhole_works works .finalTable "Failed to rewrite SPW chunk table" final.serialize placeholder
    stored (tableBytes st.chunkTable) table
  refine ⟨final.serialize.length + (tableBytes st.chunkTable).length,?_⟩
  unfold finish
  rw [works.seekToStart]
  simp only
  rw [first]
  simp only [all]
  exact second

end Tables

section Image

variable {codec : Codec} {env : CreateEnv} {src : Disk} {sectorSize : UInt32} {srcOffset length : UInt64}
  {config : ImageCreateConfig}

def imageTable (codec : Codec) (config : ImageCreateConfig) (piece : Nat → List UInt8) (n : Nat) :
    List SpwChunkEntry :=
  (List.range n).map (entryOf codec config piece (SPW_HEADER_SIZE + n * SPW_ENTRY_SIZE))

def imageHeader (codec : Codec) (env : CreateEnv) (src : Disk) (sectorSize : UInt32) (length : UInt64)
    (config : ImageCreateConfig) (piece : Nat → List UInt8) (sparseCount : UInt32) : SpwImageHeader :=
  { initialHeader env src sectorSize length config with
    sha256 := codec.sha256 (hashedBefore piece (chunkCount length config.chunkSize).toNat)
    sparseChunkCount := sparseCount }

theorem createSpwImage_works (works : env.Works) {piece : Nat → List UInt8}
    (reads : ∀ j < (chunkCount length config.chunkSize).toNat,
      Reads src sectorSize srcOffset length config.chunkSize piece j)
    (fits : (chunkCount length config.chunkSize).toNat * SPW_ENTRY_SIZE < 2 ^ 32)
    (counted : chunkCount length config.chunkSize ≠ 0) :
    let n := (chunkCount length config.chunkSize).toNat
    ∃ sparseCount, createSpwImage codec env src sectorSize srcOffset length config =
      (.ok (),some ((imageHeader codec env src sectorSize length config piece sparseCount).serialize ++
        (tableBytes (imageTable codec config piece n) ++ storedBefore codec config piece n))) := by
  intro n
  let header := initialHeader env src sectorSize length config
  have count : header.chunkCount.toNat = n := rfl
  let front := header.serialize ++ tableBytes (List.replicate n {})
  have size : front.length = SPW_HEADER_SIZE + n * SPW_ENTRY_SIZE := by
    rw [List.length_append,header.length_serialize,length_tableBytes,List.length_replicate]
  have start : Created codec config piece front 0
      { file := { content := front, pos := SPW_HEADER_SIZE + n * SPW_ENTRY_SIZE },
        currentFileOffset := UInt64.ofNat SPW_HEADER_SIZE +
          header.chunkCount.toUInt64 * UInt64.ofNat SPW_ENTRY_SIZE } := by
    refine ⟨(List.append_nil front).symm,size.symm,?_,rfl,rfl,rfl⟩
    have product : header.chunkCount.toUInt64 = UInt64.ofNat n := by
      apply UInt64.toNat_inj.mp
      have width := header.chunkCount.toNat_lt
      rw [UInt32.toNat_toUInt64,UInt64.toNat_ofNat']
      exact (Nat.mod_eq_of_lt (by omega)).symm
    rw [size,product,← UInt64.ofNat_mul,← UInt64.ofNat_add]
    exact congrArg UInt64.ofNat (Nat.add_zero _).symm
  obtain ⟨st,looped,created⟩ := createLoop_works works
    (fun j below => reads j (by rwa [Nat.zero_add] at below)) start
  rw [Nat.zero_add] at created
  have chunks : createChunks codec env src sectorSize srcOffset length config = .ok st := by
    unfold createChunks
    refine bind_ok.mpr ⟨_,reserve_works works fits,?_⟩
    refine bind_unit_ok.mpr ⟨refuse_ok.mpr (by simp [works.opensSha256]),?_⟩
    exact bind_unit_ok.mpr ⟨refuse_ok.mpr (by simp [works.createsHash]),looped⟩
  have table : st.chunkTable = imageTable codec config piece n := by
    rw [created.table,size,imageTable]
  have small : header.chunkCount.toNat * SPW_ENTRY_SIZE < 2 ^ 32 := by rwa [count]
  have reserved : (tableBytes (List.replicate n {})).length = header.chunkCount.toNat * SPW_ENTRY_SIZE := by
    rw [length_tableBytes,List.length_replicate,count]
  have complete : st.chunkTable.length = header.chunkCount.toNat := by
    rw [table,imageTable,List.length_map,List.length_range,count]
  obtain ⟨pos,done⟩ := finish_works works codec small (created.content.trans (List.append_assoc _ _ _))
    reserved complete
  refine ⟨st.sparseCount,?_⟩
  have geometry : RawDiskHandle.getGeometry env.disk src = .ok src.totalBytes := by
    rw [works.disk]
    rfl
  unfold createSpwImage
  simp only [if_neg counted,works.createFile,geometry,chunks]
  rw [done,created.hashed,table]
  rfl

end Image

end ImageCreator

end SetecWizard.Core
