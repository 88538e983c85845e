import SetecWizard.Imaging.SpwRoundTrip

/-! When the restore of an untrusted image stays in its buffers and in its range. Header
and table are not checked for this: it hangs on the sizes of each chunk the restore gets to.
-/
namespace SetecWizard.Core
open SetecWizard.Library

namespace ImageRestorer

/-- Every buffer is read inside, and every write lies in a range. -/
structure RestoreRun.InRange {α : Type} (run : RestoreRun α) (low high : Nat) : Prop where
  reads : ∀ a ∈ run.accesses, a.Inside
  writes : ∀ w ∈ run.writes, low ≤ w.1 ∧ w.1 + w.2 ≤ high

section Sizes

variable (codec : Codec) (env : RestoreEnv) (content : List UInt8) (header : SpwImageHeader)
  (dstSectorSize : UInt32) (dstOffset : UInt64) (hashing : Bool) (chunkIdx : Nat) (entry : SpwChunkEntry)

/-- How many bytes a chunk needs of its buffer. Where the size wraps around when it is
rounded to sectors, and nothing else is done with the bytes, fewer are read. -/
def neededBytes : Nat :=
  if entry.isSparse = true ∧ hashing = false then
    min entry.uncompressedSize.toNat (alignedWriteSize dstSectorSize entry).toNat
  else entry.uncompressedSize.toNat

def SizesFit : Prop :=
  if entry.isSparse then neededBytes dstSectorSize hashing entry ≤ header.chunkSize.toNat
  else ∀ stored, readStored env content chunkIdx entry = .ok stored →
    if header.compressionType ≠ 0 ∧ entry.compressedSize ≠ entry.uncompressedSize then
      ∀ data, codec.decompressLZNT1 stored entry.uncompressedSize.toNat = .ok data →
        entry.uncompressedSize.toNat ≤ data.length
    else entry.uncompressedSize ≤ entry.compressedSize

def ChunkPasses : Prop := ∃ buffer, selectData codec env content header chunkIdx entry = .ok buffer ∧
  (entry.isSparse = true ∨ crc32 (buffer.take entry.uncompressedSize.toNat) = entry.crc32)

def chunkStart : Nat :=
  (dstOffset.toNat + chunkIdx * header.chunkSize.toNat) % 2 ^ 64 / dstSectorSize.toNat * dstSectorSize.toNat

def RangeFits (low high : Nat) : Prop :=
  alignedWriteSize dstSectorSize entry / dstSectorSize = 0 ∨
    (low ≤ chunkStart header dstSectorSize dstOffset chunkIdx ∧
      chunkStart header dstSectorSize dstOffset chunkIdx + (alignedWriteSize dstSectorSize entry).toNat ≤ high)

def ChunkFits (low high : Nat) : Prop :=
  SizesFit codec env content header dstSectorSize hashing chunkIdx entry ∧
    (ChunkPasses codec env content header chunkIdx entry →
      RangeFits header dstSectorSize dstOffset chunkIdx entry low high)

variable {codec env content header chunkIdx entry}

theorem length_readStored {stored : List UInt8} (read : readStored env content chunkIdx entry = .ok stored) :
    stored.length = entry.compressedSize.toNat := by
  unfold readStored at read
  split at read
  next => cases read
  next =>
    simp only at read
    split at read
    next => cases read
    next limit _ =>
      split at read
      next => cases read
      next enough =>
        injection read with same
        rw [← same]
        simp only [slice,List.length_take] at enough ⊢
        omega

variable {dstSectorSize dstOffset hashing}

theorem sizesFit_iff : SizesFit codec env content header dstSectorSize hashing chunkIdx entry ↔
    ∀ buffer, selectData codec env content header chunkIdx entry = .ok buffer →
      neededBytes dstSectorSize hashing entry ≤ buffer.length := by
  unfold SizesFit selectData
  split
  next sparse =>
    simp only [Except.ok.injEq,forall_eq',List.length_replicate]
  next stored =>
    have needed : neededBytes dstSectorSize hashing entry = entry.uncompressedSize.toNat :=
      if_neg (fun both => stored both.1)
    rw [needed]
    constructor
    · intro fits buffer selected
      obtain ⟨data,read,taken⟩ := bind_ok.mp selected
      have holds := fits data read
      split at holds
      next packed =>
        rw [if_pos packed] at taken
        exact holds buffer taken
      next plain =>
        rw [if_neg plain] at taken
        cases taken
        rw [length_readStored read]
        exact UInt32.le_iff_toNat_le.mp holds
    · intro fits data read
      split
      next packed =>
        intro buffer taken
        exact fits buffer (bind_ok.mpr ⟨data,read,by rwa [if_pos packed]⟩)
      next plain =>
        have enough := fits data (bind_ok.mpr ⟨data,read,by rw [if_neg plain]; rfl⟩)
        rw [length_readStored read] at enough
        exact UInt32.le_iff_toNat_le.mpr enough

theorem sizesFit_sparse (sparse : entry.isSparse = true) :
    SizesFit codec env content header dstSectorSize hashing chunkIdx entry ↔
      neededBytes dstSectorSize hashing entry ≤ header.chunkSize.toNat := by
  unfold SizesFit
  rw [if_pos sparse]

theorem checkCrc_safe (buffer : List UInt8) : (checkCrc env buffer chunkIdx entry).Safe ↔
    (entry.isSparse = true ∨ entry.uncompressedSize.toNat ≤ buffer.length) := by
  unfold checkCrc
  split
  next sparse => simp [sparse]
  next stored => simp [stored,readBuffer]

theorem hashInput_safe (buffer : List UInt8) : (hashInput env buffer hashing entry).Safe ↔
    (hashing = false ∨ entry.uncompressedSize.toNat ≤ buffer.length) := by
  unfold hashInput
  split
  next on => simp [on,readBuffer]
  next off => simp [off]

theorem hashInput_result (env : RestoreEnv) (buffer : List UInt8) (hashing : Bool) (entry : SpwChunkEntry) :
    ∃ hashed, (hashInput env buffer hashing entry).result = .ok hashed := by
  unfold hashInput
  split
  next => exact ⟨_,rfl⟩
  next => exact ⟨[],rfl⟩

theorem writeInput_result (env : RestoreEnv) (buffer : List UInt8) (dstSectorSize : UInt32)
    (entry : SpwChunkEntry) : ∃ bytes, (writeInput env buffer dstSectorSize entry).result = .ok bytes := by
  unfold writeInput
  simp only
  split
  next => exact ⟨_,rfl⟩
  next => exact ⟨_,rfl⟩

theorem writeInput_safe (buffer : List UInt8) : (writeInput env buffer dstSectorSize entry).Safe ↔
    min entry.uncompressedSize.toNat (alignedWriteSize dstSectorSize entry).toNat ≤ buffer.length := by
  unfold writeInput
  simp only [UInt32.lt_iff_toNat_lt]
  split
  next padded =>
    rw [Nat.min_eq_left (Nat.le_of_lt padded)]
    simp [readBuffer]
  next whole =>
    rw [Nat.min_eq_right (Nat.not_lt.mp whole)]
    simp [readBuffer]

theorem checkCrc_result {buffer : List UInt8}
    (enough : entry.isSparse = true ∨ entry.uncompressedSize.toNat ≤ buffer.length) :
    (checkCrc env buffer chunkIdx entry).result = .ok () ↔
      (entry.isSparse = true ∨ crc32 (buffer.take entry.uncompressedSize.toNat) = entry.crc32) := by
  unfold checkCrc
  split
  next sparse => simp [sparse]
  next stored =>
    rw [or_iff_right stored]
    have inside : entry.uncompressedSize.toNat ≤ buffer.length := enough.resolve_left stored
    have bytes : grab env buffer entry.uncompressedSize.toNat = buffer.take entry.uncompressedSize.toNat := by
      rw [grab,Nat.sub_eq_zero_of_le inside]
      exact List.append_nil _
    simp only [Footprint.result_bind,readBuffer,Footprint.result_access,Footprint.result_lift,bytes]
    constructor
    · intro checked
      obtain ⟨_,read,same⟩ := bind_ok.mp checked
      injection read with taken
      rw [← taken] at same
      split at same
      next equal => exact equal
      next => cases same
    · intro equal
      exact bind_ok.mpr ⟨_,rfl,if_pos equal⟩

theorem neededBytes_le_iff (n : Nat) : neededBytes dstSectorSize hashing entry ≤ n ↔
    (entry.isSparse = true ∨ entry.uncompressedSize.toNat ≤ n) ∧
      (hashing = false ∨ entry.uncompressedSize.toNat ≤ n) ∧
      min entry.uncompressedSize.toNat (alignedWriteSize dstSectorSize entry).toNat ≤ n := by
  unfold neededBytes
  split
  next idle => simp [idle.1,idle.2]
  next used =>
    constructor
    · intro enough
      exact ⟨.inr enough,.inr enough,(Nat.min_le_left _ _).trans enough⟩
    · rintro ⟨sparse | enough,off | enough,_⟩
      · exact absurd ⟨sparse,off⟩ used
      all_goals exact enough

theorem chunkData_safe : (chunkData codec env content header dstSectorSize hashing chunkIdx entry).Safe ↔
    SizesFit codec env content header dstSectorSize hashing chunkIdx entry := by
  rw [sizesFit_iff]
  unfold chunkData
  simp only [Footprint.safe_bind,Footprint.safe_lift,Footprint.result_lift,Footprint.safe_pure,checkCrc_safe,
    hashInput_safe,writeInput_safe,true_and,implies_true,and_true]
  constructor
  · intro safe buffer selected
    obtain ⟨crc,rest⟩ := safe buffer selected
    rw [neededBytes_le_iff]
    refine ⟨crc,?_⟩
    rcases crc with sparse | inside
    · obtain ⟨hash,write⟩ := rest () ((checkCrc_result (.inl sparse)).mpr (.inl sparse))
      obtain ⟨hashed,done⟩ := hashInput_result env buffer hashing entry
      exact ⟨hash,write hashed done⟩
    · exact ⟨.inr inside,(Nat.min_le_left _ _).trans inside⟩
  · intro fits buffer selected
    obtain ⟨crc,hash,write⟩ := (neededBytes_le_iff _).mp (fits buffer selected)
    exact ⟨crc,fun _ _ => ⟨hash,fun _ _ => write⟩⟩

theorem chunkData_result (fits : SizesFit codec env content header dstSectorSize hashing chunkIdx entry) :
    (∃ data, (chunkData codec env content header dstSectorSize hashing chunkIdx entry).result = .ok data) ↔
      ChunkPasses codec env content header chunkIdx entry := by
  rw [sizesFit_iff] at fits
  unfold chunkData ChunkPasses
  simp only [Footprint.result_bind,Footprint.result_lift,Footprint.result_pure]
  constructor
  · rintro ⟨data,done⟩
    obtain ⟨buffer,selected,rest⟩ := bind_ok.mp done
    obtain ⟨_,checked,_⟩ := bind_ok.mp rest
    have enough := ((neededBytes_le_iff _).mp (fits buffer selected)).1
    exact ⟨buffer,selected,(checkCrc_result enough).mp checked⟩
  · rintro ⟨buffer,selected,checked⟩
    have enough := ((neededBytes_le_iff _).mp (fits buffer selected)).1
    obtain ⟨hashed,hash⟩ := hashInput_result env buffer hashing entry
    obtain ⟨bytes,write⟩ := writeInput_result env buffer dstSectorSize entry
    exact ⟨(hashed,bytes),bind_ok.mpr ⟨buffer,selected,bind_ok.mpr ⟨(),(checkCrc_result enough).mpr checked,
      bind_ok.mpr ⟨hashed,hash,bind_ok.mpr ⟨bytes,write,rfl⟩⟩⟩⟩⟩

theorem chunkStart_toNat : ((dstOffset + UInt64.ofNat chunkIdx * header.chunkSize.toUInt64) /
      dstSectorSize.toUInt64 * dstSectorSize.toUInt64).toNat =
    chunkStart header dstSectorSize dstOffset chunkIdx := by
  rw [sector_floor,chunkStart,UInt64.toNat_add,UInt64.toNat_mul,UInt64.toNat_ofNat',UInt32.toNat_toUInt64,
    Nat.mod_mul_mod,Nat.add_mod_mod]

theorem restoreChunk_footprint (st : ChunkState) (disk : Disk) (runs : env.cancelRequested chunkIdx = false) :
    let data := chunkData codec env content header dstSectorSize hashing chunkIdx entry
    let run := restoreChunk codec env content header dstSectorSize dstOffset hashing chunkIdx entry st disk
    run.accesses = data.accesses ∧ ∀ w, w ∈ run.writes ↔ (∃ bytes, data.result = .ok bytes) ∧
      alignedWriteSize dstSectorSize entry / dstSectorSize ≠ 0 ∧
      w = (chunkStart header dstSectorSize dstOffset chunkIdx,(alignedWriteSize dstSectorSize entry).toNat) := by
  intro data run
  have sectors : ((alignedWriteSize dstSectorSize entry / dstSectorSize).toUInt64 = 0) =
      (alignedWriteSize dstSectorSize entry / dstSectorSize = 0) := by
    simp only [← UInt64.toNat_inj,← UInt32.toNat_inj,UInt32.toNat_toUInt64]
    rfl
  simp only [run,restoreChunk,runs,Bool.false_eq_true,if_false,chunkStart_toNat,sectors]
  cases result : data.result with
  | error e => exact ⟨rfl,fun w => by simp⟩
  | ok both =>
    have listed : ∀ w, w ∈ (if alignedWriteSize dstSectorSize entry / dstSectorSize = 0 then []
        else [(chunkStart header dstSectorSize dstOffset chunkIdx,(alignedWriteSize dstSectorSize entry).toNat)]) ↔
          (∃ bytes, (Except.ok both : Result _) = .ok bytes) ∧
            alignedWriteSize dstSectorSize entry / dstSectorSize ≠ 0 ∧
            w = (chunkStart header dstSectorSize dstOffset chunkIdx,
              (alignedWriteSize dstSectorSize entry).toNat) := by
      intro w
      by_cases none : alignedWriteSize dstSectorSize entry / dstSectorSize = 0 <;> simp [none]
    simp only
    split
    next => exact ⟨rfl,listed⟩
    next =>
      split
      next => exact ⟨rfl,listed⟩
      next => exact ⟨rfl,listed⟩

theorem restoreChunk_inRange (st : ChunkState) (disk : Disk) (low high : Nat) :
    (restoreChunk codec env content header dstSectorSize dstOffset hashing chunkIdx entry st disk).InRange low high ↔
      (env.cancelRequested chunkIdx = false →
        ChunkFits codec env content header dstSectorSize dstOffset hashing chunkIdx entry low high) := by
  cases canceled : env.cancelRequested chunkIdx with
  | true =>
    refine ⟨fun _ runs => (Bool.noConfusion runs),fun _ => ?_⟩
    rw [restoreChunk,if_pos canceled]
    constructor <;> simp
  | false =>
    obtain ⟨accesses,writes⟩ := @restoreChunk_footprint codec env content header dstSectorSize dstOffset hashing
      chunkIdx entry st disk canceled
    have reads : (∀ a ∈ (restoreChunk codec env content header dstSectorSize dstOffset hashing chunkIdx entry st
        disk).accesses, a.Inside) ↔ SizesFit codec env content header dstSectorSize hashing chunkIdx entry := by
      rw [accesses]
      exact chunkData_safe
    constructor
    · intro inRange _
      have fits := reads.mp inRange.reads
      refine ⟨fits,fun passes => ?_⟩
      by_cases none : alignedWriteSize dstSectorSize entry / dstSectorSize = 0
      · exact .inl none
      · exact .inr (inRange.writes _ ((writes _).mpr ⟨(chunkData_result fits).mpr passes,none,rfl⟩))
    · intro fitting
      obtain ⟨fits,range⟩ := fitting rfl
      refine ⟨reads.mpr fits,fun w member => ?_⟩
      obtain ⟨passes,some,rfl⟩ := (writes w).mp member
      exact (range ((chunkData_result fits).mp passes)).resolve_left some

end Sizes

section Runs

variable (codec : Codec) (env : RestoreEnv) (content : List UInt8) (header : SpwImageHeader)
  (dstSectorSize : UInt32) (dstOffset : UInt64) (hashing : Bool)

theorem restoreLoop_inRange (entries : List SpwChunkEntry) (k : Nat) (st : ChunkState) (disk : Disk)
    (low high : Nat) :
    (restoreLoop codec env content header dstSectorSize dstOffset hashing entries k st disk).InRange low high ↔
      ∀ j entry, entries[j]? = some entry →
        (∃ last, (restoreLoop codec env content header dstSectorSize dstOffset hashing (entries.take j) k st
          disk).result = .ok last) →
        env.cancelRequested (k + j) = false →
        ChunkFits codec env content header dstSectorSize dstOffset hashing (k + j) entry low high := by
  induction entries generalizing k st disk with
  | nil =>
    refine ⟨fun _ j entry found => by simp at found,fun _ => ?_⟩
    constructor <;> simp [restoreLoop]
  | cons entry rest ih =>
    have step := @restoreChunk_inRange codec env content header dstSectorSize dstOffset hashing k entry st disk low high
    cases first : (restoreChunk codec env content header dstSectorSize dstOffset hashing k entry st disk).result with
    | error e =>
      have whole : (restoreLoop codec env content header dstSectorSize dstOffset hashing (entry :: rest) k st
          disk).InRange low high ↔
            (restoreChunk codec env content header dstSectorSize dstOffset hashing k entry st disk).InRange low
              high := by
        simp only [restoreLoop,first]
        exact ⟨fun whole => ⟨whole.reads,whole.writes⟩,fun loop => ⟨loop.reads,loop.writes⟩⟩
      rw [whole,step]
      constructor
      · intro fits j entry' found reached runs
        cases j with
        | zero =>
          cases found
          exact fits runs
        | succ j =>
          obtain ⟨last,done⟩ := reached
          simp only [List.take_succ_cons,restoreLoop,first] at done
          cases done
      · exact fun fits runs => fits 0 entry rfl ⟨st,rfl⟩ runs
    | ok next =>
      have whole : (restoreLoop codec env content header dstSectorSize dstOffset hashing (entry :: rest) k st
          disk).InRange low high ↔
            (restoreChunk codec env content header dstSectorSize dstOffset hashing k entry st disk).InRange low
              high ∧
            (restoreLoop codec env content header dstSectorSize dstOffset hashing rest (k + 1) next
              (restoreChunk codec env content header dstSectorSize dstOffset hashing k entry st disk).disk).InRange
                low high := by
        simp only [restoreLoop,first]
        constructor
        · rintro ⟨reads,writes⟩
          exact ⟨⟨fun a member => reads a (List.mem_append_left _ member),
              fun w member => writes w (List.mem_append_left _ member)⟩,
            ⟨fun a member => reads a (List.mem_append_right _ member),
              fun w member => writes w (List.mem_append_right _ member)⟩⟩
        · rintro ⟨⟨reads,writes⟩,⟨reads',writes'⟩⟩
          exact ⟨fun a member => (List.mem_append.mp member).elim (reads a) (reads' a),
            fun w member => (List.mem_append.mp member).elim (writes w) (writes' w)⟩
      rw [whole,step,ih]
      constructor
      · rintro ⟨fits,later⟩ j entry' found reached runs
        cases j with
        | zero =>
          cases found
          exact fits runs
        | succ j =>
          obtain ⟨last,done⟩ := reached
          simp only [List.take_succ_cons,restoreLoop,first] at done
          have index : k + 1 + j = k + (j + 1) := by omega
          have there := later j entry' found ⟨last,done⟩
          rw [index] at there
          exact there runs
      · intro fits
        refine ⟨fun runs => fits 0 entry rfl ⟨st,rfl⟩ runs,fun j entry' found reached runs => ?_⟩
        obtain ⟨last,done⟩ := reached
        have index : k + 1 + j = k + (j + 1) := by omega
        rw [index] at runs ⊢
        refine fits (j + 1) entry' found ⟨last,?_⟩ runs
        simp only [List.take_succ_cons,restoreLoop,first]
        exact done

theorem restoreImage_inRange (dstOffset : UInt64) (verify : Bool) (disk : Disk) {header : SpwImageHeader}
    {chunkTable : List SpwChunkEntry}
    (accepted : readTables env content disk.totalBytes dstOffset = .ok (header,chunkTable)) (low high : Nat) :
    (restoreImage codec env content dstSectorSize dstOffset verify disk).InRange low high ↔
      (restoreLoop codec env content header dstSectorSize dstOffset (verify && env.hashes) chunkTable 0 ([],0)
        disk).InRange low high := by
  simp only [restoreImage,accepted,restoreSpwImage]
  exact ⟨fun whole => ⟨whole.reads,whole.writes⟩,fun loop => ⟨loop.reads,loop.writes⟩⟩

/-- Restoring an accepted image stays in its buffers and in its range when every chunk fits
in the table; it does exactly when those fit that the restore gets to. -/
theorem restore_inRange_iff (dstOffset : UInt64) (verify : Bool) (disk : Disk) {header : SpwImageHeader}
    {chunkTable : List SpwChunkEntry}
    (accepted : readTables env content disk.totalBytes dstOffset = .ok (header,chunkTable)) :
    let hashing := verify && env.hashes
    let high := min (dstOffset.toNat + roundUp header.imageDataSize.toNat dstSectorSize.toNat)
      disk.totalBytes.toNat
    let fits (k : Nat) (entry : SpwChunkEntry) :=
      ChunkFits codec env content header dstSectorSize dstOffset hashing k entry dstOffset.toNat high
    let run := restoreImage codec env content dstSectorSize dstOffset verify disk
    ((∀ k entry, chunkTable[k]? = some entry → fits k entry) → run.InRange dstOffset.toNat high) ∧
    (run.InRange dstOffset.toNat high ↔ ∀ k entry, chunkTable[k]? = some entry →
      (∃ last, (restoreLoop codec env content header dstSectorSize dstOffset hashing (chunkTable.take k) 0 ([],0)
        disk).result = .ok last) → env.cancelRequested k = false → fits k entry) := by
  intro hashing high fits run
  have exactly : run.InRange dstOffset.toNat high ↔ ∀ k entry, chunkTable[k]? = some entry →
      (∃ last, (restoreLoop codec env content header dstSectorSize dstOffset hashing (chunkTable.take k) 0 ([],0)
        disk).result = .ok last) → env.cancelRequested k = false → fits k entry := by
    simp only [run]
    rw [restoreImage_inRange codec env content dstSectorSize dstOffset verify disk accepted,restoreLoop_inRange]
    simp only [Nat.zero_add,fits,hashing]
  exact ⟨fun all => exactly.mpr (fun k entry found _ _ => all k entry found),exactly⟩

end Runs

section Sample

/-- An image of one chunk of 512 bytes that is not stored. -/
def emptyImage (imageDataSize : UInt64) : SpwImageHeader :=
  { magic := SPW_IMAGE_MAGIC, version := 1, imageDataSize := imageDataSize, chunkSize := 512, chunkCount := 1 }

def emptyChunk (size : UInt32) : SpwChunkEntry := { uncompressedSize := size, flags := 1 }

def imageOf (header : SpwImageHeader) (chunkTable : List SpwChunkEntry) : List UInt8 :=
  header.serialize ++ (tableBytes chunkTable ++ [])

def target : Disk := ⟨4096,fun _ => 0xFF⟩

def threeChunks : List SpwChunkEntry :=
  [emptyChunk 512,
    { fileOffset := 432, compressedSize := 512, uncompressedSize := 512, crc32 := crc32 (List.replicate 512 0x55) },
    { fileOffset := 944, compressedSize := 6, uncompressedSize := 512, crc32 := crc32 (List.replicate 512 0xAA) }]

def threeHeader : SpwImageHeader :=
  { magic := SPW_IMAGE_MAGIC, version := 1, imageDataSize := 1536, chunkSize := 512, chunkCount := 3,
    compressionType := 1 }

def threeImage : List UInt8 :=
  threeHeader.serialize ++ (tableBytes threeChunks ++ (List.replicate 512 0x55 ++ [0x03,0xB0,0x02,0xAA,0xFC,0x01]))

theorem restore_sample : (restoreImage oneValue {} threeImage 512 0 true target).InRange 0 1536 := by
  have accepted : readTables {} threeImage target.totalBytes 0 = .ok (threeHeader,threeChunks) :=
    readTables_works restoreEnv_works rfl rfl rfl (by decide) (by decide)
  refine (restore_inRange_iff oneValue {} threeImage 512 0 true target accepted).1 (fun k entry found => ?_)
  rcases k with _ | _ | _ | k
  · cases found
    exact ⟨(sizesFit_sparse rfl).mpr (by decide),fun _ => .inr (by decide)⟩
  · cases found
    refine ⟨?_,fun _ => .inr (by decide)⟩
    rw [SizesFit,if_neg (by decide)]
    intro stored _
    rw [if_neg (by decide)]
    exact UInt32.le_refl _
  · cases found
    refine ⟨?_,fun _ => .inr (by decide)⟩
    rw [SizesFit,if_neg (by decide)]
    intro stored _
    rw [if_pos (by decide)]
    intro data unpacked
    simp only [oneValue] at unpacked
    split at unpacked
    · cases unpacked
      rw [List.length_replicate]
      rfl
    · cases unpacked
  · cases found

/-- A chunk of zeros that claims to be larger than all chunks is read behind its buffer. -/
theorem large_chunk_overread :
    readTables {} (imageOf (emptyImage 1024) [emptyChunk 1024]) target.totalBytes 0 =
      .ok (emptyImage 1024,[emptyChunk 1024]) ∧
    ¬ (restoreImage oneValue {} (imageOf (emptyImage 1024) [emptyChunk 1024]) 512 0 true target).InRange 0 1024 := by
  have accepted : readTables {} (imageOf (emptyImage 1024) [emptyChunk 1024]) target.totalBytes 0 =
      .ok (emptyImage 1024,[emptyChunk 1024]) :=
    readTables_works restoreEnv_works rfl rfl rfl (by decide) (by decide)
  refine ⟨accepted,fun inRange => ?_⟩
  rw [restoreImage_inRange _ _ _ _ _ _ _ accepted,restoreLoop_inRange] at inRange
  have fits := (sizesFit_sparse rfl).mp (inRange 0 (emptyChunk 1024) rfl ⟨_,rfl⟩ rfl).1
  revert fits
  decide

end Sample

end ImageRestorer
end SetecWizard.Core
