import SetecWizard.Imaging.SpwRestore

/-! The round trip through an SPW image. What comes back is the part of the range that
the chunk count covers; the count is cut to 32 bits, and so is the size of a chunk when
it is rounded to sectors.
-/
namespace SetecWizard.Core
open SetecWizard.Library

namespace ImageRestorer
open ImageCreator

section Parts

variable (codec : Codec) (config : ImageCreateConfig) (piece : Nat → List UInt8)

theorem storedBefore_split {k n : Nat} (below : k < n) : ∃ rest,
    storedBefore codec config piece n =
      storedBefore codec config piece k ++ (storedBytes codec config (piece k) ++ rest) := by
  induction n with
  | zero => exact absurd below (Nat.not_lt_zero _)
  | succ n ih =>
    rw [storedBefore_succ]
    by_cases last : k = n
    · rw [last]
      exact ⟨[],by rw [List.append_nil]⟩
    · obtain ⟨rest,split⟩ := ih (by omega)
      exact ⟨rest ++ storedBytes codec config (piece n),by rw [split,List.append_assoc,List.append_assoc]⟩

theorem Encodes.length_le {codec : Codec} {config : ImageCreateConfig} {raw stored : List UInt8} {off : UInt64}
    {entry : SpwChunkEntry} (encodes : Encodes codec config raw off entry stored) :
    stored.length ≤ raw.length := by
  cases encodes with
  | sparse zeros => exact Nat.zero_le _
  | plain => exact Nat.le_refl _
  | compressed data enabled done smaller => exact Nat.le_of_lt smaller

variable {piece}

theorem length_storedBefore {size : Nat} (short : ∀ k, (piece k).length ≤ size) (k : Nat) :
    (storedBefore codec config piece k).length ≤ k * size := by
  induction k with
  | zero => exact Nat.zero_le _
  | succ k ih =>
    have more := Encodes.length_le (encodeChunk_encodes codec config (piece k) 0).1
    have least := short k
    rw [storedBefore_succ,List.length_append,Nat.add_mul,Nat.one_mul]
    omega

variable {codec config}

theorem imageTable_holds {n k : Nat} (below : k < n) (fits : n * SPW_ENTRY_SIZE < 2 ^ 32)
    (short : ∀ k, (piece k).length ≤ config.chunkSize.toNat) {front : List UInt8}
    (size : front.length = SPW_HEADER_SIZE + n * SPW_ENTRY_SIZE) :
    Holds codec config (front ++ storedBefore codec config piece n) (piece k)
      (entryOf codec config piece (SPW_HEADER_SIZE + n * SPW_ENTRY_SIZE) k) := by
  have header : SPW_HEADER_SIZE = 360 := rfl
  have entrySize : SPW_ENTRY_SIZE = 24 := rfl
  have before := length_storedBefore codec config short k
  have width := config.chunkSize.toNat_lt
  have most : k * config.chunkSize.toNat ≤ 2 ^ 28 * 2 ^ 32 := by
    rw [entrySize] at fits
    exact Nat.mul_le_mul (by omega) (by omega)
  have place : (UInt64.ofNat (SPW_HEADER_SIZE + n * SPW_ENTRY_SIZE +
      (storedBefore codec config piece k).length)).toNat =
        SPW_HEADER_SIZE + n * SPW_ENTRY_SIZE + (storedBefore codec config piece k).length := by
    rw [UInt64.toNat_ofNat',Nat.mod_eq_of_lt (by omega)]
  refine ⟨_,_,(encodeChunk_encodes codec config _ _).1,by omega,?_⟩
  obtain ⟨rest,split⟩ := storedBefore_split codec config piece below
  rw [place,split,← size,← List.append_assoc front,← List.length_append]
  exact slice_middle _ _ _

end Parts

section Image

variable {codec : Codec} {createEnv : CreateEnv} {restoreEnv : RestoreEnv} {src dst : Disk} {sectorSize : UInt32}
  {srcOffset length dstOffset : UInt64} {config : ImageCreateConfig}

/-- A place on a disk with room for the range. -/
structure Room (disk : Disk) (sectorSize : UInt32) (dstOffset length : UInt64) : Prop where
  offsetWhole : sectorSize.toNat ∣ dstOffset.toNat
  inside : dstOffset.toNat + length.toNat ≤ disk.totalBytes.toNat

theorem length_pieceRead_le (src : Disk) (sectorSize : UInt32) (srcOffset length : UInt64) (chunkSize : UInt32)
    (k : Nat) : (pieceRead src sectorSize srcOffset length chunkSize k).length ≤ chunkSize.toNat := by
  unfold pieceRead
  split
  next =>
    rw [length_rangeChunk]
    exact (chunkLength_le length chunkSize k).1
  next => exact Nat.zero_le _

theorem pieceRead_placed (range : Imageable src sectorSize srcOffset length config.chunkSize)
    (room : Room dst sectorSize dstOffset length) {k : Nat} (before : k * config.chunkSize.toNat < length.toNat) :
    Placed dst sectorSize config.chunkSize dstOffset k
      (pieceRead src sectorSize srcOffset length config.chunkSize k) := by
  have early : k ≤ k * config.chunkSize.toNat := Nat.le_mul_of_pos_right k range.someChunk
  have bound := length.toNat_lt
  have inside := room.inside
  have short := length_pieceRead_le src sectorSize srcOffset length config.chunkSize k
  unfold pieceRead at short ⊢
  split at short
  next rounds =>
    rw [if_pos rounds]
    have ends := (chunkLength_le length config.chunkSize k).2
    have whole := range.chunkLength_dvd k
    unfold Rounds at rounds
    rw [← length_rangeChunk src srcOffset] at ends whole
    exact ⟨by omega,whole,by omega,short,by omega⟩
  next wraps =>
    have sector := sectorSize.toNat_lt
    rw [if_neg wraps]
    exact ⟨by omega,Nat.dvd_zero _,by rw [List.length_nil]; omega,short,by rw [List.length_nil]; omega⟩

theorem restored_pieces (inverts : codec.Inverts) (createWorks : createEnv.Works) (restoreWorks : restoreEnv.Works)
    (range : Imageable src sectorSize srcOffset length config.chunkSize)
    (room : Room dst sectorSize dstOffset length)
    (fits : (chunkCount length config.chunkSize).toNat * SPW_ENTRY_SIZE < 2 ^ 32)
    (counted : chunkCount length config.chunkSize ≠ 0) :
    ∃ image, createSpwImage codec createEnv src sectorSize srcOffset length config = (.ok (),some image) ∧
      (restoreImage codec restoreEnv image sectorSize dstOffset true dst).result = .ok () ∧
      (restoreImage codec restoreEnv image sectorSize dstOffset true dst).disk =
        patchedFrom (pieceRead src sectorSize srcOffset length config.chunkSize) dstOffset.toNat
          config.chunkSize.toNat 0 (chunkCount length config.chunkSize).toNat dst := by
  let n := (chunkCount length config.chunkSize).toNat
  let piece := pieceRead src sectorSize srcOffset length config.chunkSize
  have begins : ∀ j < n, j * config.chunkSize.toNat < length.toNat := fun j below =>
    chunk_begins range.someChunk below
  obtain ⟨sparseCount,created⟩ := @createSpwImage_works codec _ _ _ _ _ _ createWorks piece
    (fun j below => range.reads (begins j below)) fits counted
  let header := imageHeader codec createEnv src sectorSize length config piece sparseCount
  let table := imageTable codec config piece n
  let image := header.serialize ++ (tableBytes table ++ storedBefore codec config piece n)
  have count : table.length = n := by
    simp only [table,imageTable,List.length_map,List.length_range]
  have read : readTables restoreEnv image dst.totalBytes dstOffset = .ok (header,table) :=
    readTables_works restoreWorks rfl rfl count fits room.inside
  have described : Describing config header sectorSize dstOffset := by
    refine ⟨rfl,fun enabled => ?_,range.positive,range.chunkWhole,room.offsetWhole⟩
    simp [header,imageHeader,initialHeader,enabled]
  have holds : ∀ j, (bound : j < table.length) → Holds codec config image (piece (0 + j)) table[j] := by
    intro j bound
    have inside : j < n := count ▸ bound
    have size : (header.serialize ++ tableBytes table).length = SPW_HEADER_SIZE + n * SPW_ENTRY_SIZE := by
      rw [List.length_append,header.length_serialize,length_tableBytes,count]
    have held : Holds codec config ((header.serialize ++ tableBytes table) ++ storedBefore codec config piece n)
        (piece j) (entryOf codec config piece (SPW_HEADER_SIZE + n * SPW_ENTRY_SIZE) j) :=
      imageTable_holds inside fits (length_pieceRead_le src sectorSize srcOffset length _) size
    rw [List.append_assoc] at held
    simp only [table,imageTable,List.getElem_map,List.getElem_range,Nat.zero_add]
    exact held
  have placed : ∀ j < table.length, Placed dst sectorSize config.chunkSize dstOffset (0 + j) (piece (0 + j)) := by
    intro j bound
    rw [Nat.zero_add]
    exact pieceRead_placed range room (begins j (count ▸ bound))
  obtain ⟨total,result,disk⟩ := restoreLoop_works restoreWorks inverts described (true && restoreEnv.hashes) placed
    holds ([],0)
  rw [count] at result disk
  refine ⟨image,created,?_,?_⟩
  · have verified : (if (true && restoreEnv.hashes) = true then
        verifyHash codec header ([] ++ (if (true && restoreEnv.hashes) = true then hashedFrom piece 0 n else []))
        else .ok ()) = .ok () := by
      split
      next =>
        rw [hashedFrom_start,List.nil_append]
        exact refuse_ok.mpr (fun differs => differs.2 rfl)
      next => rfl
    simp only [restoreImage,read,restoreSpwImage,result]
    exact verified
  · simp only [restoreImage,read,restoreSpwImage,disk]
    rfl

/-- How far the range comes back. -/
def covered (sectorSize : UInt32) (length : UInt64) (chunkSize : UInt32) : Nat :=
  if Rounds sectorSize length chunkSize then
    min ((chunkCount length chunkSize).toNat * chunkSize.toNat) length.toNat
  else 0

theorem covered_le (sectorSize : UInt32) (length : UInt64) (chunkSize : UInt32) :
    covered sectorSize length chunkSize ≤ length.toNat := by
  unfold covered
  split
  next => exact Nat.min_le_right _ _
  next => exact Nat.zero_le _

theorem patchedFrom_covered (src dst : Disk) (sectorSize : UInt32) (srcOffset length : UInt64) (chunkSize : UInt32)
    (origin : Nat) :
    Cloned (src.from srcOffset.toNat) origin 0 (covered sectorSize length chunkSize)
      (covered sectorSize length chunkSize) dst
      (patchedFrom (pieceRead src sectorSize srcOffset length chunkSize) origin chunkSize.toNat 0
        (chunkCount length chunkSize).toNat dst) := by
  unfold covered
  by_cases rounds : Rounds sectorSize length chunkSize
  · have same : pieceRead src sectorSize srcOffset length chunkSize = rangeChunk src srcOffset length chunkSize := by
      funext k
      exact if_pos rounds
    have cloned := patchedFrom_range src srcOffset length chunkSize origin 0 (chunkCount length chunkSize).toNat dst
    rw [Nat.zero_mul,Nat.zero_min,Nat.zero_add] at cloned
    rw [same,if_pos rounds]
    exact cloned
  · have same : pieceRead src sectorSize srcOffset length chunkSize = fun _ => [] := by
      funext k
      exact if_neg rounds
    rw [same,if_neg rounds,patchedFrom_nothing]
    exact .refl _ _ _ _

/-- Creating an image of a range and restoring it brings the range to its new place, and
nothing else changes there. -/
def RoundTrips (codec : Codec) (createEnv : CreateEnv) (restoreEnv : RestoreEnv) (src dst : Disk)
    (sectorSize : UInt32) (srcOffset length dstOffset : UInt64) (config : ImageCreateConfig) : Prop :=
  ∃ image, createSpwImage codec createEnv src sectorSize srcOffset length config = (.ok (),some image) ∧
    (restoreImage codec restoreEnv image sectorSize dstOffset true dst).result = .ok () ∧
    (∀ i < length.toNat, (restoreImage codec restoreEnv image sectorSize dstOffset true dst).disk.byte
      (dstOffset.toNat + i) = src.byte (srcOffset.toNat + i)) ∧
    ∀ i, i < dstOffset.toNat ∨ dstOffset.toNat + length.toNat ≤ i →
      (restoreImage codec restoreEnv image sectorSize dstOffset true dst).disk.byte i = dst.byte i

def neededChunks (length : UInt64) (chunkSize : UInt32) : Nat :=
  (length.toNat + chunkSize.toNat - 1) / chunkSize.toNat

theorem covered_all {sectorSize chunkSize : UInt32} {length : UInt64} (someChunk : 0 < chunkSize.toNat)
    (positive : 0 < length.toNat) (few : neededChunks length chunkSize < 2 ^ 32)
    (rounds : Rounds sectorSize length chunkSize) :
    (chunkCount length chunkSize).toNat = neededChunks length chunkSize ∧
      0 < neededChunks length chunkSize ∧ covered sectorSize length chunkSize = length.toNat := by
  have width := chunkSize.toNat_lt
  have all : length.toNat ≤ neededChunks length chunkSize * chunkSize.toNat := le_roundUp someChunk
  have product : (neededChunks length chunkSize + 1) * chunkSize.toNat ≤ 2 ^ 32 * (2 ^ 32 - 1) :=
    Nat.mul_le_mul (by omega) (by omega)
  have close : length.toNat + chunkSize.toNat - 1 < (neededChunks length chunkSize + 1) * chunkSize.toNat := by
    rw [Nat.add_mul,Nat.one_mul]
    exact Nat.lt_div_mul_add someChunk
  have count : (chunkCount length chunkSize).toNat = neededChunks length chunkSize := by
    rw [chunkCount_toNat _ _ someChunk,Nat.mod_eq_of_lt (by omega : length.toNat + chunkSize.toNat - 1 < 2 ^ 64)]
    exact Nat.mod_eq_of_lt few
  refine ⟨count,Nat.pos_of_ne_zero (fun none => ?_),?_⟩
  · rw [none,Nat.zero_mul] at all
    omega
  · rw [covered,if_pos rounds,count,Nat.min_eq_right all]

/-- What was not covered is on the target of a round trip only if it was there before. -/
theorem RoundTrips.rest_held (trips : RoundTrips codec createEnv restoreEnv src dst sectorSize srcOffset length
      dstOffset config) (inverts : codec.Inverts) (createWorks : createEnv.Works)
    (restoreWorks : restoreEnv.Works) (range : Imageable src sectorSize srcOffset length config.chunkSize)
    (room : Room dst sectorSize dstOffset length)
    (fits : (chunkCount length config.chunkSize).toNat * SPW_ENTRY_SIZE < 2 ^ 32) :
    chunkCount length config.chunkSize ≠ 0 ∧ ∀ i, covered sectorSize length config.chunkSize ≤ i →
      i < length.toNat → dst.byte (dstOffset.toNat + i) = src.byte (srcOffset.toNat + i) := by
  obtain ⟨image,made,_,inside,_⟩ := trips
  have counted : chunkCount length config.chunkSize ≠ 0 := by
    intro none
    rw [createSpwImage,if_pos none] at made
    cases made
  obtain ⟨image',made',_,disk⟩ := restored_pieces inverts createWorks restoreWorks range room fits counted
  have same : image = image' := by
    rw [made] at made'
    injection made' with _ images
    injection images
  have cloned := patchedFrom_covered src dst sectorSize srcOffset length config.chunkSize dstOffset.toNat
  rw [← disk,← same] at cloned
  refine ⟨counted,fun i above below => ?_⟩
  rw [← inside i below]
  exact (cloned.copied.outside _ (.inr (by omega))).symm

/-- While the size of the table of all chunks, and that of a chunk rounded to sectors, are
numbers of 32 bits, the range comes back. Where the table fits only for the chunks that are
counted, it does when the rest of it is on the target already. -/
theorem spw_round_trip_iff (inverts : codec.Inverts) (createWorks : createEnv.Works)
    (restoreWorks : restoreEnv.Works) (range : Imageable src sectorSize srcOffset length config.chunkSize)
    (positive : 0 < length.toNat) (room : Room dst sectorSize dstOffset length) :
    (neededChunks length config.chunkSize * SPW_ENTRY_SIZE < 2 ^ 32 →
      Rounds sectorSize length config.chunkSize →
      RoundTrips codec createEnv restoreEnv src dst sectorSize srcOffset length dstOffset config) ∧
    ((chunkCount length config.chunkSize).toNat * SPW_ENTRY_SIZE < 2 ^ 32 →
      (RoundTrips codec createEnv restoreEnv src dst sectorSize srcOffset length dstOffset config ↔
        chunkCount length config.chunkSize ≠ 0 ∧ ∀ i, covered sectorSize length config.chunkSize ≤ i →
          i < length.toNat → dst.byte (dstOffset.toNat + i) = src.byte (srcOffset.toNat + i))) := by
  have exactly : (chunkCount length config.chunkSize).toNat * SPW_ENTRY_SIZE < 2 ^ 32 →
      (RoundTrips codec createEnv restoreEnv src dst sectorSize srcOffset length dstOffset config ↔
        chunkCount length config.chunkSize ≠ 0 ∧ ∀ i, covered sectorSize length config.chunkSize ≤ i →
          i < length.toNat → dst.byte (dstOffset.toNat + i) = src.byte (srcOffset.toNat + i)) := by
    intro fits
    refine ⟨fun trips => trips.rest_held inverts createWorks restoreWorks range room fits,fun ⟨counted,rest⟩ => ?_⟩
    obtain ⟨image,made,succeeded,disk⟩ := restored_pieces inverts createWorks restoreWorks range room fits counted
    have cloned := patchedFrom_covered src dst sectorSize srcOffset length config.chunkSize dstOffset.toNat
    rw [← disk] at cloned
    have part := covered_le sectorSize length config.chunkSize
    refine ⟨image,made,succeeded,fun i below => ?_,fun i apart => cloned.copied.outside i (by omega)⟩
    by_cases early : i < covered sectorSize length config.chunkSize
    · exact cloned.copied.inside i (Nat.zero_le _) early
    · rw [cloned.copied.outside _ (.inr (by omega))]
      exact rest i (by omega) below
  refine ⟨fun fits rounds => ?_,exactly⟩
  have few : neededChunks length config.chunkSize < 2 ^ 32 :=
    Nat.lt_of_le_of_lt (Nat.le_mul_of_pos_right _ (by decide)) fits
  obtain ⟨count,some,all⟩ := covered_all range.someChunk positive few rounds
  refine (exactly (by rwa [count])).mpr ⟨fun none => ?_,fun i above below => ?_⟩
  · rw [none] at count
    exact absurd count (Nat.ne_of_lt some)
  · rw [all] at above
    exact absurd below (Nat.not_lt.mpr above)

end Image

section Sample

/-- A block of one value, compressed as a literal and a match of length 511. The digest is
that of `halfEmpty`. -/
def oneValue : Codec where
  compressLZNT1
    | a :: rest =>
      if a :: rest = List.replicate 512 a then .ok [0x03,0xB0,0x02,a,0xFC,0x01]
      else .error (.fromCode .unknown "RtlCompressBuffer failed")
    | [] => .error (.fromCode .unknown "RtlCompressBuffer failed")
  decompressLZNT1 stored n :=
    if n = 512 ∧ stored = [0x03,0xB0,0x02,stored.getD 3 0,0xFC,0x01] then
      .ok (List.replicate 512 (stored.getD 3 0))
    else .error (.fromCode .unknown "RtlDecompressBuffer failed")
  sha256 _ := ⟨[0xD4,0x6F,0x12,0x44,0xC9,0x5C,0xD4,0x09,0xF2,0x29,0x08,0x53,0x44,0xD0,0xF5,0x89,
    0x97,0x4C,0xEE,0x8D,0x9A,0x5C,0x85,0x38,0xAA,0x51,0x93,0xD6,0xEA,0x38,0x9C,0x22],rfl⟩

theorem oneValue_inverts : oneValue.Inverts := by
  intro raw compressed done
  cases raw with
  | nil => cases done
  | cons a rest =>
    simp only [oneValue] at done ⊢
    split at done
    next block =>
      cases done
      rw [block,List.length_replicate]
      exact if_pos ⟨rfl,rfl⟩
    next => cases done

theorem createEnv_works : ({} : CreateEnv).Works :=
  ⟨rfl,rfl,fun _ _ => rfl,rfl,rfl,rfl,fun _ => rfl,fun _ _ _ => rfl⟩

theorem restoreEnv_works : ({} : RestoreEnv).Works :=
  ⟨rfl,rfl,fun _ => rfl,fun _ _ => rfl,fun _ => rfl,fun _ _ => rfl⟩

def halfEmpty : Disk := ⟨1024,fun i => if i < 512 then 0xAA else 0⟩

/-- A compressed chunk and an empty one. -/
theorem round_trip_sample : RoundTrips oneValue {} {} halfEmpty ⟨4096,fun _ => 0xFF⟩ 512 0 1024 1024
    { chunkSize := 512 } :=
  (spw_round_trip_iff oneValue_inverts createEnv_works restoreEnv_works ⟨by decide,by decide,by decide,by decide,by decide,by decide⟩
    (by decide) ⟨by decide,by decide⟩).1 (by decide) (by decide)

/-- 2 ^ 32 sectors and one more of one value. -/
def manySectors (b : UInt8) : Disk := ⟨2199023256064,fun _ => b⟩

/-- One chunk is counted of 2 ^ 32 + 1, and nothing else comes back. -/
theorem round_trip_lost :
    Imageable (manySectors 0xAA) 512 0 2199023256064 512 ∧ Room (manySectors 0) 512 0 2199023256064 ∧
      oneValue.Inverts ∧ ({} : CreateEnv).Works ∧ ({} : RestoreEnv).Works ∧
      ¬ RoundTrips oneValue {} {} (manySectors 0xAA) (manySectors 0) 512 0 2199023256064 0 { chunkSize := 512 } := by
  have range : Imageable (manySectors 0xAA) 512 0 2199023256064 512 := by
    constructor <;> decide
  have room : Room (manySectors 0) 512 0 2199023256064 := by
    constructor <;> decide
  refine ⟨range,room,oneValue_inverts,createEnv_works,restoreEnv_works,fun trips => ?_⟩
  obtain ⟨_,held⟩ := trips.rest_held oneValue_inverts createEnv_works restoreEnv_works range room (by decide)
  have second : (0x00 : UInt8) = 0xAA := held 512 (by decide) (by decide)
  exact absurd second (by decide)

end Sample

end ImageRestorer
end SetecWizard.Core
