import SetecWizard.Maintenance.Erasure

/-! What a pass leaves on the disk. A chunk that is written holds the buffer; one whose write
failed, and whose sectors were then written one by one, holds the first sector of the
buffer over and over. So what an erasure guarantees, besides what its verification read,
is the last pass's pattern in every sector that this pass could write.
-/
namespace SetecWizard.Core
open SetecWizard.Library

namespace SecureErase

section Chunks

variable {env : EraseEnv} {sectorSize : UInt32} {pass : Nat}

def writeFails (os : Win32) (sectorSize : UInt32) (totalBytes : UInt64) (lba count : UInt64) : Bool :=
  match (RawDiskHandle.writeSectors os (filled totalBytes 0) .readWrite lba [] count sectorSize).1 with
  | .ok _ => false
  | .error _ => true

def chunkFails (env : EraseEnv) (sectorSize : UInt32) (totalBytes : UInt64) (pass : Nat) (lba count : UInt64) : Bool :=
  writeFails (env.chunk pass) sectorSize totalBytes lba count

def retryFails (env : EraseEnv) (sectorSize : UInt32) (totalBytes : UInt64) (pass : Nat) (lba : UInt64) : Bool :=
  writeFails (env.retry pass) sectorSize totalBytes lba 1

/-- A write either succeeds and puts the front of its buffer where it should, or it fails; outside of
what it covers it changes nothing. -/
theorem writeSectors_cases (os : Win32) {lba count : UInt64} {off n : Nat}
    (start : (lba * sectorSize.toUInt64).toNat = off) (length : (count * sectorSize.toUInt64).toNat = n)
    (buffer : List UInt8) (disk : Disk) :
    ((∃ e after, RawDiskHandle.writeSectors os disk .readWrite lba buffer count sectorSize = (.error e,after) ∧
        writeFails os sectorSize disk.totalBytes lba count = true ∧ after.totalBytes = disk.totalBytes ∧
        ∀ i, i < off ∨ off + n ≤ i → after.byte i = disk.byte i) ∨
      (RawDiskHandle.writeSectors os disk .readWrite lba buffer count sectorSize =
          (.ok (),disk.patched off (buffer.take n)) ∧
        writeFails os sectorSize disk.totalBytes lba count = false)) := by
  have same := @writeSectors_fst os .readWrite lba count sectorSize disk (filled disk.totalBytes 0) rfl buffer []
  have size := writeSectors_size os disk .readWrite lba buffer count sectorSize
  have outside (i : Nat) (apart : i < off ∨ off + n ≤ i) :=
    @writeSectors_outside os disk sectorSize lba count buffer off n .readWrite start length i apart
  cases written : RawDiskHandle.writeSectors os disk .readWrite lba buffer count sectorSize with
  | mk outcome after =>
    rw [written] at same size outside
    cases outcome with
    | ok _ =>
      right
      rw [(writeSectors_whole start length written).1]
      exact ⟨rfl,by rw [writeFails,← same]⟩
    | error e => exact .inl ⟨e,after,rfl,by rw [writeFails,← same],size,outside⟩

def chunkByte (fails : Bool) (sectorSize : UInt32) (buffer : List UInt8) (s j : Nat) : UInt8 :=
  buffer.getD ((if fails then 0 else s * sectorSize.toNat) + j) 0

theorem sector_address {lba s : Nat} {first : UInt64} (at_ : first.toNat = lba)
    (word : (lba + s + 1) * sectorSize.toNat ≤ 2 ^ 64) (positive : 0 < sectorSize.toNat) :
    ((first + UInt64.ofNat s) * sectorSize.toUInt64).toNat = (lba + s) * sectorSize.toNat := by
  rw [Nat.add_mul,Nat.one_mul] at word
  have most := Nat.le_mul_of_pos_right (lba + s) positive
  rw [UInt64.toNat_mul,UInt64.toNat_add,UInt64.toNat_ofNat',at_,UInt32.toNat_toUInt64,
    Nat.mod_eq_of_lt (by omega : s < 2 ^ 64),Nat.mod_eq_of_lt (by omega : lba + s < 2 ^ 64),Nat.mod_eq_of_lt (by omega)]

/-- The retries, by induction on the sectors tried: each that is written holds the start of the buffer. -/
theorem retries_byte (positive : 0 < sectorSize.toNat) {buffer : List UInt8}
    (filled : sectorSize.toNat ≤ buffer.length) {currentLba : UInt64} (disk : Disk) (n : Nat)
    (word : (currentLba.toNat + n) * sectorSize.toNat ≤ 2 ^ 64) :
    let after := (List.range n).foldl (fun disk s => (RawDiskHandle.writeSectors (env.retry pass) disk .readWrite
      (currentLba + UInt64.ofNat s) buffer 1 sectorSize).2) disk
    after.totalBytes = disk.totalBytes ∧
      (∀ s < n, retryFails env sectorSize disk.totalBytes pass (currentLba + UInt64.ofNat s) = false →
        ∀ j < sectorSize.toNat,
          after.byte ((currentLba.toNat + s) * sectorSize.toNat + j) = buffer.getD j 0) ∧
      ∀ i, i < currentLba.toNat * sectorSize.toNat ∨ (currentLba.toNat + n) * sectorSize.toNat ≤ i →
        after.byte i = disk.byte i := by
  have one : ((1 : UInt64) * sectorSize.toUInt64).toNat = sectorSize.toNat := by
    rw [UInt64.one_mul,UInt32.toNat_toUInt64]
  induction n with
  | zero => exact ⟨rfl,fun s below => absurd below (by omega),fun _ _ => rfl⟩
  | succ n ih =>
    have shorter : (currentLba.toNat + n) * sectorSize.toNat ≤ 2 ^ 64 :=
      (Nat.mul_le_mul_right _ (by omega)).trans word
    obtain ⟨size,holds,kept⟩ := ih shorter
    simp only [List.range_succ,List.foldl_append,List.foldl_cons,List.foldl_nil]
    generalize (List.range n).foldl (fun disk s => (RawDiskHandle.writeSectors (env.retry pass) disk .readWrite
      (currentLba + UInt64.ofNat s) buffer 1 sectorSize).2) disk = between at size holds kept ⊢
    have place := sector_address (s := n) rfl word positive
    have end_ : (currentLba.toNat + n) * sectorSize.toNat + sectorSize.toNat =
        (currentLba.toNat + (n + 1)) * sectorSize.toNat := by ring
    have start : currentLba.toNat * sectorSize.toNat ≤ (currentLba.toNat + n) * sectorSize.toNat :=
      Nat.mul_le_mul_right _ (by omega)
    have earlier (s j : Nat) (below : s < n) (within : j < sectorSize.toNat) :
        (currentLba.toNat + s) * sectorSize.toNat + j < (currentLba.toNat + n) * sectorSize.toNat := by
      have before : (currentLba.toNat + s + 1) * sectorSize.toNat ≤ (currentLba.toNat + n) * sectorSize.toNat :=
        Nat.mul_le_mul_right _ (by omega)
      rw [Nat.add_mul,Nat.one_mul] at before
      omega
    rcases writeSectors_cases (env.retry pass) place one buffer between with
      ⟨e,after,failed,fails,size',outside⟩ | ⟨written,works⟩
    · rw [failed]
      rw [size] at size' fails
      refine ⟨size',fun s below works j within => ?_,fun i apart => (outside i (by omega)).trans (kept i (by omega))⟩
      by_cases last : s = n
      · rw [last,retryFails,fails] at works
        cases works
      · rw [outside _ (.inl (earlier s j (by omega) within))]
        exact holds s (by omega) works j within
    · rw [written]
      have length : (buffer.take sectorSize.toNat).length = sectorSize.toNat := List.length_take_of_le filled
      refine ⟨size,fun s below works j within => ?_,fun i outside => ?_⟩
      · by_cases last : s = n
        · subst last
          have byte := @patch_get _ between.byte ((currentLba.toNat + s) * sectorSize.toNat)
            (buffer.take sectorSize.toNat) j (by omega)
          rw [List.getElem?_take,if_pos within] at byte
          rw [List.getD_eq_getElem?_getD,← byte]
          rfl
        · rw [← holds s (by omega) works j within]
          exact patch_apart _ _ _ _ (.inl (earlier s j (by omega) within))
      · rw [← kept i (by omega)]
        exact patch_apart _ _ _ _ (by omega)

theorem writeChunk_byte (positive : 0 < sectorSize.toNat) {buffer : List UInt8}
    {currentLba thisChunk : UInt64} (filled_ : thisChunk.toNat * sectorSize.toNat ≤ buffer.length)
    (some_ : 0 < thisChunk.toNat) (small : buffer.length < 2 ^ 32) (disk : Disk)
    (word : (currentLba.toNat + thisChunk.toNat) * sectorSize.toNat ≤ 2 ^ 64) :
    let after := writeChunk env .readWrite sectorSize pass buffer currentLba thisChunk disk
    after.totalBytes = disk.totalBytes ∧
      (∀ s < thisChunk.toNat, chunkFails env sectorSize disk.totalBytes pass currentLba thisChunk = false ∨
          retryFails env sectorSize disk.totalBytes pass (currentLba + UInt64.ofNat s) = false →
        ∀ j < sectorSize.toNat, after.byte ((currentLba.toNat + s) * sectorSize.toNat + j) =
          chunkByte (chunkFails env sectorSize disk.totalBytes pass currentLba thisChunk) sectorSize buffer s j) ∧
      ∀ i, i < currentLba.toNat * sectorSize.toNat ∨
          (currentLba.toNat + thisChunk.toNat) * sectorSize.toNat ≤ i →
        after.byte i = disk.byte i := by
  have span : currentLba.toNat * sectorSize.toNat + thisChunk.toNat * sectorSize.toNat =
      (currentLba.toNat + thisChunk.toNat) * sectorSize.toNat := by ring
  have one_sector := Nat.le_mul_of_pos_left sectorSize.toNat some_
  have start : (currentLba * sectorSize.toUInt64).toNat = currentLba.toNat * sectorSize.toNat := by
    rw [UInt64.toNat_mul,UInt32.toNat_toUInt64,Nat.mod_eq_of_lt (by omega)]
  have length : (thisChunk * sectorSize.toUInt64).toNat = thisChunk.toNat * sectorSize.toNat := by
    rw [UInt64.toNat_mul,UInt32.toNat_toUInt64,Nat.mod_eq_of_lt (by omega)]
  unfold writeChunk
  rcases writeSectors_cases (env.chunk pass) start length buffer disk with
    ⟨e,between,failed,fails,size,outside⟩ | ⟨written,works⟩
  · obtain ⟨size',holds,kept⟩ := @retries_byte env sectorSize pass positive buffer (one_sector.trans filled_) currentLba
      between thisChunk.toNat word
    rw [failed]
    rw [size] at size' holds
    refine ⟨size',fun s below reached j within => ?_,fun i apart => (kept i apart).trans (outside i ?_)⟩
    · rw [chunkFails,fails] at reached ⊢
      rw [chunkByte,if_pos rfl,Nat.zero_add]
      exact holds s below (reached.resolve_left (by simp)) j within
    · rw [span]
      exact apart
  · have taken : (buffer.take (thisChunk.toNat * sectorSize.toNat)).length = thisChunk.toNat * sectorSize.toNat :=
      List.length_take_of_le filled_
    rw [written]
    simp only [chunkFails,works]
    refine ⟨rfl,fun s below _ j within => ?_,fun i outside => patch_apart _ _ _ _ (by omega)⟩
    have within_chunk : s * sectorSize.toNat + j < thisChunk.toNat * sectorSize.toNat := by
      have last := Nat.mul_le_mul_right sectorSize.toNat (Nat.succ_le_of_lt below)
      rw [Nat.succ_mul] at last
      omega
    have byte := @patch_get _ disk.byte (currentLba.toNat * sectorSize.toNat)
      (buffer.take (thisChunk.toNat * sectorSize.toNat)) (s * sectorSize.toNat + j) (by omega)
    rw [List.getElem?_take,if_pos within_chunk,← Nat.add_assoc,← Nat.add_mul] at byte
    rw [chunkByte,if_neg (by simp),List.getD_eq_getElem?_getD,← byte]
    rfl

end Chunks

section Pass

variable {env : EraseEnv} {sectorSize : UInt32} {pass fuel : Nat} {pattern : List UInt8}

def passBuffer (env : EraseEnv) (pass : Nat) (pattern : List UInt8) (k : Nat) : List UInt8 :=
  if pattern = [] then (env.random pass ((k + 1) / 256)).getD [] else fillPattern BUFFER_SIZE.toNat pattern

def RandomFills (env : EraseEnv) : Prop :=
  ∀ pass n buffer, env.random pass n = some buffer → buffer.length = BUFFER_SIZE.toNat

def Carries (env : EraseEnv) (pass : Nat) (pattern : List UInt8) (k : Nat) (counter : UInt32) (refreshes : Nat)
    (buffer : List UInt8) : Prop :=
  if pattern = [] then counter.toNat = k % 256 ∧ refreshes = 1 + k / 256 ∧ env.random pass (k / 256) = some buffer
  else buffer = fillPattern BUFFER_SIZE.toNat pattern

theorem writeLoop_round {k : Nat} {counter : UInt32} {refreshes : Nat} {buffer : List UInt8} {endLba currentLba : UInt64}
    (carries : Carries env pass pattern k counter refreshes buffer) (before : currentLba < endLba)
    (goesOn : env.cancelWrite pass currentLba = false)
    (answered : pattern = [] → ∃ fresh, env.random pass ((k + 1) / 256) = some fresh) (fuel : Nat) (disk : Disk) :
    ∃ counter' refreshes', Carries env pass pattern (k + 1) counter' refreshes' (passBuffer env pass pattern k) ∧
      writeLoop env .readWrite sectorSize pass (pattern = []) endLba (fuel + 1) currentLba counter refreshes buffer disk =
        writeLoop env .readWrite sectorSize pass (pattern = []) endLba fuel
          (currentLba + min (bufferSectors sectorSize) (endLba - currentLba)) counter' refreshes'
          (passBuffer env pass pattern k)
          (writeChunk env .readWrite sectorSize pass (passBuffer env pass pattern k) currentLba
            (min (bufferSectors sectorSize) (endLba - currentLba)) disk) := by
  rw [writeLoop,if_neg (UInt64.not_le.mpr before)]
  simp only [goesOn,Bool.false_eq_true,if_false]
  unfold Carries at carries ⊢
  by_cases random : pattern = []
  · obtain ⟨fresh,answer⟩ := answered random
    rw [if_pos random] at carries
    obtain ⟨count,number,current⟩ := carries
    have interval : RANDOM_REFRESH_INTERVAL.toNat = 256 := rfl
    have one : (1 : UInt32).toNat = 1 := rfl
    have next : (counter + 1).toNat = k % 256 + 1 := by
      rw [UInt32.toNat_add,count,one]
      omega
    simp only [random,decide_true,if_true,true_and,passBuffer,answer,Option.getD_some]
    by_cases refresh : RANDOM_REFRESH_INTERVAL ≤ counter + 1
    · have due := UInt32.le_iff_toNat_le.mp refresh
      rw [interval,next] at due
      have index : refreshes = (k + 1) / 256 := by omega
      refine ⟨0,refreshes + 1,⟨by rw [UInt32.toNat_zero]; omega,by omega,trivial⟩,?_⟩
      rw [if_pos refresh,index,answer]
      rfl
    · have early := UInt32.lt_iff_toNat_lt.mp (UInt32.not_le.mp refresh)
      rw [interval,next] at early
      have same : (k + 1) / 256 = k / 256 := by omega
      have kept : fresh = buffer := by
        rw [same,current] at answer
        exact (Option.some.inj answer).symm
      refine ⟨counter + 1,refreshes,⟨by rw [next]; omega,by omega,trivial⟩,?_⟩
      rw [if_neg refresh,kept]
  · rw [if_neg random] at carries
    refine ⟨counter,refreshes,?_,?_⟩
    · rw [if_neg random,passBuffer,if_neg random]
    · simp only [random,decide_false,Bool.false_eq_true,if_false,false_and,passBuffer,carries]

theorem random_answered {k : Nat} {counter : UInt32} {refreshes : Nat} {buffer : List UInt8} {endLba currentLba : UInt64}
    (carries : Carries env pass pattern k counter refreshes buffer) (before : currentLba < endLba)
    (goesOn : env.cancelWrite pass currentLba = false) {disk disk' : Disk}
    (done : writeLoop env .readWrite sectorSize pass (pattern = []) endLba (fuel + 1) currentLba counter refreshes
      buffer disk = some (.ok (),disk')) :
    pattern = [] → ∃ fresh, env.random pass ((k + 1) / 256) = some fresh := by
  intro random
  rw [Carries,if_pos random] at carries
  obtain ⟨count,number,current⟩ := carries
  by_cases refresh : (k + 1) / 256 = k / 256
  · exact ⟨buffer,by rw [refresh,current]⟩
  · have interval : RANDOM_REFRESH_INTERVAL.toNat = 256 := rfl
    have one : (1 : UInt32).toNat = 1 := rfl
    have due : RANDOM_REFRESH_INTERVAL ≤ counter + 1 := by
      rw [UInt32.le_iff_toNat_le,UInt32.toNat_add,count,one,interval]
      omega
    have index : refreshes = (k + 1) / 256 := by omega
    rw [writeLoop,if_neg (UInt64.not_le.mpr before)] at done
    simp only [goesOn,random,Bool.false_eq_true,if_false,decide_true,if_true,true_and,if_pos due,index] at done
    cases answer : env.random pass ((k + 1) / 256) with
    | none =>
      rw [answer] at done
      simp [fillRandom] at done
    | some fresh => exact ⟨fresh,rfl⟩

def passByte (env : EraseEnv) (sectorSize : UInt32) (totalBytes : UInt64) (pass : Nat) (pattern : List UInt8)
    (startLba sectorCount : UInt64) (lba j : Nat) : UInt8 :=
  chunkByte
    (chunkFails env sectorSize totalBytes pass (UInt64.ofNat (chunkStart sectorSize startLba lba))
      (UInt64.ofNat (chunkCount sectorSize startLba sectorCount lba)))
    sectorSize (passBuffer env pass pattern ((lba - startLba.toNat) / (bufferSectors sectorSize).toNat))
    (lba - chunkStart sectorSize startLba lba) j

def SectorWritten (env : EraseEnv) (sectorSize : UInt32) (totalBytes : UInt64) (pass : Nat)
    (startLba sectorCount : UInt64) (lba : Nat) : Prop :=
  chunkFails env sectorSize totalBytes pass (UInt64.ofNat (chunkStart sectorSize startLba lba))
      (UInt64.ofNat (chunkCount sectorSize startLba sectorCount lba)) = false ∨
    retryFails env sectorSize totalBytes pass (UInt64.ofNat lba) = false

/-- A pass leaves its bytes in the sectors of a range that it writes, and the rest of the disk alone. -/
structure Passed (env : EraseEnv) (sectorSize : UInt32) (pass : Nat) (pattern : List UInt8)
    (startLba sectorCount : UInt64) (from_ : Nat) (disk disk' : Disk) : Prop where
  size : disk'.totalBytes = disk.totalBytes
  covered : ∀ lba, from_ ≤ lba → lba < startLba.toNat + sectorCount.toNat →
    SectorWritten env sectorSize disk.totalBytes pass startLba sectorCount lba → ∀ j < sectorSize.toNat,
      disk'.byte (lba * sectorSize.toNat + j) =
        passByte env sectorSize disk.totalBytes pass pattern startLba sectorCount lba j
  outside : ∀ i, i < from_ * sectorSize.toNat ∨ (startLba.toNat + sectorCount.toNat) * sectorSize.toNat ≤ i →
    disk'.byte i = disk.byte i

theorem length_passBuffer (fills : pattern = [] → RandomFills env) {k : Nat}
    (answered : pattern = [] → ∃ fresh, env.random pass ((k + 1) / 256) = some fresh) :
    (passBuffer env pass pattern k).length = BUFFER_SIZE.toNat := by
  unfold passBuffer
  split
  next random =>
    obtain ⟨fresh,answer⟩ := answered random
    rw [answer,Option.getD_some]
    exact fills random _ _ _ answer
  next => exact length_fillPattern _ _

theorem chunkStart_of {startLba : UInt64} {lba k : Nat} (above : startLba.toNat + k * (bufferSectors sectorSize).toNat ≤ lba)
    (below : lba < startLba.toNat + (k + 1) * (bufferSectors sectorSize).toNat) :
    (lba - startLba.toNat) / (bufferSectors sectorSize).toNat = k ∧
      chunkStart sectorSize startLba lba = startLba.toNat + k * (bufferSectors sectorSize).toNat := by
  have index : (lba - startLba.toNat) / (bufferSectors sectorSize).toNat = k :=
    Nat.div_eq_of_lt_le (by omega) (by omega)
  exact ⟨index,by rw [chunkStart,index]⟩

theorem chunk_toNat {endLba currentLba : UInt64} (before : currentLba < endLba) :
    (min (bufferSectors sectorSize) (endLba - currentLba)).toNat =
        min (bufferSectors sectorSize).toNat (endLba.toNat - currentLba.toNat) ∧
      (currentLba + min (bufferSectors sectorSize) (endLba - currentLba)).toNat =
        currentLba.toNat + min (bufferSectors sectorSize).toNat (endLba.toNat - currentLba.toNat) := by
  have below := UInt64.lt_iff_toNat_lt.mp before
  have word := endLba.toNat_lt
  have chunk : (min (bufferSectors sectorSize) (endLba - currentLba)).toNat =
      min (bufferSectors sectorSize).toNat (endLba.toNat - currentLba.toNat) := by
    rw [UInt64.toNat_min,UInt64.toNat_sub_of_le _ _ (UInt64.le_of_lt before)]
  refine ⟨chunk,?_⟩
  rw [UInt64.toNat_add,chunk,Nat.mod_eq_of_lt (by omega)]

section Loop

variable {startLba sectorCount endLba : UInt64} (fills : pattern = [] → RandomFills env)
  (positive : 0 < sectorSize.toNat) (last : endLba.toNat = startLba.toNat + sectorCount.toNat)
  (word : 0 < sectorCount.toNat → (startLba.toNat + sectorCount.toNat) * sectorSize.toNat ≤ 2 ^ 64)

include fills positive last word

theorem Passed.chunk {k : Nat} {currentLba : UInt64} (at_ : currentLba.toNat = startLba.toNat + k * (bufferSectors sectorSize).toNat)
    (before : currentLba < endLba) (answered : pattern = [] → ∃ fresh, env.random pass ((k + 1) / 256) = some fresh)
    {disk disk' : Disk}
    (rest : Passed env sectorSize pass pattern startLba sectorCount
      (currentLba + min (bufferSectors sectorSize) (endLba - currentLba)).toNat
      (writeChunk env .readWrite sectorSize pass (passBuffer env pass pattern k) currentLba
        (min (bufferSectors sectorSize) (endLba - currentLba)) disk) disk') :
    Passed env sectorSize pass pattern startLba sectorCount currentLba.toNat disk disk' := by
  obtain ⟨chunk,next⟩ := @chunk_toNat sectorSize endLba currentLba before
  have below := UInt64.lt_iff_toNat_lt.mp before
  have most := bufferSectors_le sectorSize
  have buffer : BUFFER_SIZE.toNat = 65536 := rfl
  have length := length_passBuffer fills answered
  rw [next] at rest
  by_cases none : (bufferSectors sectorSize).toNat = 0
  · -- The buffer holds no sector: nothing is written, and the loop stays where it is.
    have zero : min (bufferSectors sectorSize) (endLba - currentLba) = 0 :=
      UInt64.toNat_inj.mp (by rw [chunk,none,Nat.zero_min,UInt64.toNat_zero])
    have empty : writeChunk env .readWrite sectorSize pass (passBuffer env pass pattern k) currentLba 0 disk = disk := by
      simp [writeChunk,RawDiskHandle.writeSectors]
    rw [zero,empty,none,Nat.zero_min,Nat.add_zero] at rest
    exact rest
  · have some_ : 0 < min (bufferSectors sectorSize).toNat (endLba.toNat - currentLba.toNat) := by omega
    have fits : min (bufferSectors sectorSize).toNat (endLba.toNat - currentLba.toNat) * sectorSize.toNat ≤
        (bufferSectors sectorSize).toNat * sectorSize.toNat := Nat.mul_le_mul_right _ (Nat.min_le_left _ _)
    have reach : (currentLba.toNat + min (bufferSectors sectorSize).toNat (endLba.toNat - currentLba.toNat)) *
        sectorSize.toNat ≤ (startLba.toNat + sectorCount.toNat) * sectorSize.toNat := Nat.mul_le_mul_right _ (by omega)
    have addressed := word (by omega)
    obtain ⟨size,holds,kept⟩ := @writeChunk_byte env sectorSize pass positive (passBuffer env pass pattern k)
      currentLba (min (bufferSectors sectorSize) (endLba - currentLba)) (by rw [chunk,length]; omega)
      (by rw [chunk]; exact some_) (by rw [length]; omega) disk (by rw [chunk]; omega)
    rw [chunk] at holds kept
    obtain ⟨size',covered,outside⟩ := rest
    have start : currentLba.toNat * sectorSize.toNat ≤ (currentLba.toNat +
        min (bufferSectors sectorSize).toNat (endLba.toNat - currentLba.toNat)) * sectorSize.toNat :=
      Nat.mul_le_mul_right _ (by omega)
    refine ⟨size'.trans size,fun lba above inRange written j within => ?_,fun i apart => ?_⟩
    · by_cases early : lba < currentLba.toNat + min (bufferSectors sectorSize).toNat (endLba.toNat - currentLba.toNat)
      · have before_ : (lba + 1) * sectorSize.toNat ≤ (currentLba.toNat +
            min (bufferSectors sectorSize).toNat (endLba.toNat - currentLba.toNat)) * sectorSize.toNat :=
          Nat.mul_le_mul_right _ early
        rw [Nat.add_mul,Nat.one_mul] at before_
        rw [outside _ (.inl (by omega))]
        have position : lba = currentLba.toNat + (lba - currentLba.toNat) := by omega
        obtain ⟨index,first⟩ := @chunkStart_of sectorSize startLba lba k (by omega) (by rw [Nat.add_mul]; omega)
        have lbaWord : UInt64.ofNat (chunkStart sectorSize startLba lba) = currentLba := by
          apply UInt64.toNat_inj.mp
          have bound := currentLba.toNat_lt
          rw [first,UInt64.toNat_ofNat',← at_,Nat.mod_eq_of_lt bound]
        have countWord : UInt64.ofNat (chunkCount sectorSize startLba sectorCount lba) =
            min (bufferSectors sectorSize) (endLba - currentLba) := by
          apply UInt64.toNat_inj.mp
          have bound := endLba.toNat_lt
          rw [chunkCount,first,UInt64.toNat_ofNat',chunk,← last,← at_,Nat.mod_eq_of_lt (by omega)]
        have alone : currentLba + UInt64.ofNat (lba - currentLba.toNat) = UInt64.ofNat lba := by
          apply UInt64.toNat_inj.mp
          have bound := endLba.toNat_lt
          rw [UInt64.toNat_add,UInt64.toNat_ofNat',UInt64.toNat_ofNat']
          omega
        rw [SectorWritten,lbaWord,countWord,← alone] at written
        have byte := holds (lba - currentLba.toNat) (by omega) written j within
        rw [← position] at byte
        rw [byte,passByte,index,lbaWord,countWord,first,← at_]
      · rw [size] at covered
        exact covered lba (by omega) inRange written j within
    · rw [outside i (by omega),kept i (by omega)]

/-- A pass that ended without an error, by induction on its rounds. -/
theorem writeLoop_passed {k : Nat} {counter : UInt32} {refreshes : Nat} {buffer : List UInt8} {currentLba : UInt64}
    {disk disk' : Disk} (upTo : currentLba.toNat ≤ endLba.toNat)
    (stands : currentLba < endLba → currentLba.toNat = startLba.toNat + k * (bufferSectors sectorSize).toNat)
    (carries : Carries env pass pattern k counter refreshes buffer)
    (done : writeLoop env .readWrite sectorSize pass (pattern = []) endLba fuel currentLba counter refreshes buffer
      disk = some (.ok (),disk')) :
    Passed env sectorSize pass pattern startLba sectorCount currentLba.toNat disk disk' := by
  induction fuel generalizing k counter refreshes buffer currentLba disk with
  | zero => cases done
  | succ fuel ih =>
    by_cases before : currentLba < endLba
    · have goesOn : env.cancelWrite pass currentLba = false := by
        by_contra canceled
        rw [writeLoop,if_neg (UInt64.not_le.mpr before),if_pos (Bool.eq_true_of_not_eq_false canceled)] at done
        simp at done
      have answered := random_answered carries before goesOn done
      obtain ⟨counter',refreshes',carries',same⟩ := @writeLoop_round env sectorSize pass pattern k counter refreshes
        buffer endLba currentLba carries before goesOn answered fuel disk
      rw [same] at done
      obtain ⟨_,next⟩ := @chunk_toNat sectorSize endLba currentLba before
      have below := UInt64.lt_iff_toNat_lt.mp before
      refine Passed.chunk fills positive last word (stands before) before answered
        (@ih (k + 1) counter' refreshes' _ _ _ ?_ ?_ carries' done)
      · rw [next]
        omega
      · intro more
        have later := UInt64.lt_iff_toNat_lt.mp more
        rw [next] at later ⊢
        rw [stands before] at later ⊢
        rw [Nat.add_mul]
        omega
    · rw [writeLoop,if_pos (UInt64.not_lt.mp before)] at done
      have same : disk = disk' := (Prod.mk.inj (Option.some.inj done)).2
      have reached : currentLba.toNat = startLba.toNat + sectorCount.toNat := by
        have past := UInt64.le_iff_toNat_le.mp (UInt64.not_lt.mp before)
        omega
      subst same
      exact ⟨rfl,fun lba above below => by omega,fun _ _ => rfl⟩

end Loop

/-- A pass that is not canceled and gets its random data ends, by induction on its rounds. -/
theorem writeLoop_ends {k : Nat} {counter : UInt32} {refreshes : Nat} {buffer : List UInt8} {endLba currentLba : UInt64}
    (some_ : 0 < (bufferSectors sectorSize).toNat) (goesOn : ∀ lba, env.cancelWrite pass lba = false)
    (answered : pattern = [] → ∀ n, ∃ fresh, env.random pass n = some fresh)
    (carries : Carries env pass pattern k counter refreshes buffer)
    (enough : endLba.toNat - currentLba.toNat < fuel) (disk : Disk) :
    ∃ disk', writeLoop env .readWrite sectorSize pass (pattern = []) endLba fuel currentLba counter refreshes buffer
      disk = some (.ok (),disk') := by
  induction fuel generalizing k counter refreshes buffer currentLba disk with
  | zero => omega
  | succ fuel ih =>
    by_cases before : currentLba < endLba
    · obtain ⟨counter',refreshes',carries',same⟩ := @writeLoop_round env sectorSize pass pattern k counter refreshes
        buffer endLba currentLba carries before (goesOn currentLba) (fun random => answered random _) fuel disk
      obtain ⟨_,next⟩ := @chunk_toNat sectorSize endLba currentLba before
      have below := UInt64.lt_iff_toNat_lt.mp before
      rw [same]
      exact ih carries' (by rw [next]; omega) _
    · rw [writeLoop,if_pos (UInt64.not_lt.mp before)]
      exact ⟨disk,rfl⟩

theorem bufferSectors_pos (positive : 0 < sectorSize.toNat) (fits : sectorSize.toNat ≤ BUFFER_SIZE.toNat) :
    0 < (bufferSectors sectorSize).toNat := by
  rw [bufferSectors,UInt32.toNat_toUInt64,UInt32.toNat_div]
  exact Nat.div_pos fits positive

/-- A pass gets the random data it asks for and is not canceled, and a sector that is written
alone is written. -/
structure Undisturbed (env : EraseEnv) (pass : Nat) (pattern : List UInt8) : Prop where
  random : pattern = [] → ∀ n, ∃ fresh, env.random pass n = some fresh
  fills : RandomFills env
  goesOn : ∀ lba, env.cancelWrite pass lba = false
  retry : env.retry pass = .working

theorem writePass_loop (answered : pattern = [] → ∃ fresh, env.random pass 0 = some fresh) (fuel : Nat)
    (startLba sectorCount : UInt64) (disk : Disk) :
    ∃ buffer, Carries env pass pattern 0 0 1 buffer ∧
      writePass env .readWrite sectorSize fuel startLba sectorCount pass pattern disk =
        writeLoop env .readWrite sectorSize pass (pattern = []) (startLba + sectorCount) fuel startLba 0 1 buffer
          disk := by
  unfold writePass Carries
  by_cases random : pattern = []
  · obtain ⟨fresh,answer⟩ := answered random
    refine ⟨fresh,?_,?_⟩
    · rw [if_pos random]
      exact ⟨rfl,rfl,answer⟩
    · simp [random,answer,fillRandom]
  · refine ⟨fillPattern BUFFER_SIZE.toNat pattern,?_,?_⟩
    · rw [if_neg random]
    · simp [random]

theorem writePass_written (fills : pattern = [] → RandomFills env) (positive : 0 < sectorSize.toNat)
    {startLba sectorCount : UInt64} (word : startLba.toNat + sectorCount.toNat < 2 ^ 64)
    (addressed : 0 < sectorCount.toNat → (startLba.toNat + sectorCount.toNat) * sectorSize.toNat ≤ 2 ^ 64)
    {disk disk' : Disk}
    (done : writePass env .readWrite sectorSize fuel startLba sectorCount pass pattern disk = some (.ok (),disk')) :
    Passed env sectorSize pass pattern startLba sectorCount startLba.toNat disk disk' := by
  have last : (startLba + sectorCount).toNat = startLba.toNat + sectorCount.toNat := by
    rw [UInt64.toNat_add,Nat.mod_eq_of_lt word]
  have answered : pattern = [] → ∃ fresh, env.random pass 0 = some fresh := by
    intro random
    cases answer : env.random pass 0 with
    | none => simp [writePass,random,answer,fillRandom] at done
    | some fresh => exact ⟨fresh,rfl⟩
  obtain ⟨buffer,carries,same⟩ := @writePass_loop env sectorSize pass pattern answered fuel startLba sectorCount disk
  refine writeLoop_passed fills positive last addressed (by omega) (fun _ => ?_) carries (same.symm.trans done)
  rw [Nat.zero_mul,Nat.add_zero]

theorem writePass_ends (undisturbed : Undisturbed env pass pattern) (positive : 0 < sectorSize.toNat)
    (fits : sectorSize.toNat ≤ BUFFER_SIZE.toNat) {startLba sectorCount : UInt64}
    (word : startLba.toNat + sectorCount.toNat < 2 ^ 64) (enough : sectorCount.toNat < fuel) (disk : Disk) :
    ∃ disk', writePass env .readWrite sectorSize fuel startLba sectorCount pass pattern disk = some (.ok (),disk') := by
  have last : (startLba + sectorCount).toNat = startLba.toNat + sectorCount.toNat := by
    rw [UInt64.toNat_add,Nat.mod_eq_of_lt word]
  obtain ⟨buffer,carries,same⟩ := @writePass_loop env sectorSize pass pattern (fun random => undisturbed.random random 0)
    fuel startLba sectorCount disk
  rw [same]
  exact writeLoop_ends (bufferSectors_pos positive fits) undisturbed.goesOn undisturbed.random carries
    (by rw [last]; omega : (startLba + sectorCount).toNat - startLba.toNat < fuel) disk

theorem retryFails_working (working : env.retry pass = .working) (positive : 0 < sectorSize.toNat)
    {totalBytes : UInt64} {lba : Nat} (inside : (lba + 1) * sectorSize.toNat ≤ totalBytes.toNat) :
    retryFails env sectorSize totalBytes pass (UInt64.ofNat lba) = false := by
  have width := totalBytes.toNat_lt
  have narrow := sectorSize.toNat_lt
  have start := @sector_address sectorSize 0 lba 0 rfl (by rw [Nat.zero_add]; omega) positive
  rw [UInt64.zero_add,Nat.zero_add] at start
  have one : ((1 : UInt64) * sectorSize.toUInt64).toNat = sectorSize.toNat := by
    rw [UInt64.one_mul,UInt32.toNat_toUInt64]
  rw [Nat.add_mul,Nat.one_mul] at inside
  rw [retryFails,writeFails,working,writeSectors_front (filled totalBytes 0) _ 1 [] start one (by omega) inside]

theorem writePass_passed (undisturbed : Undisturbed env pass pattern) (positive : 0 < sectorSize.toNat)
    (fits : sectorSize.toNat ≤ BUFFER_SIZE.toNat) {startLba sectorCount : UInt64}
    (word : startLba.toNat + sectorCount.toNat < 2 ^ 64) (enough : sectorCount.toNat < fuel) (disk : Disk)
    (inside : 0 < sectorCount.toNat →
      (startLba.toNat + sectorCount.toNat) * sectorSize.toNat ≤ disk.totalBytes.toNat) :
    ∃ disk', writePass env .readWrite sectorSize fuel startLba sectorCount pass pattern disk = some (.ok (),disk') ∧
      disk'.totalBytes = disk.totalBytes ∧
      (∀ lba, startLba.toNat ≤ lba → lba < startLba.toNat + sectorCount.toNat → ∀ j < sectorSize.toNat,
        disk'.byte (lba * sectorSize.toNat + j) =
          passByte env sectorSize disk.totalBytes pass pattern startLba sectorCount lba j) ∧
      ∀ i, i < startLba.toNat * sectorSize.toNat ∨ (startLba.toNat + sectorCount.toNat) * sectorSize.toNat ≤ i →
        disk'.byte i = disk.byte i := by
  obtain ⟨disk',done⟩ := writePass_ends undisturbed positive fits word enough disk
  have width := disk.totalBytes.toNat_lt
  obtain ⟨size,covered,outside⟩ := writePass_written (fun _ => undisturbed.fills) positive word
    (fun some_ => by have reach := inside some_; omega) done
  refine ⟨disk',done,size,fun lba above below => covered lba above below (.inr ?_),outside⟩
  have last : (lba + 1) * sectorSize.toNat ≤ (startLba.toNat + sectorCount.toNat) * sectorSize.toNat :=
    Nat.mul_le_mul_right _ below
  exact retryFails_working undisturbed.retry positive (last.trans (inside (by omega)))

end Pass

section Written

variable {env : EraseEnv} {sectorSize : UInt32} {pass fuel : Nat} {pattern : List UInt8} {startLba sectorCount : UInt64}

theorem chunk_offset (some_ : 0 < (bufferSectors sectorSize).toNat) {lba : Nat} (above : startLba.toNat ≤ lba) :
    lba - chunkStart sectorSize startLba lba = (lba - startLba.toNat) % (bufferSectors sectorSize).toNat ∧
      lba - chunkStart sectorSize startLba lba < (bufferSectors sectorSize).toNat ∧
      chunkStart sectorSize startLba lba ≤ lba := by
  have split_ := Nat.div_add_mod' (lba - startLba.toNat) (bufferSectors sectorSize).toNat
  have small := Nat.mod_lt (lba - startLba.toNat) some_
  unfold chunkStart
  omega

theorem chunk_byte (some_ : 0 < (bufferSectors sectorSize).toNat) {lba j : Nat} (above : startLba.toNat ≤ lba)
    (within : j < sectorSize.toNat) :
    (lba - chunkStart sectorSize startLba lba) * sectorSize.toNat + j < BUFFER_SIZE.toNat := by
  have most := bufferSectors_le sectorSize
  have last := Nat.mul_le_mul_right sectorSize.toNat (Nat.succ_le_of_lt (chunk_offset some_ above).2.1)
  rw [Nat.succ_mul] at last
  omega

theorem holds_of_buffer (some_ : 0 < (bufferSectors sectorSize).toNat) (nonempty : pattern ≠ []) {disk : Disk}
    {lba k : Nat} (above : startLba.toNat ≤ lba)
    (same : ∀ j < sectorSize.toNat, disk.byte (lba * sectorSize.toNat + j) =
      (passBuffer env pass pattern k).getD ((lba - chunkStart sectorSize startLba lba) * sectorSize.toNat + j) 0) :
    SectorHolds sectorSize disk startLba pattern lba := by
  intro j within
  have inside := @chunk_byte sectorSize startLba some_ lba j above within
  have byte := @fillPattern_get pattern _ _ nonempty inside
  have short := length_fillPattern BUFFER_SIZE.toNat pattern
  rw [same j within,passBuffer,if_neg nonempty,← byte,List.getD_eq_getElem?_getD,
    List.getElem?_eq_getElem (by omega),Option.getD_some]

/-- What a pass guarantees of a sector: its part of the pattern if it was written with its
chunk, and the beginning of the pattern if only the write of that failed. -/
structure SectorKept (env : EraseEnv) (sectorSize : UInt32) (pass : Nat) (pattern : List UInt8)
    (startLba sectorCount : UInt64) (disk : Disk) (lba : Nat) : Prop where
  chunk : chunkFails env sectorSize disk.totalBytes pass (UInt64.ofNat (chunkStart sectorSize startLba lba))
      (UInt64.ofNat (chunkCount sectorSize startLba sectorCount lba)) = false →
    SectorHolds sectorSize disk startLba pattern lba
  alone : chunkFails env sectorSize disk.totalBytes pass (UInt64.ofNat (chunkStart sectorSize startLba lba))
      (UInt64.ofNat (chunkCount sectorSize startLba sectorCount lba)) = true →
    retryFails env sectorSize disk.totalBytes pass (UInt64.ofNat lba) = false →
    ∀ j < sectorSize.toNat, some (disk.byte (lba * sectorSize.toNat + j)) = pattern[j % pattern.length]?

theorem Passed.kept (some_ : 0 < (bufferSectors sectorSize).toNat) (nonempty : pattern ≠ []) {disk disk' : Disk}
    (passed : Passed env sectorSize pass pattern startLba sectorCount startLba.toNat disk disk') {lba : Nat}
    (above : startLba.toNat ≤ lba) (below : lba < startLba.toNat + sectorCount.toNat) :
    SectorKept env sectorSize pass pattern startLba sectorCount disk' lba := by
  obtain ⟨size,covered,_⟩ := passed
  have bytes := covered lba above below
  rw [← size] at bytes
  constructor
  · intro works
    have same : ∀ j < sectorSize.toNat, disk'.byte (lba * sectorSize.toNat + j) =
        (passBuffer env pass pattern ((lba - startLba.toNat) / (bufferSectors sectorSize).toNat)).getD
          ((lba - chunkStart sectorSize startLba lba) * sectorSize.toNat + j) 0 := by
      intro j within
      rw [bytes (.inl works) j within,passByte,works,chunkByte,if_neg Bool.false_ne_true]
    exact holds_of_buffer some_ nonempty above same
  · intro fails works j within
    have inside := @chunk_byte sectorSize startLba some_ lba j above within
    have byte := @fillPattern_get pattern BUFFER_SIZE.toNat j nonempty (by omega)
    have short := length_fillPattern BUFFER_SIZE.toNat pattern
    rw [bytes (.inr works) j within,passByte,fails,chunkByte,if_pos rfl,Nat.zero_add,passBuffer,if_neg nonempty,
      ← byte,List.getD_eq_getElem?_getD,List.getElem?_eq_getElem (by omega),Option.getD_some]

end Written

section Erased

variable {env : EraseEnv} {sectorSize : UInt32} {fuel : Nat}

/-- Where not even one sector fits into the buffer the verification does not get on. -/
theorem verifyLoop_stuck {pattern : List UInt8} {endLba currentLba : UInt64} {disk : Disk} (before : currentLba < endLba)
    (done : verifyLoop env sectorSize pattern endLba disk fuel currentLba = some (.ok ())) :
    0 < (bufferSectors sectorSize).toNat := by
  by_contra none
  have zero : bufferSectors sectorSize = 0 := UInt64.toNat_inj.mp (Nat.eq_zero_of_not_pos none)
  have empty : min (bufferSectors sectorSize) (endLba - currentLba) = 0 := by
    apply UInt64.toNat_inj.mp
    rw [UInt64.toNat_min,zero]
    exact Nat.zero_min _
  induction fuel with
  | zero => cases done
  | succ fuel ih =>
    rw [verifyLoop,if_neg (UInt64.not_le.mpr before)] at done
    simp only [empty,UInt64.add_zero] at done
    split at done
    next => simp at done
    next =>
      split at done
      next => exact ih done
      next =>
        split at done
        next => simp at done
        next => exact ih done

theorem eraseSectors_ok {mode : DiskAccessMode} {disk disk' : Disk} {range : UInt64 → UInt64 × UInt64} {config : EraseConfig} (verify : config.verify = true)
    (nonempty : buildPassList config ≠ [])
    (done : eraseSectors env mode sectorSize fuel range config disk = some (.ok (),disk')) :
    0 < sectorSize.toNat ∧ disk'.totalBytes = disk.totalBytes ∧
      (∃ between, between.totalBytes = disk.totalBytes ∧
        writePass env mode sectorSize fuel (range disk.totalBytes).1 (range disk.totalBytes).2
          ((buildPassList config).length - 1) ((buildPassList config).getLastD []) between = some (.ok (),disk')) ∧
      verifyPass env sectorSize fuel (range disk.totalBytes).1 (range disk.totalBytes).2
        ((buildPassList config).getLastD []) disk' = some (.ok ()) := by
  unfold eraseSectors at done
  split at done
  next => simp at done
  next totalBytes geometry =>
    have same : totalBytes = disk.totalBytes := by
      unfold RawDiskHandle.getGeometry at geometry
      cases answer : checked env.device.diskGeometry .diskReadError "IOCTL_DISK_GET_DRIVE_GEOMETRY_EX failed" with
      | error e =>
        rw [answer] at geometry
        cases geometry
      | ok _ =>
        rw [answer] at geometry
        cases geometry
        rfl
    subst same
    split at done
    next => simp at done
    next positive =>
      simp only at done
      split at done
      next => simp at done
      next =>
        split at done
        next between passed =>
          rw [if_pos ⟨verify,nonempty⟩] at done
          obtain ⟨result,verified,pair⟩ := Option.map_eq_some_iff.mp done
          cases pair
          obtain ⟨before,size,last⟩ := passLoop_last nonempty passed
          rw [Nat.zero_add] at last
          exact ⟨Nat.pos_of_ne_zero (fun zero => positive (UInt32.toNat_inj.mp zero)),passLoop_size passed,
            ⟨before,size,last⟩,verified⟩
        next failed => exact absurd done (failed () disk')

def lastPattern (config : EraseConfig) : List UInt8 := (buildPassList config).getLastD []

theorem passes_of_pattern {config : EraseConfig} (deterministic : lastPattern config ≠ []) :
    buildPassList config ≠ [] := by
  intro none
  rw [lastPattern,none] at deterministic
  exact deterministic rfl

/-- What an erasure guarantees of a sector by its last pass, if the disk can be written at all. -/
def LastPassKept (env : EraseEnv) (mode : DiskAccessMode) (sectorSize : UInt32) (config : EraseConfig)
    (startLba sectorCount : UInt64) (disk : Disk) (lba : Nat) : Prop :=
  mode = .readWrite → SectorKept env sectorSize ((buildPassList config).length - 1) (lastPattern config) startLba
    sectorCount disk lba

theorem lastPass_kept {mode : DiskAccessMode} {config : EraseConfig} {startLba sectorCount : UInt64} {disk disk' : Disk}
    (deterministic : lastPattern config ≠ []) (positive : 0 < sectorSize.toNat)
    (word : startLba.toNat + sectorCount.toNat < 2 ^ 64)
    (addressed : (startLba.toNat + sectorCount.toNat) * sectorSize.toNat ≤ 2 ^ 64)
    (written : writePass env mode sectorSize fuel startLba sectorCount ((buildPassList config).length - 1)
      (lastPattern config) disk = some (.ok (),disk'))
    (verified : verifyPass env sectorSize fuel startLba sectorCount (lastPattern config) disk' = some (.ok ())) {lba : Nat}
    (above : startLba.toNat ≤ lba) (below : lba < startLba.toNat + sectorCount.toNat) :
    LastPassKept env mode sectorSize config startLba sectorCount disk' lba := by
  rintro rfl
  have before : startLba < startLba + sectorCount := by
    rw [UInt64.lt_iff_toNat_lt,UInt64.toNat_add,Nat.mod_eq_of_lt word]
    omega
  have passed := writePass_written (fun random => absurd random deterministic) positive word (fun _ => addressed) written
  exact passed.kept (verifyLoop_stuck before verified) deterministic above below

/-- The range or the disk is erased with a verification, and it succeeds: every sector
that the verification could read holds the pattern of the last pass, and so does every
sector that the last pass could write. -/
theorem erase_sound (env : EraseEnv) (mode : DiskAccessMode) (sectorSize : UInt32) (fuel : Nat) (config : EraseConfig)
    (disk : Disk) (verify : config.verify = true) (deterministic : lastPattern config ≠ []) :
    (∀ (startLba sectorCount : UInt64) (disk' : Disk), startLba.toNat + sectorCount.toNat < 2 ^ 64 →
      eraseRange env mode sectorSize fuel startLba sectorCount config disk = some (.ok (),disk') →
      ∀ lba, startLba.toNat ≤ lba → lba < startLba.toNat + sectorCount.toNat →
        (lba + 1) * sectorSize.toNat ≤ disk.totalBytes.toNat →
        (SectorRead env sectorSize disk' startLba sectorCount lba →
          SectorHolds sectorSize disk' startLba (lastPattern config) lba) ∧
        ((startLba.toNat + sectorCount.toNat) * sectorSize.toNat ≤ 2 ^ 64 →
          LastPassKept env mode sectorSize config startLba sectorCount disk' lba)) ∧
    (∀ disk', eraseDisk env mode sectorSize fuel config disk = some (.ok (),disk') →
      ∀ lba, (lba + 1) * sectorSize.toNat ≤ disk.totalBytes.toNat →
        (SectorRead env sectorSize disk' 0 (disk.totalBytes / sectorSize.toUInt64) lba →
          SectorHolds sectorSize disk' 0 (lastPattern config) lba) ∧
        LastPassKept env mode sectorSize config 0 (disk.totalBytes / sectorSize.toUInt64) disk' lba) := by
  have nonempty := passes_of_pattern deterministic
  constructor
  · intro startLba sectorCount disk' word done lba above below inside
    obtain ⟨positive,size,⟨between,_,written⟩,verified⟩ := eraseSectors_ok verify nonempty done
    exact ⟨sector_holds deterministic positive word verified above below (by rw [size]; exact inside),
      fun addressed => lastPass_kept deterministic positive word addressed written verified above below⟩
  · intro disk' done lba inside
    obtain ⟨positive,size,⟨between,_,written⟩,verified⟩ := eraseSectors_ok verify nonempty done
    have sectors : (disk.totalBytes / sectorSize.toUInt64).toNat = disk.totalBytes.toNat / sectorSize.toNat := by
      rw [UInt64.toNat_div,UInt32.toNat_toUInt64]
    have zero : (0 : UInt64).toNat = 0 := rfl
    have last := (Nat.le_div_iff_mul_le positive).mpr inside
    have most := Nat.div_le_self disk.totalBytes.toNat sectorSize.toNat
    have whole := Nat.div_mul_le_self disk.totalBytes.toNat sectorSize.toNat
    have width := disk.totalBytes.toNat_lt
    have word : (0 : UInt64).toNat + (disk.totalBytes / sectorSize.toUInt64).toNat < 2 ^ 64 := by
      rw [sectors,zero]
      omega
    have below : lba < (0 : UInt64).toNat + (disk.totalBytes / sectorSize.toUInt64).toNat := by
      rw [sectors,zero]
      omega
    exact ⟨sector_holds deterministic positive word verified (Nat.zero_le _) below (by rw [size]; exact inside),
      lastPass_kept deterministic positive word (by rw [sectors,zero,Nat.zero_add]; omega) written verified
        (Nat.zero_le _) below⟩

section Sample

def Win32.broken : Win32 := { readFile := fun _ _ => .error 23, writeFile := fun _ _ => (some 23,0) }

def badSector : EraseEnv := { chunk := fun _ => Win32.broken, retry := fun _ => Win32.broken, verification := Win32.broken }

/-- A sector that can neither be written nor read keeps what it held, and the erasure of
it succeeds. -/
theorem bad_sector_kept : ∃ disk', lastPattern {} = [0] ∧
    eraseRange badSector .readWrite 512 2 0 1 {} (filled 512 0xAA) = some (.ok (),disk') ∧
    ¬ SectorHolds 512 disk' 0 [0] 0 := by
  have ends : endsWith (eraseRange badSector .readWrite 512 2 0 1 {} (filled 512 0xAA))
    (fun disk' => disk'.byte 0 == 0xAA) = true := by decide
  obtain ⟨disk',done,kept⟩ := exists_of_endsWith ends
  refine ⟨disk',rfl,done,fun holds => ?_⟩
  have byte := holds 0 (by decide)
  have held : disk'.byte (0 * (512 : UInt32).toNat + 0) = 0xAA := eq_of_beq kept
  rw [held] at byte
  exact absurd byte (by decide)

/-- A sector of a disk that works; one that cannot be read again; and one whose chunk cannot be
written either, which is then written alone. -/
theorem erased_sample :
    (∃ disk', eraseRange {} .readWrite 16 2 0 1 {} (filled 16 0xAA) = some (.ok (),disk') ∧
      SectorHolds 16 disk' 0 [0] 0) ∧
    (∃ disk', eraseRange { verification := Win32.broken } .readWrite 16 2 0 1 {} (filled 16 0xAA) =
        some (.ok (),disk') ∧ SectorHolds 16 disk' 0 [0] 0) ∧
    ∃ disk', eraseRange { chunk := fun _ => Win32.broken, verification := Win32.broken } .readWrite 16 2 0 1 {}
        (filled 16 0xAA) = some (.ok (),disk') ∧
      ∀ j < 16, some (disk'.byte (0 * 16 + j)) = [(0 : UInt8)][j % 1]? := by
  have ends (env : EraseEnv) (sound : endsWith (eraseRange env .readWrite 16 2 0 1 {} (filled 16 0xAA))
      (fun disk' => disk'.totalBytes == 16) = true) :
      ∃ disk', eraseRange env .readWrite 16 2 0 1 {} (filled 16 0xAA) = some (.ok (),disk') ∧ disk'.totalBytes = 16 ∧
        (SectorRead env 16 disk' 0 1 0 → SectorHolds 16 disk' 0 [0] 0) ∧
        SectorKept env 16 0 [0] 0 1 disk' 0 := by
    obtain ⟨disk',done,size⟩ := exists_of_endsWith sound
    obtain ⟨read,kept⟩ := (erase_sound env .readWrite 16 2 {} (filled 16 0xAA) rfl (by decide)).1 0 1 disk' (by decide)
      done 0 (by decide) (by decide) (by decide)
    exact ⟨disk',done,eq_of_beq size,read,kept (by decide) rfl⟩
  obtain ⟨disk₁,done₁,size₁,read₁,_⟩ := ends {} (by decide)
  obtain ⟨disk₂,done₂,size₂,_,kept₂⟩ := ends { verification := Win32.broken } (by decide)
  obtain ⟨disk₃,done₃,size₃,_,kept₃⟩ := ends { chunk := fun _ => Win32.broken, verification := Win32.broken } (by decide)
  refine ⟨⟨disk₁,done₁,read₁ ?_⟩,⟨disk₂,done₂,kept₂.chunk ?_⟩,disk₃,done₃,kept₃.alone ?_ ?_⟩
  · have read := @readSectors_working disk₁ 16 0 1 0 16 (by decide) (by decide) (by decide) (by rw [size₁]; decide)
    exact ⟨_,read,by rw [length_window]; decide⟩
  · rw [size₂]
    decide
  · rw [size₃]
    decide
  · rw [size₃]
    decide

end Sample

end Erased
end SecureErase
end SetecWizard.Core
