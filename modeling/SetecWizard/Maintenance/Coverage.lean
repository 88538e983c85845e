import SetecWizard.Maintenance.WritePass

/-! What the passes of an erasure cover. A pass and the verification cut a range into the same
chunks and start a pattern anew with each, so that the verification accepts what a pass
leaves when nothing fails. A chunk whose write failed holds its buffer again only when the
sectors of the buffer are all alike.
-/
namespace SetecWizard.Core
open SetecWizard.Library

namespace SecureErase

variable {env : EraseEnv} {sectorSize : UInt32} {pass fuel : Nat} {pattern : List UInt8} {startLba sectorCount : UInt64}

section Verification

variable {disk : Disk} {endLba currentLba : UInt64}

def VERIFY_MISMATCH : Result Unit :=
  .error (.fromCode .diskWriteError "Verification failed: data mismatch after erase")

theorem verifyLoop_round (before : currentLba < endLba)
    (checked : pattern ≠ [] →
      ChunkChecked env sectorSize pattern disk currentLba (min (bufferSectors sectorSize) (endLba - currentLba)))
    (fuel : Nat) :
    verifyLoop env sectorSize pattern endLba disk (fuel + 1) currentLba =
      if env.cancelVerify currentLba then some (.error (.fromCode .operationCanceled "Verify canceled"))
      else verifyLoop env sectorSize pattern endLba disk fuel
        (currentLba + min (bufferSectors sectorSize) (endLba - currentLba)) := by
  rw [verifyLoop,if_neg (UInt64.not_le.mpr before)]
  split
  next => rfl
  next =>
    simp only
    split
    next => rfl
    next readData read =>
      rw [if_neg]
      rintro ⟨nonempty,differs⟩
      apply differs
      have same := congrArg (List.take (min ((min (bufferSectors sectorSize) (endLba - currentLba)).toUInt32 *
        sectorSize).toNat readData.length)) (checked nonempty readData read)
      rw [List.take_take,Nat.min_assoc,Nat.min_self] at same
      exact same

theorem chunk_checked {k : Nat} (positive : 0 < sectorSize.toNat)
    (at_ : currentLba.toNat = startLba.toNat + k * (bufferSectors sectorSize).toNat) (before : currentLba < endLba)
    (inside : endLba.toNat * sectorSize.toNat ≤ disk.totalBytes.toNat) (nonempty : pattern ≠ [])
    (holds : ∀ lba, startLba.toNat ≤ lba → lba < endLba.toNat → SectorHolds sectorSize disk startLba pattern lba) :
    ChunkChecked env sectorSize pattern disk currentLba (min (bufferSectors sectorSize) (endLba - currentLba)) := by
  intro data read
  obtain ⟨chunk,_⟩ := @chunk_toNat sectorSize endLba currentLba before
  have below := UInt64.lt_iff_toNat_lt.mp before
  have width := disk.totalBytes.toNat_lt
  have most := bufferSectors_le sectorSize
  have reach : currentLba.toNat * sectorSize.toNat ≤ endLba.toNat * sectorSize.toNat :=
    Nat.mul_le_mul_right _ (by omega)
  have start : (currentLba * sectorSize.toUInt64).toNat = currentLba.toNat * sectorSize.toNat := by
    rw [UInt64.toNat_mul,UInt32.toNat_toUInt64,Nat.mod_eq_of_lt (by omega)]
  obtain ⟨bytes,_,short⟩ := readSectors_ok start read
  have short' : data.length ≤ min (bufferSectors sectorSize).toNat (endLba.toNat - currentLba.toNat) *
      sectorSize.toNat := by
    refine short.trans ?_
    rw [UInt64.toNat_mul,UInt32.toNat_toUInt64,chunk]
    exact Nat.mod_le _ _
  have fits : min (bufferSectors sectorSize).toNat (endLba.toNat - currentLba.toNat) * sectorSize.toNat ≤
      (bufferSectors sectorSize).toNat * sectorSize.toNat := Nat.mul_le_mul_right _ (Nat.min_le_left _ _)
  apply List.ext_getElem?
  intro i
  rw [List.getElem?_take]
  by_cases within : i < data.length
  · -- The byte lies in sector `i / sectorSize` of the chunk.
    have sector : i / sectorSize.toNat < min (bufferSectors sectorSize).toNat (endLba.toNat - currentLba.toNat) :=
      (Nat.div_lt_iff_lt_mul positive).mpr (by omega)
    have phase : currentLba.toNat + i / sectorSize.toNat - currentLba.toNat = i / sectorSize.toNat :=
      Nat.add_sub_cancel_left _ _
    obtain ⟨_,first⟩ := @chunkStart_of sectorSize startLba (currentLba.toNat + i / sectorSize.toNat) k (by omega)
      (by rw [Nat.add_mul]; omega)
    have byte := holds (currentLba.toNat + i / sectorSize.toNat) (by omega) (by omega) (i % sectorSize.toNat)
      (Nat.mod_lt _ positive)
    have split_ := Nat.div_add_mod' i sectorSize.toNat
    have address : (currentLba.toNat + i / sectorSize.toNat) * sectorSize.toNat + i % sectorSize.toNat =
        currentLba.toNat * sectorSize.toNat + i := by
      rw [Nat.add_mul]
      omega
    rw [address,first,← at_,phase,split_] at byte
    have read_ := congrArg (fun xs => xs[i]?) bytes
    simp only [getElem?_window,if_pos within] at read_
    rw [if_pos within,read_,byte]
    exact (fillPattern_get nonempty (by omega)).symm
  · rw [if_neg within,List.getElem?_eq_none (by omega)]

/-- The verification of a range whose sectors hold their parts of the pattern finds no
mismatch, and ends when it is not canceled; by induction on its rounds. -/
theorem verifyLoop_agrees {k : Nat} (positive : 0 < sectorSize.toNat) (fits : sectorSize.toNat ≤ BUFFER_SIZE.toNat)
    (at_ : currentLba < endLba → currentLba.toNat = startLba.toNat + k * (bufferSectors sectorSize).toNat)
    (inside : currentLba < endLba → endLba.toNat * sectorSize.toNat ≤ disk.totalBytes.toNat)
    (holds : pattern ≠ [] →
      ∀ lba, startLba.toNat ≤ lba → lba < endLba.toNat → SectorHolds sectorSize disk startLba pattern lba) :
    verifyLoop env sectorSize pattern endLba disk fuel currentLba ≠ some VERIFY_MISMATCH ∧
      ((∀ lba, env.cancelVerify lba = false) → endLba.toNat - currentLba.toNat < fuel →
        verifyLoop env sectorSize pattern endLba disk fuel currentLba = some (.ok ())) := by
  have some_ := bufferSectors_pos positive fits
  induction fuel generalizing currentLba k with
  | zero => exact ⟨by simp [verifyLoop],fun _ enough => by omega⟩
  | succ fuel ih =>
    by_cases before : currentLba < endLba
    · have round := @verifyLoop_round env sectorSize pattern disk endLba currentLba before
        (fun nonempty => chunk_checked positive (at_ before) before (inside before) nonempty (holds nonempty)) fuel
      obtain ⟨_,next⟩ := @chunk_toNat sectorSize endLba currentLba before
      have below := UInt64.lt_iff_toNat_lt.mp before
      obtain ⟨agrees,ends⟩ := @ih (currentLba + min (bufferSectors sectorSize) (endLba - currentLba)) (k + 1) (by
        intro more
        have later := UInt64.lt_iff_toNat_lt.mp more
        rw [next] at later ⊢
        rw [at_ before] at later ⊢
        rw [Nat.add_mul]
        omega) (fun _ => inside before)
      rw [round]
      constructor
      · split
        next => simp [VERIFY_MISMATCH,ErrorInfo.fromCode]
        next => exact agrees
      · intro goesOn enough
        rw [goesOn currentLba,if_neg Bool.false_ne_true]
        exact ends goesOn (by rw [next]; omega)
    · rw [verifyLoop,if_pos (UInt64.not_lt.mp before)]
      exact ⟨by simp [VERIFY_MISMATCH],fun _ _ => rfl⟩

end Verification

section Covered

/-- A pass covered a range of sectors: each chunk of it holds the buffer of its round, in a
pass with a pattern each sector its part of the pattern, and the rest of the disk is as before. -/
structure Overwritten (env : EraseEnv) (sectorSize : UInt32) (pass : Nat) (pattern : List UInt8)
    (startLba sectorCount : UInt64) (disk disk' : Disk) : Prop where
  size : disk'.totalBytes = disk.totalBytes
  covered : ∀ lba, startLba.toNat ≤ lba → lba < startLba.toNat + sectorCount.toNat → ∀ j < sectorSize.toNat,
    disk'.byte (lba * sectorSize.toNat + j) =
      (passBuffer env pass pattern ((lba - startLba.toNat) / (bufferSectors sectorSize).toNat)).getD
        ((lba - chunkStart sectorSize startLba lba) * sectorSize.toNat + j) 0
  holds : pattern ≠ [] → ∀ lba, startLba.toNat ≤ lba → lba < startLba.toNat + sectorCount.toNat →
    SectorHolds sectorSize disk' startLba pattern lba
  outside : ∀ i, i < startLba.toNat * sectorSize.toNat ∨
    (startLba.toNat + sectorCount.toNat) * sectorSize.toNat ≤ i → disk'.byte i = disk.byte i

/-- Nothing fails during an erasure, and nothing cancels it. -/
structure Faultless (env : EraseEnv) : Prop where
  geometry : env.device.diskGeometry = none
  lock : env.lockAllVolumes = .ok ()
  chunk : ∀ pass, env.chunk pass = .working
  retry : ∀ pass, env.retry pass = .working
  random : ∀ pass n, ∃ fresh, env.random pass n = some fresh
  fills : RandomFills env
  verification : env.verification = .working
  passGoesOn : ∀ pass, env.cancelPass pass = false
  writeGoesOn : ∀ pass lba, env.cancelWrite pass lba = false
  verifyGoesOn : ∀ lba, env.cancelVerify lba = false

theorem Faultless.undisturbed (faultless : Faultless env) (pass : Nat) (pattern : List UInt8) :
    Undisturbed env pass pattern :=
  ⟨fun _ => faultless.random pass,faultless.fills,faultless.writeGoesOn pass,faultless.retry pass⟩

theorem chunkFails_working {totalBytes lba count : UInt64} (working : env.chunk pass = .working)
    (inside : (lba.toNat + count.toNat) * sectorSize.toNat ≤ totalBytes.toNat)
    (small : count.toNat * sectorSize.toNat < 2 ^ 32) : chunkFails env sectorSize totalBytes pass lba count = false := by
  have width := totalBytes.toNat_lt
  rw [Nat.add_mul] at inside
  have start : (lba * sectorSize.toUInt64).toNat = lba.toNat * sectorSize.toNat := by
    rw [UInt64.toNat_mul,UInt32.toNat_toUInt64,Nat.mod_eq_of_lt (by omega)]
  have length : (count * sectorSize.toUInt64).toNat = count.toNat * sectorSize.toNat := by
    rw [UInt64.toNat_mul,UInt32.toNat_toUInt64,Nat.mod_eq_of_lt (by omega)]
  rw [chunkFails,writeFails,working,writeSectors_front (filled totalBytes 0) lba count [] start length small inside]

theorem chunk_words (some_ : 0 < (bufferSectors sectorSize).toNat) (word : startLba.toNat + sectorCount.toNat < 2 ^ 64)
    {lba : Nat} (above : startLba.toNat ≤ lba) (below : lba < startLba.toNat + sectorCount.toNat) :
    (UInt64.ofNat (chunkStart sectorSize startLba lba)).toNat = chunkStart sectorSize startLba lba ∧
      (UInt64.ofNat (chunkCount sectorSize startLba sectorCount lba)).toNat =
        chunkCount sectorSize startLba sectorCount lba ∧
      chunkStart sectorSize startLba lba + chunkCount sectorSize startLba sectorCount lba ≤
        startLba.toNat + sectorCount.toNat ∧
      chunkCount sectorSize startLba sectorCount lba ≤ (bufferSectors sectorSize).toNat := by
  obtain ⟨_,_,floor⟩ := @chunk_offset sectorSize startLba some_ lba above
  have count : chunkCount sectorSize startLba sectorCount lba =
    min (bufferSectors sectorSize).toNat (startLba.toNat + sectorCount.toNat - chunkStart sectorSize startLba lba) := rfl
  rw [UInt64.toNat_ofNat',UInt64.toNat_ofNat',Nat.mod_eq_of_lt (by omega),Nat.mod_eq_of_lt (by omega)]
  omega

theorem passByte_working (working : env.chunk pass = .working) (some_ : 0 < (bufferSectors sectorSize).toNat)
    (word : startLba.toNat + sectorCount.toNat < 2 ^ 64) {totalBytes : UInt64}
    (inside : (startLba.toNat + sectorCount.toNat) * sectorSize.toNat ≤ totalBytes.toNat) {lba : Nat}
    (above : startLba.toNat ≤ lba) (below : lba < startLba.toNat + sectorCount.toNat) (j : Nat) :
    passByte env sectorSize totalBytes pass pattern startLba sectorCount lba j =
      (passBuffer env pass pattern ((lba - startLba.toNat) / (bufferSectors sectorSize).toNat)).getD
        ((lba - chunkStart sectorSize startLba lba) * sectorSize.toNat + j) 0 := by
  obtain ⟨first,count,reach,most⟩ := chunk_words some_ word above below
  have bound := bufferSectors_le sectorSize
  have buffer : BUFFER_SIZE.toNat = 65536 := rfl
  have range := Nat.mul_le_mul_right sectorSize.toNat reach
  have small := Nat.mul_le_mul_right sectorSize.toNat most
  have works := @chunkFails_working env sectorSize pass totalBytes
    (UInt64.ofNat (chunkStart sectorSize startLba lba)) (UInt64.ofNat (chunkCount sectorSize startLba sectorCount lba))
    working (by rw [first,count]; exact range.trans inside) (by rw [count]; omega)
  rw [passByte,works,chunkByte,if_neg Bool.false_ne_true]

section Faults

variable (faultless : Faultless env) (positive : 0 < sectorSize.toNat) (fits : sectorSize.toNat ≤ BUFFER_SIZE.toNat)
  (word : startLba.toNat + sectorCount.toNat < 2 ^ 64) (enough : sectorCount.toNat < fuel)

include faultless positive fits word enough

theorem Faultless.writePass (pass : Nat) (pattern : List UInt8) (disk : Disk)
    (inside : 0 < sectorCount.toNat →
      (startLba.toNat + sectorCount.toNat) * sectorSize.toNat ≤ disk.totalBytes.toNat) :
    ∃ disk', writePass env .readWrite sectorSize fuel startLba sectorCount pass pattern disk = some (.ok (),disk') ∧
      Overwritten env sectorSize pass pattern startLba sectorCount disk disk' := by
  have some_ := bufferSectors_pos positive fits
  obtain ⟨disk',done,size,covered,outside⟩ := writePass_passed (faultless.undisturbed pass pattern) positive fits word
    enough disk inside
  have bytes : ∀ lba, startLba.toNat ≤ lba → lba < startLba.toNat + sectorCount.toNat → ∀ j < sectorSize.toNat,
      disk'.byte (lba * sectorSize.toNat + j) =
        (passBuffer env pass pattern ((lba - startLba.toNat) / (bufferSectors sectorSize).toNat)).getD
          ((lba - chunkStart sectorSize startLba lba) * sectorSize.toNat + j) 0 := by
    intro lba above below j within
    rw [covered lba above below j within]
    exact passByte_working (faultless.chunk pass) some_ word (inside (by omega)) above below j
  exact ⟨disk',done,size,bytes,
    fun nonempty lba above below => holds_of_buffer some_ nonempty above (bytes lba above below),outside⟩

theorem Faultless.verifyPass {disk : Disk} (inside : 0 < sectorCount.toNat →
      (startLba.toNat + sectorCount.toNat) * sectorSize.toNat ≤ disk.totalBytes.toNat)
    (holds : pattern ≠ [] → ∀ lba, startLba.toNat ≤ lba → lba < startLba.toNat + sectorCount.toNat →
      SectorHolds sectorSize disk startLba pattern lba) :
    verifyPass env sectorSize fuel startLba sectorCount pattern disk = some (.ok ()) := by
  have last : (startLba + sectorCount).toNat = startLba.toNat + sectorCount.toNat := by
    rw [UInt64.toNat_add,Nat.mod_eq_of_lt word]
  have agrees := @verifyLoop_agrees env sectorSize fuel pattern startLba disk (startLba + sectorCount) startLba 0 positive
    fits (fun _ => by omega) (fun before => by
      have below := UInt64.lt_iff_toNat_lt.mp before
      rw [last] at below ⊢
      exact inside (by omega)) (by rw [last]; exact holds)
  exact agrees.2 faultless.verifyGoesOn (by rw [last]; omega)

end Faults

/-- Every pass of a list covers the range, one behind the other. -/
def Covers (env : EraseEnv) (sectorSize : UInt32) (startLba sectorCount : UInt64) :
    List (List UInt8) → Nat → Disk → Disk → Prop
  | [],_,disk,disk' => disk' = disk
  | pattern :: rest,pass,disk,disk' =>
    ∃ between, Overwritten env sectorSize pass pattern startLba sectorCount disk between ∧
      Covers env sectorSize startLba sectorCount rest (pass + 1) between disk'

theorem Covers.size {passes : List (List UInt8)} {disk disk' : Disk}
    (covers : Covers env sectorSize startLba sectorCount passes pass disk disk') : disk'.totalBytes = disk.totalBytes := by
  induction passes generalizing pass disk with
  | nil => rw [show disk' = disk from covers]
  | cons pattern rest ih =>
    obtain ⟨between,first,later⟩ := covers
    exact (ih later).trans first.size

theorem Covers.holds {passes : List (List UInt8)} {disk disk' : Disk} (nonempty : passes ≠ [])
    (covers : Covers env sectorSize startLba sectorCount passes pass disk disk') (deterministic : passes.getLastD [] ≠ [])
    {lba : Nat} (above : startLba.toNat ≤ lba) (below : lba < startLba.toNat + sectorCount.toNat) :
    SectorHolds sectorSize disk' startLba (passes.getLastD []) lba := by
  induction passes generalizing pass disk with
  | nil => cases nonempty rfl
  | cons pattern rest ih =>
    obtain ⟨between,first,later⟩ := covers
    cases rest with
    | nil =>
      rw [show disk' = between from later]
      exact first.holds deterministic lba above below
    | cons next rest => exact ih (List.cons_ne_nil _ _) later deterministic

/-- The passes of a list, by induction on the list. -/
theorem Faultless.passLoop (faultless : Faultless env) (positive : 0 < sectorSize.toNat)
    (fits : sectorSize.toNat ≤ BUFFER_SIZE.toNat) (word : startLba.toNat + sectorCount.toNat < 2 ^ 64)
    (enough : sectorCount.toNat < fuel) (passes : List (List UInt8)) (pass : Nat) (disk : Disk)
    (inside : 0 < sectorCount.toNat →
      (startLba.toNat + sectorCount.toNat) * sectorSize.toNat ≤ disk.totalBytes.toNat) :
    ∃ disk', passLoop env .readWrite sectorSize fuel startLba sectorCount passes pass disk = some (.ok (),disk') ∧
      Covers env sectorSize startLba sectorCount passes pass disk disk' := by
  induction passes generalizing pass disk with
  | nil => exact ⟨disk,rfl,rfl⟩
  | cons pattern rest ih =>
    obtain ⟨between,written,overwritten⟩ := faultless.writePass positive fits word enough pass pattern disk inside
    obtain ⟨disk',done,covers⟩ := ih (pass + 1) between (by rw [overwritten.size]; exact inside)
    refine ⟨disk',?_,between,overwritten,covers⟩
    rw [SecureErase.passLoop,faultless.passGoesOn pass,if_neg Bool.false_ne_true,written]
    exact done

/-- A range of a disk is erased while nothing fails and nothing cancels. Each pass covers the
range and nothing else, and the verification of what it leaves succeeds; so does the
erasure, whatever its method. -/
theorem erase_covers (faultless : Faultless env) (divides : sectorSize.toNat ∣ 65536)
    (word : startLba.toNat + sectorCount.toNat < 2 ^ 64) (enough : sectorCount.toNat < fuel) (disk : Disk)
    (inside : 0 < sectorCount.toNat →
      (startLba.toNat + sectorCount.toNat) * sectorSize.toNat ≤ disk.totalBytes.toNat) :
    (∀ pass pattern, ∃ disk',
      writePass env .readWrite sectorSize fuel startLba sectorCount pass pattern disk = some (.ok (),disk') ∧
        Overwritten env sectorSize pass pattern startLba sectorCount disk disk' ∧
        verifyPass env sectorSize fuel startLba sectorCount pattern disk' = some (.ok ())) ∧
    (∀ passes pass, ∃ disk',
      passLoop env .readWrite sectorSize fuel startLba sectorCount passes pass disk = some (.ok (),disk') ∧
        Covers env sectorSize startLba sectorCount passes pass disk disk') ∧
    ∀ config, ∃ disk',
      eraseRange env .readWrite sectorSize fuel startLba sectorCount config disk = some (.ok (),disk') ∧
        Covers env sectorSize startLba sectorCount (buildPassList config) 0 disk disk' := by
  have positive : 0 < sectorSize.toNat := Nat.pos_of_dvd_of_pos divides (by omega)
  have fits : sectorSize.toNat ≤ BUFFER_SIZE.toNat := Nat.le_of_dvd (by decide) divides
  refine ⟨fun pass pattern => ?_,fun passes pass =>
    faultless.passLoop positive fits word enough passes pass disk inside,fun config => ?_⟩
  · obtain ⟨disk',done,overwritten⟩ := faultless.writePass positive fits word enough pass pattern disk inside
    exact ⟨disk',done,overwritten,
      faultless.verifyPass positive fits word enough (by rw [overwritten.size]; exact inside) overwritten.holds⟩
  · obtain ⟨disk',done,covers⟩ := faultless.passLoop positive fits word enough (buildPassList config) 0 disk inside
    have known : RawDiskHandle.getGeometry env.device disk = .ok disk.totalBytes := by
      rw [RawDiskHandle.getGeometry,faultless.geometry]
      rfl
    have nonzero : sectorSize ≠ 0 := fun zero => by
      rw [zero] at positive
      exact absurd positive (by decide)
    refine ⟨disk',?_,covers⟩
    unfold eraseRange eraseSectors
    simp only [known,if_neg nonzero,faultless.lock,done]
    split
    next verified =>
      rw [faultless.verifyPass positive fits word enough (by rw [covers.size]; exact inside)
        (fun deterministic lba above below => covers.holds verified.2 deterministic above below)]
      rfl
    next => rfl

def quiet : EraseEnv := { random := fun _ _ => some (List.replicate 65536 0x5A) }

theorem quiet_faultless : Faultless quiet where
  geometry := rfl
  lock := rfl
  chunk := fun _ => rfl
  retry := fun _ => rfl
  random := fun _ _ => ⟨_,rfl⟩
  fills := fun _ _ buffer answer => by
    rw [← Option.some.inj answer,List.length_replicate]
    rfl
  verification := rfl
  passGoesOn := fun _ => rfl
  writeGoesOn := fun _ _ => rfl
  verifyGoesOn := fun _ => rfl

theorem erase_covers_sample : ∃ disk', eraseRange quiet .readWrite 512 4 1 3 { method := .doD3Pass } (filled 4096 0xAA) =
      some (.ok (),disk') ∧
    Covers quiet 512 1 3 [[0x00],[0xFF],[]] 0 (filled 4096 0xAA) disk' :=
  (erase_covers quiet_faultless (by decide) (by decide) (by decide) (filled 4096 0xAA) (by decide)).2.2
    { method := .doD3Pass }

end Covered

section Retries

/-- In every chunk whose write fails, the part of the buffer that each sector should get is the
first sector's. -/
def RetriesAgree (env : EraseEnv) (sectorSize : UInt32) (totalBytes : UInt64) (pass : Nat) (pattern : List UInt8)
    (startLba sectorCount : UInt64) : Prop :=
  ∀ lba, startLba.toNat ≤ lba → lba < startLba.toNat + sectorCount.toNat →
    chunkFails env sectorSize totalBytes pass (UInt64.ofNat (chunkStart sectorSize startLba lba))
      (UInt64.ofNat (chunkCount sectorSize startLba sectorCount lba)) = true →
    ∀ j < sectorSize.toNat,
      (passBuffer env pass pattern ((lba - startLba.toNat) / (bufferSectors sectorSize).toNat)).getD
          ((lba - chunkStart sectorSize startLba lba) * sectorSize.toNat + j) 0 =
        (passBuffer env pass pattern ((lba - startLba.toNat) / (bufferSectors sectorSize).toNat)).getD j 0

/-- The run with no write of a chunk failing. -/
def unfailing (env : EraseEnv) : EraseEnv := { env with chunk := fun _ => .working }

theorem passByte_iff {totalBytes : UInt64} {lba : Nat} :
    (∀ j < sectorSize.toNat, passByte env sectorSize totalBytes pass pattern startLba sectorCount lba j =
      (passBuffer env pass pattern ((lba - startLba.toNat) / (bufferSectors sectorSize).toNat)).getD
        ((lba - chunkStart sectorSize startLba lba) * sectorSize.toNat + j) 0) ↔
    (chunkFails env sectorSize totalBytes pass (UInt64.ofNat (chunkStart sectorSize startLba lba))
        (UInt64.ofNat (chunkCount sectorSize startLba sectorCount lba)) = true →
      ∀ j < sectorSize.toNat,
        (passBuffer env pass pattern ((lba - startLba.toNat) / (bufferSectors sectorSize).toNat)).getD
            ((lba - chunkStart sectorSize startLba lba) * sectorSize.toNat + j) 0 =
          (passBuffer env pass pattern ((lba - startLba.toNat) / (bufferSectors sectorSize).toNat)).getD j 0) := by
  cases fails : chunkFails env sectorSize totalBytes pass (UInt64.ofNat (chunkStart sectorSize startLba lba))
    (UInt64.ofNat (chunkCount sectorSize startLba sectorCount lba)) with
  | false =>
    refine ⟨fun _ impossible => absurd impossible Bool.false_ne_true,fun _ j _ => ?_⟩
    rw [passByte,fails,chunkByte,if_neg Bool.false_ne_true]
  | true =>
    refine ⟨fun same _ j within => ?_,fun same j within => ?_⟩
    · rw [← same j within,passByte,fails,chunkByte,if_pos rfl,Nat.zero_add]
    · rw [same rfl j within,passByte,fails,chunkByte,if_pos rfl,Nat.zero_add]

theorem in_sector {first last i size : Nat} (positive : 0 < size) (above : first * size ≤ i) (below : i < last * size) :
    first ≤ i / size ∧ i / size < last ∧ i % size < size ∧ i / size * size + i % size = i :=
  ⟨(Nat.le_div_iff_mul_le positive).mpr above,(Nat.div_lt_iff_lt_mul positive).mpr below,Nat.mod_lt _ positive,
    Nat.div_add_mod' i size⟩

/-- A pass some of whose chunks fail, while every sector that is retried is written, leaves
what it would leave if none failed, and so gives the verification no mismatch, exactly when
in each of those chunks all the sectors of the buffer are alike. -/
theorem retry_same_iff (undisturbed : Undisturbed env pass pattern) (positive : 0 < sectorSize.toNat)
    (fits : sectorSize.toNat ≤ BUFFER_SIZE.toNat) (enough : sectorCount.toNat < fuel) (disk : Disk)
    (inside : 0 < sectorCount.toNat →
      (startLba.toNat + sectorCount.toNat) * sectorSize.toNat ≤ disk.totalBytes.toNat) :
    ∃ disk₁ disk₂,
      writePass env .readWrite sectorSize fuel startLba sectorCount pass pattern disk = some (.ok (),disk₁) ∧
      writePass (unfailing env) .readWrite sectorSize fuel startLba sectorCount pass pattern disk = some (.ok (),disk₂) ∧
      ((disk₁ = disk₂ ∧ (pattern ≠ [] →
          ∀ fuel, verifyPass env sectorSize fuel startLba sectorCount pattern disk₁ ≠ some VERIFY_MISMATCH)) ↔
        RetriesAgree env sectorSize disk.totalBytes pass pattern startLba sectorCount) := by
  have some_ := bufferSectors_pos positive fits
  have word : startLba.toNat + sectorCount.toNat < 2 ^ 64 := by
    have width := disk.totalBytes.toNat_lt
    have most := Nat.le_mul_of_pos_right (startLba.toNat + sectorCount.toNat) positive
    have place := startLba.toNat_lt
    by_cases none : sectorCount.toNat = 0
    · omega
    · have reach := inside (by omega)
      omega
  have undisturbed' : Undisturbed (unfailing env) pass pattern :=
    ⟨undisturbed.random,undisturbed.fills,undisturbed.goesOn,undisturbed.retry⟩
  obtain ⟨disk₁,done₁,size₁,covered₁,outside₁⟩ := writePass_passed undisturbed positive fits word enough disk inside
  obtain ⟨disk₂,done₂,size₂,covered₂,outside₂⟩ := writePass_passed undisturbed' positive fits word enough disk inside
  have fast : ∀ lba, startLba.toNat ≤ lba → lba < startLba.toNat + sectorCount.toNat → ∀ j < sectorSize.toNat,
      disk₂.byte (lba * sectorSize.toNat + j) =
        (passBuffer env pass pattern ((lba - startLba.toNat) / (bufferSectors sectorSize).toNat)).getD
          ((lba - chunkStart sectorSize startLba lba) * sectorSize.toNat + j) 0 := by
    intro lba above below j within
    rw [covered₂ lba above below j within]
    exact @passByte_working (unfailing env) sectorSize pass pattern startLba sectorCount rfl some_ word disk.totalBytes
      (inside (by omega)) lba above below j
  refine ⟨disk₁,disk₂,done₁,done₂,fun ⟨same,_⟩ lba above below => ?_,fun agree => ?_⟩
  · apply passByte_iff.mp
    intro j within
    rw [← covered₁ lba above below j within,← fast lba above below j within,same]
  · have slow : ∀ lba, startLba.toNat ≤ lba → lba < startLba.toNat + sectorCount.toNat → ∀ j < sectorSize.toNat,
        disk₁.byte (lba * sectorSize.toNat + j) =
          (passBuffer env pass pattern ((lba - startLba.toNat) / (bufferSectors sectorSize).toNat)).getD
            ((lba - chunkStart sectorSize startLba lba) * sectorSize.toNat + j) 0 := by
      intro lba above below j within
      rw [covered₁ lba above below j within]
      exact passByte_iff.mpr (agree lba above below) j within
    have bytes : disk₁.byte = disk₂.byte := by
      funext i
      by_cases apart : i < startLba.toNat * sectorSize.toNat ∨
          (startLba.toNat + sectorCount.toNat) * sectorSize.toNat ≤ i
      · rw [outside₁ i apart,outside₂ i apart]
      · obtain ⟨above,below,within,address⟩ := @in_sector startLba.toNat (startLba.toNat + sectorCount.toNat) i
          sectorSize.toNat positive (by omega) (by omega)
        rw [← address,slow _ above below _ within,fast _ above below _ within]
    have same : disk₁ = disk₂ := by
      cases disk₁
      cases disk₂
      exact Disk.mk.injEq .. ▸ ⟨size₁.trans size₂.symm,bytes⟩
    have last : (startLba + sectorCount).toNat = startLba.toNat + sectorCount.toNat := by
      rw [UInt64.toNat_add,Nat.mod_eq_of_lt word]
    refine ⟨same,fun _ fuel => (@verifyLoop_agrees env sectorSize fuel pattern startLba disk₁ (startLba + sectorCount)
      startLba 0 positive fits (fun _ => by omega) (fun before => ?_) ?_).1⟩
    · have below := UInt64.lt_iff_toNat_lt.mp before
      rw [last] at below ⊢
      rw [size₁]
      exact inside (by omega)
    · rw [last]
      exact fun nonempty lba above below => holds_of_buffer some_ nonempty above (slow lba above below)

/-- The writes of whole chunks fail, those of single sectors succeed. -/
def transientError : EraseEnv := { chunk := fun _ => Win32.broken }

theorem undisturbed_of_pattern (retry : env.retry pass = .working) (noRandom : env.random = fun _ _ => none)
    (goesOn : ∀ lba, env.cancelWrite pass lba = false) (nonempty : pattern ≠ []) : Undisturbed env pass pattern where
  random := fun random => absurd random nonempty
  fills := fun pass n buffer answer => by
    rw [noRandom] at answer
    cases answer
  goesOn := goesOn
  retry := retry

theorem retry_same_sample : ∃ disk₁ disk₂,
    writePass transientError .readWrite 512 3 0 2 0 [0x00] (filled 4096 0xAA) = some (.ok (),disk₁) ∧
      writePass (unfailing transientError) .readWrite 512 3 0 2 0 [0x00] (filled 4096 0xAA) = some (.ok (),disk₂) ∧
      disk₁ = disk₂ := by
  obtain ⟨disk₁,disk₂,done₁,done₂,same⟩ := @retry_same_iff transientError 512 0 3 [0x00] 0 2
    (undisturbed_of_pattern rfl rfl (fun _ => rfl) (by decide)) (by decide) (by decide) (by decide) (filled 4096 0xAA)
    (by decide)
  refine ⟨disk₁,disk₂,done₁,done₂,(same.mpr fun lba _ _ _ j _ => ?_).1⟩
  have zeros : ∀ i, (List.replicate BUFFER_SIZE.toNat (0 : UInt8)).getD i 0 = 0 := by
    intro i
    rw [List.getD_eq_getElem?_getD,List.getElem?_replicate]
    split <;> rfl
  exact (zeros _).trans (zeros j).symm

/-- A pass of Gutmann's method over two sectors, whose chunk fails and whose sectors do not:
the second sector gets the bytes of the first, and the verification reports it. -/
theorem transient_mismatch : ∃ disk₁ disk₂,
    writePass transientError .readWrite 512 3 0 2 0 [0x92,0x49,0x24] (filled 4096 0xAA) = some (.ok (),disk₁) ∧
      writePass (unfailing transientError) .readWrite 512 3 0 2 0 [0x92,0x49,0x24] (filled 4096 0xAA) =
        some (.ok (),disk₂) ∧
      disk₁ ≠ disk₂ ∧ verifyPass transientError 512 3 0 2 [0x92,0x49,0x24] disk₁ = some VERIFY_MISMATCH := by
  obtain ⟨disk₁,done₁,size₁,covered₁,_⟩ := @writePass_passed transientError 512 0 3 [0x92,0x49,0x24]
    (undisturbed_of_pattern rfl rfl (fun _ => rfl) (by decide)) (by decide) (by decide) 0 2 (by decide) (by decide)
    (filled 4096 0xAA) (by decide)
  obtain ⟨disk₂,done₂,size₂,covered₂,_⟩ := @writePass_passed (unfailing transientError) 512 0 3 [0x92,0x49,0x24]
    (undisturbed_of_pattern rfl rfl (fun _ => rfl) (by decide)) (by decide) (by decide) 0 2 (by decide) (by decide)
    (filled 4096 0xAA) (by decide)
  have buffer (i : Nat) (inside : i < BUFFER_SIZE.toNat) :
      (fillPattern BUFFER_SIZE.toNat [0x92,0x49,0x24]).getD i 0 = [(0x92 : UInt8),0x49,0x24].getD (i % 3) 0 := by
    rw [List.getD_eq_getElem?_getD,fillPattern_get (by decide) inside,List.getD_eq_getElem?_getD]
    rfl
  have slow : disk₁.byte 512 = 0x92 := (covered₁ 1 (by decide) (by decide) 0 (by decide)).trans (buffer 0 (by decide))
  have fast : disk₂.byte 512 = 0x24 := (covered₂ 1 (by decide) (by decide) 0 (by decide)).trans (buffer 512 (by decide))
  refine ⟨disk₁,disk₂,done₁,done₂,fun same => ?_,?_⟩
  · rw [same,fast] at slow
    exact absurd slow (by decide)
  · have read := @readSectors_working disk₁ 512 0 2 0 1024 (by decide) (by decide) (by decide) (by rw [size₁]; decide)
    have differs : (window disk₁.byte 0 1024).take 1024 ≠ (fillPattern BUFFER_SIZE.toNat [0x92,0x49,0x24]).take 1024 := by
      intro same
      have byte := congrArg (fun xs => xs[512]?) same
      simp only [List.getElem?_take,getElem?_window] at byte
      rw [fillPattern_get (by decide) (by decide)] at byte
      simp [slow] at byte
    unfold verifyPass
    rw [verifyLoop,if_neg (by decide),if_neg (by decide)]
    simp only
    have chunk : min (bufferSectors 512) (0 + 2 - 0) = 2 := by decide
    rw [chunk,show transientError.verification = Win32.working from rfl,read]
    simp only [length_window]
    rw [if_pos ⟨by decide,differs⟩]
    rfl

end Retries

end SecureErase
end SetecWizard.Core
