import SetecWizard.Core.SecureErase
import SetecWizard.Imaging.Sectors

/-! What the verification of an erasure guarantees. A chunk that cannot be read is passed over,
and so is what a short read leaves out; what was read holds the pattern.
-/
namespace SetecWizard.Core
open SetecWizard.Library

namespace SecureErase

variable {env : EraseEnv} {mode : DiskAccessMode} {sectorSize : UInt32} {disk disk' : Disk} {fuel : Nat}

section Size

theorem writeChunk_size (pass : Nat) (buffer : List UInt8) (currentLba thisChunk : UInt64) (disk : Disk) :
    (writeChunk env mode sectorSize pass buffer currentLba thisChunk disk).totalBytes = disk.totalBytes := by
  have first := writeSectors_size (env.chunk pass) disk mode currentLba buffer thisChunk sectorSize
  unfold writeChunk
  split
  next written =>
    rw [written] at first
    exact first
  next between written =>
    rw [written] at first
    refine Eq.trans ?_ first
    generalize List.range thisChunk.toNat = sectors
    clear first written
    induction sectors generalizing between with
    | nil => rfl
    | cons s rest ih =>
      rw [List.foldl_cons,ih]
      exact writeSectors_size _ _ _ _ _ _ _

theorem writeLoop_size {pass : Nat} {isRandom : Bool} {endLba currentLba : UInt64} {counter : UInt32} {refreshes : Nat}
    {buffer : List UInt8}
    (done : writeLoop env mode sectorSize pass isRandom endLba fuel currentLba counter refreshes buffer disk =
      some (.ok (),disk')) : disk'.totalBytes = disk.totalBytes := by
  induction fuel generalizing currentLba counter refreshes buffer disk with
  | zero => cases done
  | succ fuel ih =>
    rw [writeLoop] at done
    split at done
    next =>
      obtain rfl : disk = disk' := by simpa using done
      rfl
    next =>
      split at done
      next => simp at done
      next =>
        simp only at done
        generalize (if isRandom then counter + 1 else counter) = counter' at done
        split at done
        next =>
          split at done
          next => simp at done
          next => exact (ih done).trans (writeChunk_size _ _ _ _ _)
        next => exact (ih done).trans (writeChunk_size _ _ _ _ _)

theorem writePass_size {startLba sectorCount : UInt64} {pass : Nat} {pattern : List UInt8}
    (done : writePass env mode sectorSize fuel startLba sectorCount pass pattern disk = some (.ok (),disk')) :
    disk'.totalBytes = disk.totalBytes := by
  unfold writePass at done
  simp only at done
  split at done
  next => simp at done
  next => exact writeLoop_size done

theorem passLoop_size {startLba sectorCount : UInt64} {passes : List (List UInt8)} {pass : Nat}
    (done : passLoop env mode sectorSize fuel startLba sectorCount passes pass disk = some (.ok (),disk')) :
    disk'.totalBytes = disk.totalBytes := by
  induction passes generalizing pass disk with
  | nil =>
    obtain rfl : disk = disk' := by simpa [passLoop] using done
    rfl
  | cons pattern rest ih =>
    rw [passLoop] at done
    split at done
    next => simp at done
    next =>
      split at done
      next between written => exact (ih done).trans (writePass_size written)
      next failed => exact absurd done (failed () disk')

theorem passLoop_last {startLba sectorCount : UInt64} {passes : List (List UInt8)} {pass : Nat} (nonempty : passes ≠ [])
    (done : passLoop env mode sectorSize fuel startLba sectorCount passes pass disk = some (.ok (),disk')) :
    ∃ between, between.totalBytes = disk.totalBytes ∧
      writePass env mode sectorSize fuel startLba sectorCount (pass + (passes.length - 1)) (passes.getLastD [])
        between = some (.ok (),disk') := by
  induction passes generalizing pass disk with
  | nil => exact absurd rfl nonempty
  | cons pattern rest ih =>
    rw [passLoop] at done
    split at done
    next => simp at done
    next =>
      split at done
      next between written =>
        cases rest with
        | nil =>
          obtain rfl : between = disk' := by simpa [passLoop] using done
          exact ⟨disk,rfl,written⟩
        | cons following rest =>
          obtain ⟨before,size,last⟩ := ih (List.cons_ne_nil _ _) done
          have number : pass + 1 + ((following :: rest).length - 1) = pass + ((pattern :: following :: rest).length - 1) := by
            simp only [List.length_cons]
            omega
          rw [number] at last
          exact ⟨before,size.trans (writePass_size written),last⟩
      next failed => exact absurd done (failed () disk')

end Size

def chunkStart (sectorSize : UInt32) (startLba : UInt64) (lba : Nat) : Nat :=
  startLba.toNat + (lba - startLba.toNat) / (bufferSectors sectorSize).toNat * (bufferSectors sectorSize).toNat

def chunkCount (sectorSize : UInt32) (startLba sectorCount : UInt64) (lba : Nat) : Nat :=
  min (bufferSectors sectorSize).toNat (startLba.toNat + sectorCount.toNat - chunkStart sectorSize startLba lba)

/-- The verification read the whole of a sector. -/
def SectorRead (env : EraseEnv) (sectorSize : UInt32) (disk : Disk) (startLba sectorCount : UInt64) (lba : Nat) : Prop :=
  ∃ data, RawDiskHandle.readSectors env.verification disk (UInt64.ofNat (chunkStart sectorSize startLba lba))
      (UInt64.ofNat (chunkCount sectorSize startLba sectorCount lba)) sectorSize = .ok data ∧
    (lba - chunkStart sectorSize startLba lba + 1) * sectorSize.toNat ≤ data.length

/-- A sector holds its part of a pattern, which starts anew with each chunk. -/
def SectorHolds (sectorSize : UInt32) (disk : Disk) (startLba : UInt64) (pattern : List UInt8) (lba : Nat) : Prop :=
  ∀ j < sectorSize.toNat, some (disk.byte (lba * sectorSize.toNat + j)) =
    pattern[((lba - chunkStart sectorSize startLba lba) * sectorSize.toNat + j) % pattern.length]?

section Verification

variable {pattern : List UInt8} {startLba sectorCount currentLba endLba : UInt64}

theorem length_fillPattern (size : Nat) (pattern : List UInt8) : (fillPattern size pattern).length = size := by
  unfold fillPattern
  split <;> simp

theorem fillPattern_get {size i : Nat} (nonempty : pattern ≠ []) (inside : i < size) :
    (fillPattern size pattern)[i]? = pattern[i % pattern.length]? := by
  have positive := List.length_pos_of_ne_nil nonempty
  have bound : i % pattern.length < pattern.length := Nat.mod_lt _ positive
  unfold fillPattern
  split
  next => cases nonempty rfl
  next b =>
    rw [List.getElem?_replicate,if_pos inside,List.length_singleton,Nat.mod_one]
    rfl
  next =>
    rw [List.getElem?_map,List.getElem?_range inside,List.getElem?_eq_getElem bound]
    simp [bound]

def ChunkChecked (env : EraseEnv) (sectorSize : UInt32) (pattern : List UInt8) (disk : Disk) (lba count : UInt64) :
    Prop :=
  ∀ data, RawDiskHandle.readSectors env.verification disk lba count sectorSize = .ok data →
    data = (fillPattern BUFFER_SIZE.toNat pattern).take data.length

theorem bufferSectors_le (sectorSize : UInt32) :
    (bufferSectors sectorSize).toNat * sectorSize.toNat ≤ BUFFER_SIZE.toNat := by
  rw [bufferSectors,UInt32.toNat_toUInt64,UInt32.toNat_div]
  exact Nat.div_mul_le_self _ _

/-- The loop by induction on its rounds: every chunk from the current one on was checked. -/
theorem verifyLoop_ok (nonempty : pattern ≠ [])
    (done : verifyLoop env sectorSize pattern endLba disk fuel currentLba = some (.ok ())) (k : Nat)
    (below : currentLba.toNat + k * (bufferSectors sectorSize).toNat < endLba.toNat) :
    ChunkChecked env sectorSize pattern disk (UInt64.ofNat (currentLba.toNat + k * (bufferSectors sectorSize).toNat))
      (UInt64.ofNat (min (bufferSectors sectorSize).toNat
        (endLba.toNat - (currentLba.toNat + k * (bufferSectors sectorSize).toNat)))) := by
  induction fuel generalizing currentLba k with
  | zero => cases done
  | succ fuel ih =>
    have word := endLba.toNat_lt
    have before : currentLba.toNat < endLba.toNat := by omega
    have remaining : (endLba - currentLba).toNat = endLba.toNat - currentLba.toNat :=
      UInt64.toNat_sub_of_le _ _ (UInt64.le_iff_toNat_le.mpr before.le)
    have chunk : (min (bufferSectors sectorSize) (endLba - currentLba)).toNat =
        min (bufferSectors sectorSize).toNat (endLba.toNat - currentLba.toNat) := by
      rw [UInt64.toNat_min,remaining]
    have most := bufferSectors_le sectorSize
    have buffer : BUFFER_SIZE.toNat = 65536 := rfl
    have bytes : ((min (bufferSectors sectorSize) (endLba - currentLba)).toUInt32 * sectorSize).toNat =
        (min (bufferSectors sectorSize) (endLba - currentLba)).toNat * sectorSize.toNat := by
      have width := sectorSize.toNat_lt
      have least : min (bufferSectors sectorSize).toNat (endLba.toNat - currentLba.toNat) * sectorSize.toNat ≤
          (bufferSectors sectorSize).toNat * sectorSize.toNat := Nat.mul_le_mul_right _ (Nat.min_le_left _ _)
      have sectors : (bufferSectors sectorSize).toNat ≤ 65536 := by
        rw [bufferSectors,UInt32.toNat_toUInt64,UInt32.toNat_div,← buffer]
        exact Nat.div_le_self _ _
      rw [UInt32.toNat_mul,UInt64.toNat_toUInt32,chunk,Nat.mod_eq_of_lt (by omega : min _ _ < 2 ^ 32),
        Nat.mod_eq_of_lt (by omega)]
    have position (i : Nat) (small : i < 2 ^ 64) : (UInt64.ofNat i).toNat = i := by
      rw [UInt64.toNat_ofNat',Nat.mod_eq_of_lt small]
    rw [verifyLoop,if_neg (by rw [UInt64.le_iff_toNat_le]; omega)] at done
    split at done
    next => simp at done
    next =>
      simp only at done
      have rest : verifyLoop env sectorSize pattern endLba disk fuel
            (currentLba + min (bufferSectors sectorSize) (endLba - currentLba)) = some (.ok ()) ∧
          ChunkChecked env sectorSize pattern disk currentLba (min (bufferSectors sectorSize) (endLba - currentLba)) := by
        split at done
        next failed =>
          refine ⟨done,fun data read => ?_⟩
          rw [failed] at read
          cases read
        next readData read =>
          split at done
          next => simp at done
          next same =>
            refine ⟨done,fun data again => ?_⟩
            rw [read] at again
            cases again
            rw [not_and,not_not] at same
            have short := (readSectors_ok rfl read).2.2
            have product : (min (bufferSectors sectorSize) (endLba - currentLba) * sectorSize.toUInt64).toNat ≤
                (min (bufferSectors sectorSize) (endLba - currentLba)).toNat * sectorSize.toNat := by
              rw [UInt64.toNat_mul,UInt32.toNat_toUInt64]
              exact Nat.mod_le _ _
            rw [bytes,Nat.min_eq_right (short.trans product),List.take_length] at same
            exact same nonempty
      cases k with
      | zero =>
        rw [Nat.zero_mul,Nat.add_zero]
        have first : UInt64.ofNat currentLba.toNat = currentLba := UInt64.toNat_inj.mp (position _ (by omega))
        have count : UInt64.ofNat (min (bufferSectors sectorSize).toNat (endLba.toNat - currentLba.toNat)) =
            min (bufferSectors sectorSize) (endLba - currentLba) := by
          apply UInt64.toNat_inj.mp
          rw [position _ (by omega),chunk]
        rw [first,count]
        exact rest.2
      | succ k =>
        -- A chunk follows, so that this one was a whole buffer.
        rw [Nat.succ_mul] at below ⊢
        have next : (currentLba + min (bufferSectors sectorSize) (endLba - currentLba)).toNat =
            currentLba.toNat + (bufferSectors sectorSize).toNat := by
          rw [UInt64.toNat_add,chunk,Nat.min_eq_left (by omega),Nat.mod_eq_of_lt (by omega)]
        have later := ih rest.1 k (by rw [next]; omega)
        have shifted : currentLba.toNat + (bufferSectors sectorSize).toNat + k * (bufferSectors sectorSize).toNat =
            currentLba.toNat + (k * (bufferSectors sectorSize).toNat + (bufferSectors sectorSize).toNat) := by omega
        rw [next,shifted] at later
        exact later

theorem sector_holds (nonempty : pattern ≠ []) (positive : 0 < sectorSize.toNat)
    (word : startLba.toNat + sectorCount.toNat < 2 ^ 64)
    (done : verifyPass env sectorSize fuel startLba sectorCount pattern disk = some (.ok ())) {lba : Nat}
    (above : startLba.toNat ≤ lba) (below : lba < startLba.toNat + sectorCount.toNat)
    (inside : (lba + 1) * sectorSize.toNat ≤ disk.totalBytes.toNat)
    (read : SectorRead env sectorSize disk startLba sectorCount lba) :
    SectorHolds sectorSize disk startLba pattern lba := by
  obtain ⟨data,answer,whole⟩ := read
  have last : (startLba + sectorCount).toNat = startLba.toNat + sectorCount.toNat := by
    rw [UInt64.toNat_add,Nat.mod_eq_of_lt word]
  have floor := Nat.div_mul_le_self (lba - startLba.toNat) (bufferSectors sectorSize).toNat
  have first : chunkStart sectorSize startLba lba ≤ lba := by
    unfold chunkStart
    omega
  have checked := verifyLoop_ok nonempty done ((lba - startLba.toNat) / (bufferSectors sectorSize).toNat)
    (by rw [last]; unfold chunkStart at first; omega)
  rw [last] at checked
  have same := checked data answer
  have bound := disk.totalBytes.toNat_lt
  rw [Nat.add_mul,Nat.one_mul] at inside whole
  have below_sector : chunkStart sectorSize startLba lba * sectorSize.toNat ≤ lba * sectorSize.toNat :=
    Nat.mul_le_mul_right _ first
  have start : (UInt64.ofNat (chunkStart sectorSize startLba lba) * sectorSize.toUInt64).toNat =
      chunkStart sectorSize startLba lba * sectorSize.toNat := by
    have position : (UInt64.ofNat (chunkStart sectorSize startLba lba)).toNat = chunkStart sectorSize startLba lba := by
      rw [UInt64.toNat_ofNat',Nat.mod_eq_of_lt (by omega)]
    rw [UInt64.toNat_mul,position,UInt32.toNat_toUInt64,Nat.mod_eq_of_lt (by omega)]
  obtain ⟨bytes,_,short⟩ := readSectors_ok start answer
  intro j within
  have index : lba * sectorSize.toNat + j = chunkStart sectorSize startLba lba * sectorSize.toNat +
      ((lba - chunkStart sectorSize startLba lba) * sectorSize.toNat + j) := by
    rw [Nat.sub_mul]
    omega
  have place : (lba - chunkStart sectorSize startLba lba) * sectorSize.toNat + j < data.length := by omega
  have full : data.length ≤ BUFFER_SIZE.toNat := by
    have length := congrArg List.length same
    rw [List.length_take,length_fillPattern] at length
    omega
  have byte := congrArg (fun xs => xs[(lba - chunkStart sectorSize startLba lba) * sectorSize.toNat + j]?) (bytes.symm.trans same)
  simp only [getElem?_window,if_pos place,List.getElem?_take] at byte
  rw [index,byte]
  exact fillPattern_get nonempty (by omega)

end Verification

end SecureErase
end SetecWizard.Core
