import SetecWizard.Core.ImageRestorer
import SetecWizard.Imaging.Sectors

/-! Restoring a raw image. The file is written in whole sectors from the start of the
sector its offset lies in, the last one filled up with zeros; on an offset that is a
sector boundary this is the place that was asked for.
-/
namespace SetecWizard.Core
open SetecWizard.Library

/-- A read returns the bytes asked for as far as there are any, or fails. -/
def RawRestoreEnv.FullReads (env : RawRestoreEnv) : Prop :=
  ∀ round n delivered, env.readFile round n = .ok delivered → n ≤ delivered

theorem Cloned.widen {wanted : Nat → UInt8} {origin low high limit wide : Nat} {dst dst' : Disk}
    (cloned : Cloned wanted origin low high limit dst dst') (above : limit ≤ wide) :
    Cloned wanted origin low high wide dst dst' :=
  ⟨⟨cloned.copied.inside,fun i apart => cloned.copied.outside i (by omega)⟩,cloned.size⟩

theorem Cloned.shrink {wanted : Nat → UInt8} {origin low mid high limit : Nat} {dst dst' : Disk}
    (cloned : Cloned wanted origin low high limit dst dst') (below : mid ≤ high) :
    Cloned wanted origin low mid limit dst dst' :=
  ⟨⟨fun i above under => cloned.copied.inside i above (Nat.lt_of_lt_of_le under below),cloned.copied.outside⟩,
    cloned.size⟩

namespace ImageRestorer

variable {env : RawRestoreEnv} {sectorSize : UInt32} {content : List UInt8} {origin low n bufLength : Nat}

theorem aligned_toNat (power : PowerOfTwo sectorSize) {bufSize bytesRead : UInt32}
    (whole : sectorSize.toNat ∣ bufSize.toNat) (short : bytesRead.toNat ≤ bufSize.toNat) :
    ((bytesRead + sectorSize - 1) / sectorSize * sectorSize).toNat = roundUp bytesRead.toNat sectorSize.toNat ∧
      roundUp bytesRead.toNat sectorSize.toNat ≤ bufSize.toNat := by
  have positive := power.positive
  have below : roundUp bytesRead.toNat sectorSize.toNat ≤ bufSize.toNat :=
    roundUp_le_of_dvd positive short whole
  refine ⟨?_,below⟩
  have width := bufSize.toNat_lt
  have divides : sectorSize.toNat ∣ 2 ^ 32 := by
    obtain ⟨k,size⟩ := power
    have limit := sectorSize.toNat_lt
    rw [size] at limit ⊢
    exact Nat.pow_dvd_pow 2 ((Nat.pow_lt_pow_iff_right (by decide : 1 < 2)).mp limit).le
  -- The largest number of whole sectors below 2^32 is a sector short of it.
  have room : bufSize.toNat + sectorSize.toNat ≤ 2 ^ 32 :=
    Nat.le_of_lt_add_of_dvd (Nat.add_lt_add_right width _) (Nat.dvd_add whole (Nat.dvd_refl _)) divides
  have one : (1 : UInt32).toNat = 1 := rfl
  have last : (bytesRead + sectorSize - 1).toNat = bytesRead.toNat + sectorSize.toNat - 1 := by
    rw [UInt32.toNat_sub,UInt32.toNat_add,one]
    omega
  rw [UInt32.toNat_mul,UInt32.toNat_div,last]
  exact Nat.mod_eq_of_lt (Nat.lt_of_le_of_lt below width)

/-- What a piece of the file becomes on its way to the disk: zeros fill its last sector. -/
def filledUp (sectorSize : UInt32) (data : List UInt8) : List UInt8 :=
  data ++ List.replicate (roundUp data.length sectorSize.toNat - data.length) 0

theorem length_filledUp (positive : 0 < sectorSize.toNat) (data : List UInt8) :
    (filledUp sectorSize data).length = roundUp data.length sectorSize.toNat := by
  have enough : data.length ≤ roundUp data.length sectorSize.toNat := le_roundUp positive
  rw [filledUp,List.length_append,List.length_replicate]
  omega

theorem filledUp_wanted (positive : 0 < sectorSize.toNat)
    (size : n = min bufLength (content.length - low)) (whole : sectorSize.toNat ∣ bufLength) :
    ∀ i, low ≤ i → i < low + roundUp n sectorSize.toNat →
      (filledUp sectorSize ((content.drop low).take n))[i - low]? = some (content.getD i 0) := by
  intro i above below
  have length : ((content.drop low).take n).length = n := by
    rw [List.length_take,List.length_drop]
    omega
  have enough : n ≤ roundUp n sectorSize.toNat := le_roundUp positive
  rw [filledUp,length,List.getD_eq_getElem?_getD]
  by_cases inside : i - low < n
  · have index : low + (i - low) = i := by omega
    rw [List.getElem?_append_left (by omega),List.getElem?_take,if_pos inside,List.getElem?_drop,index,
      List.getElem?_eq_getElem (by omega),Option.getD_some]
  · -- A piece shorter than its sectors is the last one.
    have last : n = content.length - low := by
      by_contra more
      have full : n = bufLength := by omega
      rw [full,roundUp_of_dvd positive whole] at below
      omega
    rw [List.getElem?_append_right (by omega),length,List.getElem?_replicate,if_pos (by omega),
      List.getElem?_eq_none (by omega)]
    rfl

/-- One write, whatever becomes of it, changes nothing outside of its sectors; one that
succeeds puts the piece there. -/
theorem writePiece {disk disk' : Disk} {result : Result Unit} {dstPos : UInt64} {aligned : UInt32} (positive : 0 < sectorSize.toNat)
    (nonempty : 0 < n)
    (start : (dstPos / sectorSize.toUInt64 * sectorSize.toUInt64).toNat = origin + low)
    (size : n = min bufLength (content.length - low)) (whole : sectorSize.toNat ∣ bufLength)
    (sectors : aligned.toNat = roundUp n sectorSize.toNat)
    (wrote : RawDiskHandle.writeSectors env.disk disk .readWrite (dstPos / sectorSize.toUInt64)
      (filledUp sectorSize ((content.drop low).take n)) (aligned / sectorSize).toUInt64 sectorSize =
        (result,disk')) :
    Cloned (content.getD · 0) origin low low (low + roundUp n sectorSize.toNat) disk disk' ∧
      (result = .ok () → origin + low + roundUp n sectorSize.toNat ≤ disk.totalBytes.toNat ∧
        Cloned (content.getD · 0) origin low (low + roundUp n sectorSize.toNat)
          (low + roundUp n sectorSize.toNat) disk disk') := by
  have piece : ((content.drop low).take n).length = n := by
    rw [List.length_take,List.length_drop]
    omega
  have length := length_filledUp positive ((content.drop low).take n)
  rw [piece] at length
  have after : disk' = (RawDiskHandle.writeSectors env.disk disk .readWrite (dstPos / sectorSize.toUInt64)
      (filledUp sectorSize ((content.drop low).take n)) (aligned / sectorSize).toUInt64 sectorSize).2 := by
    rw [wrote]
  constructor
  · refine ⟨⟨fun i above below => absurd above (by omega),fun i apart => ?_⟩,?_⟩
    · rcases @writeSectors_byte env.disk disk sectorSize .readWrite
        (dstPos / sectorSize.toUInt64) (filledUp sectorSize ((content.drop low).take n))
        (aligned / sectorSize).toUInt64 with same | ⟨m,same⟩
      · rw [after,same]
      · rw [after,same,start,Disk.patched_byte]
        refine patch_apart _ _ _ _ ?_
        rw [List.length_take]
        omega
    · rw [after,writeSectors_size]
  · rintro rfl
    have bytes : ((aligned / sectorSize).toUInt64 * sectorSize.toUInt64).toNat = roundUp n sectorSize.toNat := by
      have width := aligned.toNat_lt
      rw [UInt64.toNat_mul,UInt32.toNat_toUInt64,UInt32.toNat_toUInt64,UInt32.toNat_div,sectors,
        Nat.div_mul_cancel (dvd_roundUp _ _),Nat.mod_eq_of_lt (by omega)]
    obtain ⟨rfl,room⟩ := writeSectors_whole start bytes wrote
    have enough : n ≤ roundUp n sectorSize.toNat := le_roundUp positive
    rw [List.take_of_length_le length.le]
    exact ⟨by omega,⟨.of_patch (by omega) (filledUp_wanted positive size whole),rfl⟩⟩

/-- Where the loop stands after `low` bytes of the file. -/
structure RestoredTo (content : List UInt8) (sectorSize : UInt32) (offset low : Nat) (file : List UInt8)
    (bytesWritten dstPos : UInt64) : Prop where
  within : low ≤ content.length
  whole : sectorSize.toNat ∣ low
  file : file = content.drop low
  bytesWritten : bytesWritten.toNat = low
  dstPos : dstPos.toNat = offset + low

def Restores (content : List UInt8) (sectorSize : UInt32) (origin low : Nat) (disk : Disk) (run : Mutation Disk) :
    Prop :=
  Cloned (content.getD · 0) origin low low (roundUp content.length sectorSize.toNat) disk run.2 ∧
    (run.1 = .ok () → Cloned (content.getD · 0) origin low (roundUp content.length sectorSize.toNat)
      (roundUp content.length sectorSize.toNat) disk run.2)

theorem Restores.stopped (disk : Disk) (e : ErrorInfo) : Restores content sectorSize origin low disk (.error e,disk) :=
  ⟨⟨⟨fun i above below => absurd above (by omega),fun _ _ => rfl⟩,rfl⟩,nofun⟩

theorem Restores.after {disk between : Disk} {run : Mutation Disk} {mid : Nat}
    (piece : Cloned (content.getD · 0) origin low mid mid disk between) (ordered : low ≤ mid)
    (reaches : mid ≤ roundUp content.length sectorSize.toNat)
    (rest : Restores content sectorSize origin mid between run) : Restores content sectorSize origin low disk run :=
  ⟨(piece.append rest.1 ordered reaches).shrink ordered,fun ok => piece.append (rest.2 ok) ordered reaches⟩

theorem floor_add {offset low m : Nat} (positive : 0 < m) (whole : m ∣ low) :
    (offset + low) / m * m = offset / m * m + low := by
  obtain ⟨k,rfl⟩ := whole
  rw [Nat.add_mul_div_left _ _ positive,Nat.add_mul,Nat.mul_comm k m]

theorem next_stands (power : PowerOfTwo sectorSize) {offset low : Nat} {bytesRead : UInt32} {dstPos totalBytes : UInt64}
    (inside : offset / sectorSize.toNat * sectorSize.toNat + low + bytesRead.toNat ≤ totalBytes.toNat)
    (aligned : sectorSize.toNat ∣ low) (whole : sectorSize.toNat ∣ bytesRead.toNat)
    (position : dstPos.toNat = offset + low) :
    (dstPos + bytesRead.toUInt64).toNat = offset + (low + bytesRead.toNat) := by
  have positive := power.positive
  have limit := totalBytes.toNat_lt
  have below := Nat.lt_div_mul_add (a := offset) positive
  have sectors : sectorSize.toNat ∣ offset / sectorSize.toNat * sectorSize.toNat + low + bytesRead.toNat :=
    Nat.dvd_add (Nat.dvd_add (Nat.dvd_mul_left _ _) aligned) whole
  have room : offset / sectorSize.toNat * sectorSize.toNat + low + bytesRead.toNat + sectorSize.toNat ≤ 2 ^ 64 :=
    Nat.le_of_lt_add_of_dvd (by omega) (Nat.dvd_add sectors (Nat.dvd_refl _)) power.dvd_word
  rw [UInt64.toNat_add,UInt32.toNat_toUInt64,position,Nat.mod_eq_of_lt (by omega)]
  omega

/-- The loop, by induction on its rounds: a piece of a whole buffer leaves the position as
far inside its sector as it was, and a shorter piece is the last one. -/
theorem restoreRawLoop_restores (full : env.FullReads) (power : PowerOfTwo sectorSize) {bufSize : UInt32}
    (filled : 0 < bufSize.toNat) (whole : sectorSize.toNat ∣ bufSize.toNat) {fileSize : UInt64}
    (complete : content.length = fileSize.toNat) {offset fuel round low : Nat} {file : List UInt8}
    {bytesWritten dstPos : UInt64} {disk : Disk}
    (stands : RestoredTo content sectorSize offset low file bytesWritten dstPos)
    (enough : content.length < low + fuel) :
    ∃ run, restoreRawLoop env fileSize sectorSize bufSize fuel round file bytesWritten dstPos disk = some run ∧
      Restores content sectorSize (offset / sectorSize.toNat * sectorSize.toNat) low disk run := by
  have positive := power.positive
  induction fuel generalizing round low file bytesWritten dstPos disk with
  | zero => exact absurd stands.within (by omega)
  | succ fuel ih =>
    obtain ⟨within,aligned,rfl,written,position⟩ := stands
    rw [restoreRawLoop]
    split
    next ended =>
      -- All of the file was read in whole sectors.
      rw [UInt64.le_iff_toNat_le,written,← complete] at ended
      obtain rfl : low = content.length := Nat.le_antisymm within ended
      have exact : roundUp content.length sectorSize.toNat = content.length := roundUp_of_dvd positive aligned
      refine ⟨_,rfl,?_,?_⟩
      · rw [exact]; exact .refl _ _ _ _
      · rw [exact]; exact fun _ => .refl _ _ _ _
    next more =>
      rw [UInt64.le_iff_toNat_le,written,← complete] at more
      split
      next => exact ⟨_,rfl,.stopped disk _⟩
      next =>
        have left : (fileSize - bytesWritten).toNat = content.length - low := by
          rw [UInt64.toNat_sub_of_le _ _ (by rw [UInt64.le_iff_toNat_le]; omega),written,complete]
        have asked : (min bufSize.toUInt64 (fileSize - bytesWritten)).toNat =
            min bufSize.toNat (content.length - low) := by
          rw [UInt64.toNat_min,UInt32.toNat_toUInt64,left]
        simp only [asked]
        generalize size : min bufSize.toNat (content.length - low) = n
        have nonempty : 0 < n := by omega
        split
        next => exact ⟨_,rfl,.stopped disk _⟩
        next delivered answer =>
          have all : ((content.drop low).take n).take delivered = (content.drop low).take n := by
            rw [List.take_take,Nat.min_eq_right (full _ _ _ answer)]
          have length : ((content.drop low).take n).length = n := by
            rw [List.length_take,List.length_drop]
            omega
          have some_data : (content.drop low).take n ≠ [] := by
            intro none
            rw [none] at length
            exact absurd length (by simp; omega)
          have width := bufSize.toNat_lt
          have count : (UInt32.ofNat n).toNat = n := by
            rw [UInt32.toNat_ofNat',Nat.mod_eq_of_lt (by omega)]
          obtain ⟨sectors,_⟩ := aligned_toNat power whole (show (UInt32.ofNat n).toNat ≤ bufSize.toNat by omega)
          rw [count] at sectors
          simp only [all,if_neg some_data,length,sectors]
          have start : (dstPos / sectorSize.toUInt64 * sectorSize.toUInt64).toNat =
              offset / sectorSize.toNat * sectorSize.toNat + low := by
            rw [sector_floor,position,floor_add positive aligned]
          have buffer : (content.drop low).take n ++ List.replicate (roundUp n sectorSize.toNat - n) 0 =
              filledUp sectorSize ((content.drop low).take n) := by
            rw [filledUp,length]
          rw [buffer]
          generalize wrote : RawDiskHandle.writeSectors env.disk disk .readWrite _ _ _ sectorSize = run
          obtain ⟨result,after⟩ := run
          obtain ⟨frame,placed⟩ := writePiece positive nonempty start size.symm whole sectors wrote
          have rounded := roundUp_add (n := content.length - low) positive aligned
          have parts : low + (content.length - low) = content.length := by omega
          rw [parts] at rounded
          have reaches : low + roundUp n sectorSize.toNat ≤ roundUp content.length sectorSize.toNat := by
            have rest : content.length - low ≤ roundUp (content.length - low) sectorSize.toNat := le_roundUp positive
            have piece : roundUp n sectorSize.toNat ≤ roundUp (content.length - low) sectorSize.toNat :=
              roundUp_le_of_dvd positive (by omega) (dvd_roundUp _ _)
            omega
          cases result with
          | error e => exact ⟨_,rfl,frame.widen reaches,nofun⟩
          | ok =>
            obtain ⟨inside,piece⟩ := placed rfl
            have ordered : low ≤ low + roundUp n sectorSize.toNat := Nat.le_add_right _ _
            simp only
            split
            next => exact ⟨_,rfl,.after piece ordered reaches (.stopped after _)⟩
            next =>
              have moved : (bytesWritten + (UInt32.ofNat n).toUInt64).toNat = low + n := by
                have limit := fileSize.toNat_lt
                rw [UInt64.toNat_add,UInt32.toNat_toUInt64,count,written,Nat.mod_eq_of_lt (by omega)]
              by_cases last : content.length - low ≤ bufSize.toNat
              · -- Nothing is left, so that the next round is the end.
                obtain rfl : n = content.length - low := by omega
                rw [← rounded] at piece
                refine ⟨(.ok (),after),?_,piece.shrink (by omega),fun _ => piece⟩
                cases fuel with
                | zero => omega
                | succ fuel =>
                  rw [restoreRawLoop,if_pos]
                  rw [UInt64.le_iff_toNat_le,moved,← complete]
                  omega
              · obtain rfl : n = bufSize.toNat := by omega
                rw [roundUp_of_dvd positive whole] at piece ordered reaches inside
                rw [UInt32.ofNat_toNat] at moved ⊢
                have next := next_stands power inside aligned whole position
                have stands : RestoredTo content sectorSize offset (low + bufSize.toNat)
                    ((content.drop low).drop bufSize.toNat) _ _ :=
                  ⟨by omega,Nat.dvd_add aligned whole,List.drop_drop,moved,next⟩
                obtain ⟨run,same,rest⟩ := ih stands (by omega)
                exact ⟨run,same,.after piece ordered reaches rest⟩

/-- What stops a restore before it writes anything: the disk does not answer, the image does
not fit, or the buffer does not hold a sector. -/
def RefusedRaw (env : RawRestoreEnv) (fileSize : UInt64) (sectorSize : UInt32) (dstOffset : UInt64)
    (bufferSize : UInt32) (disk : Disk) : Prop :=
  env.disk.diskGeometry ≠ none ∨ disk.totalBytes < dstOffset + fileSize ∨ bufferSize < sectorSize

theorem restoreRawImage_refused {fileSize dstOffset : UInt64} {bufferSize : UInt32} {disk : Disk}
    (refused : RefusedRaw env fileSize sectorSize dstOffset bufferSize disk) (fuel : Nat) (content : List UInt8) :
    ∃ e, restoreRawImage env fuel content fileSize sectorSize dstOffset bufferSize disk =
      some (.error e,disk) := by
  unfold restoreRawImage RawDiskHandle.getGeometry checked
  cases answer : env.disk.diskGeometry with
  | some lastErr => exact ⟨_,rfl⟩
  | none =>
    simp only [Except.map]
    split
    next => exact ⟨_,rfl⟩
    next fits =>
      have small : bufferSize < sectorSize := by
        rcases refused with failed | large | small
        · exact absurd answer failed
        · exact absurd large fits
        · exact small
      have zero : bufferSize / sectorSize * sectorSize = 0 := by
        apply UInt32.toNat_inj.mp
        rw [UInt32.toNat_mul,UInt32.toNat_div,Nat.div_eq_of_lt (UInt32.lt_iff_toNat_lt.mp small),Nat.zero_mul]
        rfl
      rw [if_pos zero]
      exact ⟨_,rfl⟩

theorem restoreRawImage_restores (full : env.FullReads) (power : PowerOfTwo sectorSize) {fileSize : UInt64}
    (complete : content.length = fileSize.toNat) (dstOffset : UInt64) (bufferSize : UInt32) (disk : Disk)
    {fuel : Nat} (enough : content.length < fuel) :
    ∃ run, restoreRawImage env fuel content fileSize sectorSize dstOffset bufferSize disk = some run ∧
      Restores content sectorSize (dstOffset.toNat / sectorSize.toNat * sectorSize.toNat) 0 disk run := by
  by_cases refused : RefusedRaw env fileSize sectorSize dstOffset bufferSize disk
  · obtain ⟨e,same⟩ := restoreRawImage_refused refused fuel content
    exact ⟨_,same,.stopped disk e⟩
  · obtain ⟨answer,fits,large⟩ : env.disk.diskGeometry = none ∧ ¬ disk.totalBytes < dstOffset + fileSize ∧
        ¬ bufferSize < sectorSize := by
      simpa only [RefusedRaw,not_or,ne_eq,not_not] using refused
    have size : (bufferSize / sectorSize * sectorSize).toNat =
        bufferSize.toNat / sectorSize.toNat * sectorSize.toNat := by
      have below := Nat.div_mul_le_self bufferSize.toNat sectorSize.toNat
      have width := bufferSize.toNat_lt
      rw [UInt32.toNat_mul,UInt32.toNat_div,Nat.mod_eq_of_lt (by omega)]
    have filled : 0 < (bufferSize / sectorSize * sectorSize).toNat := by
      rw [size]
      rw [UInt32.not_lt,UInt32.le_iff_toNat_le] at large
      exact Nat.mul_pos (Nat.div_pos large power.positive) power.positive
    have nonzero : bufferSize / sectorSize * sectorSize ≠ 0 := by
      intro zero
      rw [zero] at filled
      exact absurd filled (by decide)
    unfold restoreRawImage RawDiskHandle.getGeometry checked
    simp only [answer,Except.map,if_neg fits,if_neg nonzero]
    have stands : RestoredTo content sectorSize dstOffset.toNat 0 content 0 dstOffset :=
      ⟨Nat.zero_le _,Nat.dvd_zero _,rfl,rfl,rfl⟩
    exact restoreRawLoop_restores full power filled (by rw [size]; exact Nat.dvd_mul_left _ _) complete stands
      (by omega)

/-- At an offset on a sector boundary a restore that succeeds puts the file there and fills
its last sector with zeros. Nothing else changes, whatever happens, and nothing at all
where the restore is refused before its first round. -/
theorem restoreRawImage_exact (full : env.FullReads) (power : PowerOfTwo sectorSize) {fileSize dstOffset : UInt64}
    (complete : content.length = fileSize.toNat) (aligned : sectorSize.toNat ∣ dstOffset.toNat)
    (bufferSize : UInt32) (disk : Disk) {fuel : Nat} (enough : content.length < fuel) :
    ∃ result disk',
      restoreRawImage env fuel content fileSize sectorSize dstOffset bufferSize disk = some (result,disk') ∧
      (result = .ok () →
        (∀ i < content.length, disk'.byte (dstOffset.toNat + i) = content.getD i 0) ∧
          ∀ i, content.length ≤ i → i < roundUp content.length sectorSize.toNat →
            disk'.byte (dstOffset.toNat + i) = 0) ∧
      (∀ i, i < dstOffset.toNat ∨ dstOffset.toNat + roundUp content.length sectorSize.toNat ≤ i →
        disk'.byte i = disk.byte i) ∧
      (RefusedRaw env fileSize sectorSize dstOffset bufferSize disk → result ≠ .ok () ∧ disk' = disk) := by
  obtain ⟨⟨result,disk'⟩,same,frame,restored⟩ :=
    restoreRawImage_restores full power complete dstOffset bufferSize disk enough
  rw [Nat.div_mul_cancel aligned] at frame restored
  refine ⟨result,disk',same,?_,?_,?_⟩
  · intro ok
    have inside := (restored ok).copied.inside
    have above : content.length ≤ roundUp content.length sectorSize.toNat := le_roundUp power.positive
    refine ⟨fun i below => inside i (Nat.zero_le i) (by omega),fun i past below => ?_⟩
    rw [inside i (Nat.zero_le i) below,List.getD_eq_getElem?_getD,List.getElem?_eq_none past,Option.getD_none]
  · intro i apart
    exact frame.copied.outside i (by simpa using apart)
  · intro refused
    obtain ⟨e,stopped⟩ := restoreRawImage_refused refused fuel content
    rw [stopped] at same
    cases same
    exact ⟨nofun,rfl⟩

end ImageRestorer

/-- One byte at the second sector of a disk of two. -/
theorem raw_restore_sample :
    ∃ result disk', ImageRestorer.restoreRawImage {} 2 [0xAA] 1 512 512 4096 (filled 1024 0x11) =
        some (result,disk') ∧
      (result = .ok () → (∀ i < 1, disk'.byte (512 + i) = [0xAA].getD i 0) ∧
        ∀ i, 1 ≤ i → i < roundUp 1 512 → disk'.byte (512 + i) = 0) ∧
      (∀ i, i < 512 ∨ 512 + roundUp 1 512 ≤ i → disk'.byte i = (filled 1024 0x11).byte i) ∧
      (ImageRestorer.RefusedRaw {} 1 512 512 4096 (filled 1024 0x11) →
        result ≠ .ok () ∧ disk' = filled 1024 0x11) :=
  ImageRestorer.restoreRawImage_exact
    (fun _ n _ answer => by cases answer; exact Nat.le_refl n) ⟨9,rfl⟩ rfl ⟨1,rfl⟩ 4096
    (filled 1024 0x11) (by decide)

/-- The byte behind a file of one byte is overwritten. -/
theorem restored_byte_spills : ∃ disk',
    ImageRestorer.restoreRawImage {} 2 [0xAA] 1 512 0 4096 (filled 1024 0x11) = some (.ok (),disk') ∧
      disk'.byte 1 ≠ (filled 1024 0x11).byte 1 := by
  have ends : endsWith (ImageRestorer.restoreRawImage {} 2 [0xAA] 1 512 0 4096 (filled 1024 0x11))
    (fun disk' => disk'.byte 1 == 0) = true := by decide
  obtain ⟨disk',done,spilled⟩ := exists_of_endsWith ends
  refine ⟨disk',done,?_⟩
  rw [eq_of_beq spilled]
  decide

end SetecWizard.Core
