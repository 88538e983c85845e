import SetecWizard.Core.DiskCloner
import SetecWizard.Imaging.Sectors

/-! The range a clone accepts. The sums of an offset and a length are compared in 64 bits,
and a length that is cut is the rest of the target from an offset that may lie behind it.
-/
namespace SetecWizard.Core.DiskCloner

variable {config : CloneConfig} {srcTotalBytes dstTotalBytes length : UInt64} {srcSectorSize dstSectorSize : UInt32}

def askedLength (config : CloneConfig) (srcTotalBytes : UInt64) : UInt64 :=
  if config.sourceLengthBytes = 0 then srcTotalBytes - config.sourceOffsetBytes else config.sourceLengthBytes

/-- The range lies on both disks. -/
def RangeInside (config : CloneConfig) (srcTotalBytes dstTotalBytes length : UInt64) : Prop :=
  config.sourceOffsetBytes.toNat + length.toNat ≤ srcTotalBytes.toNat ∧
    config.destOffsetBytes.toNat + length.toNat ≤ dstTotalBytes.toNat

/-- The sums the checks rest on are what they are in 64 bits. Where the length is cut, the
target goes on from its offset, and the source has as much. -/
def SumsSound (config : CloneConfig) (srcTotalBytes dstTotalBytes : UInt64) : Prop :=
  if dstTotalBytes < config.destOffsetBytes + askedLength config srcTotalBytes then
    config.destOffsetBytes ≤ dstTotalBytes ∧
      (config.sourceOffsetBytes.toNat + (askedLength config srcTotalBytes).toNat < 2 ^ 64 ∨
        config.sourceOffsetBytes.toNat + dstTotalBytes.toNat ≤ srcTotalBytes.toNat + config.destOffsetBytes.toNat)
  else
    config.sourceOffsetBytes.toNat + (askedLength config srcTotalBytes).toNat < 2 ^ 64 ∧
      config.destOffsetBytes.toNat + (askedLength config srcTotalBytes).toNat < 2 ^ 64

instance : Decidable (SumsSound config srcTotalBytes dstTotalBytes) := inferInstanceAs (Decidable (ite _ _ _))

theorem cloneRange_ok
    (accepted : cloneRange config srcTotalBytes dstTotalBytes srcSectorSize dstSectorSize = .ok length) :
    config.sourceOffsetBytes + askedLength config srcTotalBytes ≤ srcTotalBytes ∧
      length = if dstTotalBytes < config.destOffsetBytes + askedLength config srcTotalBytes then
        dstTotalBytes - config.destOffsetBytes else askedLength config srcTotalBytes := by
  unfold cloneRange at accepted
  simp only [bind_unit_ok,refuse_ok] at accepted
  obtain ⟨_,source,_,_,same⟩ := accepted
  exact ⟨UInt64.not_lt.mp source,(Except.ok.inj same).symm⟩

/-- The accepted range lies on both disks exactly when the sums are sound. -/
theorem cloneRange_inside_iff
    (accepted : cloneRange config srcTotalBytes dstTotalBytes srcSectorSize dstSectorSize = .ok length) :
    RangeInside config srcTotalBytes dstTotalBytes length ↔ SumsSound config srcTotalBytes dstTotalBytes := by
  obtain ⟨source,same⟩ := cloneRange_ok accepted
  unfold SumsSound RangeInside
  generalize askedLength config srcTotalBytes = asked at source same ⊢
  have within := UInt64.le_iff_toNat_le.mp source
  have word := asked.toNat_lt
  have offset := config.sourceOffsetBytes.toNat_lt
  have offset' := config.destOffsetBytes.toNat_lt
  have size := srcTotalBytes.toNat_lt
  have size' := dstTotalBytes.toNat_lt
  rw [UInt64.toNat_add] at within
  by_cases cut : dstTotalBytes < config.destOffsetBytes + asked
  · rw [if_pos cut] at same ⊢
    have beyond := UInt64.lt_iff_toNat_lt.mp cut
    rw [UInt64.toNat_add] at beyond
    rw [same,UInt64.toNat_sub,UInt64.le_iff_toNat_le]
    omega
  · rw [if_neg cut] at same ⊢
    have fits := UInt64.le_iff_toNat_le.mp (UInt64.not_lt.mp cut)
    rw [UInt64.toNat_add] at fits
    rw [same]
    omega

/-- An offset and a length whose sum passes the end of 64 bits. -/
def wrappingClone : CloneConfig :=
  { sourceOffsetBytes := 0xFFFFFFFFFFFFFE00, sourceLengthBytes := 1024 }

/-- The whole range is accepted although it starts far behind the source. -/
theorem wrapping_accepted : cloneRange wrappingClone 4096 4096 512 512 = .ok 1024 ∧
    ¬ RangeInside wrappingClone 4096 4096 1024 := by
  constructor
  · rfl
  · unfold RangeInside
    decide

theorem range_sample : cloneRange { sourceLengthBytes := 1024 } 4096 4096 512 512 = .ok 1024 ∧
    RangeInside { sourceLengthBytes := 1024 } 4096 4096 1024 := by
  have accepted : cloneRange { sourceLengthBytes := 1024 } 4096 4096 512 512 = .ok 1024 := rfl
  exact ⟨accepted,(cloneRange_inside_iff accepted).mpr (by decide)⟩

end SetecWizard.Core.DiskCloner

/-! The raw clone. When no read falls short, the range arrives on the target byte for
byte; what follows it there is touched up to the end of the last sector and no further.
-/
namespace SetecWizard.Core
open SetecWizard.Library

namespace DiskCloner

variable {env : CloneEnv} {src dst dst' : Disk} {srcSectorSize dstSectorSize : UInt32}

theorem chunk_covered (positive : 0 < srcSectorSize.toNat) {chunkBytes : UInt64} (small : chunkBytes.toNat < 2 ^ 32)
    {readData : List UInt8} (length : readData.length = roundUp chunkBytes.toNat srcSectorSize.toNat) :
    min (UInt64.ofNat readData.length) chunkBytes = chunkBytes := by
  have width := srcSectorSize.toNat_lt
  have enough : chunkBytes.toNat ≤ roundUp chunkBytes.toNat srcSectorSize.toNat := le_roundUp positive
  have bounded : roundUp chunkBytes.toNat srcSectorSize.toNat < chunkBytes.toNat + srcSectorSize.toNat :=
    roundUp_lt positive
  apply UInt64.toNat_inj.mp
  rw [UInt64.toNat_min,UInt64.toNat_ofNat',Nat.mod_eq_of_lt (by omega),length]
  omega

theorem copyChunk_ok (positive : 0 < srcSectorSize.toNat) (positive' : 0 < dstSectorSize.toNat)
    {srcOrigin dstOrigin low span : Nat} (whole : ReadsWhole env.source src srcSectorSize srcOrigin span)
    {chunkBytes srcPos dstPos moved : UInt64} (small : chunkBytes.toNat < 2 ^ 32) (nonzero : 0 < chunkBytes.toNat)
    (source : srcPos.toNat = srcOrigin + low) (target : dstPos.toNat = dstOrigin + low)
    (aligned : srcSectorSize.toNat ∣ srcOrigin + low) (aligned' : dstSectorSize.toNat ∣ dstOrigin + low)
    (within : low + roundUp chunkBytes.toNat srcSectorSize.toNat ≤ roundUp span srcSectorSize.toNat)
    (done : copyChunk env src srcSectorSize dstSectorSize chunkBytes srcPos dstPos dst = (.ok moved,dst')) :
    moved = chunkBytes ∧ Cloned (src.from srcOrigin) dstOrigin low (low + chunkBytes.toNat)
        (low + roundUp chunkBytes.toNat dstSectorSize.toNat) dst dst' ∧
      srcOrigin + low + chunkBytes.toNat ≤ src.totalBytes.toNat ∧
      dstOrigin + low + chunkBytes.toNat ≤ dst.totalBytes.toNat := by
  have width := srcSectorSize.toNat_lt
  have width' := dstSectorSize.toNat_lt
  have start := (sector_start (p := srcPos) (by rwa [source])).trans source
  have start' := (sector_start (p := dstPos) (by rwa [target])).trans target
  have enough : chunkBytes.toNat ≤ roundUp chunkBytes.toNat srcSectorSize.toNat := le_roundUp positive
  have enough' : chunkBytes.toNat ≤ roundUp chunkBytes.toNat dstSectorSize.toNat := le_roundUp positive'
  unfold copyChunk at done
  simp only at done
  split at done
  next => simp at done
  next readData read =>
    have asked := sector_bytes (n := chunkBytes) positive (by omega)
    have word := srcPos.toNat_lt
    obtain ⟨same,inside⟩ := readSectors_whole whole start (by omega : srcOrigin + low = (srcOrigin + low) % 2 ^ 64) asked
      within read
    have length := congrArg List.length same
    rw [length_window] at length
    rw [chunk_covered positive small length] at done
    have filled := sector_bytes (n := chunkBytes) positive' (by omega)
    split at done
    next => simp at done
    next final written =>
      obtain ⟨patched,room⟩ := writeSectors_whole start' filled written
      obtain ⟨all,rfl⟩ := Prod.mk.inj done
      refine ⟨(Except.ok.inj all).symm,⟨?_,by rw [patched]; rfl⟩,by omega,by omega⟩
      rw [patched,Disk.patched_byte]
      apply Copied.of_patch
      · rw [List.length_take]
        omega
      · intro i above below
        have reaches : low + chunkBytes.toNat ≤ low + roundUp chunkBytes.toNat srcSectorSize.toNat := by omega
        rw [List.getElem?_take,if_pos (by omega),List.getElem?_append_left (by omega),same]
        exact window_wanted reaches i above below

theorem alignedBufSize_toNat (bufferSize : UInt32) :
    (alignedBufSize srcSectorSize dstSectorSize bufferSize).toNat =
      bufferSize.toNat / (max srcSectorSize dstSectorSize).toNat * (max srcSectorSize dstSectorSize).toNat := by
  have below := Nat.div_mul_le_self bufferSize.toNat (max srcSectorSize dstSectorSize).toNat
  have width := bufferSize.toNat_lt
  rw [alignedBufSize,UInt32.toNat_mul,UInt32.toNat_div,Nat.mod_eq_of_lt (by omega)]

/-- A buffer that holds whole sectors of both disks, and at least one. -/
structure WholeSectors (srcSectorSize dstSectorSize bufSize : UInt32) : Prop where
  positive : 0 < bufSize.toNat
  source : srcSectorSize.toNat ∣ bufSize.toNat
  target : dstSectorSize.toNat ∣ bufSize.toNat

theorem alignedBufSize_whole (power : PowerOfTwo srcSectorSize) (power' : PowerOfTwo dstSectorSize)
    {bufferSize : UInt32} (nonzero : alignedBufSize srcSectorSize dstSectorSize bufferSize ≠ 0) :
    WholeSectors srcSectorSize dstSectorSize (alignedBufSize srcSectorSize dstSectorSize bufferSize) := by
  obtain ⟨source,target⟩ := power.dvd_max power'
  refine ⟨Nat.pos_of_ne_zero (fun zero => nonzero (UInt32.toNat_inj.mp zero)),?_,?_⟩
  · rw [alignedBufSize_toNat]
    exact source.mul_left _
  · rw [alignedBufSize_toNat]
    exact target.mul_left _

/-- Where the loop of the raw clone stands after `low` of its bytes. -/
structure RawAt (srcSectorSize dstSectorSize : UInt32) (srcOrigin dstOrigin low : Nat) (srcPos dstPos : UInt64) :
    Prop where
  source : srcPos.toNat = srcOrigin + low
  target : dstPos.toNat = dstOrigin + low
  sourceAligned : srcSectorSize.toNat ∣ srcOrigin + low
  targetAligned : dstSectorSize.toNat ∣ dstOrigin + low

theorem RawAt.next {srcOrigin dstOrigin low : Nat} {srcPos dstPos moved : UInt64}
    (stands : RawAt srcSectorSize dstSectorSize srcOrigin dstOrigin low srcPos dstPos)
    (source : srcSectorSize.toNat ∣ moved.toNat) (target : dstSectorSize.toNat ∣ moved.toNat)
    (inside : srcOrigin + low + moved.toNat < 2 ^ 64) (inside' : dstOrigin + low + moved.toNat < 2 ^ 64) :
    RawAt srcSectorSize dstSectorSize srcOrigin dstOrigin (low + moved.toNat) (srcPos + moved) (dstPos + moved) := by
  refine ⟨?_,?_,?_,?_⟩
  · rw [UInt64.toNat_add,stands.source,Nat.mod_eq_of_lt inside,Nat.add_assoc]
  · rw [UInt64.toNat_add,stands.target,Nat.mod_eq_of_lt inside',Nat.add_assoc]
  · rw [← Nat.add_assoc]
    exact Nat.dvd_add stands.sourceAligned source
  · rw [← Nat.add_assoc]
    exact Nat.dvd_add stands.targetAligned target

/-- The loop by induction on its rounds: a chunk of a whole buffer leaves every position
on a sector boundary, and a shorter chunk is the last one. -/
theorem cloneRawLoop_ok (positive : 0 < srcSectorSize.toNat) (positive' : 0 < dstSectorSize.toNat)
    {bufSize : UInt32} (sectors : WholeSectors srcSectorSize dstSectorSize bufSize) {lengthBytes : UInt64} {fuel : Nat}
    {srcOrigin dstOrigin low span : Nat} (whole : ReadsWhole env.source src srcSectorSize srcOrigin span)
    {bytesRemaining bytesTransferred srcPos dstPos : UInt64}
    (stands : RawAt srcSectorSize dstSectorSize srcOrigin dstOrigin low srcPos dstPos)
    (round : srcSectorSize.toNat ∣ low) (left : low + bytesRemaining.toNat = span)
    (done : cloneRawLoop env src srcSectorSize dstSectorSize bufSize lengthBytes fuel bytesRemaining
      bytesTransferred srcPos dstPos dst = some (.ok (),dst')) :
    Cloned (src.from srcOrigin) dstOrigin low (low + bytesRemaining.toNat)
      (low + roundUp bytesRemaining.toNat dstSectorSize.toNat) dst dst' := by
  induction fuel generalizing low bytesRemaining bytesTransferred srcPos dstPos dst with
  | zero => cases done
  | succ fuel ih =>
    rw [cloneRawLoop] at done
    split at done
    next zero =>
      obtain rfl : dst = dst' := by simpa using done
      rw [zero,UInt64.toNat_zero,roundUp_of_dvd positive' (Nat.dvd_zero _)]
      exact .refl _ _ _ _
    next nonzero =>
      split at done
      next => simp [canceled] at done
      next =>
        simp only at done
        have some_left : 0 < bytesRemaining.toNat :=
          Nat.pos_of_ne_zero (fun zero => nonzero (UInt64.toNat_inj.mp zero))
        have chunk : (min bufSize.toUInt64 bytesRemaining).toNat = min bufSize.toNat bytesRemaining.toNat := by
          rw [UInt64.toNat_min,UInt32.toNat_toUInt64]
        have width := bufSize.toNat_lt
        have least := sectors.positive
        split at done
        next => simp at done
        next moved between copied =>
          have rounded := roundUp_add (n := (min bufSize.toUInt64 bytesRemaining).toNat) positive round
          have within : roundUp (low + (min bufSize.toUInt64 bytesRemaining).toNat) srcSectorSize.toNat ≤
              roundUp span srcSectorSize.toNat := by
            have enough : span ≤ roundUp span srcSectorSize.toNat := le_roundUp positive
            exact roundUp_le_of_dvd positive (by omega) (dvd_roundUp _ _)
          obtain ⟨rfl,piece,inside,inside'⟩ := copyChunk_ok positive positive' whole (by omega) (by omega)
            stands.source stands.target stands.sourceAligned stands.targetAligned (by omega) copied
          rw [chunk] at piece inside inside'
          split at done
          next => simp [canceled] at done
          next =>
            have less : (bytesRemaining - min bufSize.toUInt64 bytesRemaining).toNat =
                bytesRemaining.toNat - min bufSize.toNat bytesRemaining.toNat := by
              rw [UInt64.toNat_sub_of_le _ _ (by rw [UInt64.le_iff_toNat_le,chunk]; omega),chunk]
            by_cases last : bytesRemaining.toNat ≤ bufSize.toNat
            · -- Nothing is left, so that the next round is the end.
              rw [Nat.min_eq_right last] at piece less
              have ended : bytesRemaining - min bufSize.toUInt64 bytesRemaining = 0 := by
                apply UInt64.toNat_inj.mp
                rw [less,Nat.sub_self]
                rfl
              rw [ended] at done
              cases fuel with
              | zero => cases done
              | succ fuel =>
                rw [cloneRawLoop,if_pos rfl] at done
                obtain rfl : between = dst' := by simpa using done
                exact piece
            · have full : min bufSize.toNat bytesRemaining.toNat = bufSize.toNat := by omega
              rw [full] at piece less chunk inside inside'
              rw [roundUp_of_dvd positive' sectors.target] at piece
              have limit := src.totalBytes.toNat_lt
              have limit' := dst.totalBytes.toNat_lt
              have next := stands.next (by rw [chunk]; exact sectors.source) (by rw [chunk]; exact sectors.target)
                (by omega) (by omega)
              have rest := ih next (by rw [chunk]; exact Nat.dvd_add round sectors.source)
                (by rw [chunk,less]; omega) done
              rw [chunk,less] at rest
              have total : bufSize.toNat + (bytesRemaining.toNat - bufSize.toNat) = bytesRemaining.toNat := by omega
              have rounded := roundUp_add (n := bytesRemaining.toNat - bufSize.toNat) positive' sectors.target
              rw [total] at rounded
              rw [Nat.add_assoc,total,Nat.add_assoc,← rounded] at rest
              have above : bytesRemaining.toNat ≤ roundUp bytesRemaining.toNat dstSectorSize.toNat :=
                le_roundUp positive'
              exact piece.append rest (by omega) (by omega)

theorem cloneRaw_ok (power : PowerOfTwo srcSectorSize) (power' : PowerOfTwo dstSectorSize)
    {srcOffsetBytes lengthBytes dstOffsetBytes : UInt64} {bufferSize : UInt32} {fuel : Nat}
    (whole : ReadsWhole env.source src srcSectorSize srcOffsetBytes.toNat lengthBytes.toNat)
    (aligned : srcSectorSize.toNat ∣ srcOffsetBytes.toNat) (aligned' : dstSectorSize.toNat ∣ dstOffsetBytes.toNat)
    (done : cloneRaw env src srcSectorSize dstSectorSize fuel srcOffsetBytes lengthBytes dstOffsetBytes
      bufferSize dst = some (.ok (),dst')) :
    Cloned (src.from srcOffsetBytes.toNat) dstOffsetBytes.toNat 0 lengthBytes.toNat
      (roundUp lengthBytes.toNat dstSectorSize.toNat) dst dst' := by
  rw [cloneRaw] at done
  split at done
  next => simp [bufferTooSmall] at done
  next nonzero =>
    have sectors := alignedBufSize_whole power power' nonzero
    have stands : RawAt srcSectorSize dstSectorSize srcOffsetBytes.toNat dstOffsetBytes.toNat 0
        srcOffsetBytes dstOffsetBytes := ⟨rfl,rfl,aligned,aligned'⟩
    have copied := cloneRawLoop_ok power.positive power'.positive sectors whole stands (Nat.dvd_zero _) (Nat.zero_add _)
      done
    simpa using copied

theorem cloneRange_aligned (power : PowerOfTwo srcSectorSize) (power' : PowerOfTwo dstSectorSize)
    {config : CloneConfig} {srcTotalBytes dstTotalBytes length : UInt64}
    (accepted : cloneRange config srcTotalBytes dstTotalBytes srcSectorSize dstSectorSize = .ok length) :
    srcSectorSize.toNat ∣ config.sourceOffsetBytes.toNat ∧ dstSectorSize.toNat ∣ config.destOffsetBytes.toNat := by
  unfold cloneRange at accepted
  obtain ⟨_,accepted⟩ := bind_unit_ok.mp accepted
  obtain ⟨_,accepted⟩ := bind_unit_ok.mp accepted
  obtain ⟨_,accepted⟩ := bind_unit_ok.mp accepted
  obtain ⟨offsets,_⟩ := bind_unit_ok.mp accepted
  rw [refuse_ok,not_or,not_not,not_not] at offsets
  obtain ⟨source,target⟩ := offsets
  obtain ⟨first,second⟩ := power.dvd_max power'
  have rest := congrArg UInt64.toNat source
  have rest' := congrArg UInt64.toNat target
  rw [UInt64.toNat_mod,UInt32.toNat_toUInt64] at rest rest'
  exact ⟨first.trans (Nat.dvd_of_mod_eq_zero rest),second.trans (Nat.dvd_of_mod_eq_zero rest')⟩

/-- A raw clone that succeeds copied the range, and touched nothing outside of it but
the rest of the target's last sector. -/
theorem cloneRaw_exact (power : PowerOfTwo srcSectorSize) (power' : PowerOfTwo dstSectorSize)
    (config : CloneConfig) (accepted : UInt64)
    (range : cloneRange config src.totalBytes dst.totalBytes srcSectorSize dstSectorSize = .ok accepted)
    (lengthBytes : UInt64) (fuel : Nat)
    (whole : ReadsWhole env.source src srcSectorSize config.sourceOffsetBytes.toNat lengthBytes.toNat)
    (done : cloneRaw env src srcSectorSize dstSectorSize fuel config.sourceOffsetBytes lengthBytes
      config.destOffsetBytes config.bufferSize dst = some (.ok (),dst')) :
    (∀ i < lengthBytes.toNat,
      dst'.byte (config.destOffsetBytes.toNat + i) = src.byte (config.sourceOffsetBytes.toNat + i)) ∧
    ∀ i, i < config.destOffsetBytes.toNat ∨
        config.destOffsetBytes.toNat + roundUp lengthBytes.toNat dstSectorSize.toNat ≤ i →
      dst'.byte i = dst.byte i := by
  obtain ⟨aligned,aligned'⟩ := cloneRange_aligned power power' range
  obtain ⟨⟨inside,outside⟩,_⟩ := cloneRaw_ok power power' whole aligned aligned' done
  exact ⟨fun i below => inside i (Nat.zero_le i) below,fun i apart => outside i (by simpa using apart)⟩

end DiskCloner

/-- A system that reads everything inside a disk of some size, and refuses to read past its end. -/
def Win32.within (totalBytes : Nat) : Win32 :=
  { readFile := fun off length => if off + length ≤ totalBytes then .ok length else .error 27 }

theorem readsWhole_within (disk : Disk) (sectorSize : UInt32) (origin span : Nat) :
    ReadsWhole (.within disk.totalBytes.toNat) disk sectorSize origin span := by
  intro lba count data _ _ _ read
  unfold RawDiskHandle.readSectors at read
  split at read
  next zero =>
    cases read
    rw [zero,UInt64.zero_mul]
    rfl
  next =>
    simp only [Win32.within] at read
    split at read
    next => cases read
    next =>
      split at read
      next => cases read
      next moved answer =>
        split at answer
        next inside =>
          cases answer
          cases read
          rw [length_window,available_all disk _ _ inside]
        next => cases answer

theorem readsWhole_working {disk : Disk} {sectorSize : UInt32} {origin span : Nat}
    (inside : origin + roundUp span sectorSize.toNat ≤ disk.totalBytes.toNat) :
    ReadsWhole .working disk sectorSize origin span := by
  intro lba count data low start within read
  have bound := disk.totalBytes.toNat_lt
  by_cases none : count = 0
  · simp only [RawDiskHandle.readSectors,if_pos none] at read
    cases read
    rw [none,UInt64.zero_mul]
    rfl
  · simp only [RawDiskHandle.readSectors,if_neg none] at read
    split at read
    next => cases read
    next =>
      cases read
      have address : (origin + low) % 2 ^ 64 ≤ origin + low := Nat.mod_le _ _
      rw [length_window,available_all disk _ _ (by rw [start]; omega)]

section Sample

theorem power_512 : PowerOfTwo 512 := ⟨9,rfl⟩

theorem power_4096 : PowerOfTwo 4096 := ⟨12,rfl⟩

/-- From sectors of 4096 bytes to sectors of 512: 600 bytes fill one sector and touch another. -/
theorem raw_sample : ∃ dst', DiskCloner.cloneRaw {} (filled 4096 0xAA) 4096 512 2 0 600 0 4096
    (filled 4096 0x11) = some (.ok (),dst') ∧
    (∀ i < 600, dst'.byte (0 + i) = (filled 4096 0xAA).byte (0 + i)) ∧
      ∀ i, i < 0 ∨ 0 + 1024 ≤ i → dst'.byte i = (filled 4096 0x11).byte i := by
  have ends : endsWith (DiskCloner.cloneRaw {} (filled 4096 0xAA) 4096 512 2 0 600 0 4096
    (filled 4096 0x11)) (fun _ => true) = true := by decide +kernel
  obtain ⟨dst',done,_⟩ := exists_of_endsWith ends
  have accepted : DiskCloner.cloneRange { sourceLengthBytes := 600, bufferSize := 4096 } 4096 4096 4096 512 =
      .ok 600 := rfl
  exact ⟨dst',done,DiskCloner.cloneRaw_exact power_4096 power_512 { sourceLengthBytes := 600, bufferSize := 4096 } 600
    accepted 600 2 (readsWhole_working (by decide)) done⟩

/-- Of one byte cloned between disks with sectors of 512 bytes, the next one on the
target does not stay as it was. -/
theorem one_byte_spills : ∃ dst',
    ReadsWhole Win32.working (filled 4096 0xAA) 512 0 1 ∧
    DiskCloner.cloneRange { sourceLengthBytes := 1 } 4096 4096 512 512 = .ok 1 ∧
    DiskCloner.cloneRaw {} (filled 4096 0xAA) 512 512 2 0 1 0 4096 (filled 4096 0x11) = some (.ok (),dst') ∧
    ¬ ((∀ i < 1, dst'.byte (0 + i) = (filled 4096 0xAA).byte (0 + i)) ∧
      ∀ i, i < 0 ∨ 0 + 1 ≤ i → dst'.byte i = (filled 4096 0x11).byte i) := by
  have ends : endsWith (DiskCloner.cloneRaw {} (filled 4096 0xAA) 512 512 2 0 1 0 4096
    (filled 4096 0x11)) (fun dst' => dst'.byte 1 == 0xAA) = true := by decide +kernel
  obtain ⟨dst',done,spilled⟩ := exists_of_endsWith ends
  refine ⟨dst',readsWhole_working (by decide),rfl,done,fun exact_range => ?_⟩
  have kept := exact_range.2 1 (.inr (by decide))
  rw [eq_of_beq spilled] at kept
  revert kept
  decide

end Sample

end SetecWizard.Core
