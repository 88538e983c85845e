import SetecWizard.Imaging.SmartClone

/-! When the loops of a clone end. The raw clone moves on by what a read returned, so that a
read that succeeds without a byte repeats forever; the smart clone moves on by the clusters
that fit its buffer, so that a cluster larger than the buffer repeats forever.
-/
namespace SetecWizard.Core.DiskCloner
open SetecWizard.Library

/-- Some number of rounds is enough. -/
def Ends {α : Type} (run : Nat → Option α) : Prop := ∃ fuel, run fuel ≠ none

/-- What a raw clone asks of its source where some bytes of the range are moved returns at
least one byte, if it succeeds. -/
def ReadsSome (os : Win32) (disk : Disk) (sectorSize bufSize : UInt32) (srcOffsetBytes lengthBytes : UInt64) : Prop :=
  ∀ moved < lengthBytes, RawDiskHandle.readSectors os disk ((srcOffsetBytes + moved) / sectorSize.toUInt64)
    ((min bufSize.toUInt64 (lengthBytes - moved) + sectorSize.toUInt64 - 1) / sectorSize.toUInt64) sectorSize ≠ .ok []

section Raw

variable {env : CloneEnv} {src : Disk} {srcSectorSize dstSectorSize bufSize : UInt32}
  {srcOffsetBytes lengthBytes : UInt64}

theorem readsSome_working (positive : 0 < srcSectorSize.toNat) (buffer : 0 < bufSize.toNat)
    (inside : srcOffsetBytes.toNat + lengthBytes.toNat ≤ src.totalBytes.toNat) :
    ReadsSome .working src srcSectorSize bufSize srcOffsetBytes lengthBytes := by
  intro moved before read
  have below := UInt64.lt_iff_toNat_lt.mp before
  have bound := src.totalBytes.toNat_lt
  have width := bufSize.toNat_lt
  have width' := srcSectorSize.toNat_lt
  have chunk : (min bufSize.toUInt64 (lengthBytes - moved)).toNat =
      min bufSize.toNat (lengthBytes.toNat - moved.toNat) := by
    rw [UInt64.toNat_min,UInt32.toNat_toUInt64,UInt64.toNat_sub_of_le _ _ (UInt64.le_of_lt before)]
  have asked := sector_bytes (n := min bufSize.toUInt64 (lengthBytes - moved)) positive (by omega)
  have enough : min bufSize.toNat (lengthBytes.toNat - moved.toNat) ≤ _ := le_roundUp positive
  rw [chunk] at asked
  have start := sector_floor (srcOffsetBytes + moved) srcSectorSize
  have floor := Nat.div_mul_le_self (srcOffsetBytes + moved).toNat srcSectorSize.toNat
  have place : (srcOffsetBytes + moved).toNat = srcOffsetBytes.toNat + moved.toNat := by
    rw [UInt64.toNat_add,Nat.mod_eq_of_lt (by omega)]
  unfold RawDiskHandle.readSectors at read
  split at read
  next none =>
    rw [none,UInt64.zero_mul,UInt64.toNat_zero] at asked
    omega
  next =>
    simp only at read
    split at read
    next => cases read
    next =>
      have length := congrArg List.length (Except.ok.inj read)
      rw [length_window,RawDiskHandle.available,Nat.min_self,asked,start,List.length_nil] at length
      omega

theorem copyChunk_progress (positive : 0 < srcSectorSize.toNat) {chunkBytes srcPos dstPos moved : UInt64}
    {dst dst' : Disk} (small : chunkBytes.toNat < 2 ^ 32) (nonzero : 0 < chunkBytes.toNat)
    (some_ : RawDiskHandle.readSectors env.source src (srcPos / srcSectorSize.toUInt64)
      ((chunkBytes + srcSectorSize.toUInt64 - 1) / srcSectorSize.toUInt64) srcSectorSize ≠ .ok [])
    (done : copyChunk env src srcSectorSize dstSectorSize chunkBytes srcPos dstPos dst = (.ok moved,dst')) :
    0 < moved.toNat ∧ moved.toNat ≤ chunkBytes.toNat := by
  have width := srcSectorSize.toNat_lt
  have asked := sector_bytes (n := chunkBytes) positive (by omega)
  have enough : chunkBytes.toNat ≤ roundUp chunkBytes.toNat srcSectorSize.toNat := le_roundUp positive
  have bounded : roundUp chunkBytes.toNat srcSectorSize.toNat < chunkBytes.toNat + srcSectorSize.toNat :=
    roundUp_lt positive
  unfold copyChunk at done
  simp only at done
  split at done
  next => simp at done
  next readData read =>
    have filled : 0 < readData.length := by
      refine List.length_pos_of_ne_nil fun none => ?_
      rw [none] at read
      exact some_ read
    have short := (readSectors_ok rfl read).2.2
    rw [asked] at short
    split at done
    next => simp at done
    next =>
      have same := Except.ok.inj (Prod.mk.inj done).1
      rw [← same,UInt64.toNat_min,UInt64.toNat_ofNat',Nat.mod_eq_of_lt (by omega)]
      omega

/-- By induction on the rounds: what remains shrinks by a byte at least. -/
theorem cloneRawLoop_ends (positive : 0 < srcSectorSize.toNat)
    (some_ : ReadsSome env.source src srcSectorSize bufSize srcOffsetBytes lengthBytes)
    (buffer : 0 < bufSize.toNat) {fuel : Nat} {bytesRemaining bytesTransferred srcPos dstPos : UInt64} {dst : Disk}
    (place : srcPos = srcOffsetBytes + (lengthBytes - bytesRemaining)) (within : bytesRemaining ≤ lengthBytes)
    (enough : bytesRemaining.toNat < fuel) :
    cloneRawLoop env src srcSectorSize dstSectorSize bufSize lengthBytes fuel bytesRemaining bytesTransferred srcPos
      dstPos dst ≠ none := by
  induction fuel generalizing bytesRemaining bytesTransferred srcPos dstPos dst with
  | zero => omega
  | succ fuel ih =>
    rw [cloneRawLoop]
    split
    next => simp
    next remains =>
      split
      next => simp
      next =>
        simp only
        have left : 0 < bytesRemaining.toNat := Nat.pos_of_ne_zero (fun zero => remains (UInt64.toNat_inj.mp zero))
        have width := bufSize.toNat_lt
        have chunk : (min bufSize.toUInt64 bytesRemaining).toNat = min bufSize.toNat bytesRemaining.toNat := by
          rw [UInt64.toNat_min,UInt32.toNat_toUInt64]
        split
        next => simp
        next moved dst' copied =>
          have below := UInt64.le_iff_toNat_le.mp within
          have before : lengthBytes - bytesRemaining < lengthBytes := by
            rw [UInt64.lt_iff_toNat_lt,UInt64.toNat_sub_of_le _ _ within]
            omega
          have request := some_ _ before
          have remains : lengthBytes - (lengthBytes - bytesRemaining) = bytesRemaining := by grind
          rw [← place,remains] at request
          obtain ⟨some_moved,most⟩ := copyChunk_progress positive (by omega) (by omega) request copied
          have less : (bytesRemaining - moved).toNat = bytesRemaining.toNat - moved.toNat :=
            UInt64.toNat_sub_of_le _ _ (UInt64.le_iff_toNat_le.mpr (by omega))
          split
          next => simp
          next =>
            refine ih ?_ ?_ (by omega)
            · rw [place]
              grind
            · rw [UInt64.le_iff_toNat_le]
              omega

theorem cloneRaw_ends (positive : 0 < srcSectorSize.toNat) {bufferSize : UInt32}
    (some_ : ReadsSome env.source src srcSectorSize (alignedBufSize srcSectorSize dstSectorSize bufferSize)
      srcOffsetBytes lengthBytes) (dstOffsetBytes : UInt64) (dst : Disk) :
    Ends (fun fuel => cloneRaw env src srcSectorSize dstSectorSize fuel srcOffsetBytes lengthBytes dstOffsetBytes
      bufferSize dst) := by
  refine ⟨lengthBytes.toNat + 1,?_⟩
  simp only [cloneRaw]
  split
  next => simp
  next nonzero =>
    refine cloneRawLoop_ends positive some_ (Nat.pos_of_ne_zero (fun zero => nonzero (UInt32.toNat_inj.mp zero))) ?_
      (UInt64.le_refl _) (Nat.lt_succ_self _)
    rw [UInt64.sub_self,UInt64.add_zero]

/-- A world in which reads succeed and return nothing. -/
def silent : CloneEnv := { source := { readFile := fun _ _ => .ok 0 } }

theorem silent_read {lba count : UInt64} (allowed : (count * srcSectorSize.toUInt64).toNat < 2 ^ 32) :
    RawDiskHandle.readSectors silent.source src lba count srcSectorSize = .ok [] := by
  have limit : MAXDWORD.toNat = 2 ^ 32 - 1 := rfl
  unfold RawDiskHandle.readSectors
  split
  next => rfl
  next =>
    have within : ¬ MAXDWORD < count * srcSectorSize.toUInt64 := by
      rw [UInt64.lt_iff_toNat_lt,limit]
      omega
    simp only [if_neg within]
    rfl

theorem silent_chunk {chunkBytes srcPos dstPos : UInt64} {dst : Disk} (positive : 0 < srcSectorSize.toNat)
    (positive' : 0 < dstSectorSize.toNat) (small : chunkBytes.toNat < 2 ^ 32)
    (allowed : roundUp chunkBytes.toNat srcSectorSize.toNat < 2 ^ 32) :
    copyChunk silent src srcSectorSize dstSectorSize chunkBytes srcPos dstPos dst = (.ok 0,dst) := by
  have width := srcSectorSize.toNat_lt
  have asked := sector_bytes (n := chunkBytes) positive (by omega)
  have none : (0 + dstSectorSize.toUInt64 - 1) / dstSectorSize.toUInt64 = 0 := by
    have one : (1 : UInt64).toNat = 1 := rfl
    apply UInt64.toNat_inj.mp
    rw [UInt64.toNat_div,UInt64.zero_add,UInt64.toNat_sub_of_le _ _ (by
      rw [UInt64.le_iff_toNat_le,one,UInt32.toNat_toUInt64]
      exact positive'),one,UInt32.toNat_toUInt64,Nat.div_eq_of_lt (by omega),UInt64.toNat_zero]
  have moved : min (UInt64.ofNat ([] : List UInt8).length) chunkBytes = 0 := by
    apply UInt64.toNat_inj.mp
    rw [UInt64.toNat_min]
    simp
  unfold copyChunk
  simp only [silent_read (by rw [asked]; exact allowed),moved,none]
  simp [RawDiskHandle.writeSectors]

theorem silent_loop (positive : 0 < srcSectorSize.toNat) (positive' : 0 < dstSectorSize.toNat)
    (whole : srcSectorSize.toNat ∣ bufSize.toNat) {bytesRemaining : UInt64} (remains : bytesRemaining ≠ 0)
    (fuel : Nat) (bytesTransferred srcPos dstPos : UInt64) (dst : Disk) :
    cloneRawLoop silent src srcSectorSize dstSectorSize bufSize lengthBytes fuel bytesRemaining bytesTransferred srcPos
      dstPos dst = none := by
  have width := bufSize.toNat_lt
  have chunk : (min bufSize.toUInt64 bytesRemaining).toNat = min bufSize.toNat bytesRemaining.toNat := by
    rw [UInt64.toNat_min,UInt32.toNat_toUInt64]
  have rounded : roundUp (min bufSize.toNat bytesRemaining.toNat) srcSectorSize.toNat ≤ bufSize.toNat := by
    obtain ⟨k,multiple⟩ := whole
    have fits : (min bufSize.toNat bytesRemaining.toNat + srcSectorSize.toNat - 1) / srcSectorSize.toNat < k + 1 := by
      rw [Nat.div_lt_iff_lt_mul positive,Nat.add_mul,Nat.mul_comm k,← multiple]
      omega
    have most := Nat.mul_le_mul_right srcSectorSize.toNat (Nat.lt_succ_iff.mp fits)
    rwa [Nat.mul_comm k,← multiple] at most
  induction fuel generalizing bytesTransferred srcPos dstPos dst with
  | zero => rfl
  | succ fuel ih =>
    have stays := @silent_chunk src srcSectorSize dstSectorSize (min bufSize.toUInt64 bytesRemaining) srcPos dstPos dst
      positive positive' (by omega) (by rw [chunk]; omega)
    rw [cloneRawLoop,if_neg remains]
    simp only [stays,UInt64.sub_zero,ih]
    rfl

end Raw

section Smart

variable {env : CloneEnv} {src : Disk} {srcSectorSize dstSectorSize bufSize : UInt32} {totalBytesToCopy : UInt64}

/-- Nobody asks for an end of the clone. -/
structure Uncanceled (env : CloneEnv) : Prop where
  requested : ∀ pos left, env.cancelRequested pos left = false
  callback : ∀ moved total, env.progressCb moved total = true

theorem zeroLoop_ends (buffer : 0 < bufSize.toNat) {fuel : Nat} {zeroRemaining zeroPos : UInt64} {dst : Disk}
    (enough : zeroRemaining.toNat < fuel) : zeroLoop env dstSectorSize bufSize fuel zeroRemaining zeroPos dst ≠ none := by
  induction fuel generalizing zeroRemaining zeroPos dst with
  | zero => omega
  | succ fuel ih =>
    rw [zeroLoop]
    split
    next => simp
    next remains =>
      simp only
      have left : 0 < zeroRemaining.toNat := Nat.pos_of_ne_zero (fun zero => remains (UInt64.toNat_inj.mp zero))
      have chunk : (min bufSize.toUInt64 zeroRemaining).toNat = min bufSize.toNat zeroRemaining.toNat := by
        rw [UInt64.toNat_min,UInt32.toNat_toUInt64]
      split
      next => simp
      next =>
        apply ih
        rw [UInt64.toNat_sub_of_le _ _ (UInt64.le_iff_toNat_le.mpr (by omega))]
        omega

theorem runLoop_ends (buffer : 0 < bufSize.toNat) {fuel : Nat} {runRemaining bytesTransferred srcRunPos dstRunPos : UInt64}
    {dst : Disk} (enough : runRemaining.toNat < fuel) :
    runLoop env src srcSectorSize dstSectorSize bufSize totalBytesToCopy fuel runRemaining bytesTransferred srcRunPos
      dstRunPos dst ≠ none := by
  induction fuel generalizing runRemaining bytesTransferred srcRunPos dstRunPos dst with
  | zero => omega
  | succ fuel ih =>
    rw [runLoop]
    split
    next => simp
    next remains =>
      split
      next => simp
      next =>
        simp only
        have left : 0 < runRemaining.toNat := Nat.pos_of_ne_zero (fun zero => remains (UInt64.toNat_inj.mp zero))
        have chunk : (min bufSize.toUInt64 runRemaining).toNat = min bufSize.toNat runRemaining.toNat := by
          rw [UInt64.toNat_min,UInt32.toNat_toUInt64]
        split
        next => simp
        next =>
          split
          next => simp
          next =>
            split
            next => simp
            next =>
              apply ih
              rw [UInt64.toNat_sub_of_le _ _ (UInt64.le_iff_toNat_le.mpr (by omega))]
              omega

variable {volume : NtfsVolume} {srcOffsetBytes dstOffsetBytes : UInt64}

theorem runLength_pos {room cluster : Nat} (some_ : 0 < room) (inside : cluster < volume.totalClusters) :
    0 < volume.runLength (volume.isAllocated cluster) room cluster := by
  obtain ⟨room,rfl⟩ := Nat.exists_eq_add_of_le' some_
  rw [NtfsVolume.runLength,if_pos ⟨inside,rfl⟩]
  omega

/-- By induction on the rounds: each passes over a cluster at least, and has rounds
enough left for its run. -/
theorem cloneSmartLoop_ends (buffer : 0 < bufSize.toNat) (fits : bufSize / volume.bytesPerCluster ≠ 0) {fuel cluster : Nat}
    {bytesTransferred : UInt64} {dst : Disk} (enough : volume.totalClusters - cluster + 2 ^ 64 ≤ fuel) :
    cloneSmartLoop env src srcSectorSize dstSectorSize volume bufSize totalBytesToCopy srcOffsetBytes dstOffsetBytes fuel
      cluster bytesTransferred dst ≠ none := by
  induction fuel generalizing cluster bytesTransferred dst with
  | zero => omega
  | succ fuel ih =>
    rw [cloneSmartLoop]
    split
    next => simp
    next inside =>
      simp only
      have room : 0 < (bufSize / volume.bytesPerCluster).toNat :=
        Nat.pos_of_ne_zero (fun zero => fits (UInt32.toNat_inj.mp zero))
      have advance := @runLength_pos volume _ cluster room (by omega)
      have left : volume.totalClusters - (cluster + volume.runLength (volume.isAllocated cluster)
          (bufSize / volume.bytesPerCluster).toNat cluster) + 2 ^ 64 ≤ fuel := by omega
      have word := (UInt64.ofNat (volume.runLength (volume.isAllocated cluster)
        (bufSize / volume.bytesPerCluster).toNat cluster) * volume.bytesPerCluster.toUInt64).toNat_lt
      split
      next => simp
      next =>
        have ends {step : Option (Mutation Disk)} {rest : Disk → Option (Mutation Disk)} (first : step ≠ none)
            (later : ∀ dst, rest dst ≠ none) : Mutation.andThen step rest ≠ none := by
          unfold Mutation.andThen
          split
          next => exact later _
          next => exact first
        split
        next => exact ends (zeroLoop_ends buffer (by omega)) (fun dst => ih left)
        next => exact ends (runLoop_ends buffer (by omega)) (fun dst => ih left)

theorem cloneSmartLoop_repeats (uncanceled : Uncanceled env) (none_fit : bufSize / volume.bytesPerCluster = 0)
    {cluster : Nat} (inside : cluster < volume.totalClusters) (fuel : Nat) (bytesTransferred : UInt64) (dst : Disk) :
    cloneSmartLoop env src srcSectorSize dstSectorSize volume bufSize totalBytesToCopy srcOffsetBytes dstOffsetBytes fuel
      cluster bytesTransferred dst = none := by
  induction fuel generalizing bytesTransferred dst with
  | zero => rfl
  | succ fuel ih =>
    have nothing : UInt64.ofNat 0 * volume.bytesPerCluster.toUInt64 = 0 := UInt64.zero_mul
    have empty (allocated : Bool) : volume.runLength allocated (0 : UInt32).toNat cluster = 0 := rfl
    rw [cloneSmartLoop,if_neg (Nat.not_le.mpr inside)]
    simp only [uncanceled.requested,Bool.false_eq_true,if_false,none_fit,empty,nothing,Nat.add_zero]
    cases fuel with
    | zero =>
      split
      next => rfl
      next => rfl
    | succ fuel =>
      split
      next => rw [zeroLoop,if_pos rfl]; exact ih _ _
      next => rw [runLoop,if_pos rfl]; exact ih _ _

end Smart

/-- A raw clone ends when every read that succeeds returns something, and of every world
only when there is nothing to do. A smart clone of a volume ends, whatever the reads return,
when a cluster fits its buffer; one without a volume is raw. -/
theorem clone_ends {srcSectorSize dstSectorSize : UInt32} (power : PowerOfTwo srcSectorSize)
    (power' : PowerOfTwo dstSectorSize) (src dst : Disk) (srcOffsetBytes lengthBytes dstOffsetBytes : UInt64)
    (bufferSize : UInt32) :
    (∀ env, ReadsSome env.source src srcSectorSize (alignedBufSize srcSectorSize dstSectorSize bufferSize)
        srcOffsetBytes lengthBytes →
      Ends (fun fuel => cloneRaw env src srcSectorSize dstSectorSize fuel srcOffsetBytes lengthBytes dstOffsetBytes
        bufferSize dst)) ∧
    ((∀ env, Uncanceled env →
        Ends (fun fuel => cloneRaw env src srcSectorSize dstSectorSize fuel srcOffsetBytes lengthBytes dstOffsetBytes
          bufferSize dst)) ↔
      alignedBufSize srcSectorSize dstSectorSize bufferSize = 0 ∨ lengthBytes = 0) ∧
    ∀ env diskId, Uncanceled env →
      match ntfsVolume env diskId srcOffsetBytes lengthBytes with
      | none => ReadsSome env.source src srcSectorSize (alignedBufSize srcSectorSize dstSectorSize bufferSize)
          srcOffsetBytes lengthBytes →
        Ends (fun fuel => cloneSmart env src srcSectorSize dstSectorSize fuel diskId srcOffsetBytes lengthBytes
          dstOffsetBytes bufferSize dst)
      | some volume =>
        Ends (fun fuel => cloneSmart env src srcSectorSize dstSectorSize fuel diskId srcOffsetBytes lengthBytes
            dstOffsetBytes bufferSize dst) ↔
          alignedBufSize srcSectorSize dstSectorSize bufferSize = 0 ∨ volume.totalClusters = 0 ∨
            alignedBufSize srcSectorSize dstSectorSize bufferSize / volume.bytesPerCluster ≠ 0 := by
  have raw (env : CloneEnv) (some_ : ReadsSome env.source src srcSectorSize
      (alignedBufSize srcSectorSize dstSectorSize bufferSize) srcOffsetBytes lengthBytes) :=
    @cloneRaw_ends env src srcSectorSize dstSectorSize srcOffsetBytes lengthBytes power.positive bufferSize some_
      dstOffsetBytes dst
  refine ⟨raw,⟨fun all => ?_,fun trivial_ env _ => ?_⟩,fun env diskId uncanceled => ?_⟩
  · by_contra busy
    obtain ⟨nonzero,remains⟩ := not_or.mp busy
    obtain ⟨fuel,ended⟩ := all silent ⟨fun _ _ => rfl,fun _ _ => rfl⟩
    have sectors := alignedBufSize_whole power power' nonzero
    simp only [cloneRaw,if_neg nonzero] at ended
    exact ended (silent_loop power.positive power'.positive sectors.source remains fuel _ _ _ _)
  · refine ⟨1,?_⟩
    simp only [cloneRaw]
    split
    next => simp
    next nonzero =>
      rw [cloneRawLoop,if_pos (trivial_.resolve_left nonzero)]
      simp
  · split
    next absent =>
      intro some_
      obtain ⟨fuel,ended⟩ := raw env some_
      refine ⟨fuel,?_⟩
      simp only [cloneSmart,absent]
      exact ended
    next volume found =>
      simp only [Ends,cloneSmart,found]
      by_cases nonzero : alignedBufSize srcSectorSize dstSectorSize bufferSize = 0
      · simp only [if_pos nonzero]
        exact ⟨fun _ => .inl nonzero,fun _ => ⟨0,by simp⟩⟩
      · simp only [if_neg nonzero]
        have buffer : 0 < (alignedBufSize srcSectorSize dstSectorSize bufferSize).toNat :=
          Nat.pos_of_ne_zero (fun zero => nonzero (UInt32.toNat_inj.mp zero))
        constructor
        · rintro ⟨fuel,ended⟩
          by_contra stuck
          obtain ⟨_,stuck⟩ := not_or.mp stuck
          obtain ⟨clusters,none_fit⟩ := not_or.mp stuck
          exact ended (cloneSmartLoop_repeats uncanceled (not_not.mp none_fit) (Nat.pos_of_ne_zero clusters) fuel 0 dst)
        · rintro (zero | clusters | fits)
          · exact absurd zero nonzero
          · refine ⟨1,?_⟩
            rw [cloneSmartLoop,if_pos (by omega)]
            simp
          · exact ⟨_,cloneSmartLoop_ends buffer fits (Nat.le_refl (volume.totalClusters - 0 + 2 ^ 64))⟩

section Sample

/-- A clone of a sector from a disk whose reads succeed and return nothing. -/
theorem silent_clone : ¬ ∃ fuel, cloneRaw silent (filled 512 0) 512 512 fuel 0 512 0 512 (filled 512 0) ≠ none := by
  rintro ⟨fuel,ended⟩
  have nonzero : alignedBufSize 512 512 512 ≠ 0 := by decide
  simp only [cloneRaw,if_neg nonzero] at ended
  exact ended (silent_loop (by decide) (by decide) (by decide) (by decide) fuel 0 0 0 _)

/-- Three sectors of a disk that works, cloned raw, and as a partition with a volume of two clusters. -/
theorem clone_ends_sample :
    Ends (fun fuel => cloneRaw {} (filled 4096 0xAA) 512 512 fuel 0 1536 0 512 (filled 4096 0x11)) ∧
      Ends (fun fuel => cloneSmart smartEnv (filled 4096 0xAA) 512 512 fuel 0 0 1536 0 512 (filled 4096 0x11)) := by
  obtain ⟨raw,_,smart⟩ := clone_ends power_512 power_512 (filled 4096 0xAA) (filled 4096 0x11) 0 1536 0 512
  have buffer : alignedBufSize 512 512 512 = 512 := by decide
  rw [buffer] at raw
  refine ⟨raw {} (readsSome_working (by decide) (by decide) (by decide)),?_⟩
  have ends := smart smartEnv 0 ⟨fun _ _ => rfl,fun _ _ => rfl⟩
  rw [smartEnv_volume] at ends
  exact ends.mpr (.inr (.inr (by decide)))

/-- The first of these clones does copy: its rounds end with the third sector on the target. -/
example : endsWith (cloneRaw {} (filled 4096 0xAA) 512 512 4 0 1536 0 512 (filled 4096 0x11))
    (fun dst' => dst'.byte 1535 == 0xAA && dst'.byte 1536 == 0x11) = true := by decide +kernel

end Sample
end SetecWizard.Core.DiskCloner
