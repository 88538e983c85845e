import SetecWizard.Imaging.RawClone

/-! The smart clone. Run by run it covers the clusters of the volume: the allocated
ones are copied and the free ones zeroed. The bytes of the partition behind the last
cluster are in no run, and stay on the target as they were.
-/
namespace SetecWizard.Core
open SetecWizard.Library

namespace DiskCloner

section Runs

variable (volume : NtfsVolume)

theorem runLength_le (allocated : Bool) (room cluster : Nat) : volume.runLength allocated room cluster ≤ room := by
  induction room generalizing cluster with
  | zero => exact Nat.le_refl _
  | succ room ih =>
    rw [NtfsVolume.runLength]
    split
    · exact Nat.succ_le_succ (ih _)
    · exact Nat.zero_le _

theorem runLength_spec (allocated : Bool) {room cluster j : Nat}
    (inside : j < volume.runLength allocated room cluster) :
    cluster + j < volume.totalClusters ∧ volume.isAllocated (cluster + j) = allocated := by
  induction room generalizing cluster j with
  | zero => exact absurd inside (Nat.not_lt_zero _)
  | succ room ih =>
    rw [NtfsVolume.runLength] at inside
    split at inside
    next member =>
      cases j with
      | zero => exact member
      | succ j =>
        have rest := ih (Nat.lt_of_succ_lt_succ inside)
        rw [Nat.add_assoc,Nat.add_comm 1] at rest
        exact rest
    next => exact absurd inside (Nat.not_lt_zero _)

theorem run_inside (allocated : Bool) (room : Nat) {cluster : Nat} (inside : cluster ≤ volume.totalClusters) :
    cluster + volume.runLength allocated room cluster ≤ volume.totalClusters := by
  rcases Nat.eq_zero_or_pos (volume.runLength allocated room cluster) with none | some_cluster
  · rw [none]
    exact inside
  · have last := (runLength_spec volume allocated (Nat.sub_lt some_cluster Nat.one_pos)).1
    omega

theorem run_bytes (bufSize : UInt32) (allocated : Bool) (cluster : Nat) :
    let runLen := volume.runLength allocated (bufSize / volume.bytesPerCluster).toNat cluster
    (UInt64.ofNat runLen * volume.bytesPerCluster.toUInt64).toNat = runLen * volume.bytesPerCluster.toNat ∧
      runLen * volume.bytesPerCluster.toNat ≤ bufSize.toNat := by
  intro runLen
  have most : runLen ≤ bufSize.toNat / volume.bytesPerCluster.toNat := by
    have bound := runLength_le volume allocated (bufSize / volume.bytesPerCluster).toNat cluster
    rwa [UInt32.toNat_div] at bound
  have fits : runLen * volume.bytesPerCluster.toNat ≤ bufSize.toNat :=
    (Nat.mul_le_mul_right _ most).trans (Nat.div_mul_le_self _ _)
  have width := bufSize.toNat_lt
  have short : runLen < 2 ^ 32 := (most.trans (Nat.div_le_self _ _)).trans_lt width
  refine ⟨?_,fits⟩
  rw [UInt64.toNat_mul,UInt64.toNat_ofNat',UInt32.toNat_toUInt64,Nat.mod_eq_of_lt (by omega : runLen < 2 ^ 64),
    Nat.mod_eq_of_lt (by omega)]

theorem clusterOffset_toNat (origin : UInt64) (cluster : Nat) :
    (volume.clusterOffset origin cluster).toNat =
      (origin.toNat + cluster * volume.bytesPerCluster.toNat) % 2 ^ 64 := by
  rw [NtfsVolume.clusterOffset,UInt64.toNat_add,UInt64.toNat_mul,UInt64.toNat_ofNat',UInt32.toNat_toUInt64,
    Nat.mod_mul_mod,Nat.add_mod_mod]

end Runs

variable {env : CloneEnv} {src dst dst' : Disk} {srcSectorSize dstSectorSize bufSize : UInt32} {fuel : Nat}

def Unchanged (limit : Nat) (dst dst' : Disk) : Prop := ∀ i, limit ≤ i → dst'.byte i = dst.byte i

theorem Unchanged.of_patched {limit off : Nat} {block : List UInt8} (dst : Disk) (below : off + block.length ≤ limit) :
    Unchanged limit dst (dst.patched off block) :=
  fun i beyond => patch_apart _ _ _ _ (.inr (by omega))

section Zeros

variable {run zeroPos : UInt64}

theorem zeroLoop_once (fits : run.toNat ≤ bufSize.toNat)
    (whole : dstSectorSize.toNat ∣ run.toNat)
    (done : zeroLoop env dstSectorSize bufSize fuel run zeroPos dst = some (.ok (),dst')) :
    let off := zeroPos.toNat / dstSectorSize.toNat * dstSectorSize.toNat
    dst' = dst.patched off (List.replicate run.toNat 0) ∧ run.toNat ≤ dst.totalBytes.toNat - off := by
  intro off
  cases fuel with
  | zero => cases done
  | succ fuel =>
    rw [zeroLoop] at done
    split at done
    next zero =>
      obtain rfl : dst = dst' := by simpa using done
      rw [zero,UInt64.toNat_zero,List.replicate_zero,Disk.patched,patch_nil]
      exact ⟨rfl,Nat.zero_le _⟩
    next =>
      have chunk : min bufSize.toUInt64 run = run := by
        apply UInt64.toNat_inj.mp
        rw [UInt64.toNat_min,UInt32.toNat_toUInt64]
        omega
      simp only [chunk,UInt64.sub_self] at done
      split at done
      next => simp at done
      next final written =>
        obtain ⟨patched,room⟩ := writeSectors_whole (sector_floor zeroPos dstSectorSize)
          (sector_start (p := run) whole) written
        rw [List.take_replicate,Nat.min_eq_left fits] at patched
        cases fuel with
        | zero => cases done
        | succ fuel =>
          rw [zeroLoop,if_pos rfl] at done
          obtain rfl : final = dst' := by simpa using done
          exact ⟨patched,room⟩

end Zeros

section Copies

variable {run bytesTransferred totalBytesToCopy srcRunPos dstRunPos : UInt64}

theorem runLoop_once (positive : 0 < dstSectorSize.toNat) (fits : run.toNat ≤ bufSize.toNat)
    (whole : srcSectorSize.toNat ∣ run.toNat)
    (done : runLoop env src srcSectorSize dstSectorSize bufSize totalBytesToCopy fuel run bytesTransferred
      srcRunPos dstRunPos dst = some (.ok (),dst')) :
    run = 0 ∧ dst' = dst ∨ ∃ data excess,
      RawDiskHandle.readSectors env.source src (srcRunPos / srcSectorSize.toUInt64)
        (run / srcSectorSize.toUInt64) srcSectorSize = .ok data ∧
      data.length ≤ run.toNat ∧ (data ++ excess).length = roundUp data.length dstSectorSize.toNat ∧
      let off := dstRunPos.toNat / dstSectorSize.toNat * dstSectorSize.toNat
      dst' = dst.patched off (data ++ excess) ∧ (data ++ excess).length ≤ dst.totalBytes.toNat - off := by
  cases fuel with
  | zero => cases done
  | succ fuel =>
    rw [runLoop] at done
    split at done
    next zero => exact .inl ⟨zero,by simpa using done.symm⟩
    next =>
      split at done
      next => simp [canceled] at done
      next =>
        have chunk : min bufSize.toUInt64 run = run := by
          apply UInt64.toNat_inj.mp
          rw [UInt64.toNat_min,UInt32.toNat_toUInt64]
          omega
        simp only [chunk,UInt64.sub_self] at done
        split at done
        next => simp at done
        next data read =>
          have short := (readSectors_ok rfl read).2.2
          rw [sector_start whole] at short
          have width := bufSize.toNat_lt
          have width' := dstSectorSize.toNat_lt
          have size : (UInt64.ofNat data.length).toNat = data.length := by
            rw [UInt64.toNat_ofNat',Nat.mod_eq_of_lt (by omega)]
          have rounded := sector_bytes (n := UInt64.ofNat data.length) positive (by omega)
          rw [size] at rounded
          have enough : data.length ≤ roundUp data.length dstSectorSize.toNat := le_roundUp positive
          split at done
          next => simp at done
          next final written =>
            obtain ⟨patched,room⟩ := writeSectors_whole (sector_floor dstRunPos dstSectorSize) rounded written
            split at done
            next => simp [canceled] at done
            next =>
              cases fuel with
              | zero => cases done
              | succ fuel =>
                rw [runLoop,if_pos rfl] at done
                obtain rfl : final = dst' := by simpa using done
                have length : (data ++ (List.range ((((UInt64.ofNat data.length + dstSectorSize.toUInt64 - 1) /
                    dstSectorSize.toUInt64) * dstSectorSize.toUInt64).toNat - data.length)).map env.pastEnd).length =
                      roundUp data.length dstSectorSize.toNat := by
                  rw [List.length_append,List.length_map,List.length_range,rounded]
                  omega
                rw [List.take_of_length_le (Nat.le_of_eq length)] at patched
                exact .inr ⟨data,_,read,short,length,patched,by rw [length]; exact room⟩

end Copies

theorem andThen_ok {σ : Type} {step : Option (Mutation σ)} {rest : σ → Option (Mutation σ)} {final : σ} :
    Mutation.andThen step rest = some (.ok (),final) ↔
      ∃ between, step = some (.ok (),between) ∧ rest between = some (.ok (),final) := by
  unfold Mutation.andThen
  split
  next between => simp
  next other =>
    constructor
    · intro same
      exact absurd same (other () final)
    · rintro ⟨between,same,_⟩
      exact absurd same (other () between)

section Loop

variable {volume : NtfsVolume} {totalBytesToCopy srcOffsetBytes dstOffsetBytes bytesTransferred : UInt64}
  {cluster : Nat}

theorem cloneSmartLoop_cases
    (done : cloneSmartLoop env src srcSectorSize dstSectorSize volume bufSize totalBytesToCopy srcOffsetBytes
      dstOffsetBytes (fuel + 1) cluster bytesTransferred dst = some (.ok (),dst')) :
    volume.totalClusters ≤ cluster ∧ dst' = dst ∨
    ∃ between transferred allocated, cluster < volume.totalClusters ∧
      let runLen := volume.runLength allocated (bufSize / volume.bytesPerCluster).toNat cluster
      let runBytes := UInt64.ofNat runLen * volume.bytesPerCluster.toUInt64
      cloneSmartLoop env src srcSectorSize dstSectorSize volume bufSize totalBytesToCopy srcOffsetBytes
        dstOffsetBytes fuel (cluster + runLen) transferred between = some (.ok (),dst') ∧
      (allocated = false ∧ zeroLoop env dstSectorSize bufSize fuel runBytes
          (volume.clusterOffset dstOffsetBytes cluster) dst = some (.ok (),between) ∨
        allocated = true ∧ runLoop env src srcSectorSize dstSectorSize bufSize totalBytesToCopy fuel runBytes
          bytesTransferred (volume.clusterOffset srcOffsetBytes cluster)
          (volume.clusterOffset dstOffsetBytes cluster) dst = some (.ok (),between)) := by
  rw [cloneSmartLoop] at done
  split at done
  next ended => exact .inl ⟨ended,by simpa using done.symm⟩
  next more =>
    simp only at done
    split at done
    next => simp [canceled] at done
    next =>
      split at done
      next free =>
        obtain ⟨between,zeroed,rest⟩ := andThen_ok.mp done
        rw [free] at zeroed rest
        exact .inr ⟨between,_,false,Nat.lt_of_not_le more,rest,.inl ⟨rfl,zeroed⟩⟩
      next taken =>
        rw [Bool.not_eq_false] at taken
        obtain ⟨between,copied,rest⟩ := andThen_ok.mp done
        rw [taken] at copied rest
        exact .inr ⟨between,_,true,Nat.lt_of_not_le more,rest,.inr ⟨rfl,copied⟩⟩

/-- Whatever the reads deliver, the loop changes nothing behind the last cluster. -/
theorem cloneSmartLoop_unchanged (positive : 0 < dstSectorSize.toNat)
    (whole : srcSectorSize.toNat ∣ volume.bytesPerCluster.toNat)
    (whole' : dstSectorSize.toNat ∣ volume.bytesPerCluster.toNat) (inside : cluster ≤ volume.totalClusters)
    (done : cloneSmartLoop env src srcSectorSize dstSectorSize volume bufSize totalBytesToCopy srcOffsetBytes
      dstOffsetBytes fuel cluster bytesTransferred dst = some (.ok (),dst')) :
    Unchanged (dstOffsetBytes.toNat + volume.totalClusters * volume.bytesPerCluster.toNat) dst dst' := by
  induction fuel generalizing cluster bytesTransferred dst with
  | zero => cases done
  | succ fuel ih =>
    rcases cloneSmartLoop_cases done with ⟨_,rfl⟩ | ⟨between,transferred,allocated,more,rest,step⟩
    · exact fun _ _ => rfl
    · obtain ⟨size,fits⟩ := run_bytes volume bufSize allocated cluster
      have behind := run_inside volume allocated (bufSize / volume.bytesPerCluster).toNat inside
      generalize volume.runLength allocated (bufSize / volume.bytesPerCluster).toNat cluster = runLen at *
      have later := ih behind rest
      have below := Nat.div_mul_le_self (volume.clusterOffset dstOffsetBytes cluster).toNat dstSectorSize.toNat
      have wrapped := Nat.mod_le (dstOffsetBytes.toNat + cluster * volume.bytesPerCluster.toNat) (2 ^ 64)
      rw [← clusterOffset_toNat] at wrapped
      have last : cluster * volume.bytesPerCluster.toNat + runLen * volume.bytesPerCluster.toNat ≤
          volume.totalClusters * volume.bytesPerCluster.toNat := by
        rw [← Nat.add_mul]
        exact Nat.mul_le_mul_right _ behind
      have earlier : Unchanged (dstOffsetBytes.toNat + volume.totalClusters * volume.bytesPerCluster.toNat)
          dst between := by
        rcases step with ⟨_,zeroed⟩ | ⟨_,copied⟩
        · have written := (zeroLoop_once (by omega) (by rw [size]; exact whole'.mul_left _) zeroed).1
          rw [written]
          apply Unchanged.of_patched
          rw [List.length_replicate]
          omega
        · rcases runLoop_once positive (by omega) (by rw [size]; exact whole.mul_left _) copied with
            ⟨_,rfl⟩ | ⟨data,excess,_,short,length,written,_⟩
          · exact fun _ _ => rfl
          · have rounded := roundUp_le_of_dvd positive short (by rw [size]; exact whole'.mul_left _)
            rw [written]
            apply Unchanged.of_patched
            omega
      exact fun i beyond => (later i beyond).trans (earlier i beyond)

/-- What the clusters of the target are to hold: zeros where they are free, and the
bytes of the source elsewhere. Positions are those of 64 bits. -/
def clusterBytes (volume : NtfsVolume) (src : Disk) (srcOrigin : Nat) : Nat → UInt8 := fun i =>
  if volume.isAllocated (i / volume.bytesPerCluster.toNat) then src.byte ((srcOrigin + i) % 2 ^ 64) else 0

theorem clusterBytes_of_run {allocated : Bool} {room runLen i : Nat} (srcOrigin : Nat)
    (length : volume.runLength allocated room cluster = runLen)
    (above : cluster * volume.bytesPerCluster.toNat ≤ i)
    (below : i < cluster * volume.bytesPerCluster.toNat + runLen * volume.bytesPerCluster.toNat) :
    clusterBytes volume src srcOrigin i = if allocated then src.byte ((srcOrigin + i) % 2 ^ 64) else 0 := by
  have positive : 0 < volume.bytesPerCluster.toNat :=
    Nat.pos_of_ne_zero (fun zero => by rw [zero] at above below; omega)
  have first : cluster ≤ i / volume.bytesPerCluster.toNat := (Nat.le_div_iff_mul_le positive).mpr above
  rw [← Nat.add_mul,Nat.mul_comm] at below
  have last : i / volume.bytesPerCluster.toNat < cluster + runLen := Nat.div_lt_of_lt_mul below
  have inside : i / volume.bytesPerCluster.toNat - cluster < volume.runLength allocated room cluster := by omega
  have member := (runLength_spec volume allocated inside).2
  rw [Nat.add_sub_cancel' first] at member
  rw [clusterBytes,member]

/-- The loop by induction on its rounds: before the run at a cluster, everything up to
that cluster is as wanted. -/
theorem cloneSmartLoop_ok (power : PowerOfTwo srcSectorSize) (positive : 0 < dstSectorSize.toNat)
    (reads : ReadsWhole env.source src srcSectorSize srcOffsetBytes.toNat
      (volume.totalClusters * volume.bytesPerCluster.toNat))
    (whole : srcSectorSize.toNat ∣ volume.bytesPerCluster.toNat)
    (whole' : dstSectorSize.toNat ∣ volume.bytesPerCluster.toNat)
    (aligned : srcSectorSize.toNat ∣ srcOffsetBytes.toNat) (aligned' : dstSectorSize.toNat ∣ dstOffsetBytes.toNat)
    (inside : cluster ≤ volume.totalClusters)
    (reached : dstOffsetBytes.toNat + cluster * volume.bytesPerCluster.toNat < 2 ^ 64)
    (done : cloneSmartLoop env src srcSectorSize dstSectorSize volume bufSize totalBytesToCopy srcOffsetBytes
      dstOffsetBytes fuel cluster bytesTransferred dst = some (.ok (),dst')) :
    Cloned (clusterBytes volume src srcOffsetBytes.toNat) dstOffsetBytes.toNat
      (cluster * volume.bytesPerCluster.toNat) (volume.totalClusters * volume.bytesPerCluster.toNat)
      (volume.totalClusters * volume.bytesPerCluster.toNat) dst dst' := by
  induction fuel generalizing cluster bytesTransferred dst with
  | zero => cases done
  | succ fuel ih =>
    rcases cloneSmartLoop_cases done with ⟨ended,rfl⟩ | ⟨between,transferred,allocated,more,rest,step⟩
    · rw [Nat.le_antisymm ended inside]
      exact .refl _ _ _ _
    · obtain ⟨size,fits⟩ := run_bytes volume bufSize allocated cluster
      have behind := run_inside volume allocated (bufSize / volume.bytesPerCluster).toNat inside
      have content := fun i => @clusterBytes_of_run src volume cluster allocated
        (bufSize / volume.bytesPerCluster).toNat _ i srcOffsetBytes.toNat rfl
      generalize volume.runLength allocated (bufSize / volume.bytesPerCluster).toNat cluster = runLen at *
      have start : (volume.clusterOffset dstOffsetBytes cluster).toNat =
          dstOffsetBytes.toNat + cluster * volume.bytesPerCluster.toNat := by
        rw [clusterOffset_toNat,Nat.mod_eq_of_lt reached]
      have floor : (volume.clusterOffset dstOffsetBytes cluster).toNat / dstSectorSize.toNat * dstSectorSize.toNat =
          dstOffsetBytes.toNat + cluster * volume.bytesPerCluster.toNat := by
        rw [start,Nat.div_mul_cancel (Nat.dvd_add aligned' (whole'.mul_left _))]
      have runWhole : dstSectorSize.toNat ∣ runLen * volume.bytesPerCluster.toNat := whole'.mul_left _
      have limit := dst.totalBytes.toNat_lt
      have piece : Cloned (clusterBytes volume src srcOffsetBytes.toNat) dstOffsetBytes.toNat
          (cluster * volume.bytesPerCluster.toNat)
          (cluster * volume.bytesPerCluster.toNat + runLen * volume.bytesPerCluster.toNat)
          (cluster * volume.bytesPerCluster.toNat + runLen * volume.bytesPerCluster.toNat) dst between ∧
          dstOffsetBytes.toNat + (cluster + runLen) * volume.bytesPerCluster.toNat < 2 ^ 64 := by
        rw [Nat.add_mul]
        rcases step with ⟨rfl,zeroed⟩ | ⟨rfl,copied⟩
        · obtain ⟨written,room⟩ := zeroLoop_once (by omega) (by rw [size]; exact runWhole) zeroed
          rw [floor,size] at written room
          refine ⟨⟨?_,by rw [written]; rfl⟩,by omega⟩
          rw [written,Disk.patched_byte]
          apply Copied.of_patch
          · rw [List.length_replicate]
          · intro i above below
            rw [List.getElem?_replicate,if_pos (by omega),content i above below]
            rfl
        · rcases runLoop_once positive (by omega) (by rw [size]; exact whole.mul_left _) copied with
            ⟨none,rfl⟩ | ⟨data,excess,read,_,length,written,room⟩
          · rw [none] at size
            have empty : runLen * volume.bytesPerCluster.toNat = 0 := size.symm
            rw [empty]
            exact ⟨.refl _ _ _ _,by omega⟩
          · have source : srcSectorSize.toNat ∣ (volume.clusterOffset srcOffsetBytes cluster).toNat := by
              rw [clusterOffset_toNat]
              exact (Nat.dvd_mod_iff power.dvd_word).mpr (Nat.dvd_add aligned (whole.mul_left _))
            have last := Nat.mul_le_mul_right volume.bytesPerCluster.toNat behind
            rw [Nat.add_mul] at last
            have reach : volume.totalClusters * volume.bytesPerCluster.toNat ≤
                roundUp (volume.totalClusters * volume.bytesPerCluster.toNat) srcSectorSize.toNat :=
              le_roundUp power.positive
            obtain ⟨same,within⟩ := readSectors_whole reads (sector_start source)
              (clusterOffset_toNat volume srcOffsetBytes cluster)
              (sector_start (by rw [size]; exact whole.mul_left _)) (by rw [size]; omega) read
            rw [size] at same within
            have full : data.length = runLen * volume.bytesPerCluster.toNat := by rw [same,length_window]
            rw [full,roundUp_of_dvd positive runWhole] at length
            rw [floor,length] at room
            rw [floor] at written
            refine ⟨⟨?_,by rw [written]; rfl⟩,by omega⟩
            rw [written,Disk.patched_byte]
            apply Copied.of_patch
            · rw [length]
            · intro i above below
              have bound := src.totalBytes.toNat_lt
              have start' := clusterOffset_toNat volume srcOffsetBytes cluster
              have index : (srcOffsetBytes.toNat + i) % 2 ^ 64 = (volume.clusterOffset srcOffsetBytes cluster).toNat +
                  (i - cluster * volume.bytesPerCluster.toNat) := by
                have room' := within (by omega)
                omega
              rw [List.getElem?_append_left (by omega),same,getElem?_window,if_pos (by omega),
                content i above below,index]
              rfl
      have later := ih behind piece.2 rest
      rw [Nat.add_mul] at later
      have last : cluster * volume.bytesPerCluster.toNat + runLen * volume.bytesPerCluster.toNat ≤
          volume.totalClusters * volume.bytesPerCluster.toNat := by
        rw [← Nat.add_mul]
        exact Nat.mul_le_mul_right _ behind
      exact piece.1.append later (by omega) last

end Loop

def markedFree (volume : Option NtfsVolume) (i : Nat) : Bool :=
  volume.any fun volume => decide (i / volume.bytesPerCluster.toNat < volume.totalClusters) &&
    !volume.isAllocated (i / volume.bytesPerCluster.toNat)

/-- The partition arrived, with zeros in the clusters marked as free. -/
def LiveCloned (volume : Option NtfsVolume) (src dst' : Disk) (srcOffset length dstOffset : Nat) : Prop :=
  ∀ i < length, dst'.byte (dstOffset + i) = if markedFree volume i then 0 else src.byte (srcOffset + i)

/-- Behind the last cluster of its volume the partition is on the target already. -/
def TailHeld (volume : Option NtfsVolume) (src dst : Disk) (srcOffset length dstOffset : Nat) : Prop :=
  ∀ v, volume = some v → ∀ i, v.totalClusters * v.bytesPerCluster.toNat ≤ i → i < length →
    dst.byte (dstOffset + i) = src.byte (srcOffset + i)

/-- The clusters of a volume are of a size that both disks can address. -/
structure ClusterSize (srcSectorSize dstSectorSize : UInt32) (volume : NtfsVolume) : Prop where
  positive : 0 < volume.bytesPerCluster.toNat
  source : srcSectorSize.toNat ∣ volume.bytesPerCluster.toNat
  target : dstSectorSize.toNat ∣ volume.bytesPerCluster.toNat

section Volume

variable {volume : NtfsVolume} {i : Nat}

theorem markedFree_behind (sized : ClusterSize srcSectorSize dstSectorSize volume)
    (behind : volume.totalClusters * volume.bytesPerCluster.toNat ≤ i) : markedFree (some volume) i = false := by
  have past : volume.totalClusters ≤ i / volume.bytesPerCluster.toNat :=
    (Nat.le_div_iff_mul_le sized.positive).mpr behind
  simp [markedFree,Nat.not_lt_of_le past]

theorem clusterBytes_eq (srcOrigin : Nat) (before : i < volume.totalClusters * volume.bytesPerCluster.toNat)
    (inside : srcOrigin + i < 2 ^ 64) : clusterBytes volume src srcOrigin i =
      if markedFree (some volume) i then 0 else src.byte (srcOrigin + i) := by
  rw [Nat.mul_comm] at before
  have member : i / volume.bytesPerCluster.toNat < volume.totalClusters := Nat.div_lt_of_lt_mul before
  rw [clusterBytes,Nat.mod_eq_of_lt inside]
  cases kind : volume.isAllocated (i / volume.bytesPerCluster.toNat) <;> simp [markedFree,member,kind]

end Volume

section Smart

variable {srcOffsetBytes lengthBytes dstOffsetBytes : UInt64} {bufferSize diskId : UInt32}

/-- How much of the source a smart clone asks for: its clusters, or the whole range. -/
def smartSpan (volume : Option NtfsVolume) (lengthBytes : Nat) : Nat :=
  match volume with
  | some v => v.totalClusters * v.bytesPerCluster.toNat
  | none => lengthBytes

theorem cloneSmart_volume {volume : NtfsVolume}
    (found : ntfsVolume env diskId srcOffsetBytes lengthBytes = some volume)
    (done : cloneSmart env src srcSectorSize dstSectorSize fuel diskId srcOffsetBytes lengthBytes
      dstOffsetBytes bufferSize dst = some (.ok (),dst')) :
    ∃ totalBytesToCopy, cloneSmartLoop env src srcSectorSize dstSectorSize volume
      (alignedBufSize srcSectorSize dstSectorSize bufferSize) totalBytesToCopy srcOffsetBytes dstOffsetBytes
      fuel 0 0 dst = some (.ok (),dst') := by
  rw [cloneSmart,found] at done
  simp only at done
  split at done
  next => simp [bufferTooSmall] at done
  next => exact ⟨_,done⟩

/-- A smart clone that succeeds cloned the live part of the partition only if what lies
behind the last cluster was on the target before; and, when no read falls short, if it was. -/
theorem cloneSmart_live (power : PowerOfTwo srcSectorSize) (power' : PowerOfTwo dstSectorSize)
    (aligned : srcSectorSize.toNat ∣ srcOffsetBytes.toNat) (aligned' : dstSectorSize.toNat ∣ dstOffsetBytes.toNat)
    (inside : srcOffsetBytes.toNat + lengthBytes.toNat ≤ src.totalBytes.toNat)
    (sized : ∀ volume, ntfsVolume env diskId srcOffsetBytes lengthBytes = some volume →
      ClusterSize srcSectorSize dstSectorSize volume)
    (done : cloneSmart env src srcSectorSize dstSectorSize fuel diskId srcOffsetBytes lengthBytes
      dstOffsetBytes bufferSize dst = some (.ok (),dst')) :
    let volume := ntfsVolume env diskId srcOffsetBytes lengthBytes
    let live := LiveCloned volume src dst' srcOffsetBytes.toNat lengthBytes.toNat dstOffsetBytes.toNat
    let tail := TailHeld volume src dst srcOffsetBytes.toNat lengthBytes.toNat dstOffsetBytes.toNat
    (live → tail) ∧
      (ReadsWhole env.source src srcSectorSize srcOffsetBytes.toNat (smartSpan volume lengthBytes.toNat) →
        (live ↔ tail)) := by
  intro volume live tail
  have needed : live → tail := by
    intro cloned v found i behind below
    obtain ⟨_,looped⟩ := cloneSmart_volume found done
    have kept := cloneSmartLoop_unchanged power'.positive (sized v found).source (sized v found).target
      (Nat.zero_le _) looped (dstOffsetBytes.toNat + i) (by omega)
    have copied := cloned i below
    rw [found,markedFree_behind (sized v found) behind,kept] at copied
    exact copied
  refine ⟨needed,fun reads => ⟨needed,fun held i below => ?_⟩⟩
  have bound := src.totalBytes.toNat_lt
  change dst'.byte (dstOffsetBytes.toNat + i) =
    if markedFree (ntfsVolume env diskId srcOffsetBytes lengthBytes) i then 0
    else src.byte (srcOffsetBytes.toNat + i)
  cases found : ntfsVolume env diskId srcOffsetBytes lengthBytes with
  | none =>
    change ReadsWhole _ _ _ _ (smartSpan (ntfsVolume env diskId srcOffsetBytes lengthBytes) _) at reads
    rw [found] at reads
    rw [cloneSmart,found] at done
    exact (cloneRaw_ok power power' reads aligned aligned' done).copied.inside i (Nat.zero_le i) below
  | some v =>
    change ReadsWhole _ _ _ _ (smartSpan (ntfsVolume env diskId srcOffsetBytes lengthBytes) _) at reads
    rw [found] at reads
    obtain ⟨_,looped⟩ := cloneSmart_volume found done
    by_cases before : i < v.totalClusters * v.bytesPerCluster.toNat
    · have copied := cloneSmartLoop_ok power power'.positive reads (sized v found).source (sized v found).target
        aligned aligned' (Nat.zero_le _) (by have := dstOffsetBytes.toNat_lt; omega) looped
      have start : 0 * v.bytesPerCluster.toNat ≤ i := by
        rw [Nat.zero_mul]
        exact Nat.zero_le i
      rw [copied.copied.inside i start before]
      exact clusterBytes_eq srcOffsetBytes.toNat before (by omega)
    · have kept := cloneSmartLoop_unchanged power'.positive (sized v found).source (sized v found).target
        (Nat.zero_le _) looped (dstOffsetBytes.toNat + i) (by omega)
      rw [markedFree_behind (sized v found) (by omega),kept]
      exact held v found i (by omega) below

end Smart

end DiskCloner

section Sample

/-- A volume of two clusters, the second one free, on a partition of three sectors. -/
def smartEnv : CloneEnv :=
  { source := .within 4096, driveLayout := some [⟨0,1536⟩],
    volumeExtents := fun letter => if letter = 67 then some [(0,0)] else none,
    ntfsVolumeData := fun _ => some (512,2), volumeBitmap := fun _ => some [1] }

theorem smartEnv_volume : DiskCloner.ntfsVolume smartEnv 0 0 1536 = some ⟨512,2,[1]⟩ := by decide

theorem smartEnv_sized (volume : DiskCloner.NtfsVolume) (found : DiskCloner.ntfsVolume smartEnv 0 0 1536 = some volume) :
    DiskCloner.ClusterSize 512 512 volume := by
  rw [smartEnv_volume] at found
  cases found
  exact ⟨by decide,Nat.dvd_refl _,Nat.dvd_refl _⟩

/-- The clone of the sample to a target that holds the source's bytes already. -/
theorem smart_sample : ∃ dst', DiskCloner.cloneSmart smartEnv (filled 4096 0xAA) 512 512 4 0 0 1536 0 512
    (filled 4096 0xAA) = some (.ok (),dst') ∧
    DiskCloner.LiveCloned (DiskCloner.ntfsVolume smartEnv 0 0 1536) (filled 4096 0xAA) dst' 0 1536 0 := by
  have ends : endsWith (DiskCloner.cloneSmart smartEnv (filled 4096 0xAA) 512 512 4 0 0 1536 0 512
    (filled 4096 0xAA)) (fun _ => true) = true := by decide +kernel
  obtain ⟨dst',done,_⟩ := exists_of_endsWith ends
  have live := (DiskCloner.cloneSmart_live power_512 power_512 (Nat.dvd_zero _) (Nat.dvd_zero _) (by decide)
    smartEnv_sized done).2 (readsWhole_within (filled 4096 0xAA) 512 0 _)
  exact ⟨dst',done,live.mpr fun _ _ _ _ _ => rfl⟩

/-- The third sector of the partition is in no cluster, and is not cloned. -/
theorem tail_not_cloned : ∃ dst', ReadsWhole smartEnv.source (filled 4096 0xAA) 512 0 1536 ∧
    DiskCloner.cloneSmart smartEnv (filled 4096 0xAA) 512 512 4 0 0 1536 0 512 (filled 4096 0x11) =
      some (.ok (),dst') ∧
    ¬ DiskCloner.LiveCloned (DiskCloner.ntfsVolume smartEnv 0 0 1536) (filled 4096 0xAA) dst' 0 1536 0 := by
  have ends : endsWith (DiskCloner.cloneSmart smartEnv (filled 4096 0xAA) 512 512 4 0 0 1536 0 512
    (filled 4096 0x11)) (fun dst' => dst'.byte 1024 == 0x11) = true := by decide +kernel
  obtain ⟨dst',done,stale⟩ := exists_of_endsWith ends
  refine ⟨dst',readsWhole_within (filled 4096 0xAA) 512 0 1536,done,fun live => ?_⟩
  have cloned := live 1024 (by decide)
  rw [eq_of_beq stale] at cloned
  revert cloned
  decide

end Sample

end SetecWizard.Core
