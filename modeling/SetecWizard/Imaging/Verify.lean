import SetecWizard.Imaging.SmartClone

/-! The verification of a clone reads the range of both disks again and compares it.
It passes exactly when nothing disturbs it and the bytes agree, and what a clone that
succeeded leaves different is known from the source, the bitmap and the target before.
-/
namespace SetecWizard.Core
open SetecWizard.Library

/-- No read of sectors of a range fails or falls short. -/
def Served (os : Win32) (disk : Disk) (sectorSize : UInt32) (off length : Nat) : Prop :=
  ∀ lba count : UInt64, off ≤ (lba * sectorSize.toUInt64).toNat →
    (lba * sectorSize.toUInt64).toNat + (count * sectorSize.toUInt64).toNat ≤ off + roundUp length sectorSize.toNat →
    (count * sectorSize.toUInt64).toNat < 2 ^ 32 →
    ∃ data, RawDiskHandle.readSectors os disk lba count sectorSize = .ok data ∧
      data.length = (count * sectorSize.toUInt64).toNat

namespace Served

variable {os : Win32} {disk : Disk} {sectorSize : UInt32} {off length : Nat}

theorem chunk (served : Served os disk sectorSize off length) (positive : 0 < sectorSize.toNat) {low n : Nat}
    {pos chunkBytes : UInt64} (start : pos.toNat = off + low) (size : chunkBytes.toNat = n) (nonempty : 0 < n)
    (aligned : sectorSize.toNat ∣ off + low) (round : sectorSize.toNat ∣ low) (within : low + n ≤ length)
    (small : roundUp n sectorSize.toNat < 2 ^ 32) :
    ∃ data, RawDiskHandle.readSectors os disk (pos / sectorSize.toUInt64)
        ((chunkBytes + sectorSize.toUInt64 - 1) / sectorSize.toUInt64) sectorSize = .ok data ∧
      n ≤ data.length ∧ data.take n = window disk.byte (off + low) n ∧ off + low + n ≤ disk.totalBytes.toNat := by
  have first : (pos / sectorSize.toUInt64 * sectorSize.toUInt64).toNat = off + low := by
    rw [sector_start (by rwa [start]),start]
  have width := sectorSize.toNat_lt
  have enough : n ≤ roundUp n sectorSize.toNat := le_roundUp positive
  have bytes := sector_bytes (n := chunkBytes) positive (by omega)
  rw [size] at bytes
  have rounded := roundUp_add (n := n) positive round
  have above : roundUp (low + n) sectorSize.toNat ≤ roundUp length sectorSize.toNat :=
    roundUp_le_of_dvd positive (within.trans (le_roundUp positive)) (dvd_roundUp _ _)
  obtain ⟨data,read,all⟩ := served (pos / sectorSize.toUInt64)
    ((chunkBytes + sectorSize.toUInt64 - 1) / sectorSize.toUInt64) (by rw [first]; omega)
    (by rw [first,bytes]; omega) (by rwa [bytes])
  obtain ⟨same,inside,_⟩ := readSectors_ok first read
  rw [bytes] at all
  rw [all] at same inside
  refine ⟨data,read,by omega,?_,by have := inside (by omega); omega⟩
  rw [same,take_window _ _ _ _ enough]

theorem inside (served : Served os disk sectorSize off length) (power : PowerOfTwo sectorSize) (word : off < 2 ^ 64)
    (aligned : sectorSize.toNat ∣ off) (nonempty : 0 < length) : off + length ≤ disk.totalBytes.toNat := by
  have positive := power.positive
  have width := sectorSize.toNat_lt
  have bound := disk.totalBytes.toNat_lt
  -- The last byte of the range, or the last one that has an address.
  obtain ⟨q,last⟩ : ∃ q, q = min (off + length - 1) (2 ^ 64 - 1) := ⟨_,rfl⟩
  have below := Nat.div_mul_le_self q sectorSize.toNat
  have above := Nat.lt_div_mul_add (a := q) positive
  have from_off : off ≤ q / sectorSize.toNat * sectorSize.toNat := by
    have floor := Nat.div_mul_cancel aligned
    rw [← floor]
    exact Nat.mul_le_mul_right _ (Nat.div_le_div_right (by omega))
  have position : (UInt64.ofNat q).toNat = q := by
    rw [UInt64.toNat_ofNat',Nat.mod_eq_of_lt (by omega)]
  have start : (UInt64.ofNat q / sectorSize.toUInt64 * sectorSize.toUInt64).toNat =
      q / sectorSize.toNat * sectorSize.toNat := by rw [sector_floor,position]
  have one : ((1 : UInt64) * sectorSize.toUInt64).toNat = sectorSize.toNat := by
    rw [UInt64.one_mul,UInt32.toNat_toUInt64]
  have whole : sectorSize.toNat ∣ q / sectorSize.toNat * sectorSize.toNat - off :=
    Nat.dvd_sub (Nat.dvd_mul_left _ _) aligned
  have reach : q / sectorSize.toNat * sectorSize.toNat - off + sectorSize.toNat ≤ roundUp length sectorSize.toNat := by
    have single : roundUp 1 sectorSize.toNat = sectorSize.toNat := by
      rw [roundUp,Nat.add_sub_cancel_left,Nat.div_self positive,Nat.one_mul]
    have added := roundUp_add (n := 1) positive whole
    rw [single] at added
    rw [← added]
    exact roundUp_le_of_dvd positive ((by omega : _ ≤ length).trans (le_roundUp positive)) (dvd_roundUp _ _)
  obtain ⟨data,read,all⟩ := served _ 1 (by rw [start]; exact from_off) (by rw [start,one]; omega)
    (by rw [one]; omega)
  obtain ⟨_,within,_⟩ := readSectors_ok start read
  rw [all,one] at within
  have := within positive
  omega

end Served

namespace DiskCloner

variable {env : CloneEnv} {src dst dst' : Disk} {srcSectorSize dstSectorSize : UInt32}

/-- Nobody cancels the verification at one of its chunks from a distance on. -/
def Undisturbed (env : CloneEnv) (bufSize : UInt32) (lengthBytes dstOffsetBytes : UInt64) (low : Nat) : Prop :=
  ∀ at_byte, low ≤ at_byte → at_byte < lengthBytes.toNat → bufSize.toNat ∣ at_byte →
    env.cancelRequested (dstOffsetBytes + UInt64.ofNat at_byte) (lengthBytes - UInt64.ofNat at_byte) = false ∧
      env.progressCb (UInt64.ofNat (min (at_byte + bufSize.toNat) lengthBytes.toNat)) lengthBytes = true

/-- Both disks hold the same from one distance to another. -/
def Agree (src dst : Disk) (srcOrigin dstOrigin low high : Nat) : Prop :=
  ∀ i, low ≤ i → i < high → dst.byte (dstOrigin + i) = src.byte (srcOrigin + i)

theorem agree_iff_window {srcOrigin dstOrigin low n : Nat} : Agree src dst srcOrigin dstOrigin low (low + n) ↔
    window src.byte (srcOrigin + low) n = window dst.byte (dstOrigin + low) n := by
  constructor
  · intro agree
    apply List.ext_getElem?
    intro i
    rw [getElem?_window,getElem?_window]
    split
    next inside =>
      have same := agree (low + i) (by omega) (by omega)
      rw [Nat.add_assoc,Nat.add_assoc,same]
    next => rfl
  · intro same i above below
    have read := congrArg (fun xs => xs[i - low]?) same
    simp only [getElem?_window,if_pos (by omega : i - low < n),Option.some.injEq] at read
    have index : srcOrigin + low + (i - low) = srcOrigin + i := by omega
    have index' : dstOrigin + low + (i - low) = dstOrigin + i := by omega
    rw [index,index'] at read
    exact read.symm

theorem agree_split {srcOrigin dstOrigin low mid high : Nat} (ordered : low ≤ mid) (within : mid ≤ high) :
    Agree src dst srcOrigin dstOrigin low high ↔
      Agree src dst srcOrigin dstOrigin low mid ∧ Agree src dst srcOrigin dstOrigin mid high := by
  refine ⟨fun agree => ⟨fun i above below => agree i above (by omega),fun i above below => agree i (by omega) below⟩,
    fun agree i above below => ?_⟩
  by_cases early : i < mid
  · exact agree.1 i above early
  · exact agree.2 i (by omega) below

section Loop

variable {srcOffsetBytes dstOffsetBytes lengthBytes bytesRemaining bytesVerified srcPos dstPos : UInt64}
  {bufSize : UInt32} {low fuel : Nat}

theorem verifyChunk_iff (positive : 0 < srcSectorSize.toNat) (positive' : 0 < dstSectorSize.toNat)
    (served : Served env.source src srcSectorSize srcOffsetBytes.toNat lengthBytes.toNat)
    (served' : Served env.target dst dstSectorSize dstOffsetBytes.toNat lengthBytes.toNat)
    (stands : RawAt srcSectorSize dstSectorSize srcOffsetBytes.toNat dstOffsetBytes.toNat low srcPos dstPos)
    (round : srcSectorSize.toNat ∣ low) (round' : dstSectorSize.toNat ∣ low) {chunkBytes : UInt64}
    (nonempty : 0 < chunkBytes.toNat) (within : low + chunkBytes.toNat ≤ lengthBytes.toNat)
    (small : roundUp chunkBytes.toNat srcSectorSize.toNat < 2 ^ 32)
    (small' : roundUp chunkBytes.toNat dstSectorSize.toNat < 2 ^ 32) :
    (verifyChunk env src srcSectorSize dstSectorSize dst chunkBytes srcPos dstPos = .ok () ↔
      Agree src dst srcOffsetBytes.toNat dstOffsetBytes.toNat low (low + chunkBytes.toNat)) ∧
      srcOffsetBytes.toNat + low + chunkBytes.toNat ≤ src.totalBytes.toNat ∧
      dstOffsetBytes.toNat + low + chunkBytes.toNat ≤ dst.totalBytes.toNat := by
  obtain ⟨data,read,size,same,room⟩ := served.chunk positive stands.source rfl nonempty stands.sourceAligned round
    within small
  obtain ⟨data',read',size',same',room'⟩ := served'.chunk positive' stands.target rfl nonempty stands.targetAligned
    round' within small'
  refine ⟨?_,room,room'⟩
  unfold verifyChunk
  rw [agree_iff_window,bind_ok]
  constructor
  · rintro ⟨first,read_first,rest⟩
    obtain rfl := Except.ok.inj (read.symm.trans read_first)
    obtain ⟨second,read_second,rest⟩ := bind_ok.mp rest
    obtain rfl := Except.ok.inj (read'.symm.trans read_second)
    have equal := refuse_ok.mp (bind_unit_ok.mp rest).2
    rwa [not_not,same,same'] at equal
  · intro equal
    refine ⟨data,read,bind_ok.mpr ⟨data',read',bind_unit_ok.mpr ⟨refuse_ok.mpr (by omega),refuse_ok.mpr ?_⟩⟩⟩
    rw [not_not,same,same']
    exact equal

/-- The loop by induction on its rounds: it passes when nobody cancels it and the rest of
the range is the same on both disks. -/
theorem verifyLoop_iff (positive : 0 < srcSectorSize.toNat) (positive' : 0 < dstSectorSize.toNat)
    (sectors : WholeSectors srcSectorSize dstSectorSize bufSize)
    (served : Served env.source src srcSectorSize srcOffsetBytes.toNat lengthBytes.toNat)
    (served' : Served env.target dst dstSectorSize dstOffsetBytes.toNat lengthBytes.toNat)
    (stands : RawAt srcSectorSize dstSectorSize srcOffsetBytes.toNat dstOffsetBytes.toNat low srcPos dstPos)
    (round : bufSize.toNat ∣ low) (left : low + bytesRemaining.toNat = lengthBytes.toNat)
    (verified : bytesVerified.toNat = low) (enough : bytesRemaining.toNat < fuel) :
    verifyLoop env src srcSectorSize dstSectorSize dst bufSize lengthBytes fuel bytesRemaining bytesVerified srcPos
        dstPos = some (.ok ()) ↔
      Undisturbed env bufSize lengthBytes dstOffsetBytes low ∧
        Agree src dst srcOffsetBytes.toNat dstOffsetBytes.toNat low lengthBytes.toNat := by
  induction fuel generalizing low bytesRemaining bytesVerified srcPos dstPos with
  | zero => exact absurd enough (Nat.not_lt_zero _)
  | succ fuel ih =>
    have limit := lengthBytes.toNat_lt
    have width := bufSize.toNat_lt
    have least := sectors.positive
    rw [verifyLoop]
    by_cases zero : bytesRemaining = 0
    · rw [if_pos zero]
      have ended : low = lengthBytes.toNat := by
        rw [zero] at left
        exact left
      refine iff_of_true rfl ⟨fun i above below _ => ?_,fun i above below => ?_⟩
      · exact absurd below (by omega)
      · exact absurd below (by omega)
    · have some_left : 0 < bytesRemaining.toNat :=
        Nat.pos_of_ne_zero (fun none => zero (UInt64.toNat_inj.mp none))
      have chunk : (min bufSize.toUInt64 bytesRemaining).toNat = min bufSize.toNat bytesRemaining.toNat := by
        rw [UInt64.toNat_min,UInt32.toNat_toUInt64]
      have small (sectorSize : UInt32) (positive : 0 < sectorSize.toNat) (whole : sectorSize.toNat ∣ bufSize.toNat) :
          roundUp (min bufSize.toUInt64 bytesRemaining).toNat sectorSize.toNat < 2 ^ 32 := by
        rw [chunk]
        exact (roundUp_le_of_dvd positive (Nat.min_le_left _ _) whole).trans_lt width
      obtain ⟨passes,room,room'⟩ := verifyChunk_iff positive positive' served served' stands
        (sectors.source.trans round) (sectors.target.trans round) (by omega) (by omega)
        (small _ positive sectors.source) (small _ positive' sectors.target)
      have here : dstPos = dstOffsetBytes + UInt64.ofNat low ∧ bytesRemaining = lengthBytes - UInt64.ofNat low ∧
          bytesVerified + min bufSize.toUInt64 bytesRemaining =
            UInt64.ofNat (min (low + bufSize.toNat) lengthBytes.toNat) := by
        have bound := dst.totalBytes.toNat_lt
        have position : (UInt64.ofNat low).toNat = low := by
          rw [UInt64.toNat_ofNat',Nat.mod_eq_of_lt (by omega)]
        refine ⟨UInt64.toNat_inj.mp ?_,UInt64.toNat_inj.mp ?_,UInt64.toNat_inj.mp ?_⟩
        · rw [stands.target,UInt64.toNat_add,position,Nat.mod_eq_of_lt (by omega)]
        · rw [UInt64.toNat_sub_of_le _ _ (by rw [UInt64.le_iff_toNat_le,position]; omega),position]
          omega
        · rw [UInt64.toNat_add,verified,chunk,UInt64.toNat_ofNat',Nat.mod_eq_of_lt (by omega),
            Nat.mod_eq_of_lt (by omega)]
          omega
      -- A cancellation here, and the chunk, decide this round; what is left is the rest.
      have now : Undisturbed env bufSize lengthBytes dstOffsetBytes low ↔
          (env.cancelRequested dstPos bytesRemaining = false ∧
            env.progressCb (bytesVerified + min bufSize.toUInt64 bytesRemaining) lengthBytes = true) ∧
          Undisturbed env bufSize lengthBytes dstOffsetBytes (low + min bufSize.toNat bytesRemaining.toNat) := by
        rw [here.1,here.2.2]
        constructor
        · intro calm
          refine ⟨?_,fun i above below whole => calm i (by omega) below whole⟩
          rw [here.2.1]
          exact calm low (Nat.le_refl _) (by omega) round
        · intro calm i above below whole
          by_cases first : i = low
          · rw [first,← here.2.1]
            exact calm.1
          · refine calm.2 i ?_ below whole
            have step := Nat.le_of_dvd (by omega) (Nat.dvd_sub whole round)
            omega
      rw [@agree_split _ _ _ _ low (low + min bufSize.toNat bytesRemaining.toNat) _ (by omega) (by omega),now,if_neg zero]
      rw [chunk] at passes room room'
      cases quiet : env.cancelRequested dstPos bytesRemaining with
      | true => simp [verificationCanceled]
      | false =>
        simp only [Bool.false_eq_true,if_false,true_and]
        cases compared : verifyChunk env src srcSectorSize dstSectorSize dst (min bufSize.toUInt64 bytesRemaining)
            srcPos dstPos with
        | error e =>
          have differ : ¬ Agree src dst srcOffsetBytes.toNat dstOffsetBytes.toNat low
              (low + min bufSize.toNat bytesRemaining.toNat) := by
            intro agree
            rw [passes.mpr agree] at compared
            cases compared
          simp [differ]
        | ok _ =>
          have same := passes.mp compared
          cases goes : env.progressCb (bytesVerified + min bufSize.toUInt64 bytesRemaining) lengthBytes with
          | false => simp [verificationCanceled]
          | true =>
            have remains : (bytesRemaining - min bufSize.toUInt64 bytesRemaining).toNat =
                bytesRemaining.toNat - min bufSize.toNat bytesRemaining.toNat := by
              rw [UInt64.toNat_sub_of_le _ _ (by rw [UInt64.le_iff_toNat_le,chunk]; omega),chunk]
            simp only [Bool.true_eq_false,if_false,same,true_and]
            by_cases last : bytesRemaining.toNat ≤ bufSize.toNat
            · rw [Nat.min_eq_right last] at remains ⊢
              have ended : bytesRemaining - min bufSize.toUInt64 bytesRemaining = 0 := by
                apply UInt64.toNat_inj.mp
                rw [remains,Nat.sub_self]
                rfl
              obtain ⟨more,rfl⟩ : ∃ more, fuel = more + 1 := ⟨fuel - 1,by omega⟩
              rw [ended,verifyLoop,if_pos rfl]
              refine iff_of_true rfl ⟨fun i above below _ => ?_,fun i above below => ?_⟩
              · exact absurd below (by omega)
              · exact absurd below (by omega)
            · have full : min bufSize.toNat bytesRemaining.toNat = bufSize.toNat := by omega
              rw [full] at chunk remains room room' ⊢
              have limit' := src.totalBytes.toNat_lt
              have limit'' := dst.totalBytes.toNat_lt
              have next := stands.next (by rw [chunk]; exact sectors.source) (by rw [chunk]; exact sectors.target)
                (by omega) (by omega)
              rw [chunk] at next
              refine ih next (Nat.dvd_add round (Nat.dvd_refl _)) (by omega) ?_ (by omega)
              rw [UInt64.toNat_add,verified,chunk,Nat.mod_eq_of_lt (by omega)]

end Loop

section Phase

variable {srcOffsetBytes dstOffsetBytes lengthBytes : UInt64} {bufferSize diskId : UInt32} {fuel : Nat}

theorem verifyClone_iff (power : PowerOfTwo srcSectorSize) (power' : PowerOfTwo dstSectorSize)
    (nonzero : alignedBufSize srcSectorSize dstSectorSize bufferSize ≠ 0)
    (aligned : srcSectorSize.toNat ∣ srcOffsetBytes.toNat) (aligned' : dstSectorSize.toNat ∣ dstOffsetBytes.toNat)
    (served : Served env.source src srcSectorSize srcOffsetBytes.toNat lengthBytes.toNat)
    (served' : Served env.target dst dstSectorSize dstOffsetBytes.toNat lengthBytes.toNat)
    (enough : lengthBytes.toNat < fuel) :
    verifyClone env src srcSectorSize dstSectorSize fuel srcOffsetBytes lengthBytes dstOffsetBytes bufferSize dst =
        some (.ok ()) ↔
      Undisturbed env (alignedBufSize srcSectorSize dstSectorSize bufferSize) lengthBytes dstOffsetBytes 0 ∧
        Agree src dst srcOffsetBytes.toNat dstOffsetBytes.toNat 0 lengthBytes.toNat := by
  have stands : RawAt srcSectorSize dstSectorSize srcOffsetBytes.toNat dstOffsetBytes.toNat 0
      srcOffsetBytes dstOffsetBytes := ⟨rfl,rfl,aligned,aligned'⟩
  rw [verifyClone]
  simp only [if_neg nonzero]
  exact verifyLoop_iff power.positive power'.positive (alignedBufSize_whole power power' nonzero) served served' stands
    (Nat.dvd_zero _) (Nat.zero_add _) rfl enough

theorem clonePhase_buffer {mode : CloneMode}
    (done : clonePhase env src srcSectorSize dstSectorSize mode fuel diskId srcOffsetBytes lengthBytes dstOffsetBytes
      bufferSize dst = some (.ok (),dst')) : alignedBufSize srcSectorSize dstSectorSize bufferSize ≠ 0 := by
  intro zero
  have raw : cloneRaw env src srcSectorSize dstSectorSize fuel srcOffsetBytes lengthBytes dstOffsetBytes bufferSize dst =
      some (.error bufferTooSmall,dst) := by simp only [cloneRaw,if_pos zero]
  unfold clonePhase at done
  split at done
  next =>
    unfold cloneSmart at done
    split at done
    next => simp [raw,bufferTooSmall] at done
    next => simp [zero,bufferTooSmall] at done
  next => simp [raw,bufferTooSmall] at done

def FreeBlank (volume : Option NtfsVolume) (src : Disk) (srcOffset length : Nat) : Prop :=
  ∀ i < length, markedFree volume i = true → src.byte (srcOffset + i) = 0

theorem cloneSmart_zeroed (power : PowerOfTwo srcSectorSize) (power' : PowerOfTwo dstSectorSize)
    (reads : ReadsWhole env.source src srcSectorSize srcOffsetBytes.toNat
      (smartSpan (ntfsVolume env diskId srcOffsetBytes lengthBytes) lengthBytes.toNat))
    (aligned : srcSectorSize.toNat ∣ srcOffsetBytes.toNat) (aligned' : dstSectorSize.toNat ∣ dstOffsetBytes.toNat)
    (sized : ∀ volume, ntfsVolume env diskId srcOffsetBytes lengthBytes = some volume →
      ClusterSize srcSectorSize dstSectorSize volume)
    (done : cloneSmart env src srcSectorSize dstSectorSize fuel diskId srcOffsetBytes lengthBytes
      dstOffsetBytes bufferSize dst = some (.ok (),dst')) {i : Nat}
    (free : markedFree (ntfsVolume env diskId srcOffsetBytes lengthBytes) i = true) :
    dst'.byte (dstOffsetBytes.toNat + i) = 0 := by
  cases found : ntfsVolume env diskId srcOffsetBytes lengthBytes with
  | none =>
    rw [found] at free
    cases free
  | some v =>
    rw [found] at free reads
    obtain ⟨_,looped⟩ := cloneSmart_volume found done
    have positive := (sized v found).positive
    have copied := cloneSmartLoop_ok power power'.positive reads (sized v found).source (sized v found).target
      aligned aligned' (Nat.zero_le _) (by have := dstOffsetBytes.toNat_lt; omega) looped
    rw [markedFree,Option.any_some,Bool.and_eq_true,decide_eq_true_eq,Bool.not_eq_true'] at free
    have before : i < v.totalClusters * v.bytesPerCluster.toNat := by
      rw [Nat.mul_comm]
      exact (Nat.div_lt_iff_lt_mul positive).mp free.1 |>.trans_eq (Nat.mul_comm _ _)
    rw [copied.copied.inside i (by omega) before,clusterBytes,free.2]
    rfl

def cloneSpan (mode : CloneMode) (volume : Option NtfsVolume) (lengthBytes : Nat) : Nat :=
  if mode = .smart then smartSpan volume lengthBytes else lengthBytes

/-- What a clone leaves equal on both disks: all of the range, but for the smart clone
of a volume only with blank free clusters and what lies behind the last one in place. -/
theorem clonePhase_agree (power : PowerOfTwo srcSectorSize) (power' : PowerOfTwo dstSectorSize) {mode : CloneMode}
    (reads : ReadsWhole env.source src srcSectorSize srcOffsetBytes.toNat
      (cloneSpan mode (ntfsVolume env diskId srcOffsetBytes lengthBytes) lengthBytes.toNat))
    (aligned : srcSectorSize.toNat ∣ srcOffsetBytes.toNat) (aligned' : dstSectorSize.toNat ∣ dstOffsetBytes.toNat)
    (inside : srcOffsetBytes.toNat + lengthBytes.toNat ≤ src.totalBytes.toNat)
    (sized : ∀ volume, ntfsVolume env diskId srcOffsetBytes lengthBytes = some volume →
      ClusterSize srcSectorSize dstSectorSize volume)
    (done : clonePhase env src srcSectorSize dstSectorSize mode fuel diskId srcOffsetBytes lengthBytes dstOffsetBytes
      bufferSize dst = some (.ok (),dst')) :
    Agree src dst' srcOffsetBytes.toNat dstOffsetBytes.toNat 0 lengthBytes.toNat ↔
      (mode = .smart → FreeBlank (ntfsVolume env diskId srcOffsetBytes lengthBytes) src srcOffsetBytes.toNat
          lengthBytes.toNat ∧
        TailHeld (ntfsVolume env diskId srcOffsetBytes lengthBytes) src dst srcOffsetBytes.toNat lengthBytes.toNat
          dstOffsetBytes.toNat) := by
  cases mode with
  | raw =>
    have copied := cloneRaw_ok power power' reads aligned aligned' done
    exact iff_of_true (fun i above below => copied.copied.inside i above below) (fun smart => by cases smart)
  | smart =>
    replace done : cloneSmart env src srcSectorSize dstSectorSize fuel diskId srcOffsetBytes lengthBytes dstOffsetBytes
      bufferSize dst = some (.ok (),dst') := done
    have live := (cloneSmart_live power power' aligned aligned' inside sized done).2 reads
    have zeroed := fun i => @cloneSmart_zeroed _ _ _ _ _ _ _ _ _ _ _ _ power power' reads aligned aligned' sized done i
    rw [forall_prop_of_true rfl,← live]
    constructor
    · intro agree
      refine ⟨fun i below free => ?_,fun i below => ?_⟩
      · rw [← agree i (Nat.zero_le i) below,zeroed i free]
      · split
        next free => exact zeroed i free
        next => exact agree i (Nat.zero_le i) below
    · rintro ⟨blank,cloned⟩ i _ below
      have byte := cloned i below
      split at byte
      next free => rw [byte,blank i below free]
      next => exact byte

/-- The verification of a clone that succeeded. Its answers may be others than those of
the clone; the source is the same. -/
theorem verifyClone_passes_iff {verifying : CloneEnv} {verifyFuel : Nat} (power : PowerOfTwo srcSectorSize)
    (power' : PowerOfTwo dstSectorSize) (config : CloneConfig) (mode : CloneMode)
    (range : cloneRange config src.totalBytes dst.totalBytes srcSectorSize dstSectorSize = .ok lengthBytes)
    (reads : ReadsWhole env.source src srcSectorSize config.sourceOffsetBytes.toNat
      (cloneSpan mode (ntfsVolume env diskId config.sourceOffsetBytes lengthBytes) lengthBytes.toNat))
    (sized : ∀ volume, ntfsVolume env diskId config.sourceOffsetBytes lengthBytes = some volume →
      ClusterSize srcSectorSize dstSectorSize volume)
    (done : clonePhase env src srcSectorSize dstSectorSize mode fuel diskId config.sourceOffsetBytes lengthBytes
      config.destOffsetBytes config.bufferSize dst = some (.ok (),dst'))
    (served : Served verifying.source src srcSectorSize config.sourceOffsetBytes.toNat lengthBytes.toNat)
    (served' : Served verifying.target dst' dstSectorSize config.destOffsetBytes.toNat lengthBytes.toNat)
    (enough : lengthBytes.toNat < verifyFuel) :
    verifyClone verifying src srcSectorSize dstSectorSize verifyFuel config.sourceOffsetBytes lengthBytes
        config.destOffsetBytes config.bufferSize dst' = some (.ok ()) ↔
      Undisturbed verifying (alignedBufSize srcSectorSize dstSectorSize config.bufferSize) lengthBytes
          config.destOffsetBytes 0 ∧
        (mode = .smart → FreeBlank (ntfsVolume env diskId config.sourceOffsetBytes lengthBytes) src
            config.sourceOffsetBytes.toNat lengthBytes.toNat ∧
          TailHeld (ntfsVolume env diskId config.sourceOffsetBytes lengthBytes) src dst
            config.sourceOffsetBytes.toNat lengthBytes.toNat config.destOffsetBytes.toNat) := by
  obtain ⟨aligned,aligned'⟩ := cloneRange_aligned power power' range
  rw [verifyClone_iff power power' (clonePhase_buffer done) aligned aligned' served served' enough]
  rcases Nat.eq_zero_or_pos lengthBytes.toNat with empty | nonempty
  · rw [empty]
    refine and_congr_right' (iff_of_true (fun i _ below => absurd below (Nat.not_lt_zero i)) (fun _ => ⟨?_,?_⟩))
    · exact fun i below => absurd below (Nat.not_lt_zero i)
    · exact fun _ _ i _ below => absurd below (Nat.not_lt_zero i)
  · have inside := served.inside power config.sourceOffsetBytes.toNat_lt aligned nonempty
    rw [clonePhase_agree power power' reads aligned aligned' inside sized done]

end Phase

end DiskCloner

section Sample

/-- Four clusters of which the second is free, on a partition that they fill. -/
def fullEnv : CloneEnv :=
  { source := .within 4096, driveLayout := some [⟨0,2048⟩],
    volumeExtents := fun letter => if letter = 67 then some [(0,0)] else none,
    ntfsVolumeData := fun _ => some (512,4), volumeBitmap := fun _ => some [13] }

theorem fullEnv_volume : DiskCloner.ntfsVolume fullEnv 0 0 2048 = some ⟨512,4,[13]⟩ := by decide

theorem fullEnv_sized (volume : DiskCloner.NtfsVolume) (found : DiskCloner.ntfsVolume fullEnv 0 0 2048 = some volume) :
    DiskCloner.ClusterSize 512 512 volume := by
  rw [fullEnv_volume] at found
  cases found
  exact ⟨by decide,Nat.dvd_refl _,Nat.dvd_refl _⟩

theorem served_within (disk : Disk) {sectorSize : UInt32} {off length : Nat}
    (inside : off + roundUp length sectorSize.toNat ≤ disk.totalBytes.toNat) :
    Served (.within disk.totalBytes.toNat) disk sectorSize off length := by
  intro lba count _ within small
  have limit : MAXDWORD.toNat = 2 ^ 32 - 1 := rfl
  unfold RawDiskHandle.readSectors
  split
  next none =>
    rw [none,UInt64.zero_mul]
    exact ⟨[],rfl,rfl⟩
  next =>
    have short : ¬ MAXDWORD < count * sectorSize.toUInt64 := by
      rw [UInt64.lt_iff_toNat_lt,limit]
      omega
    have fits : (lba * sectorSize.toUInt64).toNat + (count * sectorSize.toUInt64).toNat ≤ disk.totalBytes.toNat := by
      omega
    simp only [if_neg short,Win32.within,if_pos fits]
    exact ⟨_,rfl,by rw [length_window,available_all disk _ _ fits]⟩

/-- The verification's answers, which see the end of both disks. -/
def verifyEnv : CloneEnv := { source := .within 4096, target := .within 4096 }

theorem cloned_served {src dst' : Disk} (size : src.totalBytes = 4096) (size' : dst'.totalBytes = 4096) :
    Served verifyEnv.source src 512 0 2048 ∧ Served verifyEnv.target dst' 512 0 2048 := by
  have served (disk : Disk) (size : disk.totalBytes = 4096) : Served (.within 4096) disk 512 0 2048 := by
    have inside := @served_within disk 512 0 2048 (by rw [size]; decide)
    rwa [size] at inside
  exact ⟨served src size,served dst' size'⟩

/-- The second cluster holds zeros, all others something. -/
def blankSecond : Disk := ⟨4096,fun i => if 512 ≤ i ∧ i < 1024 then 0 else 0xAA⟩

/-- The clone of a source with a blank free cluster, and its verification. -/
theorem verification_sample : ∃ dst',
    DiskCloner.clonePhase fullEnv blankSecond 512 512 .smart 5 0 0 2048 0 (4 * 1024 * 1024) (filled 4096 0x11) =
      some (.ok (),dst') ∧
    DiskCloner.verifyClone verifyEnv blankSecond 512 512 2049 0 2048 0 (4 * 1024 * 1024) dst' = some (.ok ()) := by
  have ends : endsWith (DiskCloner.clonePhase fullEnv blankSecond 512 512 .smart 5 0 0 2048 0 (4 * 1024 * 1024)
    (filled 4096 0x11)) (fun dst' => dst'.totalBytes == 4096) = true := by decide +kernel
  obtain ⟨dst',done,size⟩ := exists_of_endsWith ends
  have range : DiskCloner.cloneRange { sourceLengthBytes := 2048 } blankSecond.totalBytes (filled 4096 0x11).totalBytes
    512 512 = .ok 2048 := rfl
  obtain ⟨served,served'⟩ := @cloned_served blankSecond dst' rfl (eq_of_beq size)
  refine ⟨dst',done,(DiskCloner.verifyClone_passes_iff power_512 power_512 { sourceLengthBytes := 2048 } .smart range
    (readsWhole_within blankSecond 512 0 _) fullEnv_sized done served served' (by decide)).mpr ⟨?_,fun _ => ⟨?_,?_⟩⟩⟩
  · exact fun _ _ _ _ => ⟨rfl,rfl⟩
  · intro i _ free
    have second : i / 512 = 1 := by
      rw [fullEnv_volume] at free
      have among : ∀ cluster < 4, DiskCloner.NtfsVolume.isAllocated ⟨512,4,[13]⟩ cluster = false → cluster = 1 := by
        decide
      rw [DiskCloner.markedFree,Option.any_some,Bool.and_eq_true,decide_eq_true_eq,Bool.not_eq_true'] at free
      exact among _ free.1 free.2
    have place : 512 ≤ 0 + i ∧ 0 + i < 1024 := by omega
    exact if_pos place
  · intro v found i behind below
    rw [fullEnv_volume] at found
    cases found
    exact absurd below (Nat.not_lt_of_le behind)

/-- The free cluster of the source holds what was deleted, that of the target zeros, and
the verification that follows the smart clone fails. -/
theorem verification_fails : ∃ dst',
    DiskCloner.cloneRange { sourceLengthBytes := 2048 } 4096 4096 512 512 = .ok 2048 ∧
      ReadsWhole fullEnv.source (filled 4096 0xAA) 512 0 2048 ∧
      DiskCloner.clonePhase fullEnv (filled 4096 0xAA) 512 512 .smart 5 0 0 2048 0 (4 * 1024 * 1024)
        (filled 4096 0x11) = some (.ok (),dst') ∧
      Served verifyEnv.source (filled 4096 0xAA) 512 0 2048 ∧ Served verifyEnv.target dst' 512 0 2048 ∧
      DiskCloner.verifyClone verifyEnv (filled 4096 0xAA) 512 512 2049 0 2048 0 (4 * 1024 * 1024) dst' ≠
        some (.ok ()) := by
  have ends : endsWith (DiskCloner.clonePhase fullEnv (filled 4096 0xAA) 512 512 .smart 5 0 0 2048 0 (4 * 1024 * 1024)
    (filled 4096 0x11)) (fun dst' => dst'.totalBytes == 4096 && dst'.byte 512 == 0) = true := by decide +kernel
  obtain ⟨dst',done,found⟩ := exists_of_endsWith ends
  rw [Bool.and_eq_true,beq_iff_eq,beq_iff_eq] at found
  obtain ⟨served,served'⟩ := @cloned_served (filled 4096 0xAA) dst' rfl found.1
  refine ⟨dst',rfl,readsWhole_within (filled 4096 0xAA) 512 0 2048,done,served,served',fun passes => ?_⟩
  have compared := (@DiskCloner.verifyClone_iff verifyEnv (filled 4096 0xAA) dst' 512 512 0 0 2048 (4 * 1024 * 1024) 2049
    power_512 power_512 (by decide) (Nat.dvd_zero _) (Nat.dvd_zero _) served served' (by decide)).mp passes
  have same : dst'.byte (0 + 512) = 0xAA := compared.2 512 (by decide) (by decide)
  rw [found.2] at same
  cases same

end Sample

end SetecWizard.Core
