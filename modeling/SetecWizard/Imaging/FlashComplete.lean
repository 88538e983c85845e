import SetecWizard.Imaging.Flashing

/-! When an image that was flashed without an error is complete, for both ways to flash and
for the verification: exactly when the reads that the file answered begin on sector
boundaries and reach its end. An MBR is put in its place only by a first read of 512 bytes.
-/
namespace SetecWizard.Core.IsoFlasher
open SetecWizard.Library

/-- The destination holds the file. -/
def Holds (file : Nat → UInt8) (fileSize : UInt64) (dst : Disk) : Prop :=
  ∀ i < fileSize.toNat, dst.byte i = file i

/-- The destination holds the file with the generated table in it. -/
structure HoldsPatched (diskBytes : UInt64) (file : Nat → UInt8) (fileSize : UInt64) (dst : Disk) : Prop where
  table : ∀ i, 446 ≤ i → i < 512 → some (dst.byte i) = (mbrTable diskBytes)[i - 446]?
  rest : ∀ i < fileSize.toNat, ¬ (446 ≤ i ∧ i < 512) → dst.byte i = file i

section

variable (env : FlashEnv) (fileSize : UInt64) (dstSectorSize bufferSize : UInt32)

def flashReads : List Nat :=
  deliveries env.readFile (alignedBufSize dstSectorSize bufferSize).toNat fileSize.toNat 0

def verifyReads : List Nat :=
  deliveries env.verifyFile (alignedBufSize dstSectorSize bufferSize).toNat fileSize.toNat 0

/-- Whatever file is flashed to whatever was on the disk, a run that succeeds leaves the file. -/
def RawComplete (verify : Bool) (size : UInt64) : Prop :=
  ∀ file dst dst', dst.totalBytes = size →
    flashRawImage env file fileSize dstSectorSize bufferSize verify dst = (.ok (),dst') → Holds file fileSize dst'

def IsoComplete (size : UInt64) : Prop :=
  ∀ file dst dst', dst.totalBytes = size →
    flashNonHybridIso env file fileSize dstSectorSize bufferSize dst = (.ok (),dst') →
    HoldsPatched size file fileSize dst'

/-- Whatever is compared, a verification that passes has found it equal. -/
def VerifySound (size : UInt64) : Prop :=
  ∀ file dst, dst.totalBytes = size → verifyFlash env file fileSize dstSectorSize bufferSize dst = .ok () →
    Holds file fileSize dst

variable {env fileSize dstSectorSize bufferSize}

theorem flashRawImage_ok {verify : Bool} {file : Nat → UInt8} {dst dst' : Disk}
    (done : flashRawImage env file fileSize dstSectorSize bufferSize verify dst = (.ok (),dst')) :
    copyLoop env file fileSize dstSectorSize
      (fun lastErr => .error (makeWin32Error .imageReadError "Failed to read from input file" lastErr))
      (alignedBufSize dstSectorSize bufferSize) none 0 dst = (.ok (),dst') ∧
    (verify = true → verifyFlash env file fileSize dstSectorSize bufferSize dst' = .ok ()) := by
  unfold flashRawImage at done
  split at done
  next => cases done
  next =>
    split at done
    next => cases done
    next after copied =>
      split at done
      next =>
        obtain ⟨verified,rfl⟩ := Prod.mk.inj done
        exact ⟨copied,fun _ => verified⟩
      next off =>
        cases done
        exact ⟨copied,fun on => absurd on off⟩

theorem flashRawImage_of_copied {file : Nat → UInt8} {dst dst' : Disk}
    (large : alignedBufSize dstSectorSize bufferSize ≠ 0)
    (copied : copyLoop env file fileSize dstSectorSize
      (fun lastErr => .error (makeWin32Error .imageReadError "Failed to read from input file" lastErr))
      (alignedBufSize dstSectorSize bufferSize) none 0 dst = (.ok (),dst')) :
    flashRawImage env file fileSize dstSectorSize bufferSize false dst = (.ok (),dst') := by
  unfold flashRawImage
  rw [if_neg large,copied]
  rfl

theorem flashRawImage_large {verify : Bool} {file : Nat → UInt8} {dst dst' : Disk}
    (done : flashRawImage env file fileSize dstSectorSize bufferSize verify dst = (.ok (),dst')) :
    alignedBufSize dstSectorSize bufferSize ≠ 0 := by
  intro none_
  rw [flashRawImage,if_pos none_] at done
  cases done

theorem holds_of_copied (positive : 0 < dstSectorSize.toNat) {failed : UInt32 → Result Unit} {bufSize : UInt32}
    {file : Nat → UInt8} {dst dst' : Disk}
    (copied : copyLoop env file fileSize dstSectorSize failed bufSize none 0 dst = (.ok (),dst'))
    (delivers : Delivers dstSectorSize.toNat fileSize.toNat 0
      (deliveries env.readFile bufSize.toNat fileSize.toNat 0)) : Holds file fileSize dst' := by
  have laid := copyLoop_ok positive file overlays_none 0 dst copied
  have sizes := length_pieces overlays_none file 0 (deliveries env.readFile bufSize.toNat fileSize.toNat 0)
  have total := le_of_delivers _ delivers
  rw [← sizes] at delivers
  intro i inside
  have content := (@lay_delivers UInt8 _ _ _ 0 _ delivers dst.byte).2 i (Nat.zero_le i) inside
  rw [← laid,Nat.sub_zero,pieces_none 0 _ i (by omega),Nat.zero_add] at content
  exact (Option.some.inj content).symm

/-- Without verification the reads decide alone. -/
theorem rawComplete_iff (positive : 0 < dstSectorSize.toNat) {file₀ : Nat → UInt8} {dst₀ dst₀' : Disk}
    (done : flashRawImage env file₀ fileSize dstSectorSize bufferSize false dst₀ = (.ok (),dst₀')) :
    RawComplete env fileSize dstSectorSize bufferSize false dst₀.totalBytes ↔
      Delivers dstSectorSize.toNat fileSize.toNat 0 (flashReads env fileSize dstSectorSize bufferSize) := by
  have large := flashRawImage_large done
  constructor
  · intro complete
    apply delivers_of_lands _ deliveries_positive (deliveries_sum (Nat.zero_le _))
    intro j _ inside
    refine lands_of_copies positive overlays_none rfl (flashRawImage_ok done).1 ?_
    intro file after copied
    exact complete file dst₀ after rfl (flashRawImage_of_copied large copied) j inside
  · intro delivers file dst dst' _ ran
    exact holds_of_copied positive (flashRawImage_ok ran).1 delivers

theorem verifyFlash_ok {file : Nat → UInt8} {dst : Disk}
    (passes : verifyFlash env file fileSize dstSectorSize bufferSize dst = .ok ()) :
    alignedBufSize dstSectorSize bufferSize ≠ 0 ∧ verifyLoop env file fileSize dstSectorSize
      (alignedBufSize dstSectorSize bufferSize) dst 0 = .ok () := by
  unfold verifyFlash at passes
  split at passes
  next => cases passes
  next large => exact ⟨large,passes⟩

theorem holds_of_verified {file : Nat → UInt8} {dst : Disk}
    (passes : verifyFlash env file fileSize dstSectorSize bufferSize dst = .ok ())
    (delivers : Delivers dstSectorSize.toNat fileSize.toNat 0 (verifyReads env fileSize dstSectorSize bufferSize)) :
    Holds file fileSize dst := by
  have compared := verifyLoop_ok file dst 0 (verifyFlash_ok passes).2
  intro i inside
  exact compared_delivered _ delivers compared i (Nat.zero_le i) inside

theorem verifySound_iff {file₀ : Nat → UInt8} {dst₀ : Disk}
    (passes : verifyFlash env file₀ fileSize dstSectorSize bufferSize dst₀ = .ok ()) :
    VerifySound env fileSize dstSectorSize bufferSize dst₀.totalBytes ↔
      Delivers dstSectorSize.toNat fileSize.toNat 0 (verifyReads env fileSize dstSectorSize bufferSize) := by
  obtain ⟨large,passed⟩ := verifyFlash_ok passes
  constructor
  · intro sound
    by_contra not
    obtain ⟨i,_,inside,missed⟩ := exists_missed _ deliveries_positive (deliveries_sum (Nat.zero_le _)) not
    have compared := compared_missed (0 : UInt8) 1 _ missed
    have size : dst₀.totalBytes = (Disk.mk dst₀.totalBytes (dottedFile i)).totalBytes := rfl
    have again := verifyLoop_other file₀ (fun _ => 0) size 0 passed compared
    have held := sound (fun _ => 0) ⟨dst₀.totalBytes,dottedFile i⟩ rfl
      (by rw [verifyFlash,if_neg large]; exact again) i inside
    simp only [dottedFile,if_true] at held
    exact absurd held (by decide)
  · intro delivers file dst _ ran
    exact holds_of_verified ran delivers

theorem rawComplete_verified (positive : 0 < dstSectorSize.toNat) (size : UInt64)
    (delivers : Delivers dstSectorSize.toNat fileSize.toNat 0 (flashReads env fileSize dstSectorSize bufferSize) ∨
      Delivers dstSectorSize.toNat fileSize.toNat 0 (verifyReads env fileSize dstSectorSize bufferSize)) :
    RawComplete env fileSize dstSectorSize bufferSize true size := by
  intro file dst dst' _ done
  obtain ⟨copied,verified⟩ := flashRawImage_ok done
  rcases delivers with flash | verification
  · exact holds_of_copied positive copied flash
  · exact holds_of_verified (verified rfl) verification

def withMbr (dstSectorSize : UInt32) (dst : Disk) : Disk :=
  dst.patched 0 ((mbr dst.totalBytes ++ List.replicate (max 512 dstSectorSize.toNat - 512) 0).take
    dstSectorSize.toNat)

theorem flashNonHybridIso_ok {file : Nat → UInt8} {dst dst' : Disk}
    (done : flashNonHybridIso env file fileSize dstSectorSize bufferSize dst = (.ok (),dst')) :
    copyLoop env file fileSize dstSectorSize (fun _ => .ok ()) (alignedBufSize dstSectorSize bufferSize)
      (some (mbrTable dst.totalBytes)) 0 (withMbr dstSectorSize dst) = (.ok (),dst') ∧
    ∀ (other : Nat → UInt8) (before after : Disk), before.totalBytes = dst.totalBytes →
      copyLoop env other fileSize dstSectorSize (fun _ => .ok ()) (alignedBufSize dstSectorSize bufferSize)
        (some (mbrTable before.totalBytes)) 0 (withMbr dstSectorSize before) = (.ok (),after) →
      flashNonHybridIso env other fileSize dstSectorSize bufferSize before = (.ok (),after) := by
  have start : ((0 : UInt64) * dstSectorSize.toUInt64).toNat = 0 := by
    rw [UInt64.zero_mul]
    rfl
  have one : ((1 : UInt64) * dstSectorSize.toUInt64).toNat = dstSectorSize.toNat := by
    rw [UInt64.one_mul,UInt32.toNat_toUInt64]
  unfold flashNonHybridIso RawDiskHandle.getGeometry at done ⊢
  cases geometry : checked env.target.diskGeometry .diskReadError "IOCTL_DISK_GET_DRIVE_GEOMETRY_EX failed" with
  | error e =>
    rw [geometry] at done
    cases done
  | ok _ =>
    rw [geometry] at done
    simp only [Except.map] at done ⊢
    split at done
    next => cases done
    next between written =>
      obtain ⟨patched,_⟩ := writeSectors_whole start one written
      split at done
      next => cases done
      next large =>
        refine ⟨?_,?_⟩
        · rw [patched] at done
          exact done
        · intro other before after size copied
          have same := writeSectors_fst env.target .readWrite 0 1 dstSectorSize size.symm
            (mbr dst.totalBytes ++ List.replicate (max 512 dstSectorSize.toNat - 512) 0)
            (mbr before.totalBytes ++ List.replicate (max 512 dstSectorSize.toNat - 512) 0)
          rw [written] at same
          split
          next e after' written' =>
            rw [written'] at same
            cases same
          next between' written' =>
            obtain ⟨patched',_⟩ := writeSectors_whole start one written'
            rw [if_neg large,patched']
            exact copied

theorem withMbr_byte (dst : Disk) (i : Nat) : (withMbr dstSectorSize dst).byte i
    = if i < dstSectorSize.toNat then ((mbr dst.totalBytes
        ++ List.replicate (max 512 dstSectorSize.toNat - 512) 0)[i]?).getD (dst.byte i) else dst.byte i := by
  simp only [withMbr,Disk.patched_byte,patch,Nat.zero_le,if_true,Nat.sub_zero,List.getElem?_take]
  split
  next => rfl
  next => rfl

theorem getElem?_mbr (diskBytes : UInt64) (more : List UInt8) {i : Nat} (above : 446 ≤ i) (below : i < 512) :
    (mbr diskBytes ++ more)[i]? = (mbrTable diskBytes)[i - 446]? := by
  have table : (mbrTable diskBytes).length = 66 := rfl
  have zeros : (List.replicate 446 (0 : UInt8)).length = 446 := List.length_replicate
  have whole : (mbr diskBytes).length = 512 := by rw [mbr,List.length_append,zeros,table]
  rw [List.getElem?_append_left (by rw [whole]; exact below),mbr,
    List.getElem?_append_right (by rw [zeros]; exact above),zeros]

theorem zeros_overlaid {mbr : Option (List UInt8)} (overlays : Overlays mbr) {m pos size t : Nat}
    (set : ((padPiece m 0 (overlay mbr (window (fun _ => (0 : UInt8)) pos size)).1)[t]?).getD 0 ≠ 0) :
    446 ≤ t ∧ 512 ≤ size := by
  have length : (overlay mbr (window (fun _ => (0 : UInt8)) pos size)).1.length = size := by
    rw [length_overlay overlays,length_window]
  have zero : ((window (fun _ => (0 : UInt8)) pos size)[t]?).getD 0 = 0 := by
    rw [getElem?_window]
    split <;> rfl
  by_cases inside : t < size
  · rw [getElem?_padPiece (by omega)] at set
    cases mbr with
    | none => exact absurd zero set
    | some table =>
      rw [getElem?_overlay overlays,length_window] at set
      split at set
      next both => exact ⟨both.2.1,both.1⟩
      next => exact absurd zero set
  · refine absurd ?_ set
    rw [padPiece,List.getElem?_append_right (by omega),List.getElem?_replicate]
    split <;> rfl

/-- If only a later piece puts a byte where the table begins, then that piece, which is long,
does not lie at its own place. -/
theorem table_shifted {mbr : Option (List UInt8)} (overlays : Overlays mbr) {m pos : Nat} (later : 0 < pos)
    (sizes : List Nat) (store : Nat → UInt8) (clear : store 446 = 0)
    (set : lay m 0 pos (pieces (fun _ => 0) mbr pos sizes) store 446 ≠ 0) :
    ∃ j, pos ≤ j ∧ 512 ≤ j ∧ j < pos + sizes.sum ∧ ¬ Lands m j pos sizes := by
  induction sizes generalizing mbr pos store with
  | nil => exact absurd clear set
  | cons size rest ih =>
    have length : (overlay mbr (window (fun _ => (0 : UInt8)) pos size)).1.length = size := by
      rw [length_overlay overlays,length_window]
    simp only [pieces,lay,length] at set
    rw [List.sum_cons]
    by_cases still : patch store (pos / m * m)
        (padPiece m 0 (overlay mbr (window (fun _ => (0 : UInt8)) pos size)).1) 446 = 0
    · obtain ⟨j,above,large,below,apart⟩ := ih (overlay_later overlays _) (by omega) _ still set
      refine ⟨j,by omega,large,by omega,?_⟩
      rintro (here | there)
      · omega
      · exact apart there
    · have floor := Nat.div_mul_le_self pos m
      rw [patch] at still
      split at still
      next reached =>
        rw [clear] at still
        obtain ⟨high,long⟩ := zeros_overlaid overlays still
        have first : pos / m * m = 0 := by omega
        refine ⟨pos + size - 1,by omega,by omega,by omega,?_⟩
        rintro (⟨_,_,starts⟩ | there)
        · rw [floor_of_dvd starts] at first
          omega
        · have behind := le_of_lands there
          omega
      next => exact absurd clear still

theorem first_clear (positive : 0 < dstSectorSize.toNat) {store : Nat → UInt8}
    (behind : ∀ i, dstSectorSize.toNat ≤ i → store i = 0) {first : Nat} (some_ : 0 < first)
    (short : ¬ 512 ≤ first) :
    patch store 0 (padPiece dstSectorSize.toNat 0 (window (fun _ => 0) 0 first)) 446 = 0 := by
  have above := le_roundUp (n := first) positive
  have least : dstSectorSize.toNat ≤ roundUp first dstSectorSize.toNat :=
    Nat.le_of_dvd (by omega) (dvd_roundUp first dstSectorSize.toNat)
  have length := length_padPiece positive (window (fun _ => (0 : UInt8)) 0 first)
  rw [length_window] at length
  by_cases covered : 446 < roundUp first dstSectorSize.toNat
  · have bound : 446 < (padPiece dstSectorSize.toNat 0 (window (fun _ => (0 : UInt8)) 0 first)).length := by omega
    by_contra other
    rw [patch,if_pos (Nat.zero_le _),Nat.sub_zero,List.getElem?_eq_getElem bound,Option.getD_some] at other
    have set : ((padPiece dstSectorSize.toNat 0
        (overlay none (window (fun _ => (0 : UInt8)) 0 first)).1)[446]?).getD 0 ≠ 0 := by
      simp only [overlay]
      rwa [List.getElem?_eq_getElem bound,Option.getD_some]
    exact short (zeros_overlaid overlays_none set).2
  · rw [patch_apart _ _ _ _ (.inr (by omega))]
    exact behind 446 (by omega)

/-- The reads for which the table and the image both arrive. -/
def IsoReads (dstSectorSize : UInt32) (fileSize : UInt64) (sizes : List Nat) : Prop :=
  fileSize = 0 ∧ 512 ≤ dstSectorSize.toNat ∨
    Delivers dstSectorSize.toNat fileSize.toNat 0 sizes ∧ 512 ≤ sizes.headD 0

theorem holdsPatched_of_reads {file : Nat → UInt8} {dst dst' : Disk}
    (positive : 0 < dstSectorSize.toNat)
    (reads : IsoReads dstSectorSize fileSize (flashReads env fileSize dstSectorSize bufferSize))
    (copied : copyLoop env file fileSize dstSectorSize (fun _ => .ok ())
      (alignedBufSize dstSectorSize bufferSize) (some (mbrTable dst.totalBytes)) 0 (withMbr dstSectorSize dst)
      = (.ok (),dst')) : HoldsPatched dst.totalBytes file fileSize dst' := by
  have overlays := overlays_mbr dst.totalBytes
  have laid := copyLoop_ok positive file overlays 0 _ copied
  change dst'.byte = lay _ 0 0 (pieces file _ 0 (flashReads env fileSize dstSectorSize bufferSize)) _ at laid
  have most : 0 + (flashReads env fileSize dstSectorSize bufferSize).sum ≤ fileSize.toNat :=
    deliveries_sum (Nat.zero_le _)
  rcases reads with ⟨empty,wide⟩ | ⟨delivers,long⟩
  · have none_ : flashReads env fileSize dstSectorSize bufferSize = [] :=
      deliveries_past (by rw [empty]; exact Nat.zero_le _)
    rw [none_] at laid
    change dst'.byte = (withMbr dstSectorSize dst).byte at laid
    refine ⟨fun i above below => ?_,fun i inside => ?_⟩
    · have size : i - 446 < (mbrTable dst.totalBytes).length := by
        change i - 446 < 66
        omega
      rw [laid,withMbr_byte,if_pos (by omega),getElem?_mbr _ _ above below,List.getElem?_eq_getElem size,
        Option.getD_some]
    · rw [empty] at inside
      exact absurd inside (Nat.not_lt_zero i)
  · match sizes : flashReads env fileSize dstSectorSize bufferSize,long with
    | size :: rest,long =>
      rw [sizes] at laid most delivers
      have long : 512 ≤ size := long
      have lengths := length_pieces overlays file 0 (size :: rest)
      have total := le_of_delivers _ delivers
      have least : size ≤ (size :: rest).sum := by
        rw [List.sum_cons]
        exact Nat.le_add_right _ _
      rw [← lengths] at delivers
      have content (i : Nat) (inside : i < fileSize.toNat) :
          (if 446 ≤ i ∧ i < 512 then (mbrTable dst.totalBytes)[i - 446]? else some (file i))
            = some (dst'.byte i) := by
        have cell := (@lay_delivers UInt8 _ _ _ 0 _ delivers (withMbr dstSectorSize dst).byte).2 i
          (Nat.zero_le i) inside
        rwa [← laid,Nat.sub_zero,pieces_table overlays long rest i (by omega)] at cell
      refine ⟨fun i above below => ?_,fun i inside outside => ?_⟩
      · have cell := content i (by omega)
        rw [if_pos ⟨above,below⟩] at cell
        exact cell.symm
      · have cell := content i inside
        rw [if_neg outside] at cell
        exact (Option.some.inj cell).symm

theorem isoReads_of_complete (power : PowerOfTwo dstSectorSize) {file₀ : Nat → UInt8} {dst₀ dst₀' : Disk}
    (done : flashNonHybridIso env file₀ fileSize dstSectorSize bufferSize dst₀ = (.ok (),dst₀'))
    (complete : IsoComplete env fileSize dstSectorSize bufferSize dst₀.totalBytes) :
    IsoReads dstSectorSize fileSize (flashReads env fileSize dstSectorSize bufferSize) := by
  have positive := power.positive
  have overlays := overlays_mbr dst₀.totalBytes
  obtain ⟨copied,runs⟩ := flashNonHybridIso_ok done
  obtain ⟨zero,blank⟩ : ∃ zero : Disk, zero = ⟨dst₀.totalBytes,fun _ => 0⟩ := ⟨_,rfl⟩
  have size : zero.totalBytes = dst₀.totalBytes := by rw [blank]
  have sizes : (withMbr dstSectorSize dst₀).totalBytes = (withMbr dstSectorSize zero).totalBytes := size.symm
  have holds (f : Nat → UInt8) (after : Disk) (ran : copyLoop env f fileSize dstSectorSize (fun _ => .ok ())
      (alignedBufSize dstSectorSize bufferSize) (some (mbrTable dst₀.totalBytes)) 0 (withMbr dstSectorSize zero)
      = (.ok (),after)) : HoldsPatched dst₀.totalBytes f fileSize after :=
    complete f zero after size (runs f zero after size (by rw [size]; exact ran))
  have lands (j : Nat) (inside : j < fileSize.toNat) (outside : ¬ (446 ≤ j ∧ j < 512)) :
      Lands dstSectorSize.toNat j 0 (flashReads env fileSize dstSectorSize bufferSize) :=
    lands_of_copies positive overlays sizes copied (fun f after ran => (holds f after ran).rest j inside outside)
  have most : 0 + (flashReads env fileSize dstSectorSize bufferSize).sum ≤ fileSize.toNat :=
    deliveries_sum (Nat.zero_le _)
  have nonempty : ∀ n ∈ flashReads env fileSize dstSectorSize bufferSize, 0 < n := deliveries_positive
  -- A file of zeros, on a disk of zeros, leaves the first byte of the table.
  obtain ⟨after,zeroed⟩ := copyLoop_runs (fun _ => 0) overlays (withMbr dstSectorSize zero) sizes copied
  have laid := copyLoop_ok positive (fun _ => 0) overlays 0 (withMbr dstSectorSize zero) zeroed
  have active := (holds (fun _ => 0) after zeroed).table 446 (Nat.le_refl _) (by decide)
  rw [laid] at active
  have set : lay dstSectorSize.toNat 0 0 (pieces (fun _ => 0) (some (mbrTable dst₀.totalBytes)) 0
      (flashReads env fileSize dstSectorSize bufferSize)) (withMbr dstSectorSize zero).byte 446 = 0x80 :=
    Option.some.inj active
  have behind (i : Nat) (above : dstSectorSize.toNat ≤ i) : (withMbr dstSectorSize zero).byte i = 0 := by
    rw [withMbr_byte,if_neg (by omega),blank]
  match reads : flashReads env fileSize dstSectorSize bufferSize with
  | [] =>
    left
    have empty : fileSize.toNat = 0 := by
      by_contra some_
      have land := lands 0 (Nat.pos_of_ne_zero some_) (by omega)
      rw [reads] at land
      exact land
    refine ⟨UInt64.toNat_inj.mp empty,?_⟩
    by_contra narrow
    obtain ⟨k,width⟩ := power
    have few : k < 9 := by
      by_contra many
      have wide := Nat.pow_le_pow_right (by decide : 0 < 2) (by omega : 9 ≤ k)
      omega
    have small := Nat.pow_le_pow_right (by decide : 0 < 2) (by omega : k ≤ 8)
    rw [reads] at set
    have zero_ := behind 446 (by omega)
    change (withMbr dstSectorSize zero).byte 446 = 0x80 at set
    rw [zero_] at set
    exact absurd set (by decide)
  | first :: rest =>
    right
    rw [reads] at lands most nonempty set
    have some_ := nonempty first List.mem_cons_self
    rw [List.sum_cons] at most
    have long : 512 ≤ first := by
      by_contra short
      have plain : overlay (some (mbrTable dst₀.totalBytes)) (window (fun _ => (0 : UInt8)) 0 first)
          = (window (fun _ => 0) 0 first,some (mbrTable dst₀.totalBytes)) := by
        simp only [overlay,length_window,if_neg short]
      simp only [pieces,plain,lay,length_window,Nat.zero_div,Nat.zero_mul] at set
      have clear := first_clear positive behind some_ short
      have shown : lay dstSectorSize.toNat 0 (0 + first)
          (pieces (fun _ => 0) (some (mbrTable dst₀.totalBytes)) (0 + first) rest)
          (patch (withMbr dstSectorSize zero).byte 0
            (padPiece dstSectorSize.toNat 0 (window (fun _ => 0) 0 first))) 446 ≠ 0 := by
        rw [set]
        decide
      obtain ⟨j,past,large,inside,apart⟩ := table_shifted overlays (by omega) rest _ clear shown
      rcases lands j (by omega) (by omega) with here | there
      · omega
      · exact apart there
    refine ⟨⟨Nat.dvd_zero _,?_⟩,long⟩
    apply delivers_of_lands rest (fun n member => nonempty n (List.mem_cons_of_mem _ member)) (by omega)
    intro j above inside
    rcases lands j inside (by omega) with here | there
    · omega
    · exact there

theorem isoComplete_iff (power : PowerOfTwo dstSectorSize) {file₀ : Nat → UInt8} {dst₀ dst₀' : Disk}
    (done : flashNonHybridIso env file₀ fileSize dstSectorSize bufferSize dst₀ = (.ok (),dst₀')) :
    IsoComplete env fileSize dstSectorSize bufferSize dst₀.totalBytes ↔
      IsoReads dstSectorSize fileSize (flashReads env fileSize dstSectorSize bufferSize) := by
  constructor
  · exact isoReads_of_complete power done
  · intro reads file dst dst' size ran
    rw [← size]
    exact holdsPatched_of_reads power.positive reads (flashNonHybridIso_ok ran).1

end

/-- Where flashing and verification return without an error at all, success means what it
says exactly for these reads; a flash that is verified needs one pass of the two only. -/
theorem flash_complete_iff (env : FlashEnv) (fileSize : UInt64) (dstSectorSize bufferSize : UInt32)
    (power : PowerOfTwo dstSectorSize) (file₀ : Nat → UInt8) (dst₀ : Disk) :
    (∀ dst₀', flashRawImage env file₀ fileSize dstSectorSize bufferSize false dst₀ = (.ok (),dst₀') →
      (RawComplete env fileSize dstSectorSize bufferSize false dst₀.totalBytes ↔
        Delivers dstSectorSize.toNat fileSize.toNat 0 (flashReads env fileSize dstSectorSize bufferSize))) ∧
    (Delivers dstSectorSize.toNat fileSize.toNat 0 (flashReads env fileSize dstSectorSize bufferSize) ∨
        Delivers dstSectorSize.toNat fileSize.toNat 0 (verifyReads env fileSize dstSectorSize bufferSize) →
      RawComplete env fileSize dstSectorSize bufferSize true dst₀.totalBytes) ∧
    (∀ dst₀', flashNonHybridIso env file₀ fileSize dstSectorSize bufferSize dst₀ = (.ok (),dst₀') →
      (IsoComplete env fileSize dstSectorSize bufferSize dst₀.totalBytes ↔
        IsoReads dstSectorSize fileSize (flashReads env fileSize dstSectorSize bufferSize))) ∧
    (verifyFlash env file₀ fileSize dstSectorSize bufferSize dst₀ = .ok () →
      (VerifySound env fileSize dstSectorSize bufferSize dst₀.totalBytes ↔
        Delivers dstSectorSize.toNat fileSize.toNat 0 (verifyReads env fileSize dstSectorSize bufferSize))) :=
  ⟨fun _ done => rawComplete_iff power.positive done,rawComplete_verified power.positive dst₀.totalBytes,
    fun _ done => isoComplete_iff power done,verifySound_iff⟩

theorem copied_sample (failed : UInt32 → Result Unit) (table : Option (List UInt8)) (dst : Disk)
    (works : (writeChunk {} 512 (overlay table (window (fun _ => 0x55) 0 600)).1 0 dst).1 = .ok ()) :
    ∃ dst', copyLoop {} (fun _ => 0x55) 600 512 failed (alignedBufSize 512 4096) table 0 dst = (.ok (),dst') := by
  generalize written : writeChunk {} 512 (overlay table (window (fun _ => 0x55) 0 600)).1 0 dst = outcome at works
  obtain ⟨result,after⟩ := outcome
  obtain rfl : result = .ok () := works
  refine ⟨after,?_⟩
  have size : (alignedBufSize 512 4096).toNat = 4096 := rfl
  have length : (600 : UInt64).toNat = 600 := rfl
  rw [copyLoop,size,length,if_neg (by decide),if_neg (by decide)]
  simp only [Nat.sub_zero,Nat.reduceLeDiff,inf_of_le_right,OfNat.ofNat_ne_zero,if_false,written,if_true]
  rw [copyLoop,if_pos (by decide)]

theorem flash_sample : ∃ dst', flashRawImage {} (fun _ => 0x55) 600 512 4096 false (filled 4096 0) = (.ok (),dst') := by
  obtain ⟨dst',copied⟩ := copied_sample
    (fun lastErr => .error (makeWin32Error .imageReadError "Failed to read from input file" lastErr)) none
    (filled 4096 0) (by decide +kernel)
  exact ⟨dst',flashRawImage_of_copied (by decide) copied⟩

def tableWritten : Mutation Disk :=
  RawDiskHandle.writeSectors .working (filled 4096 0) .readWrite 0
    (mbr 4096 ++ List.replicate (max 512 (UInt32.toNat 512) - 512) 0) 1 512

theorem iso_sample : ∃ dst', flashNonHybridIso {} (fun _ => 0x55) 600 512 4096 (filled 4096 0) = (.ok (),dst') := by
  have ready : tableWritten.1 = .ok () := by decide
  obtain ⟨dst',copied⟩ := copied_sample (fun _ => .ok ()) (some (mbrTable 4096)) tableWritten.2 (by decide +kernel)
  have geometry : RawDiskHandle.getGeometry (FlashEnv.target {}) (filled 4096 0) = .ok 4096 := rfl
  have wrote : RawDiskHandle.writeSectors (FlashEnv.target {}) (filled 4096 0) .readWrite 0
      (mbr 4096 ++ List.replicate (max 512 (UInt32.toNat 512) - 512) 0) 1 512 = (.ok (),tableWritten.2) :=
    Prod.ext ready rfl
  refine ⟨dst',?_⟩
  unfold flashNonHybridIso
  rw [geometry]
  dsimp only
  rw [wrote]
  dsimp only
  rw [if_neg (by decide)]
  exact copied

theorem verify_sample : verifyFlash {} (fun _ => 0x55) 600 512 4096 (filled 4096 0x55) = .ok () := by
  have same : verifyChunk {} 512 (window (fun _ => 0x55) 0 600) 0 (filled 4096 0x55) = .ok () := by
    decide +kernel
  have size : (alignedBufSize 512 4096).toNat = 4096 := rfl
  have length : (600 : UInt64).toNat = 600 := rfl
  rw [verifyFlash,if_neg (by decide),verifyLoop,size,length,if_neg (by decide),if_neg (by decide)]
  simp only [Nat.sub_zero,Nat.reduceLeDiff,inf_of_le_right,OfNat.ofNat_ne_zero,if_false,same,if_true]
  rw [verifyLoop,if_pos (by decide)]

/-- Every such file arrives, whichever way it is flashed, and is what is verified. -/
theorem flashed_whole : RawComplete {} 600 512 4096 false 4096 ∧ RawComplete {} 600 512 4096 true 4096 ∧
    IsoComplete {} 600 512 4096 4096 ∧ VerifySound {} 600 512 4096 4096 := by
  have power : PowerOfTwo 512 := ⟨9,rfl⟩
  obtain ⟨dst',done⟩ := flash_sample
  obtain ⟨iso,burnt⟩ := iso_sample
  have first : deliveries (fun _ length => .ok length) 4096 600 0 = [600] := by
    rw [deliveries,if_neg (by decide)]
    dsimp only
    rw [if_neg (by decide),deliveries_past (by decide)]
    rfl
  have delivers : Delivers 512 600 0 (deliveries (fun _ length => .ok length) 4096 600 0) := by
    rw [first]
    decide
  have reads : IsoReads 512 600 (deliveries (fun _ length => .ok length) 4096 600 0) := by
    rw [first]
    exact .inr ⟨by decide,by decide⟩
  obtain ⟨raw,verified,image,_⟩ := flash_complete_iff {} 600 512 4096 power (fun _ => 0x55) (filled 4096 0)
  obtain ⟨_,_,_,check⟩ := flash_complete_iff {} 600 512 4096 power (fun _ => 0x55) (filled 4096 0x55)
  exact ⟨(raw dst' done).mpr delivers,verified (.inl delivers),(image iso burnt).mpr reads,
    (check verify_sample).mpr delivers⟩

def endedAtOnce : FlashEnv := { readFile := fun _ _ => .ok 0,verifyFile := fun _ _ => .ok 0 }

/-- Nothing is written and nothing compared, and neither is an error. -/
theorem nothing_flashed :
    flashRawImage endedAtOnce (fun _ => 0x55) 600 512 4096 true (filled 4096 0) = (.ok (),filled 4096 0) ∧
    verifyFlash endedAtOnce (fun _ => 0x55) 600 512 4096 (filled 4096 0) = .ok () ∧
    ¬ Holds (fun _ => 0x55) 600 (filled 4096 0) := by
  have verified : verifyFlash endedAtOnce (fun _ => 0x55) 600 512 4096 (filled 4096 0) = .ok () := by
    rw [verifyFlash,if_neg (by decide),verifyLoop,if_neg (by decide),if_neg (by decide)]
    rfl
  refine ⟨?_,verified,?_⟩
  · rw [flashRawImage,if_neg (by decide),copyLoop,if_neg (by decide),if_neg (by decide)]
    change (verifyFlash endedAtOnce (fun _ => 0x55) 600 512 4096 (filled 4096 0),filled 4096 0) = _
    rw [verified]
  · intro holds
    have first := holds 0 (by decide)
    revert first
    decide

end SetecWizard.Core.IsoFlasher
