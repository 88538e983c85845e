import SetecWizard.Recovery.CarvingScan
import SetecWizard.Recovery.NtfsFile

/-! The copy of a carved file. It reads the disk in windows and looks for the footer in each of
them alone, so it finds the footers that lie within a window; the last window is rounded up to
sectors and may reach behind the size of the file.
-/
namespace SetecWizard.Core.FileRecovery
open SetecWizard.Library

variable {env : RecoveryEnv} {r : FileRecovery} {disk : Disk} {footer data : List UInt8}

theorem footerIn_some {i : Nat} (found : footerIn footer data = some i) :
    i + footer.length ≤ data.length ∧ slice data i footer.length = footer ∧
      ∀ j < i, slice data j footer.length ≠ footer := by
  rw [footerIn] at found
  split at found
  next => cases found
  next =>
    obtain ⟨matched,within,first⟩ := List.find?_range_eq_some.mp found
    have below := List.mem_range.mp within
    refine ⟨by omega,of_decide_eq_true matched,fun j before same => ?_⟩
    have other := first j before
    rw [decide_eq_true same] at other
    cases other

theorem footerIn_none (some_byte : footer ≠ []) (missed : footerIn footer data = none) :
    ∀ i, i + footer.length ≤ data.length → slice data i footer.length ≠ footer := by
  intro i within same
  rw [footerIn,if_neg some_byte] at missed
  have other := List.find?_range_eq_none.mp missed i (by omega)
  rw [decide_eq_true same] at other
  cases other

def windowBytes (sectorSize : Nat) : Nat := roundUp (2 ^ 18) sectorSize

def windowEnd (sectorSize maxSize b : Nat) : Nat := b + roundUp (min (2 ^ 18) (maxSize - b)) sectorSize

section Footers

variable (disk : Disk) (start : Nat) (footer : List UInt8)

def FooterAt (i : Nat) : Prop := window disk.byte (start + i) footer.length = footer

def FirstFooter (i : Nat) : Prop := FooterAt disk start footer i ∧ ∀ j, FooterAt disk start footer j → i ≤ j

def InWindow (sectorSize maxSize length i : Nat) : Prop :=
  i / windowBytes sectorSize * windowBytes sectorSize < maxSize ∧
    i + length ≤ windowEnd sectorSize maxSize (i / windowBytes sectorSize * windowBytes sectorSize)

/-- The copy comes across the footer. -/
def Seen (sectorSize maxSize i : Nat) : Prop :=
  FooterAt disk start footer i ∧ InWindow sectorSize maxSize footer.length i

/-- Where the copy ends: behind the first footer it comes across, or at the size of the file. -/
def Stops (sectorSize maxSize n : Nat) : Prop :=
  (∃ i, Seen disk start footer sectorSize maxSize i ∧
      (∀ j, Seen disk start footer sectorSize maxSize j → i ≤ j) ∧ n = i + footer.length) ∨
    (∀ i, ¬ Seen disk start footer sectorSize maxSize i) ∧ n = maxSize

end Footers

section Windows

variable {sectorSize maxSize : Nat} (positive : 0 < sectorSize)
include positive

theorem windowEnd_le (b : Nat) : windowEnd sectorSize maxSize b ≤ b + windowBytes sectorSize := by
  have above := le_roundUp (n := 2 ^ 18) positive
  have most : roundUp (min (2 ^ 18) (maxSize - b)) sectorSize ≤ windowBytes sectorSize :=
    roundUp_le_of_dvd positive (by rw [windowBytes]; omega) (dvd_roundUp _ _)
  rw [windowEnd]
  omega

theorem inWindow_of {k i length : Nat} (some_byte : 0 < length) (reached : k * windowBytes sectorSize < maxSize)
    (behind : k * windowBytes sectorSize ≤ i)
    (within : i + length ≤ windowEnd sectorSize maxSize (k * windowBytes sectorSize)) :
    InWindow sectorSize maxSize length i := by
  have last := @windowEnd_le sectorSize maxSize positive (k * windowBytes sectorSize)
  have number : i / windowBytes sectorSize = k := by
    apply Nat.div_eq_of_lt_le behind
    rw [Nat.add_mul,Nat.one_mul]
    omega
  rw [InWindow,number]
  exact ⟨reached,within⟩

omit positive in
theorem seen_within {start k i : Nat} (seen : Seen disk start footer sectorSize maxSize i)
    (behind : k * windowBytes sectorSize ≤ i) (before : i < k * windowBytes sectorSize + windowBytes sectorSize) :
    i - k * windowBytes sectorSize + footer.length ≤
        roundUp (min (2 ^ 18) (maxSize - k * windowBytes sectorSize)) sectorSize ∧
      slice (window disk.byte (start + k * windowBytes sectorSize)
          (roundUp (min (2 ^ 18) (maxSize - k * windowBytes sectorSize)) sectorSize))
        (i - k * windowBytes sectorSize) footer.length = footer := by
  obtain ⟨there,_,within⟩ := seen
  have number : i / windowBytes sectorSize = k := by
    apply Nat.div_eq_of_lt_le behind
    rw [Nat.add_mul,Nat.one_mul]
    exact before
  rw [number,windowEnd] at within
  have room : i - k * windowBytes sectorSize + footer.length ≤
      roundUp (min (2 ^ 18) (maxSize - k * windowBytes sectorSize)) sectorSize := by omega
  have place : start + k * windowBytes sectorSize + (i - k * windowBytes sectorSize) = start + i := by omega
  refine ⟨room,?_⟩
  rw [slice_window _ _ _ _ _ room,place]
  exact there

end Windows

section Copied

variable (full : env.device.ReadsInFull) (positive : 0 < r.sectorSize.toNat)
  (narrow : r.sectorSize.toNat + 2 ^ 18 ≤ 2 ^ 32) (signed : disk.totalBytes.toNat < 2 ^ 63) {carvedLba : UInt64}
include full positive narrow signed

theorem window_read {bytesWritten : UInt64} {toRead : UInt32} (small : toRead.toNat ≤ 2 ^ 18)
    (aligned : r.sectorSize.toNat ∣ bytesWritten.toNat)
    (inside : carvedLba.toNat * r.sectorSize.toNat + bytesWritten.toNat + roundUp toRead.toNat r.sectorSize.toNat ≤
      disk.totalBytes.toNat) :
    RawDiskHandle.readSectors env.device disk (carvedLba + bytesWritten / r.sectorSize.toUInt64)
        ((toRead + r.sectorSize - 1) / r.sectorSize).toUInt64 r.sectorSize =
      .ok (window disk.byte (carvedLba.toNat * r.sectorSize.toNat + bytesWritten.toNat)
        (roundUp toRead.toNat r.sectorSize.toNat)) := by
  obtain ⟨k,whole⟩ := aligned
  have product : carvedLba.toNat * r.sectorSize.toNat + k * r.sectorSize.toNat < 2 ^ 63 := by
    rw [Nat.mul_comm k]
    omega
  rw [← Nat.add_mul] at product
  have count : carvedLba.toNat + k ≤ (carvedLba.toNat + k) * r.sectorSize.toNat := Nat.le_mul_of_pos_right _ positive
  have lba : (carvedLba + bytesWritten / r.sectorSize.toUInt64).toNat = carvedLba.toNat + k := by
    rw [UInt64.toNat_add,UInt64.toNat_div,UInt32.toNat_toUInt64,whole,Nat.mul_div_cancel_left _ positive]
    exact Nat.mod_eq_of_lt (by omega)
  have start : ((carvedLba + bytesWritten / r.sectorSize.toUInt64) * r.sectorSize.toUInt64).toNat =
      carvedLba.toNat * r.sectorSize.toNat + bytesWritten.toNat := by
    rw [UInt64.toNat_mul,lba,UInt32.toNat_toUInt64,Nat.mod_eq_of_lt (by omega),Nat.add_mul,whole,Nat.mul_comm k]
  rw [PartitionRecovery.readSectors_full full,readSectors_counted disk _ _ (sectors_below toRead r.sectorSize),start,
    PartitionRecovery.rounded positive,if_pos (by omega),Disk.reach]
  congr 2
  omega

variable (some_byte : footer ≠ []) {maxSize : UInt64}
  (inside : carvedLba.toNat * r.sectorSize.toNat + roundUp maxSize.toNat r.sectorSize.toNat ≤ disk.totalBytes.toNat)
include some_byte inside

theorem copyCarved_stops {fuel : Nat} :
    ∀ {k : Nat} {bytesWritten : UInt64}, bytesWritten.toNat = k * windowBytes r.sectorSize.toNat →
      bytesWritten.toNat < maxSize.toNat → maxSize.toNat ≤ bytesWritten.toNat + fuel * 2 ^ 18 →
      (∀ i, Seen disk (carvedLba.toNat * r.sectorSize.toNat) footer r.sectorSize.toNat maxSize.toNat i →
        bytesWritten.toNat ≤ i) →
      ∃ n, copyCarved env r disk carvedLba maxSize footer (fuel + 1) bytesWritten
            (window disk.byte (carvedLba.toNat * r.sectorSize.toNat) bytesWritten.toNat) =
          some (window disk.byte (carvedLba.toNat * r.sectorSize.toNat) n) ∧
        Stops disk (carvedLba.toNat * r.sectorSize.toNat) footer r.sectorSize.toNat maxSize.toNat n := by
  have width := maxSize.toNat_lt
  have limit : UInt64.size = 2 ^ 64 := rfl
  have unit : carveReadChunk.toUInt64.toNat = 2 ^ 18 := rfl
  obtain ⟨start,named⟩ : ∃ start, start = carvedLba.toNat * r.sectorSize.toNat := ⟨_,rfl⟩
  rw [← named] at inside ⊢
  induction fuel with
  | zero => intro k bytesWritten _ below enough _; omega
  | succ fuel ih =>
    intro k bytesWritten multiple below enough before
    have more : bytesWritten < maxSize := UInt64.lt_iff_toNat_lt.mpr below
    have left : (maxSize - bytesWritten).toNat = maxSize.toNat - bytesWritten.toNat :=
      UInt64.toNat_sub_of_le _ _ (UInt64.le_iff_toNat_le.mpr (Nat.le_of_lt below))
    have toRead : (min carveReadChunk.toUInt64 (maxSize - bytesWritten)).toUInt32.toNat =
        min (2 ^ 18) (maxSize.toNat - bytesWritten.toNat) := by
      rw [UInt64.toNat_toUInt32,UInt64.toNat_min,unit,left]
      exact Nat.mod_eq_of_lt (by omega)
    have aligned : r.sectorSize.toNat ∣ bytesWritten.toNat := by
      rw [multiple,windowBytes]
      exact Dvd.dvd.mul_left (dvd_roundUp _ _) k
    -- the window, which ends at most at the rounded size of the file
    obtain ⟨w,length⟩ : ∃ w, w = roundUp (min (2 ^ 18) (maxSize.toNat - bytesWritten.toNat)) r.sectorSize.toNat := ⟨_,rfl⟩
    have ends : windowEnd r.sectorSize.toNat maxSize.toNat bytesWritten.toNat = bytesWritten.toNat + w := by
      rw [windowEnd,← length]
    have most := @windowEnd_le r.sectorSize.toNat maxSize.toNat positive bytesWritten.toNat
    have least : min (2 ^ 18) (maxSize.toNat - bytesWritten.toNat) ≤ w := length ▸ le_roundUp positive
    have full_window : 2 ^ 18 ≤ windowBytes r.sectorSize.toNat := le_roundUp positive
    have reach : bytesWritten.toNat + w ≤ roundUp maxSize.toNat r.sectorSize.toNat := by
      rw [length,← roundUp_add positive aligned]
      refine roundUp_le_of_dvd positive (Nat.le_trans ?_ (le_roundUp positive)) (dvd_roundUp _ _)
      omega
    have read := @window_read env r disk full positive narrow signed carvedLba bytesWritten
      (min carveReadChunk.toUInt64 (maxSize - bytesWritten)).toUInt32 (by rw [toRead]; omega) aligned
      (by rw [toRead,← length,← named]; omega)
    rw [toRead,← length,← named] at read
    have here : ∀ i, Seen disk start footer r.sectorSize.toNat maxSize.toNat i →
        i < bytesWritten.toNat + windowBytes r.sectorSize.toNat → i - bytesWritten.toNat + footer.length ≤ w ∧
          slice (window disk.byte (start + bytesWritten.toNat) w) (i - bytesWritten.toNat) footer.length = footer := by
      intro i seen close
      have found := seen_within seen (multiple ▸ before i seen) (multiple ▸ close)
      rw [← multiple,← length] at found
      exact found
    rw [copyCarved,if_neg (not_not_intro more)]
    simp only [read]
    split
    next i found =>
      obtain ⟨within,matched,first⟩ := footerIn_some found
      rw [length_window] at within
      rw [slice_window _ _ _ _ _ within] at matched
      have seen : Seen disk start footer r.sectorSize.toNat maxSize.toNat (bytesWritten.toNat + i) := by
        refine ⟨?_,inWindow_of positive (List.length_pos_iff.mpr some_byte) (multiple ▸ below) (by omega) ?_⟩
        · rw [FooterAt,← Nat.add_assoc]
          exact matched
        · rw [← multiple,ends]
          omega
      refine ⟨bytesWritten.toNat + i + footer.length,?_,.inl ⟨_,seen,fun j other => ?_,rfl⟩⟩
      · rw [take_window _ _ _ _ within,← window_append,Nat.add_assoc]
      · by_contra earlier
        have late := before j other
        exact first (j - bytesWritten.toNat) (by omega) (here j other (by omega)).2
    next missed =>
      have none_here := footerIn_none some_byte missed
      rw [length_window] at none_here
      have beyond : ∀ i, Seen disk start footer r.sectorSize.toNat maxSize.toNat i →
          bytesWritten.toNat + windowBytes r.sectorSize.toNat ≤ i := by
        intro i seen
        by_contra close
        obtain ⟨within,matched⟩ := here i seen (by omega)
        exact none_here _ within matched
      rw [length_window,left]
      rcases Nat.lt_or_ge w (maxSize.toNat - bytesWritten.toNat) with further | last
      · -- the window is a full one, and the next one follows it
        have whole : w = windowBytes r.sectorSize.toNat := by
          rw [length,windowBytes,Nat.min_eq_left (by omega)]
        have next : (bytesWritten + UInt64.ofNat w).toNat = bytesWritten.toNat + w := by
          rw [UInt64.toNat_add,UInt64.toNat_ofNat_of_lt' (Nat.lt_trans further (by omega))]
          exact Nat.mod_eq_of_lt (by omega)
        rw [Nat.min_eq_left (by omega),List.take_of_length_le (by rw [length_window]),← window_append,← next]
        refine @ih (k + 1) (bytesWritten + UInt64.ofNat w) ?_ (by omega) (by omega) (fun i seen => ?_)
        · rw [next,multiple,whole,Nat.add_mul,Nat.one_mul]
        · rw [next,whole]
          exact beyond i seen
      · have end_ : (bytesWritten + UInt64.ofNat (maxSize.toNat - bytesWritten.toNat)).toNat = maxSize.toNat := by
          rw [UInt64.toNat_add,UInt64.toNat_ofNat_of_lt' (Nat.lt_of_le_of_lt (Nat.sub_le _ _) width)]
          omega
        have done : ¬ bytesWritten + UInt64.ofNat (maxSize.toNat - bytesWritten.toNat) < maxSize := by
          rw [UInt64.lt_iff_toNat_lt,end_]
          exact Nat.lt_irrefl _
        refine ⟨maxSize.toNat,?_,.inr ⟨fun i seen => ?_,rfl⟩⟩
        · rw [Nat.min_eq_right last,take_window _ _ _ _ last,← window_append,copyCarved,if_pos done]
          congr 2
          omega
        · have count : (k + 1) * windowBytes r.sectorSize.toNat ≤ i := by
            have behind := beyond i seen
            rw [Nat.add_mul,Nat.one_mul]
            omega
          have number := (Nat.le_div_iff_mul_le (by omega)).mpr count
          have after := Nat.mul_le_mul_right (windowBytes r.sectorSize.toNat) number
          have inside_ := seen.2.1
          rw [Nat.add_mul,Nat.one_mul] at after
          omega

end Copied

section Exact

variable (disk : Disk) (start : Nat) (footer : List UInt8)

/-- The content goes up to the first footer, or is as large as the file may be where no footer
ends within that size. -/
def StopsAtFooter (maxSize : Nat) (content : List UInt8) : Prop :=
  (∀ i, FirstFooter disk start footer i → i + footer.length ≤ maxSize →
    content = window disk.byte start (i + footer.length)) ∧
  ((∀ i, FooterAt disk start footer i → maxSize < i + footer.length) → content = window disk.byte start maxSize)

/-- The first footer lies within a window if it ends before the largest size. Where none ends
before that size, and none that ends at it lies within a window, none at all does. -/
structure FootersPlain (sectorSize maxSize : Nat) : Prop where
  first : ∀ i, FirstFooter disk start footer i → i + footer.length < maxSize →
    InWindow sectorSize maxSize footer.length i
  last : (∀ i, FooterAt disk start footer i → maxSize ≤ i + footer.length ∧
      (InWindow sectorSize maxSize footer.length i → maxSize < i + footer.length)) →
    ∀ i, FooterAt disk start footer i → ¬ InWindow sectorSize maxSize footer.length i

variable {disk start footer} {sectorSize maxSize n : Nat}

theorem first_of_footer {i : Nat} (there : FooterAt disk start footer i) : ∃ j, FirstFooter disk start footer j ∧ j ≤ i := by
  classical
  have found : ∃ i, FooterAt disk start footer i := ⟨i,there⟩
  exact ⟨Nat.find found,⟨Nat.find_spec found,fun j other => Nat.find_min' found other⟩,Nat.find_min' found there⟩

theorem window_inj {off n m : Nat} (same : window disk.byte off n = window disk.byte off m) : n = m := by
  have lengths := congrArg List.length same
  rwa [length_window,length_window] at lengths

theorem stops_iff (stops : Stops disk start footer sectorSize maxSize n) :
    StopsAtFooter disk start footer maxSize (window disk.byte start n) ↔
      FootersPlain disk start footer sectorSize maxSize := by
  constructor
  · rintro ⟨found,none⟩
    refine ⟨fun i first below => ?_,fun late i there close => ?_⟩
    · have ended := window_inj (found i first (Nat.le_of_lt below))
      rcases stops with ⟨j,seen,_,stopped⟩ | ⟨_,stopped⟩
      · obtain rfl : j = i := by omega
        exact seen.2
      · omega
    · rcases stops with ⟨j,seen,_,stopped⟩ | ⟨unseen,_⟩
      · have behind := (late j seen.1).2 seen.2
        by_cases any : ∃ k, FooterAt disk start footer k ∧ k + footer.length ≤ maxSize
        · obtain ⟨k,other,within⟩ := any
          obtain ⟨first,least,before⟩ := first_of_footer other
          have ended := window_inj (found first least (by omega))
          omega
        · have ended := window_inj (none (fun k other => Nat.lt_of_not_le (fun within => any ⟨k,other,within⟩)))
          omega
      · exact unseen i ⟨there,close⟩
  · intro plain
    have unseen (late : ∀ i, FooterAt disk start footer i → maxSize ≤ i + footer.length ∧
        (InWindow sectorSize maxSize footer.length i → maxSize < i + footer.length)) : n = maxSize := by
      rcases stops with ⟨j,seen,_,_⟩ | ⟨_,stopped⟩
      · exact absurd seen.2 (plain.last late j seen.1)
      · exact stopped
    have seen_first {i : Nat} (first : FirstFooter disk start footer i)
        (close : InWindow sectorSize maxSize footer.length i) : n = i + footer.length := by
      rcases stops with ⟨j,seen,least,stopped⟩ | ⟨unseen,_⟩
      · have above := least i ⟨first.1,close⟩
        have below := first.2 j seen.1
        omega
      · exact absurd ⟨first.1,close⟩ (unseen i)
    refine ⟨fun i first within => ?_,fun late => ?_⟩
    · by_cases close : InWindow sectorSize maxSize footer.length i
      · rw [seen_first first close]
      · -- a footer across two windows that ends at the largest size is cut off in the right place
        have at_end : i + footer.length = maxSize := by
          by_contra other
          exact close (plain.first i first (by omega))
        rw [at_end,unseen (fun k there => ?_)]
        have behind := first.2 k there
        refine ⟨by omega,fun inside => ?_⟩
        have apart : k ≠ i := fun same => close (same ▸ inside)
        omega
    · rw [unseen (fun i there => ⟨Nat.le_of_lt (late i there),fun _ => late i there⟩)]

end Exact

section Recovered

theorem carvedLimits_positive (file : RecoverableFile) : 0 < (carvedLimits file).2.toNat := by
  have either (limit : UInt64) : 0 < (if limit = 0 then 10 * mebibyte else limit).toNat := by
    split
    next => decide
    next other =>
      rw [← UInt64.toNat_inj] at other
      exact Nat.pos_of_ne_zero other
  exact either _

/-- A file that the scan reports with a signature that has a footer is cut at that footer and
at the largest size of its type. -/
theorem carvedLimits_reported {sig : CarvedFileSignature} (listed : sig ∈ getDefaultSignatures)
    (ends : sig.footer ≠ []) (carvedLba : UInt64) (carvedCount : UInt32) :
    carvedLimits (carvedFile r sig carvedLba carvedCount) = (sig.footer,sig.maxSize) := by
  have each : ∀ sig ∈ getDefaultSignatures, sig.footer ≠ [] →
      carvedLimits { filename := [],sizeBytes := sig.maxSize,extension := sig.extension } = (sig.footer,sig.maxSize) := by
    decide
  exact each sig listed ends

section Copy

variable (full : env.device.ReadsInFull) (positive : 0 < r.sectorSize.toNat)
  (narrow : r.sectorSize.toNat + 2 ^ 18 ≤ 2 ^ 32) (signed : disk.totalBytes.toNat < 2 ^ 63)
  {file : RecoverableFile} (some_byte : (carvedLimits file).1 ≠ [])
  (inside : file.carvedLba.toNat * r.sectorSize.toNat + roundUp (carvedLimits file).2.toNat r.sectorSize.toNat ≤
    disk.totalBytes.toNat) {outputPath : String} (creates : env.creates outputPath = true)
  {fuel : Nat} (enough : (carvedLimits file).2.toNat ≤ fuel * 2 ^ 18)
include full positive narrow signed some_byte inside creates enough

theorem recoverCarvedFile_stops : ∃ n,
    recoverCarvedFile env r disk file outputPath (fuel + 1) =
        some (.ok (),some (window disk.byte (file.carvedLba.toNat * r.sectorSize.toNat) n)) ∧
      Stops disk (file.carvedLba.toNat * r.sectorSize.toNat) (carvedLimits file).1 r.sectorSize.toNat
        (carvedLimits file).2.toNat n := by
  have zero : (0 : UInt64).toNat = 0 := rfl
  obtain ⟨n,copied,stops⟩ := @copyCarved_stops env r disk _ full positive narrow signed file.carvedLba some_byte
    (carvedLimits file).2 inside fuel 0 0 (by rw [zero,Nat.zero_mul])
    (by rw [zero]; exact carvedLimits_positive file) (by rw [zero]; omega) (fun i _ => Nat.zero_le i)
  rw [zero,window_zero] at copied
  refine ⟨n,?_,stops⟩
  unfold recoverCarvedFile
  rw [creates,if_neg Bool.true_eq_false.mp,copied]
  rfl

/-- The copy of a carved file stops where it should exactly where the footers are plain. -/
theorem recoverCarvedFile_stops_iff : ∃ content,
    recoverCarvedFile env r disk file outputPath (fuel + 1) = some (.ok (),some content) ∧
      (StopsAtFooter disk (file.carvedLba.toNat * r.sectorSize.toNat) (carvedLimits file).1
          (carvedLimits file).2.toNat content ↔
        FootersPlain disk (file.carvedLba.toNat * r.sectorSize.toNat) (carvedLimits file).1 r.sectorSize.toNat
          (carvedLimits file).2.toNat) := by
  obtain ⟨n,copied,stops⟩ :=
    recoverCarvedFile_stops full positive narrow signed some_byte inside creates enough
  exact ⟨_,copied,stops_iff stops⟩

end Copy

end Recovered

section Sample

def footerDisk (i : Nat) : Disk := ⟨52428800,fun k => if k = i then 0xFF else if k = i + 1 then 0xD9 else 0⟩

def jpegPartition : FileRecovery := { partStart := 0,partSectors := 102400 }

def jpegFile : RecoverableFile := { filename := [],sizeBytes := 50 * mebibyte,extension := ['j','p','g'] }

theorem jpegFile_limits : carvedLimits jpegFile = ([0xFF,0xD9],52428800) := by decide

variable {i : Nat}

theorem footerDisk_at {j : Nat} : FooterAt (footerDisk i) 0 [0xFF,0xD9] j ↔ j = i := by
  have pair : window (footerDisk i).byte (0 + j) [(0xFF : UInt8),0xD9].length =
      [(footerDisk i).byte (0 + j),(footerDisk i).byte (0 + j + 1)] := rfl
  rw [FooterAt,pair,Nat.zero_add]
  constructor
  · intro same
    have first := (List.cons.inj same).1
    by_contra other
    simp only [footerDisk,if_neg other] at first
    split at first <;> cases first
  · rintro rfl
    simp only [footerDisk,if_true,if_neg (Nat.succ_ne_self j)]

theorem footerDisk_first : FirstFooter (footerDisk i) 0 [0xFF,0xD9] i :=
  ⟨footerDisk_at.mpr rfl,fun _ other => Nat.le_of_eq (footerDisk_at.mp other).symm⟩

theorem jpegFile_inside : jpegFile.carvedLba.toNat * jpegPartition.sectorSize.toNat +
    roundUp (carvedLimits jpegFile).2.toNat jpegPartition.sectorSize.toNat ≤ (footerDisk i).totalBytes.toNat := by
  rw [jpegFile_limits]
  change 0 * 512 + roundUp 52428800 512 ≤ 52428800
  decide

/-- A footer across the end of the first window is passed over. -/
theorem footer_across : ∃ content,
    recoverCarvedFile {} jpegPartition (footerDisk 262143) jpegFile "out" 201 = some (.ok (),some content) ∧
      FirstFooter (footerDisk 262143) 0 [0xFF,0xD9] 262143 ∧ content.length = 52428800 := by
  obtain ⟨n,copied,stops⟩ := @recoverCarvedFile_stops {} jpegPartition (footerDisk 262143)
    Win32.working_readsInFull (by decide) (by decide) (by change 52428800 < 2 ^ 63; decide) jpegFile
    (by rw [jpegFile_limits]; decide) jpegFile_inside "out" rfl 200 (by rw [jpegFile_limits]; decide)
  have start : jpegFile.carvedLba.toNat * jpegPartition.sectorSize.toNat = 0 := rfl
  have size : (52428800 : UInt64).toNat = 52428800 := rfl
  rw [jpegFile_limits,start,size] at stops
  refine ⟨_,copied,footerDisk_first,?_⟩
  rw [length_window]
  rcases stops with ⟨i,seen,_,_⟩ | ⟨_,stopped⟩
  · have across := seen.2.2
    rw [footerDisk_at.mp seen.1] at across
    exact absurd across (by decide)
  · exact stopped

/-- A footer within the first window ends the copy. -/
theorem footer_within : ∃ content,
    recoverCarvedFile {} jpegPartition (footerDisk 1000) jpegFile "out" 201 = some (.ok (),some content) ∧
      content = window (footerDisk 1000).byte 0 1002 := by
  obtain ⟨content,copied,exact_⟩ := @recoverCarvedFile_stops_iff {} jpegPartition (footerDisk 1000)
    Win32.working_readsInFull (by decide) (by decide) (by change 52428800 < 2 ^ 63; decide) jpegFile
    (by rw [jpegFile_limits]; decide) jpegFile_inside "out" rfl 200 (by rw [jpegFile_limits]; decide)
  have start : jpegFile.carvedLba.toNat * jpegPartition.sectorSize.toNat = 0 := rfl
  have size : (52428800 : UInt64).toNat = 52428800 := rfl
  rw [jpegFile_limits,start,size] at exact_
  refine ⟨content,copied,(exact_.mpr ⟨fun i first _ => ?_,fun late => ?_⟩).1 1000 footerDisk_first (by decide)⟩
  · rw [footerDisk_at.mp first.1]
    exact ⟨by decide,by decide⟩
  · have early := (late 1000 (footerDisk_at.mpr rfl)).1
    exact absurd early (by decide)

end Sample

end SetecWizard.Core.FileRecovery
