import SetecWizard.Filesystem.FormatWrites

/-! Zeroing a range of whole sectors. A round that succeeds leaves the next one behind the
end of the disk at most, so that no position of a run that succeeds wraps, and the chunks
follow one another from the start of the range to its end.
-/
namespace SetecWizard.Core
open SetecWizard.Library

/-- A disk whose bytes from one position up to another are zero and otherwise as before. -/
structure Disk.Zeroed (before after : Disk) (low high : Nat) : Prop where
  size : after.totalBytes = before.totalBytes
  inside : ∀ i, low ≤ i → i < high → after.byte i = 0
  outside : ∀ i, i < low ∨ high ≤ i → after.byte i = before.byte i

namespace Disk.Zeroed

variable {a b c : Disk} {low mid high : Nat}

theorem refl (disk : Disk) (low : Nat) : disk.Zeroed disk low low :=
  ⟨rfl,fun _ first second => absurd first (Nat.not_le.mpr second),fun _ _ => rfl⟩

theorem append (first : a.Zeroed b low mid) (second : b.Zeroed c mid high) (ordered : low ≤ mid) (later : mid ≤ high) :
    a.Zeroed c low high := by
  refine ⟨second.size.trans first.size,?_,?_⟩
  · intro i from_ below
    by_cases front : i < mid
    · rw [second.outside i (.inl front)]
      exact first.inside i from_ front
    · exact second.inside i (Nat.not_lt.mp front) below
  · intro i apart
    rw [second.outside i (by omega),first.outside i (by omega)]

theorem patched (disk : Disk) (off n : Nat) : disk.Zeroed (disk.patched off (List.replicate n 0)) off (off + n) := by
  refine ⟨rfl,?_,?_⟩
  · intro i from_ below
    have within : i - off < (List.replicate n (0 : UInt8)).length := by
      rw [List.length_replicate]
      omega
    have place : off + (i - off) = i := by omega
    have zero := patch_get disk.byte off within
    rw [place,List.getElem?_replicate,if_pos (by omega)] at zero
    exact Option.some.inj zero
  · intro i apart
    apply patch_apart
    rw [List.length_replicate]
    exact apart

end Disk.Zeroed

/-- What a write reports is never that there is no outcome. -/
theorem writeSectors_outcome (os : Win32) (disk : Disk) (mode : DiskAccessMode) (lba count : UInt64)
    (data : List UInt8) (sectorSize : UInt32) :
    (RawDiskHandle.writeSectors os disk mode lba data count sectorSize).1 ≠ .error noOutcome := by
  have coded {e : ErrorInfo} (other : e.code ≠ .unknown) : (.error e : Result Unit) ≠ .error noOutcome := by
    intro same
    rw [Except.error.inj same] at other
    exact other rfl
  unfold RawDiskHandle.writeSectors
  split
  next => exact coded (nofun)
  next =>
    split
    next => exact nofun
    next =>
      simp only
      split
      next => exact coded (nofun)
      next =>
        split
        next => exact coded (nofun)
        next =>
          split
          next => exact coded (nofun)
          next => exact nofun

namespace FormatEngine

variable {os : Win32} {target : FormatTarget} {totalBytes bytesWritten : UInt64} {disk : Disk} {rounds : Nat}

theorem zeroChunk_whole (sector : target.sectorSize ∈ [512,1024,2048,4096])
    (whole : target.sectorSize.toNat ∣ totalBytes.toNat) (start : target.sectorSize.toNat ∣ bytesWritten.toNat)
    (left : bytesWritten < totalBytes) :
    0 < zeroChunk target.sectorSize.toNat (totalBytes.toNat - bytesWritten.toNat) ∧
      bytesWritten.toNat + zeroChunk target.sectorSize.toNat (totalBytes.toNat - bytesWritten.toNat) ≤
        totalBytes.toNat := by
  have positive := (sector_bounds _ sector).1
  have below := UInt64.lt_iff_toNat_lt.mp left
  obtain ⟨_,covered⟩ := zeroChunk_bounds positive (totalBytes.toNat - bytesWritten.toNat)
  have within : zeroChunk target.sectorSize.toNat (totalBytes.toNat - bytesWritten.toNat) ≤
      totalBytes.toNat - bytesWritten.toNat :=
    roundUp_le_of_dvd positive (Nat.min_le_right _ _) (Nat.dvd_sub whole start)
  omega

theorem zeroLoop_counts (sector : target.sectorSize ∈ [512,1024,2048,4096])
    (whole : target.sectorSize.toNat ∣ totalBytes.toNat) (start : target.sectorSize.toNat ∣ bytesWritten.toNat)
    (enough : totalBytes.toNat ≤ bytesWritten.toNat + rounds) :
    (zeroLoop os target totalBytes rounds bytesWritten disk).result ≠ .error noOutcome ∧
      ∀ e ∈ (zeroLoop os target totalBytes rounds bytesWritten disk).issued,
        e.count ≤ (chunkSectors * target.sectorSize).toNat := by
  induction rounds generalizing bytesWritten disk with
  | zero =>
    rw [zeroLoop,if_pos (UInt64.le_iff_toNat_le.mpr enough)]
    refine ⟨fun same => ?_,fun e member => ?_⟩
    · cases same
    · cases member
  | succ rounds ih =>
    by_cases left : bytesWritten < totalBytes
    · obtain ⟨positive,narrow⟩ := sector_bounds _ sector
      have fixed : chunkSectors.toNat = 8192 := rfl
      have buffer : (chunkSectors * target.sectorSize).toNat = 8192 * target.sectorSize.toNat := by
        rw [UInt32.toNat_mul,fixed,Nat.mod_eq_of_lt (by omega)]
      obtain ⟨bound,_⟩ := zeroChunk_bounds positive (totalBytes.toNat - bytesWritten.toNat)
      obtain ⟨nonempty,within⟩ := zeroChunk_whole sector whole start left
      have width := totalBytes.toNat_lt
      obtain ⟨lba,count,_,_,same⟩ := zeroLoop_round os sector left rounds disk
      have position := @next_position bytesWritten
        (zeroChunk target.sectorSize.toNat (totalBytes.toNat - bytesWritten.toNat)) (by omega)
      obtain ⟨outcome,counts⟩ := @ih (bytesWritten +
          UInt64.ofNat (zeroChunk target.sectorSize.toNat (totalBytes.toNat - bytesWritten.toNat)))
        (RawDiskHandle.writeSectors os disk .readWrite lba
          (List.replicate (zeroChunk target.sectorSize.toNat (totalBytes.toNat - bytesWritten.toNat)) 0) count
          target.sectorSize).2
        (by rw [position]; exact Nat.dvd_add start (dvd_roundUp _ _)) (by rw [position]; omega)
      rw [same]
      constructor
      · cases ended : (RawDiskHandle.writeSectors os disk .readWrite lba
            (List.replicate (zeroChunk target.sectorSize.toNat (totalBytes.toNat - bytesWritten.toNat)) 0) count
            target.sectorSize).1 with
        | error e =>
          rw [FormatRun.next_error rfl]
          exact ended ▸ writeSectors_outcome _ _ _ _ _ _ _
        | ok _ =>
          rw [FormatRun.next_ok rfl]
          exact outcome
      · intro e member
        rcases FormatRun.issued_next member with first | ⟨_,later⟩
        · rw [List.mem_singleton.mp first,buffer]
          exact bound
        · exact counts e later
    · rw [zeroLoop,if_pos (UInt64.not_lt.mp left)]
      refine ⟨fun same => ?_,fun e member => ?_⟩
      · cases same
      · cases member

theorem zeroLoop_zeroed (sector : target.sectorSize ∈ [512,1024,2048,4096])
    (aligned : target.sectorSize.toNat ∣ target.partitionOffsetBytes.toNat)
    (whole : target.sectorSize.toNat ∣ totalBytes.toNat) (start : target.sectorSize.toNat ∣ bytesWritten.toNat)
    (before : bytesWritten.toNat ≤ totalBytes.toNat)
    (here : target.partitionOffsetBytes.toNat + bytesWritten.toNat < 2 ^ 64)
    (ok : (zeroLoop os target totalBytes rounds bytesWritten disk).result = .ok ()) :
    disk.Zeroed (zeroLoop os target totalBytes rounds bytesWritten disk).disk
      (target.partitionOffsetBytes.toNat + bytesWritten.toNat)
      (target.partitionOffsetBytes.toNat + totalBytes.toNat) := by
  have reached (past : totalBytes ≤ bytesWritten) : bytesWritten.toNat = totalBytes.toNat :=
    Nat.le_antisymm before (UInt64.le_iff_toNat_le.mp past)
  induction rounds generalizing bytesWritten disk with
  | zero =>
    rw [zeroLoop] at ok ⊢
    by_cases past : totalBytes ≤ bytesWritten
    · rw [reached past]
      exact .refl _ _
    · rw [if_neg past] at ok
      cases ok
  | succ rounds ih =>
    by_cases left : bytesWritten < totalBytes
    · obtain ⟨nonempty,within⟩ := zeroChunk_whole sector whole start left
      have width := totalBytes.toNat_lt
      have size := disk.totalBytes.toNat_lt
      obtain ⟨lba,count,place,length,same⟩ := zeroLoop_round os sector left rounds disk
      have position := @next_position bytesWritten
        (zeroChunk target.sectorSize.toNat (totalBytes.toNat - bytesWritten.toNat)) (by omega)
      rw [same] at ok ⊢
      obtain ⟨written,later,result⟩ := FormatRun.next_result ok
      rw [result]
      -- The chunk lies on the disk, so that the next position does not wrap.
      obtain ⟨after,room⟩ := writeSectors_whole (place (Nat.dvd_add aligned start) here) length (Prod.ext written rfl)
      have front := Disk.Zeroed.patched disk (target.partitionOffsetBytes.toNat + bytesWritten.toNat)
        (zeroChunk target.sectorSize.toNat (totalBytes.toNat - bytesWritten.toNat))
      rw [List.take_of_length_le (by rw [List.length_replicate])] at after
      rw [← after,Nat.add_assoc] at front
      have rest := ih (by rw [position]; exact Nat.dvd_add start (dvd_roundUp _ _)) (by rw [position]; exact within)
        (by rw [position]; omega) later (fun past => by
          have end_ := UInt64.le_iff_toNat_le.mp past
          rw [position] at end_ ⊢
          omega)
      rw [position] at rest
      exact front.append rest (by omega) (by omega)
    · have past := UInt64.not_lt.mp left
      rw [zeroLoop,if_pos past,reached past]
      exact .refl _ _

theorem zeroRaw_zeroed (os : Win32) (target : FormatTarget) (totalBytes : UInt64) (disk : Disk)
    (sector : target.sectorSize ∈ [512,1024,2048,4096])
    (aligned : target.sectorSize.toNat ∣ target.partitionOffsetBytes.toNat)
    (whole : target.sectorSize.toNat ∣ totalBytes.toNat) :
    (zeroRaw os target totalBytes disk).result ≠ .error noOutcome ∧
      (∀ e ∈ (zeroRaw os target totalBytes disk).issued, e.count ≤ (chunkSectors * target.sectorSize).toNat) ∧
      ((zeroRaw os target totalBytes disk).result = .ok () →
        disk.Zeroed (zeroRaw os target totalBytes disk).disk target.partitionOffsetBytes.toNat
          (target.partitionOffsetBytes.toNat + totalBytes.toNat)) := by
  have zero : (0 : UInt64).toNat = 0 := rfl
  have start : target.sectorSize.toNat ∣ (0 : UInt64).toNat := Nat.dvd_zero _
  obtain ⟨outcome,counts⟩ := @zeroLoop_counts os target totalBytes 0 disk totalBytes.toNat sector whole start (by omega)
  refine ⟨outcome,counts,?_⟩
  intro ok
  exact zeroLoop_zeroed sector aligned whole start (Nat.zero_le _) target.partitionOffsetBytes.toNat_lt ok

theorem sectors_zeroed : (⟨4096,fun _ => 7⟩ : Disk).Zeroed
    (zeroRaw .working { partitionOffsetBytes := 1024,partitionSizeBytes := 2048 } 2048 ⟨4096,fun _ => 7⟩).disk
    1024 3072 :=
  (zeroRaw_zeroed .working { partitionOffsetBytes := 1024,partitionSizeBytes := 2048 } 2048 ⟨4096,fun _ => 7⟩
    (by decide) (by decide) (by decide)).2.2 rfl

end FormatEngine
end SetecWizard.Core
