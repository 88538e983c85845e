import SetecWizard.Filesystem.FormatWrites
import SetecWizard.Filesystem.WriteAt

/-! The runs of a list of writes that succeed: everything is issued, and the disk is the one
before with the writes laid over it in their order. Whether a run succeeds is decided by
the size of the disk, whatever the disk holds.
-/
namespace SetecWizard.Core
open SetecWizard.Library

namespace FormatEngine

variable {os : Win32} {target : FormatTarget} {disk other : Disk}

section Issued

theorem writeAt_ok {off : UInt64} {data : List UInt8} (ok : (writeAt os target off data disk).result = .ok ()) :
    (writeAt os target off data disk).issued = [⟨off.toNat,data.length⟩] := by
  revert ok
  simp only [writeAt]
  split
  next =>
    cases RawDiskHandle.readSectors os disk ((target.partitionOffsetBytes + off) / target.sectorSize.toUInt64)
        ((UInt32.ofNat data.length + target.sectorSize - 1) / target.sectorSize).toUInt64 target.sectorSize with
    | error e => simp
    | ok buf =>
      simp only
      split
      next => simp
      next => exact fun _ => rfl
  next => exact fun _ => rfl

theorem writeAll_ok {ws : List FormatWrite} (ok : (writeAll os target ws disk).result = .ok ()) :
    (writeAll os target ws disk).issued = ws.map extent := by
  induction ws generalizing disk with
  | nil => rfl
  | cons w rest ih =>
    obtain ⟨first,later,_⟩ := FormatRun.next_result ok
    rw [writeAll,FormatRun.next_ok first,writeAt_ok first,ih later]
    rfl

end Issued

section Alike

variable (size : other.totalBytes = disk.totalBytes)
include size

theorem readSectors_alike (lba count : UInt64) (sectorSize : UInt32) :
    (RawDiskHandle.readSectors os other lba count sectorSize).map List.length =
      (RawDiskHandle.readSectors os disk lba count sectorSize).map List.length := by
  unfold RawDiskHandle.readSectors RawDiskHandle.available
  simp only [size]
  split
  · rfl
  · split
    · rfl
    · split
      · rfl
      · simp [Except.map]

theorem writeAt_alike (off : UInt64) (data : List UInt8) :
    (writeAt os target off data other).result = (writeAt os target off data disk).result ∧
      (writeAt os target off data other).disk.totalBytes = disk.totalBytes := by
  have same := @readSectors_alike os disk other size ((target.partitionOffsetBytes + off) / target.sectorSize.toUInt64)
    ((UInt32.ofNat data.length + target.sectorSize - 1) / target.sectorSize).toUInt64 target.sectorSize
  simp only [writeAt]
  split
  next =>
    revert same
    cases RawDiskHandle.readSectors os other ((target.partitionOffsetBytes + off) / target.sectorSize.toUInt64)
        ((UInt32.ofNat data.length + target.sectorSize - 1) / target.sectorSize).toUInt64 target.sectorSize with
    | error e =>
      cases RawDiskHandle.readSectors os disk ((target.partitionOffsetBytes + off) / target.sectorSize.toUInt64)
          ((UInt32.ofNat data.length + target.sectorSize - 1) / target.sectorSize).toUInt64 target.sectorSize with
      | error e' =>
        intro same
        have failure : e = e' := Except.error.inj same
        rw [failure]
        exact ⟨rfl,size⟩
      | ok buf' =>
        intro same
        cases same
    | ok buf =>
      cases RawDiskHandle.readSectors os disk ((target.partitionOffsetBytes + off) / target.sectorSize.toUInt64)
          ((UInt32.ofNat data.length + target.sectorSize - 1) / target.sectorSize).toUInt64 target.sectorSize with
      | error e' =>
        intro same
        cases same
      | ok buf' =>
        intro same
        have length : buf.length = buf'.length := Except.ok.inj same
        simp only [length]
        split
        next => exact ⟨rfl,size⟩
        next => exact ⟨writeSectors_fst os _ _ _ _ size _ _,(writeSectors_size _ _ _ _ _ _ _).trans size⟩
  next => exact ⟨writeSectors_fst os _ _ _ _ size _ _,(writeSectors_size _ _ _ _ _ _ _).trans size⟩

end Alike

theorem writeAll_alike (size : other.totalBytes = disk.totalBytes) (ws : List FormatWrite)
    (ok : (writeAll os target ws disk).result = .ok ()) : (writeAll os target ws other).result = .ok () := by
  induction ws generalizing disk other with
  | nil => rfl
  | cons w rest ih =>
    obtain ⟨first,later,_⟩ := FormatRun.next_result ok
    obtain ⟨result,kept⟩ := @writeAt_alike os target disk other size w.1 w.2
    obtain ⟨_,kept'⟩ := @writeAt_alike os target disk disk rfl w.1 w.2
    rw [writeAll,FormatRun.next_ok (result.trans first)]
    exact ih (kept.trans kept'.symm) later

theorem writeAll_sized (ws : List FormatWrite) (size : UInt64) :
    writeAll os { target with partitionSizeBytes := size } ws disk = writeAll os target ws disk := by
  induction ws generalizing disk with
  | nil => rfl
  | cons w rest ih =>
    rw [writeAll,writeAll,funext (fun disk => @ih disk)]
    rfl

def laid (target : FormatTarget) (ws : List FormatWrite) (disk : Disk) : Disk :=
  ws.foldl (fun disk w => disk.patched (position target w.1).toNat w.2) disk

theorem laid_append (first second : List FormatWrite) :
    laid target (first ++ second) disk = laid target second (laid target first disk) := List.foldl_append

theorem writeAll_exact {ws : List FormatWrite} (divides : target.sectorSize.toNat ∣ 2 ^ 32)
    (sizes : ∀ w ∈ ws, w.2.length < 2 ^ 32) (ok : (writeAll os target ws disk).result = .ok ()) :
    (writeAll os target ws disk).disk = laid target ws disk := by
  induction ws generalizing disk with
  | nil => rfl
  | cons w rest ih =>
    obtain ⟨first,later,after⟩ := FormatRun.next_result ok
    have exact_ := writeAt_exact divides (sizes w (by simp)) first
    refine after.trans ?_
    rw [ih (fun v member => sizes v (by simp [member])) later,exact_]
    rfl

theorem laid_apart {ws : List FormatWrite} {i : Nat}
    (apart : ∀ w ∈ ws, i < (position target w.1).toNat ∨ (position target w.1).toNat + w.2.length ≤ i) :
    (laid target ws disk).byte i = disk.byte i := by
  induction ws generalizing disk with
  | nil => rfl
  | cons w rest ih =>
    refine (ih (fun v member => apart v (by simp [member]))).trans ?_
    exact patch_apart _ _ _ _ (apart w (by simp))

end FormatEngine
end SetecWizard.Core
