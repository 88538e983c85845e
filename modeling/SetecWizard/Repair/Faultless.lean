import SetecWizard.Repair.Gpt

/-! Repairs on a disk that does what it is asked for as far as it goes: a transfer that lies
on the disk is made in full, any other is refused and moves nothing.
-/
namespace SetecWizard.Core.BootRepair
open SetecWizard.Library

structure Faultless (env : RepairEnv) (totalBytes : Nat) : Prop where
  mode : env.mode = .readWrite
  geometry : env.device.diskGeometry = none
  read : ∀ off n, off + n ≤ totalBytes → env.device.readFile off n = .ok n
  readBeyond : ∀ off n, totalBytes < off + n → ∃ e, env.device.readFile off n = .error e
  write : ∀ off n, off + n ≤ totalBytes → env.device.writeFile off n = (none,n)
  writeBeyond : ∀ off n, totalBytes < off + n → ∃ e, env.device.writeFile off n = (some e,0)

def faultless (totalBytes : Nat) : Win32 where
  readFile off n := if off + n ≤ totalBytes then .ok n else .error 27
  writeFile off n := if off + n ≤ totalBytes then (none,n) else (some 27,0)

theorem faultless_ok (behindHeader : Bytes 420) (totalBytes : Nat) :
    Faultless { device := faultless totalBytes, behindHeader := behindHeader } totalBytes where
  mode := rfl
  geometry := rfl
  read off n inside := if_pos inside
  readBeyond off n beyond := ⟨27,if_neg (by omega)⟩
  write off n inside := if_pos inside
  writeBeyond off n beyond := ⟨27,if_neg (by omega)⟩

/-- Sectors that one transfer can move and that lie on the disk. -/
def Inside (totalBytes : Nat) (sectorSize : UInt32) (lba count : UInt64) : Prop :=
  count = 0 ∨ (count * sectorSize.toUInt64).toNat < 2 ^ 32 ∧
    (lba * sectorSize.toUInt64).toNat + (count * sectorSize.toUInt64).toNat ≤ totalBytes

section Transfers

variable {env : RepairEnv} {disk : Disk} {sectorSize : UInt32} {lba count : UInt64}
  (works : Faultless env disk.totalBytes.toNat)

theorem allowed_iff (n : UInt64) : ¬ MAXDWORD < n ↔ n.toNat < 2 ^ 32 := by
  have limit : MAXDWORD.toNat = 2 ^ 32 - 1 := rfl
  rw [UInt64.lt_iff_toNat_lt,limit]
  omega

include works

theorem readSectors_inside (inside : Inside disk.totalBytes.toNat sectorSize lba count) :
    RawDiskHandle.readSectors env.device disk lba count sectorSize =
      .ok (window disk.byte (lba * sectorSize.toUInt64).toNat (count * sectorSize.toUInt64).toNat) := by
  unfold RawDiskHandle.readSectors
  split
  next none =>
    rw [none,UInt64.zero_mul]
    rfl
  next some =>
    obtain ⟨short,room⟩ := inside.resolve_left some
    simp only [if_neg ((allowed_iff _).mpr short),works.read _ _ room,available_all disk _ _ room]

theorem readSectors_beyond (beyond : ¬ Inside disk.totalBytes.toNat sectorSize lba count) :
    ∃ e, RawDiskHandle.readSectors env.device disk lba count sectorSize = .error e := by
  rw [Inside,not_or,not_and_or] at beyond
  obtain ⟨some,beyond⟩ := beyond
  unfold RawDiskHandle.readSectors
  rw [if_neg some]
  by_cases long : MAXDWORD < count * sectorSize.toUInt64
  · simp only [if_pos long]
    exact ⟨_,rfl⟩
  · have room := beyond.resolve_left (not_not_intro ((allowed_iff _).mp long))
    obtain ⟨e,refused⟩ := works.readBeyond _ _ (Nat.not_le.mp room)
    simp only [if_neg long,refused]
    exact ⟨_,rfl⟩

theorem writeSectors_inside (data : List UInt8) (inside : Inside disk.totalBytes.toNat sectorSize lba count) :
    RawDiskHandle.writeSectors env.device disk env.mode lba data count sectorSize =
      (.ok (),disk.patched (lba * sectorSize.toUInt64).toNat (data.take (count * sectorSize.toUInt64).toNat)) := by
  unfold RawDiskHandle.writeSectors
  rw [if_neg (not_not_intro works.mode)]
  split
  next none =>
    rw [none,UInt64.zero_mul,UInt64.toNat_zero,List.take_zero,Disk.patched,patch_nil]
  next some =>
    obtain ⟨short,room⟩ := inside.resolve_left some
    simp only [if_neg ((allowed_iff _).mpr short),works.write _ _ room,available_all disk _ _ room,ne_eq,
      not_true_eq_false,if_false]
    rfl

theorem writeSectors_beyond (data : List UInt8) (beyond : ¬ Inside disk.totalBytes.toNat sectorSize lba count) :
    (∃ e, RawDiskHandle.writeSectors env.device disk env.mode lba data count sectorSize = (.error e,disk)) ∧
      (0 < sectorSize.toNat → RepairState.reached env sectorSize disk lba count = 0) := by
  rw [Inside,not_or,not_and_or] at beyond
  obtain ⟨some,beyond⟩ := beyond
  unfold RawDiskHandle.writeSectors
  simp only [RepairState.reached]
  rw [if_neg (not_not_intro works.mode),if_neg some]
  by_cases long : MAXDWORD < count * sectorSize.toUInt64
  · simp only [if_pos long,if_pos (Or.inr long)]
    exact ⟨⟨_,rfl⟩,fun _ => trivial⟩
  · have room := beyond.resolve_left (not_not_intro ((allowed_iff _).mp long))
    obtain ⟨e,refused⟩ := works.writeBeyond _ _ (Nat.not_le.mp room)
    have nothing (off n : Nat) : RawDiskHandle.available disk off n 0 = 0 := by
      rw [RawDiskHandle.available,Nat.zero_min,Nat.zero_min]
    have same (off : Nat) : ({ disk with byte := patch disk.byte off [] } : Disk) = disk := by rw [patch_nil]
    have plain : ¬ (env.mode ≠ .readWrite ∨ MAXDWORD < count * sectorSize.toUInt64) :=
      not_or_intro (not_not_intro works.mode) long
    simp only [if_neg long,if_neg plain,refused,nothing,List.take_zero,same]
    exact ⟨⟨_,rfl⟩,fun positive => Nat.div_eq_of_lt (by omega)⟩

theorem faultless_whole (sectorSize : UInt32) (origin span : Nat) :
    ReadsWhole env.device disk sectorSize origin span := by
  intro lba count data _ _ _ read
  by_cases inside : Inside disk.totalBytes.toNat sectorSize lba count
  · rw [readSectors_inside works inside] at read
    cases read
    exact length_window _ _ _
  · obtain ⟨e,refused⟩ := readSectors_beyond works inside
    rw [refused] at read
    cases read

theorem reached_one (positive : 0 < sectorSize.toNat) (inside : Inside disk.totalBytes.toNat sectorSize lba 1) :
    RepairState.reached env sectorSize disk lba 1 = 1 := by
  obtain ⟨short,room⟩ := inside.resolve_left (by decide)
  have one : ((1 : UInt64) * sectorSize.toUInt64).toNat = sectorSize.toNat := sector_bytes_one sectorSize
  have plain : ¬ (env.mode ≠ .readWrite ∨ MAXDWORD < 1 * sectorSize.toUInt64) :=
    not_or_intro (not_not_intro works.mode) ((allowed_iff _).mpr short)
  simp only [RepairState.reached]
  rw [if_neg plain,works.write _ _ room,available_all disk _ _ room,one]
  exact Nat.div_eq_of_lt_le (by omega) (by omega)

end Transfers

namespace SectorWrite

def on (w : SectorWrite) (sectorSize : UInt32) (disk : Disk) : Disk :=
  disk.patched (w.lba * sectorSize.toUInt64).toNat (w.data.take (w.count * sectorSize.toUInt64).toNat)

theorem on_eq {w : SectorWrite} {sectorSize : UInt32} {disk : Disk} {off n : Nat} {data : List UInt8}
    (start : (w.lba * sectorSize.toUInt64).toNat = off) (length : (w.count * sectorSize.toUInt64).toNat = n)
    (same : w.data.take n = data) : w.on sectorSize disk = disk.patched off data := by
  rw [on,start,length,same]

end SectorWrite

section Repair

variable {env : RepairEnv} {disk : Disk} {sectorSize : UInt32} {fromBackup : Bool} {first second : SectorWrite}
  {firstMsg secondMsg : String} (works : Faultless env disk.totalBytes.toNat)
include works

theorem writeTwo_inside (inside : Inside disk.totalBytes.toNat sectorSize first.lba first.count)
    (inside' : Inside disk.totalBytes.toNat sectorSize second.lba second.count) (accesses : List RepairAccess) :
    ∃ more, writeTwo env sectorSize first second firstMsg secondMsg ⟨disk,accesses⟩ =
      (.ok (),⟨second.on sectorSize (first.on sectorSize disk),accesses ++ more⟩) := by
  have works' : Faultless env (first.on sectorSize disk).totalBytes.toNat := works
  have later := writeSectors_inside works' second.data inside'
  rw [SectorWrite.on] at later
  unfold writeTwo
  simp only [RepairState.writeSectors,RepairState.note,writeSectors_inside works first.data inside,later,
    List.append_assoc]
  exact ⟨_,rfl⟩

theorem writeTwo_half (inside : Inside disk.totalBytes.toNat sectorSize first.lba first.count)
    (beyond : ¬ Inside disk.totalBytes.toNat sectorSize second.lba second.count) (accesses : List RepairAccess) :
    ∃ e accesses', writeTwo env sectorSize first second firstMsg secondMsg ⟨disk,accesses⟩ =
      (.error e,⟨first.on sectorSize disk,accesses'⟩) := by
  have works' : Faultless env (first.on sectorSize disk).totalBytes.toNat := works
  obtain ⟨⟨e,later⟩,_⟩ := writeSectors_beyond works' second.data beyond
  rw [SectorWrite.on] at later
  unfold writeTwo
  simp only [RepairState.writeSectors,writeSectors_inside works first.data inside,later]
  exact ⟨_,_,rfl⟩

theorem writeTwo_beyond (positive : 0 < sectorSize.toNat)
    (beyond : ¬ Inside disk.totalBytes.toNat sectorSize first.lba first.count) (accesses : List RepairAccess) :
    ∃ e, writeTwo env sectorSize first second firstMsg secondMsg ⟨disk,accesses⟩ =
      (.error e,⟨disk,accesses ++ [.write first.lba first.count 0]⟩) := by
  obtain ⟨⟨e,refused⟩,nothing⟩ := writeSectors_beyond works first.data beyond
  unfold writeTwo
  simp only [RepairState.writeSectors,refused,nothing positive]
  exact ⟨_,rfl⟩

omit works in
theorem sector_inside {lba : UInt64} (short : lba ≤ backupLba disk sectorSize)
    (large : 34 ≤ disk.totalBytes / sectorSize.toUInt64) :
    Inside disk.totalBytes.toNat sectorSize lba 1 ∧
      (lba * sectorSize.toUInt64).toNat = lba.toNat * sectorSize.toNat := by
  obtain ⟨_,room,_⟩ := backupLba_bytes large
  have bound := disk.totalBytes.toNat_lt
  have width := sectorSize.toNat_lt
  have below : (lba.toNat + 1) * sectorSize.toNat ≤ disk.totalBytes.toNat := by
    refine Nat.le_trans (Nat.mul_le_mul_right _ ?_) room
    exact Nat.succ_le_succ (UInt64.le_iff_toNat_le.mp short)
  rw [Nat.add_mul,Nat.one_mul] at below
  have start : (lba * sectorSize.toUInt64).toNat = lba.toNat * sectorSize.toNat := by
    rw [UInt64.toNat_mul,UInt32.toNat_toUInt64,Nat.mod_eq_of_lt (by omega)]
  exact ⟨.inr (by rw [sector_bytes_one,start]; exact ⟨by omega,below⟩),start⟩

end Repair
end SetecWizard.Core.BootRepair
