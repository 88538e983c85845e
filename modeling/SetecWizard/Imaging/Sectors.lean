import SetecWizard.Library.Copying
import SetecWizard.Operations.Transfer

/-! Positions and lengths in bytes as numbers of sectors, and what reads and writes of
whole sectors do between them.
-/
namespace SetecWizard.Core
open SetecWizard.Library

section Positions

variable {sectorSize : UInt32}

theorem sector_floor (pos : UInt64) (sectorSize : UInt32) :
    (pos / sectorSize.toUInt64 * sectorSize.toUInt64).toNat = pos.toNat / sectorSize.toNat * sectorSize.toNat := by
  have below := Nat.div_mul_le_self pos.toNat sectorSize.toNat
  have bound := pos.toNat_lt
  rw [UInt64.toNat_mul,UInt64.toNat_div,UInt32.toNat_toUInt64,Nat.mod_eq_of_lt (by omega)]

theorem sector_start {p : UInt64} (aligned : sectorSize.toNat ∣ p.toNat) :
    (p / sectorSize.toUInt64 * sectorSize.toUInt64).toNat = p.toNat := by
  rw [sector_floor,Nat.div_mul_cancel aligned]

theorem sector_bytes {n : UInt64} (positive : 0 < sectorSize.toNat) (small : n.toNat + sectorSize.toNat ≤ 2 ^ 64) :
    ((n + sectorSize.toUInt64 - 1) / sectorSize.toUInt64 * sectorSize.toUInt64).toNat =
      roundUp n.toNat sectorSize.toNat := by
  have one : (1 : UInt64).toNat = 1 := rfl
  have width := sectorSize.toNat_lt
  have last : (n + sectorSize.toUInt64 - 1).toNat = n.toNat + sectorSize.toNat - 1 := by
    rw [UInt64.toNat_sub,UInt64.toNat_add,one,UInt32.toNat_toUInt64]
    omega
  rw [sector_floor,last,roundUp]

end Positions

/-- A read of sectors of a range that succeeds returns everything it was asked for. Positions
are counted in 64 bits, and the range ends with the sector its last byte lies in. -/
def ReadsWhole (os : Win32) (disk : Disk) (sectorSize : UInt32) (origin span : Nat) : Prop :=
  ∀ lba count data low, (lba * sectorSize.toUInt64).toNat = (origin + low) % 2 ^ 64 →
    low + (count * sectorSize.toUInt64).toNat ≤ roundUp span sectorSize.toNat →
    RawDiskHandle.readSectors os disk lba count sectorSize = .ok data →
    data.length = (count * sectorSize.toUInt64).toNat

section Transfers

variable {os : Win32} {disk disk' : Disk} {sectorSize : UInt32} {lba count : UInt64} {data : List UInt8}
  {off n : Nat}

theorem readSectors_ok (start : (lba * sectorSize.toUInt64).toNat = off)
    (read : RawDiskHandle.readSectors os disk lba count sectorSize = .ok data) :
    data = window disk.byte off data.length ∧ (0 < data.length → off + data.length ≤ disk.totalBytes.toNat) ∧
      data.length ≤ (count * sectorSize.toUInt64).toNat := by
  unfold RawDiskHandle.readSectors at read
  split at read
  next =>
    cases read
    exact ⟨rfl,by simp,by simp⟩
  next =>
    simp only [start] at read
    split at read
    next => cases read
    next =>
      split at read
      next => cases read
      next moved _ =>
        cases read
        have bound := available_le disk off (count * sectorSize.toUInt64).toNat moved
        rw [length_window]
        exact ⟨rfl,by omega,bound.1⟩

theorem readSectors_whole {origin span low : Nat} (whole : ReadsWhole os disk sectorSize origin span)
    (start : (lba * sectorSize.toUInt64).toNat = off) (place : off = (origin + low) % 2 ^ 64)
    (length : (count * sectorSize.toUInt64).toNat = n) (within : low + n ≤ roundUp span sectorSize.toNat)
    (read : RawDiskHandle.readSectors os disk lba count sectorSize = .ok data) :
    data = window disk.byte off n ∧ (0 < n → off + n ≤ disk.totalBytes.toNat) := by
  have all := (whole lba count data low (start.trans place) (by rw [length]; exact within) read).trans length
  obtain ⟨same,inside,_⟩ := readSectors_ok start read
  rw [all] at same inside
  exact ⟨same,inside⟩

theorem patch_nil {α : Type*} (store : Nat → α) (off : Nat) : patch store off [] = store := by
  funext i
  simp [patch]

theorem writeSectors_whole {mode : DiskAccessMode} (start : (lba * sectorSize.toUInt64).toNat = off)
    (length : (count * sectorSize.toUInt64).toNat = n)
    (written : RawDiskHandle.writeSectors os disk mode lba data count sectorSize = (.ok (),disk')) :
    disk' = disk.patched off (data.take n) ∧ n ≤ disk.totalBytes.toNat - off := by
  by_cases none : count = 0
  · have empty : n = 0 := by
      rw [← length,none,UInt64.zero_mul]
      rfl
    have same : disk' = disk := by
      unfold RawDiskHandle.writeSectors at written
      rw [if_pos none] at written
      split at written
      next => cases written
      next => exact (Prod.mk.inj written).2.symm
    rw [empty,same,Disk.patched,List.take_zero,patch_nil]
    exact ⟨rfl,Nat.zero_le _⟩
  · have spec := writeSectors_ok none written
    rw [start,length] at spec
    exact ⟨spec.2,spec.1⟩

/-- When everything works, a write inside the disk replaces what it covers by the beginning
of its buffer. -/
theorem writeSectors_front (disk : Disk) (lba count : UInt64) (data : List UInt8)
    (start : (lba * sectorSize.toUInt64).toNat = off) (length : (count * sectorSize.toUInt64).toNat = n)
    (small : n < 2 ^ 32) (inside : off + n ≤ disk.totalBytes.toNat) :
    RawDiskHandle.writeSectors .working disk .readWrite lba data count sectorSize =
      (.ok (),disk.patched off (data.take n)) := by
  have limit : MAXDWORD.toNat = 2 ^ 32 - 1 := rfl
  have allowed : ¬ MAXDWORD < count * sectorSize.toUInt64 := by
    rw [UInt64.lt_iff_toNat_lt,limit,length]
    omega
  have moved := available_all disk off n inside
  unfold RawDiskHandle.writeSectors
  by_cases none : count = 0
  · rw [none,UInt64.zero_mul] at length
    have empty : n = 0 := length.symm
    rw [if_pos none,empty,List.take_zero,Disk.patched,patch_nil]
    rfl
  · simp only [if_neg none,if_neg allowed,Win32.working,start,length,moved,ne_eq,not_true,if_false]
    rfl

theorem writeSectors_working (disk : Disk) (lba count : UInt64) (data : List UInt8)
    (start : (lba * sectorSize.toUInt64).toNat = off) (length : (count * sectorSize.toUInt64).toNat = n)
    (size : data.length = n) (small : n < 2 ^ 32) (inside : off + n ≤ disk.totalBytes.toNat) :
    RawDiskHandle.writeSectors .working disk .readWrite lba data count sectorSize =
      (.ok (),disk.patched off data) := by
  rw [writeSectors_front disk lba count data start length small inside,List.take_of_length_le (by omega)]

/-- Whatever becomes of a write, it touches only what it covers. -/
theorem writeSectors_outside (mode : DiskAccessMode) (start : (lba * sectorSize.toUInt64).toNat = off)
    (length : (count * sectorSize.toUInt64).toNat = n) {i : Nat} (outside : i < off ∨ off + n ≤ i) :
    (RawDiskHandle.writeSectors os disk mode lba data count sectorSize).2.byte i = disk.byte i := by
  unfold RawDiskHandle.writeSectors
  split
  next => rfl
  next =>
    split
    next => rfl
    next =>
      simp only [start,length]
      have most := (available_le disk off n (os.writeFile off n).2).1
      have kept : patch disk.byte off (data.take (RawDiskHandle.available disk off n (os.writeFile off n).2)) i =
          disk.byte i := by
        apply patch_apart
        rw [List.length_take]
        omega
      split
      next => rfl
      next =>
        split
        next => exact kept
        next =>
          split
          next => exact kept
          next => exact kept

end Transfers

def Disk.from (disk : Disk) (origin : Nat) : Nat → UInt8 := fun i => disk.byte (origin + i)

/-- A piece of a range arrives on a disk: what lies there before and after. -/
structure Cloned (wanted : Nat → UInt8) (origin low high limit : Nat) (dst dst' : Disk) : Prop where
  copied : Copied wanted origin low high limit dst.byte dst'.byte
  size : dst'.totalBytes = dst.totalBytes

namespace Cloned

variable {wanted : Nat → UInt8} {origin low mid high limit : Nat} {dst between dst' : Disk}

theorem refl (wanted : Nat → UInt8) (origin low : Nat) (dst : Disk) : Cloned wanted origin low low low dst dst :=
  ⟨.refl _ _ _ _,rfl⟩

theorem append (first : Cloned wanted origin low mid mid dst between)
    (second : Cloned wanted origin mid high limit between dst') (ordered : low ≤ mid) (within : mid ≤ limit) :
    Cloned wanted origin low high limit dst dst' :=
  ⟨first.copied.append second.copied ordered within,second.size.trans first.size⟩

end Cloned

/-- A size that is a power of two, as those of sectors are. -/
def PowerOfTwo (sectorSize : UInt32) : Prop := ∃ k, sectorSize.toNat = 2 ^ k

theorem PowerOfTwo.positive {sectorSize : UInt32} (power : PowerOfTwo sectorSize) : 0 < sectorSize.toNat := by
  obtain ⟨k,size⟩ := power
  rw [size]
  exact Nat.two_pow_pos k

theorem PowerOfTwo.dvd_word {sectorSize : UInt32} (power : PowerOfTwo sectorSize) : sectorSize.toNat ∣ 2 ^ 64 := by
  obtain ⟨k,size⟩ := power
  have width := sectorSize.toNat_lt
  rw [size] at width ⊢
  exact Nat.pow_dvd_pow 2 (by have := (Nat.pow_lt_pow_iff_right (by decide : 1 < 2)).mp width; omega)

theorem PowerOfTwo.dvd_max {a b : UInt32} (first : PowerOfTwo a) (second : PowerOfTwo b) :
    a.toNat ∣ (max a b).toNat ∧ b.toNat ∣ (max a b).toNat := by
  obtain ⟨j,size⟩ := first
  obtain ⟨k,size'⟩ := second
  rw [UInt32.toNat_max,size,size']
  rcases Nat.le_total j k with le | le
  · rw [Nat.max_eq_right (Nat.pow_le_pow_right (by decide) le)]
    exact ⟨Nat.pow_dvd_pow 2 le,Nat.dvd_refl _⟩
  · rw [Nat.max_eq_left (Nat.pow_le_pow_right (by decide) le)]
    exact ⟨Nat.dvd_refl _,Nat.pow_dvd_pow 2 le⟩

def filled (totalBytes : UInt64) (value : UInt8) : Disk := ⟨totalBytes,fun _ => value⟩

/-- The loop ended without an error, and the disk it left passes a test. -/
def endsWith (run : Option (Mutation Disk)) (test : Disk → Bool) : Bool :=
  match run with
  | some (.ok _,disk) => test disk
  | _ => false

theorem exists_of_endsWith {run : Option (Mutation Disk)} {test : Disk → Bool} (passed : endsWith run test = true) :
    ∃ disk, run = some (.ok (),disk) ∧ test disk = true := by
  unfold endsWith at passed
  split at passed
  next disk => exact ⟨disk,rfl,passed⟩
  next => cases passed

end SetecWizard.Core
