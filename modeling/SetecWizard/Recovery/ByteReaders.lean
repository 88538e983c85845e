import SetecWizard.Core.PartitionScan
import SetecWizard.Core.FileRecovery
import SetecWizard.Recovery.WholeReads
import SetecWizard.Imaging.Sectors

/-! The three readers of bytes that need not lie on sector boundaries. Each reads whole
sectors and cuts the bytes out of them; they differ in how many sectors they ask for.
-/
namespace SetecWizard.Core.PartitionRecovery
open SetecWizard.Library

variable {sectorSize : UInt32}

/-- A size rounded up to sectors with 32-bit numbers; the sum with the size of a sector may
leave nothing of it. -/
theorem rounded (positive : 0 < sectorSize.toNat) (n : UInt32) :
    ((n + sectorSize - 1) / sectorSize).toNat * sectorSize.toNat =
      if n.toNat + sectorSize.toNat ≤ 2 ^ 32 then roundUp n.toNat sectorSize.toNat else 0 := by
  have one : (1 : UInt32).toNat = 1 := rfl
  have width := sectorSize.toNat_lt
  have short := n.toNat_lt
  have last : (n + sectorSize - 1).toNat = (n.toNat + sectorSize.toNat - 1) % 2 ^ 32 := by
    rw [UInt32.toNat_sub,UInt32.toNat_add,one]
    omega
  rw [UInt32.toNat_div,last]
  split
  next fits => rw [Nat.mod_eq_of_lt (by omega),roundUp]
  next wraps =>
    have below : (n.toNat + sectorSize.toNat - 1) % 2 ^ 32 < sectorSize.toNat := by omega
    rw [Nat.div_eq_of_lt below,Nat.zero_mul]

theorem cut_iff {store : Nat → UInt8} {start len : Nat} {inOffset size : UInt32} :
    (¬ len < (inOffset + size).toNat ∧ slice (window store start len) inOffset.toNat size.toNat =
      window store (start + inOffset.toNat) size.toNat) ↔ inOffset.toNat + size.toNat ≤ len := by
  have sum : (inOffset + size).toNat = (inOffset.toNat + size.toNat) % 2 ^ 32 := UInt32.toNat_add _ _
  constructor
  · rintro ⟨enough,same⟩
    have lengths := congrArg List.length same
    rw [slice,List.length_take,List.length_drop,length_window,length_window] at lengths
    have small := inOffset.toNat_lt
    rcases Nat.eq_zero_or_pos size.toNat with none | some_byte
    · omega
    · omega
  · intro within
    refine ⟨by omega,slice_window _ _ _ _ _ within⟩

theorem readSectors_full {os : Win32} (full : os.ReadsInFull) (disk : Disk) (lba count : UInt64) :
    RawDiskHandle.readSectors os disk lba count sectorSize =
      RawDiskHandle.readSectors .working disk lba count sectorSize := by
  unfold RawDiskHandle.readSectors
  simp only [full _ _,Win32.working]

section Reading

variable (disk : Disk) {abs : UInt64}

theorem sector_of (positive : 0 < sectorSize.toNat) (abs : UInt64) :
    (abs / sectorSize.toUInt64 * sectorSize.toUInt64).toNat + (abs % sectorSize.toUInt64).toUInt32.toNat = abs.toNat ∧
      (abs % sectorSize.toUInt64).toUInt32.toNat = abs.toNat % sectorSize.toNat := by
  have below := Nat.mod_lt abs.toNat positive
  have width := sectorSize.toNat_lt
  have part : (abs % sectorSize.toUInt64).toUInt32.toNat = abs.toNat % sectorSize.toNat := by
    rw [UInt64.toNat_toUInt32,UInt64.toNat_mod,UInt32.toNat_toUInt64]
    exact Nat.mod_eq_of_lt (by omega)
  rw [part,sector_floor]
  exact ⟨Nat.div_add_mod' _ _,rfl⟩

variable (positive : 0 < sectorSize.toNat)
include positive

theorem range_read_iff {size : UInt32} {n : Nat} (inside : abs.toNat + size.toNat ≤ disk.totalBytes.toNat) :
    (¬ disk.reach (abs / sectorSize.toUInt64 * sectorSize.toUInt64).toNat n <
        ((abs % sectorSize.toUInt64).toUInt32 + size).toNat ∧
      slice (window disk.byte (abs / sectorSize.toUInt64 * sectorSize.toUInt64).toNat
          (disk.reach (abs / sectorSize.toUInt64 * sectorSize.toUInt64).toNat n))
        (abs % sectorSize.toUInt64).toUInt32.toNat size.toNat = window disk.byte abs.toNat size.toNat) ↔
      abs.toNat % sectorSize.toNat + size.toNat ≤ n := by
  obtain ⟨sum,part⟩ := sector_of positive abs
  rw [← sum,cut_iff,sum,part,Disk.reach]
  omega

variable {os : Win32} (full : os.ReadsInFull)
include full

theorem probeReadFunc_exact_iff {lba offset : UInt64} {size : UInt32}
    (inside : (lba * sectorSize.toUInt64 + offset).toNat + size.toNat ≤ disk.totalBytes.toNat) :
    probeReadFunc os disk sectorSize lba offset size =
        .ok (window disk.byte (lba * sectorSize.toUInt64 + offset).toNat size.toNat) ↔
      (lba * sectorSize.toUInt64 + offset).toNat % sectorSize.toNat + size.toNat ≤
        ((size + sectorSize - 1) / sectorSize).toNat * sectorSize.toNat := by
  rw [← range_read_iff disk positive inside]
  simp only [probeReadFunc,count_aligned positive,readSectors_full full,
    readSectors_counted disk _ _ (sectors_below size sectorSize)]
  rw [length_window]
  split
  next short => exact ⟨fun impossible => (by cases impossible),fun both => absurd short both.1⟩
  next enough => exact ⟨fun same => ⟨enough,Except.ok.inj same⟩,fun both => congrArg _ both.2⟩

theorem readAbsolute_eq {size : UInt32} (inside : abs.toNat + size.toNat ≤ disk.totalBytes.toNat)
    (enough : abs.toNat % sectorSize.toNat + size.toNat ≤
      ((size + sectorSize - 1) / sectorSize).toNat * sectorSize.toNat) :
    readAbsolute os disk sectorSize abs size = window disk.byte abs.toNat size.toNat := by
  obtain ⟨long,same⟩ := (range_read_iff disk positive inside).mpr enough
  simp only [readAbsolute,count_aligned positive,readSectors_full full,
    readSectors_counted disk _ _ (sectors_below size sectorSize)]
  rw [length_window,if_neg long,same]

theorem readPartitionBytes_exact_iff {env : RecoveryEnv} (device : env.device = os) {r : FileRecovery}
    (same : r.sectorSize = sectorSize) {offset : UInt64} {size : UInt32}
    (absolute : abs = r.partStart * sectorSize.toUInt64 + offset)
    (inside : abs.toNat + size.toNat ≤ disk.totalBytes.toNat) :
    FileRecovery.readPartitionBytes env r disk offset size = .ok (window disk.byte abs.toNat size.toNat) ↔
      abs.toNat % sectorSize.toNat + size.toNat ≤
        (((abs % sectorSize.toUInt64).toUInt32 + size + sectorSize - 1) / sectorSize).toNat * sectorSize.toNat := by
  rw [← range_read_iff disk positive inside]
  simp only [FileRecovery.readPartitionBytes,device,same,← absolute,count_aligned positive,readSectors_full full,
    readSectors_counted disk _ _ (sectors_below ((abs % sectorSize.toUInt64).toUInt32 + size) sectorSize)]
  rw [length_window]
  split
  next short => exact ⟨fun impossible => (by cases impossible),fun both => absurd short both.1⟩
  next enough => exact ⟨fun same => ⟨enough,Except.ok.inj same⟩,fun both => congrArg _ both.2⟩

end Reading

/-- The range of bytes fits the sectors its size alone would take, and these are counted
without a wrap. -/
def FitsRounded (sectorSize : UInt32) (offset : UInt64) (size : UInt32) : Prop :=
  offset.toNat % sectorSize.toNat + size.toNat ≤ roundUp size.toNat sectorSize.toNat ∧
    offset.toNat % sectorSize.toNat + size.toNat + sectorSize.toNat ≤ 2 ^ 32

/-- All three readers return the bytes of a range. -/
def ReadersExact (env : RecoveryEnv) (disk : Disk) (sectorSize : UInt32) (lba partSectors offset : UInt64)
    (size : UInt32) : Prop :=
  let bytes := window disk.byte (lba.toNat * sectorSize.toNat + offset.toNat) size.toNat
  probeReadFunc env.device disk sectorSize lba offset size = .ok bytes ∧
    readAbsolute env.device disk sectorSize (lba * sectorSize.toUInt64 + offset) size = bytes ∧
    FileRecovery.readPartitionBytes env ⟨lba,partSectors,sectorSize⟩ disk offset size = .ok bytes

theorem readers_exact_iff {env : RecoveryEnv} (full : env.device.ReadsInFull) {disk : Disk}
    (positive : 0 < sectorSize.toNat) {lba partSectors offset : UInt64} {size : UInt32}
    (inside : lba.toNat * sectorSize.toNat + offset.toNat + size.toNat ≤ disk.totalBytes.toNat) :
    ReadersExact env disk sectorSize lba partSectors offset size ↔ FitsRounded sectorSize offset size := by
  have bound := disk.totalBytes.toNat_lt
  have width := sectorSize.toNat_lt
  have short := size.toNat_lt
  obtain ⟨abs,absolute⟩ : ∃ abs, abs = lba * sectorSize.toUInt64 + offset := ⟨_,rfl⟩
  have place : abs.toNat = lba.toNat * sectorSize.toNat + offset.toNat := by
    rw [absolute,UInt64.toNat_add,UInt64.toNat_mul,UInt32.toNat_toUInt64,
      Nat.mod_eq_of_lt (by omega : lba.toNat * sectorSize.toNat < 2 ^ 64),Nat.mod_eq_of_lt (by omega)]
  have within : abs.toNat % sectorSize.toNat = offset.toNat % sectorSize.toNat := by
    rw [place,Nat.mul_add_mod_self_right]
  have below := Nat.mod_lt offset.toNat positive
  have reached : abs.toNat + size.toNat ≤ disk.totalBytes.toNat := by omega
  have first := @probeReadFunc_exact_iff sectorSize disk positive _ full lba offset size (by rw [← absolute]; exact reached)
  have second := @readAbsolute_eq sectorSize disk abs positive _ full size reached
  have third := @readPartitionBytes_exact_iff sectorSize disk abs positive _ full env rfl ⟨lba,partSectors,sectorSize⟩ rfl
    offset size absolute reached
  have low : (abs % sectorSize.toUInt64).toUInt32.toNat = offset.toNat % sectorSize.toNat :=
    (sector_of positive abs).2.trans within
  rw [← absolute,rounded positive,within] at first
  rw [rounded positive,within] at second
  rw [rounded positive,within] at third
  have above := le_roundUp (n := size.toNat) positive
  have sum : ((abs % sectorSize.toUInt64).toUInt32 + size).toNat =
      (offset.toNat % sectorSize.toNat + size.toNat) % 2 ^ 32 := by rw [UInt32.toNat_add,low]
  rw [ReadersExact,← place,← absolute,first,third]
  constructor
  · rintro ⟨fits,_,counted⟩
    rw [sum] at counted
    constructor
    · split at fits
      next => exact fits
      next => omega
    · have close := roundUp_lt (n := (offset.toNat % sectorSize.toNat + size.toNat) % 2 ^ 32) positive
      split at counted
      next => omega
      next => omega
  · rintro ⟨fits,counted⟩
    have single : (offset.toNat % sectorSize.toNat + size.toNat) % 2 ^ 32 =
        offset.toNat % sectorSize.toNat + size.toNat := Nat.mod_eq_of_lt (by omega)
    rw [if_pos (by omega)] at second ⊢
    refine ⟨fits,second fits,?_⟩
    rw [sum,single,if_pos (by omega)]
    exact le_roundUp positive

/-- A range that takes up a whole sector is one all readers return. -/
theorem sector_exact : ReadersExact {} (filled 4096 0) 512 1 7 512 512 :=
  (readers_exact_iff Win32.working_readsInFull (by decide) (by decide)).mpr ⟨by decide,by decide⟩

/-- Four bytes across the end of a sector are not returned. -/
theorem straddling_underflow : ¬ ReadersExact {} (filled 4096 0) 512 1 7 510 4 := by
  rintro ⟨read,_⟩
  have beyond := (probeReadFunc_exact_iff (filled 4096 0) (by decide) Win32.working_readsInFull (by decide)).mp read
  exact absurd beyond (by decide)

end SetecWizard.Core.PartitionRecovery
