import SetecWizard.Recovery.ByteReaders
import SetecWizard.Format.Integers
import Mathlib.Data.Nat.Prime.Basic

/-! The sizes that superblocks give their filesystems. Each is a number of blocks times a
size, computed with 64-bit numbers; what it should be is the product of the two that the
superblock stores.
-/
namespace SetecWizard.Core.PartitionRecovery
open SetecWizard.Library

section Products

def fitting (count unit : Nat) : Nat := if count * unit < 2 ^ 64 then count * unit else 0

def Fits (count unit : Nat) : Prop := count * unit < 2 ^ 64 ∨ 2 ^ 64 ∣ count * unit

variable {count unit other : Nat}

theorem wrapped_eq_fitting_iff : count * unit % 2 ^ 64 = fitting count unit ↔ Fits count unit := by
  unfold fitting Fits
  split
  next fits => exact ⟨fun _ => .inl fits,fun _ => Nat.mod_eq_of_lt fits⟩
  next wraps =>
    rw [← Nat.dvd_iff_mod_eq_zero]
    exact ⟨.inr,fun either => either.resolve_left wraps⟩

theorem word_dvd_gcd {d : Nat} (multiple : 2 ^ 64 ∣ count * d) : 2 ^ 64 ∣ count * Nat.gcd d (2 ^ 64) := by
  rw [← Nat.gcd_mul_left]
  exact Nat.dvd_gcd multiple (Nat.dvd_mul_left _ _)

/-- Where two units give a count the same low bits, and one product fits, the units are the
same, or that product is 0. The other unit is a power of two. -/
theorem units_agree {k : Nat} (power : other = 2 ^ k) (fits : count * unit < 2 ^ 64) (some_byte : 0 < count * unit)
    (same : count * other % 2 ^ 64 = count * unit) : unit = other := by
  have some_block : 0 < count := Nat.pos_of_mul_pos_right some_byte
  have some_unit : 0 < unit := Nat.pos_of_mul_pos_left some_byte
  -- the common divisor of the distance with the word size exceeds the unit
  have beyond : ∀ d, 0 < d → 2 ^ 64 ∣ count * d → unit < Nat.gcd d (2 ^ 64) := by
    intro d apart multiple
    have least := Nat.le_of_dvd (Nat.mul_pos some_block (Nat.gcd_pos_of_pos_left _ apart)) (word_dvd_gcd multiple)
    exact (Nat.mul_lt_mul_left some_block).mp (by omega)
  have split := Nat.div_add_mod (count * other) (2 ^ 64)
  rw [same] at split
  rcases Nat.lt_trichotomy unit other with less | equal | more
  · have distance : count * (other - unit) = 2 ^ 64 * (count * other / 2 ^ 64) := by
      rw [Nat.mul_sub]
      omega
    obtain ⟨g,named⟩ : ∃ g, g = Nat.gcd (other - unit) (2 ^ 64) := ⟨_,rfl⟩
    have larger := beyond (other - unit) (by omega) ⟨_,distance⟩
    have divides : g ∣ other - unit := named ▸ Nat.gcd_dvd_left _ _
    have word : g ∣ 2 ^ 64 := named ▸ Nat.gcd_dvd_right _ _
    obtain ⟨j,_,exponent⟩ := (Nat.dvd_prime_pow Nat.prime_two).mp word
    have at_most : 2 ^ j ≤ 2 ^ k := by
      have bound := Nat.le_of_dvd (by omega) divides
      rw [← exponent,← power]
      omega
    have whole : g ∣ other := by
      rw [exponent,power]
      exact Nat.pow_dvd_pow 2 ((Nat.pow_le_pow_iff_right (by decide)).mp at_most)
    have part : g ∣ unit := by
      have rest := Nat.dvd_sub whole divides
      rwa [Nat.sub_sub_self less.le] at rest
    have limit := Nat.le_of_dvd some_unit part
    omega
  · exact equal
  · have wide : count * other ≤ count * unit := Nat.mul_le_mul_left _ more.le
    rw [Nat.mod_eq_of_lt (by omega)] at same
    exact (Nat.eq_of_mul_eq_mul_left some_block same).symm

theorem wrapped_other_iff {k : Nat} (power : other = 2 ^ k) :
    count * other % 2 ^ 64 = fitting count unit ↔
      (unit = other ∧ count * unit < 2 ^ 64) ∨
        (2 ^ 64 ∣ count * other ∧ (count * unit = 0 ∨ 2 ^ 64 ≤ count * unit)) := by
  unfold fitting
  split
  next fits =>
    rcases Nat.eq_zero_or_pos (count * unit) with zero | some_byte
    · rw [zero,← Nat.dvd_iff_mod_eq_zero]
      constructor
      · exact fun multiple => .inr ⟨multiple,.inl rfl⟩
      · rintro (⟨same,_⟩ | ⟨multiple,_⟩)
        · rw [← same,zero]
          exact Nat.dvd_zero _
        · exact multiple
    · constructor
      · intro same
        exact .inl ⟨units_agree power fits some_byte same,fits⟩
      · rintro (⟨same,_⟩ | ⟨_,zero | large⟩)
        · rw [← same]
          exact Nat.mod_eq_of_lt fits
        · omega
        · omega
  next wraps =>
    rw [← Nat.dvd_iff_mod_eq_zero]
    constructor
    · exact fun multiple => .inr ⟨multiple,.inr (Nat.not_lt.mp wraps)⟩
    · rintro (⟨_,fits⟩ | ⟨multiple,_⟩)
      · exact absurd fits wraps
      · exact multiple

end Products

section Reading

variable {os : Win32} (full : os.ReadsInFull) {disk : Disk} {sectorSize : UInt32}
include full

theorem readAbsolute_fitting (positive : 0 < sectorSize.toNat) (moderate : sectorSize.toNat ≤ 4096) {abs : UInt64}
    {size : UInt32} (some_byte : 0 < size.toNat) (short : size.toNat ≤ 1024)
    (fits : abs.toNat % sectorSize.toNat + size.toNat ≤ roundUp size.toNat sectorSize.toNat) :
    readAbsolute os disk sectorSize abs size =
      if abs.toNat + size.toNat ≤ disk.totalBytes.toNat then window disk.byte abs.toNat size.toNat else [] := by
  have counted := rounded positive size
  rw [if_pos (by omega)] at counted
  split
  next inside => exact readAbsolute_eq disk positive full inside (by rw [counted]; exact fits)
  next outside =>
    obtain ⟨sum,part⟩ := sector_of positive abs
    have below := Nat.mod_lt abs.toNat positive
    have small : ((abs % sectorSize.toUInt64).toUInt32 + size).toNat = abs.toNat % sectorSize.toNat + size.toNat := by
      rw [UInt32.toNat_add,part]
      exact Nat.mod_eq_of_lt (by omega)
    simp only [readAbsolute,count_aligned positive,readSectors_full full,
      readSectors_counted disk _ _ (sectors_below size sectorSize)]
    rw [length_window,if_pos]
    rw [small,Disk.reach]
    omega

end Reading

/-- Where the superblock of a filesystem lies from its start on, and how much of it is read. -/
def superblockPlace : FilesystemType → Nat × Nat
  | .ext2 | .ext3 | .ext4 => (1024,512)
  | .btrfs => (0x10000,256)
  | _ => (0,512)

/-- Two numbers whose product a superblock gives as the size: those of blocks, and of the bytes
of one. -/
def storedSize (sb : List UInt8) : FilesystemType → Nat × Nat
  | .ntfs => ((readLE64 sb 0x28).toNat,(readLE16 sb 0x0B).toNat)
  | .fat32 | .fat16 | .fat12 =>
    (if readLE16 sb 0x13 ≠ 0 then (readLE16 sb 0x13).toNat else (readLE32 sb 0x20).toNat,(readLE16 sb 0x0B).toNat)
  | .exFat => ((readLE64 sb 0x48).toNat,2 ^ (sb.getD 0x6C 0).toNat)
  | .ext2 | .ext3 | .ext4 =>
    ((readLE32 sb 4).toNat + if readLE32 sb 0x60 &&& INCOMPAT_64BIT ≠ 0 then 2 ^ 32 * (readLE32 sb 0x150).toNat else 0,
      1024 * 2 ^ (readLE32 sb 24).toNat)
  | .btrfs => ((readLE64 sb 0x70).toNat,1)
  | .xfs => ((readBE64 sb 8).toNat,(readBE32 sb 4).toNat)
  | .other => (0,0)

/-- What an estimate is to be: made of accesses inside the buffers and of shifts that are
defined, and the stored size where it can be read and fits. -/
structure Sound (disk : Disk) (start : Nat) (type : FilesystemType) (estimate : Estimate) : Prop where
  inside : ∀ a ∈ estimate.accesses, a.Inside
  shifts : ∀ amount ∈ estimate.shifts, amount.toNat < 64
  bytes : estimate.bytes.toNat =
    let place := superblockPlace type
    if start + place.1 + place.2 ≤ disk.totalBytes.toNat then
      let size := storedSize (window disk.byte (start + place.1) place.2) type
      fitting size.1 size.2
    else 0

/-- The superblocks the estimate is right about; for ext the second argument says that a
whole superblock can be read. -/
def Estimable (sectorSize : UInt32) (whole : Prop) (sb : List UInt8) (type : FilesystemType) : Prop :=
  let count := (storedSize sb type).1
  let unit := (storedSize sb type).2
  match type with
  | .ntfs =>
    (unit = sectorSize.toNat ∧ count * unit < 2 ^ 64) ∨
      (2 ^ 64 ∣ count * sectorSize.toNat ∧ (count * unit = 0 ∨ 2 ^ 64 ≤ count * unit))
  | .fat32 | .fat16 | .fat12 => unit ≠ 0 ∨ count = 0
  | .exFat =>
    if 0 < sb.getD 0x6C 0 ∧ sb.getD 0x6C 0 ≤ 12 then Fits count unit
    else count = 0 ∨ (12 < sb.getD 0x6C 0 ∧ 2 ^ 64 ∣ count * sectorSize.toNat)
  | .ext2 | .ext3 | .ext4 =>
    (readLE32 sb 24).toNat < 64 ∧ (readLE32 sb 0x60 &&& INCOMPAT_64BIT ≠ 0 → ¬ whole) ∧
      ((count = (readLE32 sb 4).toNat ∧ count * unit < 2 ^ 64) ∨
        (2 ^ 64 ≤ count * unit ∧ 2 ^ 64 ∣ (readLE32 sb 4).toNat * unit))
  | .xfs => Fits count unit
  | .btrfs | .other => True

section Formats

variable {sectorSize : UInt32} {disk : Disk} {sb : List UInt8}

theorem ntfsSize_bytes (long : sb.length = 512) :
    (ntfsSize sectorSize sb).bytes.toNat = (storedSize sb .ntfs).1 * sectorSize.toNat % 2 ^ 64 := by
  rw [ntfsSize,if_neg (by omega)]
  exact UInt64.toNat_mul _ _

theorem fatSize_bytes (long : sb.length = 512) (small : sectorSize.toNat < 2 ^ 16) :
    (fatSize sectorSize sb).bytes.toNat = (storedSize sb .fat32).1 *
      (if (storedSize sb .fat32).2 = 0 then sectorSize.toNat else (storedSize sb .fat32).2) := by
  have first := (readLE16 sb 0x13).toNat_lt
  have second := (readLE32 sb 0x20).toNat_lt
  have third := (readLE16 sb 0x0B).toNat_lt
  have zero : readLE16 sb 0x0B = 0 ↔ (readLE16 sb 0x0B).toNat = 0 := by
    rw [← UInt16.toNat_inj]
    rfl
  have unit : (if readLE16 sb 0x0B = 0 then sectorSize.toUInt16 else readLE16 sb 0x0B).toNat =
      if (readLE16 sb 0x0B).toNat = 0 then sectorSize.toNat else (readLE16 sb 0x0B).toNat := by
    split
    next none => rw [if_pos (zero.mp none),UInt32.toNat_toUInt16,Nat.mod_eq_of_lt small]
    next some_byte => rw [if_neg (fun none => some_byte (zero.mpr none))]
  have count : (if readLE16 sb 0x13 ≠ 0 then (readLE16 sb 0x13).toUInt64 else (readLE32 sb 0x20).toUInt64).toNat =
      (storedSize sb .fat32).1 := by
    rw [apply_ite UInt64.toNat,UInt16.toNat_toUInt64,UInt32.toNat_toUInt64]
    rfl
  have narrow : (storedSize sb .fat32).1 < 2 ^ 32 := by
    simp only [storedSize]
    split <;> omega
  rw [fatSize,if_neg (by omega)]
  simp only [UInt64.toNat_mul,UInt16.toNat_toUInt64,count,unit]
  refine Nat.mod_eq_of_lt ?_
  have limit : (if (readLE16 sb 0x0B).toNat = 0 then sectorSize.toNat else (readLE16 sb 0x0B).toNat) < 2 ^ 16 := by
    split <;> omega
  exact Nat.lt_of_lt_of_le (Nat.mul_lt_mul_of_lt_of_lt narrow limit) (by decide)

theorem exFatSize_bytes (long : sb.length = 512) :
    (exFatSize sectorSize sb).bytes.toNat = (storedSize sb .exFat).1 *
      (if 0 < sb.getD 0x6C 0 ∧ sb.getD 0x6C 0 ≤ 12 then (storedSize sb .exFat).2 else sectorSize.toNat) % 2 ^ 64 := by
  rw [exFatSize,if_neg (by omega)]
  simp only [UInt64.toNat_mul,UInt32.toNat_toUInt64]
  split
  next listed =>
    have low : (sb.getD 0x6C 0).toNat ≤ 12 := UInt8.le_iff_toNat_le.mp listed.2
    have shifted : ((1 : UInt32) <<< (sb.getD 0x6C 0).toUInt32).toNat = 2 ^ (sb.getD 0x6C 0).toNat := by
      have bound : 2 ^ (sb.getD 0x6C 0).toNat < 2 ^ 32 := Nat.pow_lt_pow_right (by decide) (by omega)
      rw [UInt32.toNat_shiftLeft,UInt8.toNat_toUInt32,Nat.mod_eq_of_lt (by omega : (sb.getD 0x6C 0).toNat < 32),
        Nat.shiftLeft_eq]
      exact (congrArg (· % 2 ^ 32) (Nat.one_mul _)).trans (Nat.mod_eq_of_lt bound)
    rw [shifted]
    rfl
  next => rfl

theorem xfsSize_bytes (long : sb.length = 512) :
    (xfsSize sb).bytes.toNat = (storedSize sb .xfs).1 * (storedSize sb .xfs).2 % 2 ^ 64 := by
  rw [xfsSize,if_neg (by omega)]
  simp only [UInt64.toNat_mul,UInt32.toNat_toUInt64,storedSize]

theorem extBytes (lo log : UInt32) (defined : log.toNat < 64) :
    (lo.toUInt64 * (1024 <<< log.toUInt64 : UInt64)).toNat = lo.toNat * (1024 * 2 ^ log.toNat) % 2 ^ 64 := by
  have unit : (1024 : UInt64).toNat = 1024 := rfl
  rw [UInt64.toNat_mul,UInt64.toNat_shiftLeft,UInt32.toNat_toUInt64,UInt32.toNat_toUInt64,unit,
    Nat.mod_eq_of_lt defined,Nat.shiftLeft_eq,Nat.mul_mod_mod]

/-- Without a second read nothing outside the first one is touched. -/
theorem extSize_plain {sbFull : List UInt8} (long : sb.length = 512)
    (plain : readLE32 sb 0x60 &&& INCOMPAT_64BIT = 0 ∨ sbFull = []) :
    (extSize sb sbFull).bytes = (readLE32 sb 4).toUInt64 * (1024 <<< (readLE32 sb 24).toUInt64) ∧
      (extSize sb sbFull).shifts = [readLE32 sb 24] ∧ ∀ a ∈ (extSize sb sbFull).accesses, a.Inside := by
  rw [extSize,if_neg (by omega),if_pos (by omega)]
  rcases plain with unset | none
  · rw [if_neg (not_not_intro unset)]
    refine ⟨rfl,rfl,?_⟩
    simp [Access.Inside,long]
  · rw [none]
    split
    next =>
      refine ⟨rfl,rfl,?_⟩
      simp [Access.Inside,long]
    next =>
      refine ⟨rfl,rfl,?_⟩
      simp [Access.Inside,long]

theorem extSize_stray {sbFull : List UInt8} (long : sb.length = 512) (full : sbFull.length = 1024)
    (flagged : readLE32 sb 0x60 &&& INCOMPAT_64BIT ≠ 0) : ¬ ∀ a ∈ (extSize sb sbFull).accesses, a.Inside := by
  rw [extSize,if_neg (by omega),if_pos (by omega),if_pos flagged,if_pos (by omega)]
  intro inside
  have stray := inside ⟨sbFull.length,strayIndex,4⟩ (by simp)
  rw [Access.Inside,full,strayIndex] at stray
  exact absurd stray (by decide)

variable {start : Nat} {type : FilesystemType} {estimate : Estimate} {whole : Prop}

theorem sound_unreadable
    (unreadable : ¬ start + (superblockPlace type).1 + (superblockPlace type).2 ≤ disk.totalBytes.toNat) :
    Sound disk start type { bytes := 0 } :=
  ⟨fun _ member => absurd member List.not_mem_nil,fun _ member => absurd member List.not_mem_nil,
    (if_neg unreadable).symm⟩

theorem sound_readable
    (readable : start + (superblockPlace type).1 + (superblockPlace type).2 ≤ disk.totalBytes.toNat)
    (named : sb = window disk.byte (start + (superblockPlace type).1) (superblockPlace type).2) :
    Sound disk start type estimate ↔ (∀ a ∈ estimate.accesses, a.Inside) ∧
      (∀ amount ∈ estimate.shifts, amount.toNat < 64) ∧
      estimate.bytes.toNat = fitting (storedSize sb type).1 (storedSize sb type).2 := by
  constructor
  · rintro ⟨inside,shifts,bytes⟩
    rw [named]
    exact ⟨inside,shifts,bytes.trans (if_pos readable)⟩
  · rintro ⟨inside,shifts,bytes⟩
    rw [named] at bytes
    exact ⟨inside,shifts,bytes.trans (if_pos readable).symm⟩

theorem ntfs_estimable (long : sb.length = 512) {k : Nat} (power : sectorSize.toNat = 2 ^ k) :
    (ntfsSize sectorSize sb).bytes.toNat = fitting (storedSize sb .ntfs).1 (storedSize sb .ntfs).2 ↔
      Estimable sectorSize whole sb .ntfs := by
  rw [ntfsSize_bytes long]
  exact wrapped_other_iff power

theorem fat_estimable (long : sb.length = 512) (positive : 0 < sectorSize.toNat) (small : sectorSize.toNat < 2 ^ 16) :
    (fatSize sectorSize sb).bytes.toNat = fitting (storedSize sb .fat32).1 (storedSize sb .fat32).2 ↔
      Estimable sectorSize whole sb .fat32 := by
  have count : (storedSize sb .fat32).1 < 2 ^ 32 := by
    have first := (readLE16 sb 0x13).toNat_lt
    have second := (readLE32 sb 0x20).toNat_lt
    simp only [storedSize]
    split <;> omega
  have unit : (storedSize sb .fat32).2 < 2 ^ 16 := (readLE16 sb 0x0B).toNat_lt
  have fits : (storedSize sb .fat32).1 * (storedSize sb .fat32).2 < 2 ^ 64 :=
    Nat.lt_of_lt_of_le (Nat.mul_lt_mul_of_lt_of_lt count unit) (by decide)
  rw [fatSize_bytes long small,fitting,if_pos fits,Estimable]
  split
  next none =>
    rw [none,Nat.mul_zero,Nat.mul_eq_zero]
    omega
  next some_byte => exact ⟨fun _ => .inl some_byte,fun _ => rfl⟩

theorem exFat_estimable (long : sb.length = 512) {k : Nat} (power : sectorSize.toNat = 2 ^ k)
    (several : 1 < sectorSize.toNat) (moderate : sectorSize.toNat ≤ 4096) :
    (exFatSize sectorSize sb).bytes.toNat = fitting (storedSize sb .exFat).1 (storedSize sb .exFat).2 ↔
      Estimable sectorSize whole sb .exFat := by
  have unit : (storedSize sb .exFat).2 = 2 ^ (sb.getD 0x6C 0).toNat := rfl
  have twelve : (12 : UInt8).toNat = 12 := rfl
  have zero : (0 : UInt8).toNat = 0 := rfl
  have count : (storedSize sb .exFat).1 < 2 ^ 64 := (readLE64 sb 0x48).toNat_lt
  rw [exFatSize_bytes long,Estimable]
  simp only [UInt8.lt_iff_toNat_lt,UInt8.le_iff_toNat_le,twelve,zero]
  obtain ⟨c,count_eq⟩ : ∃ c, c = (storedSize sb .exFat).1 := ⟨_,rfl⟩
  obtain ⟨u,unit_eq⟩ : ∃ u, u = (storedSize sb .exFat).2 := ⟨_,rfl⟩
  rw [← count_eq] at count
  rw [← unit_eq] at unit
  rw [← count_eq,← unit_eq]
  split
  next => exact wrapped_eq_fitting_iff
  next unlisted =>
    rw [wrapped_other_iff power]
    have some_byte : 0 < u := by
      rw [unit]
      exact Nat.two_pow_pos _
    rcases Nat.eq_zero_or_pos (sb.getD 0x6C 0).toNat with none | some_shift
    · have one : u = 1 := by rw [unit,none,Nat.pow_zero]
      rw [one,Nat.mul_one,none]
      constructor
      · rintro (⟨same,_⟩ | ⟨_,empty | large⟩)
        · omega
        · exact .inl empty
        · omega
      · rintro (empty | ⟨impossible,_⟩)
        · rw [empty,Nat.zero_mul]
          exact .inr ⟨Nat.dvd_zero _,.inl rfl⟩
        · omega
    · have beyond : 12 < (sb.getD 0x6C 0).toNat := by omega
      have larger : sectorSize.toNat < u := by
        have power' := Nat.pow_lt_pow_right (by decide : 1 < 2) beyond
        rw [unit]
        omega
      constructor
      · rintro (⟨same,_⟩ | ⟨multiple,_⟩)
        · omega
        · exact .inr ⟨beyond,multiple⟩
      · rintro (empty | ⟨_,multiple⟩)
        · rw [empty,Nat.zero_mul,Nat.zero_mul]
          exact .inr ⟨Nat.dvd_zero _,.inl rfl⟩
        · refine .inr ⟨multiple,?_⟩
          rcases Nat.eq_zero_or_pos c with empty | some_block
          · exact .inl (by rw [empty,Nat.zero_mul])
          · have least := Nat.le_of_dvd (Nat.mul_pos some_block (by omega)) multiple
            have wide : c * sectorSize.toNat ≤ c * u := Nat.mul_le_mul_left _ larger.le
            exact .inr (by omega)

theorem ext_product {lo count unit : Nat} (some_byte : 0 < unit) (low : lo ≤ count) :
    lo * unit % 2 ^ 64 = fitting count unit ↔
      (count = lo ∧ count * unit < 2 ^ 64) ∨ (2 ^ 64 ≤ count * unit ∧ 2 ^ 64 ∣ lo * unit) := by
  have at_most : lo * unit ≤ count * unit := Nat.mul_le_mul_right _ low
  unfold fitting
  split
  next fits =>
    rw [Nat.mod_eq_of_lt (by omega)]
    constructor
    · exact fun same => .inl ⟨(Nat.eq_of_mul_eq_mul_right some_byte same).symm,fits⟩
    · rintro (⟨same,_⟩ | ⟨large,_⟩)
      · rw [same]
      · omega
  next wraps =>
    rw [← Nat.dvd_iff_mod_eq_zero]
    constructor
    · exact fun multiple => .inr ⟨Nat.not_lt.mp wraps,multiple⟩
    · rintro (⟨_,fits⟩ | ⟨_,multiple⟩)
      · exact absurd fits wraps
      · exact multiple

theorem format_sound_iff {f : List UInt8 → Estimate} (empty : f [] = { bytes := 0 })
    (plain : ∀ sb, sb.length = (superblockPlace type).2 → (f sb).shifts = [] ∧ ∀ a ∈ (f sb).accesses, a.Inside)
    (bytes : ∀ sb, sb.length = (superblockPlace type).2 →
      ((f sb).bytes.toNat = fitting (storedSize sb type).1 (storedSize sb type).2 ↔ Estimable sectorSize whole sb type)) :
    Sound disk start type (f (if start + (superblockPlace type).1 + (superblockPlace type).2 ≤ disk.totalBytes.toNat
        then window disk.byte (start + (superblockPlace type).1) (superblockPlace type).2 else [])) ↔
      (start + (superblockPlace type).1 + (superblockPlace type).2 ≤ disk.totalBytes.toNat →
        Estimable sectorSize whole
          (window disk.byte (start + (superblockPlace type).1) (superblockPlace type).2) type) := by
  split
  next readable =>
    have long := length_window disk.byte (start + (superblockPlace type).1) (superblockPlace type).2
    obtain ⟨shifts,inside⟩ := plain _ long
    rw [sound_readable readable rfl,shifts,bytes _ long]
    exact ⟨fun sound _ => sound.2.2,fun right => ⟨inside,fun _ member => absurd member List.not_mem_nil,right readable⟩⟩
  next unreadable =>
    rw [empty]
    exact ⟨fun _ readable => absurd readable unreadable,fun _ => sound_unreadable unreadable⟩

end Formats

section Estimates

def sectorSizes : List UInt32 := [512,1024,2048,4096]

variable {sectorSize : UInt32} (standard : sectorSize ∈ sectorSizes)
include standard

theorem sectorSizes_power : ∃ k, sectorSize.toNat = 2 ^ k := by
  simp only [sectorSizes,List.mem_cons,List.not_mem_nil,or_false] at standard
  rcases standard with rfl | rfl | rfl | rfl
  · exact ⟨9,rfl⟩
  · exact ⟨10,rfl⟩
  · exact ⟨11,rfl⟩
  · exact ⟨12,rfl⟩

theorem sectorSizes_range : 512 ≤ sectorSize.toNat ∧ sectorSize.toNat ≤ 4096 := by
  simp only [sectorSizes,List.mem_cons,List.not_mem_nil,or_false] at standard
  rcases standard with rfl | rfl | rfl | rfl <;> decide

theorem superblock_fits {off n : Nat} (listed : (off,n) ∈ [(0,512),(1024,512),(1024,1024),(0x10000,256)]) :
    off % sectorSize.toNat + n ≤ roundUp n sectorSize.toNat := by
  simp only [sectorSizes,List.mem_cons,List.not_mem_nil,or_false] at standard
  simp only [List.mem_cons,List.not_mem_nil,or_false,Prod.mk.injEq] at listed
  rcases standard with rfl | rfl | rfl | rfl <;>
    rcases listed with ⟨rfl,rfl⟩ | ⟨rfl,rfl⟩ | ⟨rfl,rfl⟩ | ⟨rfl,rfl⟩ <;> decide

variable {os : Win32} (full : os.ReadsInFull) {disk : Disk} {lba : UInt64}
  (within : lba.toNat * sectorSize.toNat ≤ disk.totalBytes.toNat) (signed : disk.totalBytes.toNat < 2 ^ 63)
include full within signed

theorem superblock_read {off : UInt64} {size : UInt32}
    (listed : (off.toNat,size.toNat) ∈ [(0,512),(1024,512),(1024,1024),(0x10000,256)]) :
    readAbsolute os disk sectorSize (lba * sectorSize.toUInt64 + off) size =
      if lba.toNat * sectorSize.toNat + off.toNat + size.toNat ≤ disk.totalBytes.toNat then
        window disk.byte (lba.toNat * sectorSize.toNat + off.toNat) size.toNat
      else [] := by
  have range := sectorSizes_range standard
  have fits := superblock_fits standard listed
  have bounds : off.toNat ≤ 0x10000 ∧ 0 < size.toNat ∧ size.toNat ≤ 1024 := by
    simp only [List.mem_cons,List.not_mem_nil,or_false,Prod.mk.injEq] at listed
    omega
  have place : (lba * sectorSize.toUInt64 + off).toNat = lba.toNat * sectorSize.toNat + off.toNat := by
    rw [UInt64.toNat_add,UInt64.toNat_mul,UInt32.toNat_toUInt64,
      Nat.mod_eq_of_lt (by omega : lba.toNat * sectorSize.toNat < 2 ^ 64),Nat.mod_eq_of_lt (by omega)]
  have same : (lba * sectorSize.toUInt64 + off).toNat % sectorSize.toNat = off.toNat % sectorSize.toNat := by
    rw [place,Nat.mul_add_mod_self_right]
  rw [readAbsolute_fitting full (by omega) range.2 bounds.2.1 bounds.2.2 (by rw [same]; exact fits),place]

theorem superblock_first : readAbsolute os disk sectorSize (lba * sectorSize.toUInt64) 512 =
    if lba.toNat * sectorSize.toNat + 0 + 512 ≤ disk.totalBytes.toNat then
      window disk.byte (lba.toNat * sectorSize.toNat + 0) 512
    else [] := by
  have read := @superblock_read sectorSize standard os full disk lba within signed 0 512 (by decide)
  rwa [UInt64.add_zero] at read

/-- A whole ext superblock can be read. -/
def WholeSuperblock (sectorSize : UInt32) (disk : Disk) (lba : UInt64) : Prop :=
  lba.toNat * sectorSize.toNat + 2048 ≤ disk.totalBytes.toNat

theorem ext_sound_iff {type : FilesystemType} (ext : type ∈ [.ext2,.ext3,.ext4]) :
    Sound disk (lba.toNat * sectorSize.toNat) type (estimatePartitionSize os disk sectorSize lba type) ↔
      (lba.toNat * sectorSize.toNat + 1024 + 512 ≤ disk.totalBytes.toNat →
        Estimable sectorSize (WholeSuperblock sectorSize disk lba)
          (window disk.byte (lba.toNat * sectorSize.toNat + 1024) 512) type) := by
  have first := @superblock_read sectorSize standard os full disk lba within signed 1024 512 (by decide)
  have second := @superblock_read sectorSize standard os full disk lba within signed 1024 1024 (by decide)
  have lengths : (1024 : UInt64).toNat = 1024 ∧ (512 : UInt32).toNat = 512 ∧ (1024 : UInt32).toNat = 1024 := by decide
  rw [lengths.1,lengths.2.1] at first
  rw [lengths.1,lengths.2.2] at second
  obtain ⟨start,named⟩ : ∃ start, start = lba.toNat * sectorSize.toNat := ⟨_,rfl⟩
  have estimated : estimatePartitionSize os disk sectorSize lba type = extSize
      (if start + 1024 + 512 ≤ disk.totalBytes.toNat then window disk.byte (start + 1024) 512 else [])
      (if start + 1024 + 1024 ≤ disk.totalBytes.toNat then window disk.byte (start + 1024) 1024 else []) := by
    rw [named,← first,← second]
    simp only [List.mem_cons,List.not_mem_nil,or_false] at ext
    rcases ext with rfl | rfl | rfl <;> rfl
  have place : superblockPlace type = (1024,512) := by
    simp only [List.mem_cons,List.not_mem_nil,or_false] at ext
    rcases ext with rfl | rfl | rfl <;> rfl
  have stored : ∀ sb, storedSize sb type = storedSize sb .ext4 := by
    simp only [List.mem_cons,List.not_mem_nil,or_false] at ext
    rcases ext with rfl | rfl | rfl <;> exact fun _ => rfl
  have estimable : ∀ sb, Estimable sectorSize (WholeSuperblock sectorSize disk lba) sb type =
      Estimable sectorSize (WholeSuperblock sectorSize disk lba) sb .ext4 := by
    simp only [List.mem_cons,List.not_mem_nil,or_false] at ext
    rcases ext with rfl | rfl | rfl <;> exact fun _ => rfl
  have whole : WholeSuperblock sectorSize disk lba ↔ start + 1024 + 1024 ≤ disk.totalBytes.toNat := by
    rw [WholeSuperblock,← named]
  rw [estimated,estimable,← named]
  by_cases readable : start + 1024 + 512 ≤ disk.totalBytes.toNat
  · rw [if_pos readable]
    obtain ⟨sb,content⟩ : ∃ sb, sb = window disk.byte (start + 1024) 512 := ⟨_,rfl⟩
    have long : sb.length = 512 := by rw [content,length_window]
    have some_byte : 0 < (storedSize sb .ext4).2 := Nat.mul_pos (by decide) (Nat.two_pow_pos _)
    have low : (readLE32 sb 4).toNat ≤ (storedSize sb .ext4).1 := Nat.le_add_right _ _
    rw [sound_readable (by rw [place]; exact readable) (by rw [place]),stored,← content]
    by_cases stray : readLE32 sb 0x60 &&& INCOMPAT_64BIT ≠ 0 ∧ start + 1024 + 1024 ≤ disk.totalBytes.toNat
    · rw [if_pos stray.2]
      constructor
      · rintro ⟨inside,_⟩
        exact absurd inside (extSize_stray long (length_window _ _ _) stray.1)
      · intro right
        exact absurd (whole.mpr stray.2) ((right readable).2.1 stray.1)
    · have plain : readLE32 sb 0x60 &&& INCOMPAT_64BIT = 0 ∨ (if start + 1024 + 1024 ≤ disk.totalBytes.toNat then
          window disk.byte (start + 1024) 1024 else []) = [] := by
        by_cases unset : readLE32 sb 0x60 &&& INCOMPAT_64BIT = 0
        · exact .inl unset
        · exact .inr (if_neg (fun whole => stray ⟨unset,whole⟩))
      obtain ⟨bytes,shifts,inside⟩ := extSize_plain long plain
      rw [bytes,shifts]
      constructor
      · rintro ⟨_,shifted,same⟩ _
        have defined := shifted _ List.mem_cons_self
        rw [extBytes _ _ defined] at same
        exact ⟨defined,fun flagged complete => stray ⟨flagged,whole.mp complete⟩,(ext_product some_byte low).mp same⟩
      · intro right
        obtain ⟨defined,_,product⟩ := right readable
        refine ⟨inside,?_,?_⟩
        · intro amount member
          rw [List.mem_singleton.mp member]
          exact defined
        · rw [extBytes _ _ defined]
          exact (ext_product some_byte low).mpr product
  · rw [if_neg readable]
    refine ⟨fun _ there => absurd there readable,fun _ => ?_⟩
    exact sound_unreadable (by rw [place]; exact readable)

/-- The estimate of a size is sound exactly where the superblock cannot be read or is one it
is right about. -/
theorem estimate_sound_iff (type : FilesystemType) :
    Sound disk (lba.toNat * sectorSize.toNat) type (estimatePartitionSize os disk sectorSize lba type) ↔
      (lba.toNat * sectorSize.toNat + (superblockPlace type).1 + (superblockPlace type).2 ≤ disk.totalBytes.toNat →
        Estimable sectorSize (WholeSuperblock sectorSize disk lba)
          (window disk.byte (lba.toNat * sectorSize.toNat + (superblockPlace type).1) (superblockPlace type).2) type) := by
  have range := sectorSizes_range standard
  obtain ⟨k,power⟩ := sectorSizes_power standard
  have first := @superblock_first sectorSize standard os full disk lba within signed
  have deep := @superblock_read sectorSize standard os full disk lba within signed 0x10000 256 (by decide)
  have fat : ∀ sb : List UInt8, sb.length = 512 →
      (fatSize sectorSize sb).shifts = [] ∧ ∀ a ∈ (fatSize sectorSize sb).accesses, a.Inside := by
    intro sb long
    rw [fatSize,if_neg (by omega)]
    exact ⟨rfl,by simp [Access.Inside,long]⟩
  cases type with
  | ntfs =>
    rw [estimatePartitionSize,first]
    refine format_sound_iff rfl (fun sb long => ?_) (fun sb long => ntfs_estimable long power)
    rw [ntfsSize,if_neg (by rw [long]; decide)]
    exact ⟨rfl,by simp [Access.Inside,long,superblockPlace]⟩
  | exFat =>
    rw [estimatePartitionSize,first]
    refine format_sound_iff rfl (fun sb long => ?_) (fun sb long => exFat_estimable long power (by omega) range.2)
    rw [exFatSize,if_neg (by rw [long]; decide)]
    exact ⟨rfl,by simp [Access.Inside,long,superblockPlace]⟩
  | fat32 =>
    rw [estimatePartitionSize,first]
    refine format_sound_iff (f := fatSize sectorSize) rfl (fun sb long => fat sb long) (fun sb long => ?_)
    exact @fat_estimable _ _ (WholeSuperblock sectorSize disk lba) long (by omega) (by omega)
  | fat16 =>
    rw [estimatePartitionSize,first]
    refine format_sound_iff (f := fatSize sectorSize) rfl (fun sb long => fat sb long) (fun sb long => ?_)
    exact @fat_estimable _ _ (WholeSuperblock sectorSize disk lba) long (by omega) (by omega)
  | fat12 =>
    rw [estimatePartitionSize,first]
    refine format_sound_iff (f := fatSize sectorSize) rfl (fun sb long => fat sb long) (fun sb long => ?_)
    exact @fat_estimable _ _ (WholeSuperblock sectorSize disk lba) long (by omega) (by omega)
  | ext2 => exact ext_sound_iff standard full within signed (by decide)
  | ext3 => exact ext_sound_iff standard full within signed (by decide)
  | ext4 => exact ext_sound_iff standard full within signed (by decide)
  | btrfs =>
    rw [estimatePartitionSize,deep]
    refine format_sound_iff (f := btrfsSize) rfl (fun sb long => ?_) (fun sb long => ?_)
    · rw [btrfsSize,if_neg (by rw [long]; decide)]
      exact ⟨rfl,by simp [Access.Inside,long,superblockPlace]⟩
    · rw [btrfsSize,if_neg (by rw [long]; decide)]
      refine ⟨fun _ => trivial,fun _ => ?_⟩
      have small := (readLE64 sb 0x70).toNat_lt
      simp only [fitting,storedSize,Nat.mul_one,if_pos small]
  | xfs =>
    rw [estimatePartitionSize,first]
    refine format_sound_iff (f := xfsSize) rfl (fun sb long => ?_) (fun sb long => ?_)
    · rw [xfsSize,if_neg (by rw [long]; decide)]
      exact ⟨rfl,by simp [Access.Inside,long,superblockPlace]⟩
    · rw [xfsSize_bytes long]
      exact wrapped_eq_fitting_iff
  | other =>
    refine ⟨fun _ _ => trivial,fun _ => ?_⟩
    refine ⟨fun _ member => absurd member List.not_mem_nil,fun _ member => absurd member List.not_mem_nil,?_⟩
    change 0 = if _ then fitting 0 0 else 0
    split <;> rfl

end Estimates

/-- A disk whose first sectors hold sizes for every type: 512 bytes a sector, 64 sectors for a
FAT and 100 for NTFS and exFAT, and one block for ext. -/
def sized : Disk :=
  ⟨1048576,fun i => if i = 0x0C then 2 else if i = 0x13 then 64 else if i = 0x28 ∨ i = 0x48 then 100
    else if i = 0x6C then 9 else if i = 6 then 0x10 else if i = 1024 + 4 then 1 else 0⟩

/-- Every one of them is found. -/
theorem btrfs_estimate : List.Forall
    (fun type => Sound sized 0 type (estimatePartitionSize .working sized 512 0 type))
    [.ntfs,.fat16,.exFat,.ext4,.xfs,.btrfs] := by
  have each (type : FilesystemType) := @estimate_sound_iff 512 (by decide) _ Win32.working_readsInFull sized 0
    (by decide) (by decide) type
  refine ⟨(each _).mpr fun _ => ?ntfs,(each _).mpr fun _ => ?fat16,(each _).mpr fun _ => ?exFat,
    (each _).mpr fun _ => ?ext4,(each _).mpr fun _ => ?xfs,(each _).mpr fun _ => trivial⟩
  case ntfs => exact .inl ⟨by decide +kernel,by decide +kernel⟩
  case fat16 => exact .inl (by decide +kernel)
  case exFat =>
    rw [Estimable,if_pos (by decide +kernel)]
    exact .inl (by decide +kernel)
  case ext4 =>
    exact ⟨by decide +kernel,fun wide => absurd wide (by decide +kernel),.inl ⟨by decide +kernel,by decide +kernel⟩⟩
  case xfs => exact .inl (by decide +kernel)

/-- A disk with the superblock of an ext4 filesystem of one block that has the 64-bit feature. -/
def wideExt4 : Disk :=
  ⟨1048576,fun i => if i = 1024 + 4 then 1 else if i = 1024 + 0x60 then 0x80 else 0⟩

theorem wideExt4_stray : ¬ Sound wideExt4 0 .ext4 (estimatePartitionSize .working wideExt4 512 0 .ext4) := by
  intro sound
  have estimable := (@ext_sound_iff 512 (by decide) _ Win32.working_readsInFull wideExt4 0 (by decide) (by decide)
    .ext4 (by decide)).mp sound (by decide)
  exact estimable.2.1 (by decide +kernel) (by decide : 0 + 2048 ≤ wideExt4.totalBytes.toNat)

end SetecWizard.Core.PartitionRecovery
