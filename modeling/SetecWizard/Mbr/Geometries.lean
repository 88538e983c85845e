import SetecWizard.Format.Integers

/-! The two conversions of a geometry against one another. The head and the sector of an
address have eight bits each and the geometry has thirty-two for either, so that a sector
has an address it can be found by only where its head and its sector fit.
-/
namespace SetecWizard.Core.DiskGeometry

variable {lba : UInt64} {geometry : CHSGeometry}

/-- What the declarations of the two conversions promise of a sector. -/
def Inverse (lba : UInt64) (geometry : CHSGeometry) : Prop :=
  ∃ chs, lbaToChs lba geometry = .ok chs ∧ chsToLba chs geometry = .ok lba ∧
    chs.head.toNat < geometry.headsPerCylinder.toNat ∧
    1 ≤ chs.sector.toNat ∧ chs.sector.toNat ≤ geometry.sectorsPerTrack.toNat

/-- A geometry that both conversions accept. -/
def Accepted (geometry : CHSGeometry) : Prop :=
  geometry.headsPerCylinder ≠ 0 ∧ geometry.sectorsPerTrack ≠ 0

namespace Accepted

theorem not_refused (accepted : Accepted geometry) :
    ¬ (geometry.headsPerCylinder = 0 ∨ geometry.sectorsPerTrack = 0) := not_or.mpr accepted

theorem heads (accepted : Accepted geometry) : 0 < geometry.headsPerCylinder.toNat := by
  apply Nat.pos_of_ne_zero
  intro zero
  exact accepted.1 (UInt32.toNat_inj.mp zero)

theorem sectors (accepted : Accepted geometry) : 0 < geometry.sectorsPerTrack.toNat := by
  apply Nat.pos_of_ne_zero
  intro zero
  exact accepted.2 (UInt32.toNat_inj.mp zero)

end Accepted

theorem cylinder_size (geometry : CHSGeometry) :
    (geometry.headsPerCylinder.toUInt64 * geometry.sectorsPerTrack.toUInt64).toNat =
      geometry.headsPerCylinder.toNat * geometry.sectorsPerTrack.toNat := by
  have heads := geometry.headsPerCylinder.toNat_lt
  have sectors := geometry.sectorsPerTrack.toNat_lt
  have bound : geometry.headsPerCylinder.toNat * geometry.sectorsPerTrack.toNat < 2 ^ 32 * 2 ^ 32 :=
    Nat.mul_lt_mul'' heads sectors
  rw [UInt64.toNat_mul,UInt32.toNat_toUInt64,UInt32.toNat_toUInt64]
  apply Nat.mod_eq_of_lt
  omega

theorem lbaToChs_parts (accepted : Accepted geometry)
    (fits : lba.toNat / (geometry.headsPerCylinder.toNat * geometry.sectorsPerTrack.toNat) < 2 ^ 32) :
    ∃ chs, lbaToChs lba geometry = .ok chs ∧
      chs.cylinder.toNat = lba.toNat / (geometry.headsPerCylinder.toNat * geometry.sectorsPerTrack.toNat) ∧
      chs.head.toNat = lba.toNat / geometry.sectorsPerTrack.toNat % geometry.headsPerCylinder.toNat % 256 ∧
      chs.sector.toNat = (lba.toNat % geometry.sectorsPerTrack.toNat + 1) % 256 := by
  refine ⟨_,by rw [lbaToChs,if_neg accepted.not_refused],?_,?_,?_⟩
  · change (lba / _).toUInt32.toNat = _
    rw [UInt64.toNat_toUInt32,UInt64.toNat_div,cylinder_size,Nat.mod_eq_of_lt fits]
  · change (lba % _ / _).toUInt8.toNat = _
    rw [UInt64.toNat_toUInt8,UInt64.toNat_div,UInt64.toNat_mod,cylinder_size,UInt32.toNat_toUInt64,
      Nat.mod_mul_left_div_self]
  · change (lba % _ % _ + 1).toUInt8.toNat = _
    have one : (1 : UInt64).toNat = 1 := rfl
    have within := Nat.mod_lt lba.toNat accepted.sectors
    have sectors := geometry.sectorsPerTrack.toNat_lt
    rw [UInt64.toNat_toUInt8,UInt64.toNat_add,UInt64.toNat_mod,UInt64.toNat_mod,cylinder_size,UInt32.toNat_toUInt64,
      Nat.mod_mod_of_dvd _ (Nat.dvd_mul_left _ _),one]
    omega

/-- Nothing of the sum wraps when it is at most a sector's number. -/
theorem chsToLba_ok {chs : CHSAddress} (accepted : Accepted geometry) {n : Nat} (whole : n < 2 ^ 64)
    (below : chs.cylinder.toNat * (geometry.headsPerCylinder.toNat * geometry.sectorsPerTrack.toNat) +
      chs.head.toNat * geometry.sectorsPerTrack.toNat + (chs.sector.toNat - 1) ≤ n) (numbered : 1 ≤ chs.sector.toNat) :
    ∃ back, chsToLba chs geometry = .ok back ∧
      back.toNat = chs.cylinder.toNat * (geometry.headsPerCylinder.toNat * geometry.sectorsPerTrack.toNat) +
        chs.head.toNat * geometry.sectorsPerTrack.toNat + (chs.sector.toNat - 1) := by
  have nonzero : chs.sector ≠ 0 := by
    intro zero
    rw [zero] at numbered
    cases numbered
  refine ⟨_,by rw [chsToLba,if_neg accepted.not_refused,if_neg nonzero],?_⟩
  have one : (1 : UInt64).toNat = 1 := rfl
  have first : (1 : UInt64) ≤ chs.sector.toUInt64 := by
    rw [UInt64.le_iff_toNat_le,UInt8.toNat_toUInt64]
    exact numbered
  rw [UInt64.toNat_add,UInt64.toNat_add,UInt64.mul_assoc,UInt64.toNat_mul,cylinder_size,UInt64.toNat_mul,
    UInt64.toNat_sub_of_le _ _ first,one]
  simp only [UInt32.toNat_toUInt64,UInt8.toNat_toUInt64]
  rw [Nat.mod_eq_of_lt (by omega),Nat.mod_eq_of_lt (by omega),Nat.mod_eq_of_lt (by omega),Nat.mod_eq_of_lt (by omega)]

theorem sector_parts (n heads sectors : Nat) :
    n = n / (heads * sectors) * (heads * sectors) + n / sectors % heads * sectors + n % sectors := by
  calc n = n / (heads * sectors) * (heads * sectors) + n % (heads * sectors) := (Nat.div_add_mod' n _).symm
    _ = n / (heads * sectors) * (heads * sectors) +
        (n % (heads * sectors) / sectors * sectors + n % (heads * sectors) % sectors) :=
      congrArg _ (Nat.div_add_mod' _ sectors).symm
    _ = _ := by
      rw [Nat.mod_mul_left_div_self,Nat.mod_mod_of_dvd _ (Nat.dvd_mul_left _ _),Nat.add_assoc]

theorem inverse_iff (accepted : Accepted geometry)
    (fits : lba.toNat / (geometry.headsPerCylinder.toNat * geometry.sectorsPerTrack.toNat) < 2 ^ 32) :
    Inverse lba geometry ↔
      lba.toNat / geometry.sectorsPerTrack.toNat % geometry.headsPerCylinder.toNat < 256 ∧
        lba.toNat % geometry.sectorsPerTrack.toNat < 255 := by
  obtain ⟨chs,converted,cylinder,head,sector⟩ := lbaToChs_parts accepted fits
  have whole := sector_parts lba.toNat geometry.headsPerCylinder.toNat geometry.sectorsPerTrack.toNat
  have onHead := Nat.mod_lt (lba.toNat / geometry.sectorsPerTrack.toNat) accepted.heads
  have onTrack := Nat.mod_lt lba.toNat accepted.sectors
  have numbers := lba.toNat_lt
  -- The narrowed head stands for no more sectors than the head it is of.
  have narrowed := Nat.mul_le_mul_right geometry.sectorsPerTrack.toNat
    (Nat.mod_le (lba.toNat / geometry.sectorsPerTrack.toNat % geometry.headsPerCylinder.toNat) 256)
  constructor
  · rintro ⟨again,result,back,-,numbered,-⟩
    obtain rfl := Except.ok.inj (converted.symm.trans result)
    have place := Nat.mod_le (lba.toNat % geometry.sectorsPerTrack.toNat + 1) (2 ^ 8)
    obtain ⟨found,sum,value⟩ := chsToLba_ok accepted numbers
      (by rw [cylinder,head,sector]; omega) numbered
    rw [Except.ok.inj (sum.symm.trans back),cylinder,head,sector] at value
    rw [sector] at numbered
    have heads : lba.toNat / geometry.sectorsPerTrack.toNat % geometry.headsPerCylinder.toNat % 256 *
        geometry.sectorsPerTrack.toNat =
        lba.toNat / geometry.sectorsPerTrack.toNat % geometry.headsPerCylinder.toNat *
          geometry.sectorsPerTrack.toNat := by omega
    have kept := Nat.eq_of_mul_eq_mul_right accepted.sectors heads
    omega
  · rintro ⟨few,short⟩
    rw [Nat.mod_eq_of_lt few] at head
    rw [Nat.mod_eq_of_lt (by omega)] at sector
    obtain ⟨found,sum,value⟩ := @chsToLba_ok geometry chs accepted lba.toNat numbers
      (by rw [cylinder,head,sector]; omega) (by omega)
    have same : found = lba := by
      apply UInt64.toNat_inj.mp
      rw [value,cylinder,head,sector]
      omega
    exact ⟨chs,converted,same ▸ sum,by omega,by omega,by omega⟩

theorem terabyte_inverse : Inverse 1953525167 ⟨255,63⟩ :=
  (inverse_iff ⟨by decide,by decide⟩ (by decide)).mpr ⟨by decide,by decide⟩

/-- The first sector behind 256 tracks gets the address of sector 0. -/
theorem three_hundred_heads : ¬ ∀ lba geometry, Accepted geometry →
    lba.toNat / (geometry.headsPerCylinder.toNat * geometry.sectorsPerTrack.toNat) < 2 ^ 32 →
    Inverse lba geometry := by
  intro all
  obtain ⟨chs,converted,back,-⟩ := all 16128 ⟨300,63⟩ ⟨by decide,by decide⟩ (by decide)
  have zero : lbaToChs 16128 ⟨300,63⟩ = .ok ⟨0,0,1⟩ := rfl
  obtain rfl := Except.ok.inj (zero.symm.trans converted)
  have first : chsToLba ⟨0,0,1⟩ ⟨300,63⟩ = .ok 0 := rfl
  have same := Except.ok.inj (first.symm.trans back)
  revert same
  decide

end SetecWizard.Core.DiskGeometry
