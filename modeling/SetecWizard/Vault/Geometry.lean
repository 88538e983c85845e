import SetecWizard.Vault.Mounts

/-! The geometry in the footer of a VHD. The number of heads is narrowed to a byte before
it is compared with anything, and where the narrowing loses something the geometry is
computed anew with more sectors per track.
-/
namespace SetecWizard.Core
open SetecWizard.Library

/-- The computation of the VHD format, on integers without bound. -/
def specGeometry (totalSectors : Nat) : Nat × Nat × Nat :=
  let totalSectors := min totalSectors (65535 * 16 * 255)
  if 65535 * 16 * 63 ≤ totalSectors then (totalSectors / 255 / 16,16,255)
  else
    let cylindersTimesHeads := totalSectors / 17
    let heads := max ((cylindersTimesHeads + 1023) / 1024) 4
    let (cylindersTimesHeads,heads,sectorsPerTrack) :=
      if heads * 1024 ≤ cylindersTimesHeads ∨ 16 < heads then (totalSectors / 31,16,31)
      else (cylindersTimesHeads,heads,17)
    let (cylindersTimesHeads,heads,sectorsPerTrack) :=
      if heads * 1024 ≤ cylindersTimesHeads then (totalSectors / 63,16,63)
      else (cylindersTimesHeads,heads,sectorsPerTrack)
    (cylindersTimesHeads / heads,heads,sectorsPerTrack)

/-- Cylinders, heads and sectors per track as a reader of the footer takes them. -/
def footerGeometry (footer : List UInt8) : Nat × Nat × Nat :=
  ((footer.getD 56 0).toNat * 256 + (footer.getD 57 0).toNat,(footer.getD 58 0).toNat,
    (footer.getD 59 0).toNat)

/-- What every geometry of the format satisfies. -/
structure WithinDisk (totalSectors : Nat) (geometry : Nat × Nat × Nat) : Prop where
  cylinders : geometry.1 ≤ 65535
  heads : 4 ≤ geometry.2.1 ∧ geometry.2.1 ≤ 16
  sectorsPerTrack : geometry.2.2 ∈ [17,31,63,255]
  fits : geometry.1 * geometry.2.1 * geometry.2.2 ≤ totalSectors

theorem div_mul_mul_le (n a b : Nat) : n / a / b * b * a ≤ n :=
  (Nat.mul_le_mul_right a (Nat.div_mul_le_self _ b)).trans (Nat.div_mul_le_self n a)

theorem within_of {totalSectors total heads sectorsPerTrack : Nat} (capped : total ≤ totalSectors)
    (cylinders : total / sectorsPerTrack / heads ≤ 65535) (low : 4 ≤ heads) (high : heads ≤ 16)
    (known : sectorsPerTrack ∈ [17,31,63,255]) :
    WithinDisk totalSectors (total / sectorsPerTrack / heads,heads,sectorsPerTrack) :=
  ⟨cylinders,⟨low,high⟩,known,(div_mul_mul_le total sectorsPerTrack heads).trans capped⟩

theorem specGeometry_within (totalSectors : Nat) : WithinDisk totalSectors (specGeometry totalSectors) := by
  unfold specGeometry
  have capped : min totalSectors (65535 * 16 * 255) ≤ totalSectors := Nat.min_le_left _ _
  have bounded : min totalSectors (65535 * 16 * 255) ≤ 65535 * 16 * 255 := Nat.min_le_right _ _
  generalize min totalSectors (65535 * 16 * 255) = total at capped bounded
  by_cases large : 65535 * 16 * 63 ≤ total
  · simp only [if_pos large]
    exact within_of capped (by omega) (by decide) (by decide) (by decide)
  · simp only [if_neg large]
    by_cases many : max ((total / 17 + 1023) / 1024) 4 * 1024 ≤ total / 17 ∨
        16 < max ((total / 17 + 1023) / 1024) 4
    · simp only [if_pos many]
      by_cases more : 16 * 1024 ≤ total / 31
      · simp only [if_pos more]
        exact within_of capped (by omega) (by decide) (by decide) (by decide)
      · simp only [if_neg more]
        exact within_of capped (by omega) (by decide) (by decide) (by decide)
    · simp only [if_neg many]
      obtain ⟨few,small⟩ := not_or.mp many
      simp only [if_neg few]
      refine within_of capped ?_ (by omega) (by omega) (by decide)
      exact (Nat.div_le_self _ _).trans (by omega)

theorem narrowed_heads (cylindersTimesHeads : UInt64) (small : cylindersTimesHeads.toNat < 2 ^ 32) :
    (if ((cylindersTimesHeads + 1023) / 1024).toUInt8 < 4 then 4
      else ((cylindersTimesHeads + 1023) / 1024).toUInt8).toNat =
      max ((cylindersTimesHeads.toNat + 1023) / 1024 % 256) 4 := by
  have rounded : (cylindersTimesHeads + 1023).toNat = cylindersTimesHeads.toNat + 1023 := by
    rw [UInt64.toNat_add]
    exact Nat.mod_eq_of_lt (Nat.lt_trans (Nat.add_lt_add_right small 1023) (by decide))
  have quotient : ((cylindersTimesHeads + 1023) / 1024).toUInt8.toNat =
      (cylindersTimesHeads.toNat + 1023) / 1024 % 256 := by
    rw [UInt64.toNat_toUInt8,UInt64.toNat_div,rounded]
    rfl
  split
  next few =>
    rw [UInt8.lt_iff_toNat_lt,quotient] at few
    exact (Nat.max_eq_right (Nat.le_of_lt few)).symm
  next enough =>
    rw [UInt8.lt_iff_toNat_lt,quotient] at enough
    rw [quotient]
    exact (Nat.max_eq_left (Nat.not_lt.mp enough)).symm

theorem scaled_heads (heads : UInt8) : (heads.toUInt64 * 1024).toNat = heads.toNat * 1024 := by
  have bound := heads.toNat_lt
  rw [UInt64.toNat_mul,UInt8.toNat_toUInt64]
  exact Nat.mod_eq_of_lt (Nat.lt_of_lt_of_le (Nat.mul_lt_mul_of_pos_right bound (by decide)) (by decide))

theorem narrowed_replaced_iff (c : Nat) :
    (max ((c + 1023) / 1024 % 256) 4 * 1024 ≤ c ∨ 16 < max ((c + 1023) / 1024 % 256) 4) ↔
      (max ((c + 1023) / 1024) 4 * 1024 ≤ c ∨ 16 < max ((c + 1023) / 1024) 4) := by
  by_cases byte : (c + 1023) / 1024 < 256
  · rw [Nat.mod_eq_of_lt byte]
  · constructor
    · intro _
      right
      omega
    · intro _
      left
      omega

theorem min_toNat (diskSize : UInt64) :
    (min (diskSize / 512) (65535 * 16 * 255)).toNat = min (diskSize.toNat / 512) (65535 * 16 * 255) := by
  have sectors : (diskSize / 512).toNat = diskSize.toNat / 512 := UInt64.toNat_div ..
  have limit : (65535 * 16 * 255 : UInt64).toNat = 65535 * 16 * 255 := by decide
  rw [Std.min_eq_if]
  split
  next below =>
    rw [UInt64.le_iff_toNat_le,sectors,limit] at below
    rw [sectors,Nat.min_eq_left below]
  next above =>
    rw [UInt64.le_iff_toNat_le,sectors,limit] at above
    rw [limit,Nat.min_eq_right (by omega)]

/-- The stored geometry with its three numbers without their width. -/
def widened (geometry : UInt16 × UInt8 × UInt8) : Nat × Nat × Nat :=
  (geometry.1.toNat,geometry.2.1.toNat,geometry.2.2.toNat)

theorem widened_of {cylinders : UInt64} {heads sectorsPerTrack : UInt8} {totalSectors : Nat}
    {geometry : Nat × Nat × Nat} (within : WithinDisk totalSectors geometry)
    (same : (cylinders.toNat,heads.toNat,sectorsPerTrack.toNat) = geometry) :
    widened (cylinders.toUInt16,heads,sectorsPerTrack) = geometry := by
  cases same
  have fits : cylinders.toNat < 2 ^ 16 := Nat.lt_of_le_of_lt within.cylinders (by decide)
  simp only [widened,UInt64.toNat_toUInt16,Nat.mod_eq_of_lt fits]

theorem vhdGeometry_spec (diskSize : UInt64) :
    widened (vhdGeometry diskSize) = specGeometry (diskSize.toNat / 512) := by
  have within := specGeometry_within (diskSize.toNat / 512)
  have total := min_toNat diskSize
  have bounded : min (diskSize.toNat / 512) (65535 * 16 * 255) ≤ 65535 * 16 * 255 := Nat.min_le_right _ _
  unfold specGeometry at within ⊢
  unfold vhdGeometry
  rw [← total] at bounded within ⊢
  generalize min (diskSize / 512) (65535 * 16 * 255) = t at *
  have large_iff : (65535 * 16 * 63 : UInt64) ≤ t ↔ 65535 * 16 * 63 ≤ t.toNat := by
    rw [UInt64.le_iff_toNat_le]
    rfl
  by_cases large : 65535 * 16 * 63 ≤ t.toNat
  · simp only [if_pos large] at within ⊢
    simp only [if_pos (large_iff.mpr large)]
    refine widened_of within ?_
    rw [UInt64.toNat_div,Nat.div_div_eq_div_mul]
    rfl
  · simp only [if_neg large] at within ⊢
    simp only [if_neg (mt large_iff.mp large)]
    have tracks : (t / 17).toNat = t.toNat / 17 := UInt64.toNat_div ..
    have narrowed := narrowed_heads (t / 17) (by omega)
    generalize (if ((t / 17 + 1023) / 1024).toUInt8 < 4 then 4 else ((t / 17 + 1023) / 1024).toUInt8) = heads at *
    have many_iff : heads.toUInt64 * 1024 ≤ t / 17 ∨ 16 < heads ↔
        max ((t.toNat / 17 + 1023) / 1024) 4 * 1024 ≤ t.toNat / 17 ∨
          16 < max ((t.toNat / 17 + 1023) / 1024) 4 := by
      rw [UInt64.le_iff_toNat_le,UInt8.lt_iff_toNat_lt,scaled_heads,narrowed,tracks]
      exact narrowed_replaced_iff _
    by_cases many : max ((t.toNat / 17 + 1023) / 1024) 4 * 1024 ≤ t.toNat / 17 ∨
        16 < max ((t.toNat / 17 + 1023) / 1024) 4
    · simp only [if_pos many] at within ⊢
      simp only [if_pos (many_iff.mpr many)]
      have more_iff : (16 : UInt8).toUInt64 * 1024 ≤ t / 31 ↔ 16 * 1024 ≤ t.toNat / 31 := by
        rw [UInt64.le_iff_toNat_le,UInt64.toNat_div]
        rfl
      by_cases more : 16 * 1024 ≤ t.toNat / 31
      · simp only [if_pos more] at within ⊢
        simp only [if_pos (more_iff.mpr more)]
        refine widened_of within ?_
        rw [UInt64.toNat_div,UInt64.toNat_div]
        rfl
      · simp only [if_neg more] at within ⊢
        simp only [if_neg (mt more_iff.mp more)]
        refine widened_of within ?_
        rw [UInt64.toNat_div,UInt64.toNat_div]
        rfl
    · simp only [if_neg many] at within ⊢
      simp only [if_neg (mt many_iff.mp many)]
      obtain ⟨few,small⟩ := not_or.mp many
      obtain ⟨few',_⟩ := not_or.mp (mt many_iff.mp many)
      simp only [if_neg few] at within ⊢
      simp only [if_neg few']
      -- With at most sixteen heads the byte held them all.
      have byte : (t.toNat / 17 + 1023) / 1024 < 256 := by omega
      rw [tracks,Nat.mod_eq_of_lt byte] at narrowed
      refine widened_of within ?_
      rw [UInt64.toNat_div,UInt8.toNat_toUInt64,narrowed,tracks]
      rfl

theorem slice_geometry (diskSize : UInt64) (uniqueId : Bytes 16) :
    slice (vhdFooter diskSize uniqueId) 56 4 =
      [((vhdGeometry diskSize).1 >>> 8).toUInt8,(vhdGeometry diskSize).1.toUInt8,
        (vhdGeometry diskSize).2.1,(vhdGeometry diskSize).2.2] := by
  have placed : ∃ fields : List (Nat × List UInt8), Fields 512 fields ∧
      (56,[((vhdGeometry diskSize).1 >>> 8).toUInt8,(vhdGeometry diskSize).1.toUInt8,
        (vhdGeometry diskSize).2.1,(vhdGeometry diskSize).2.2]) ∈ fields ∧
      vhdFooter diskSize uniqueId = overwrite (List.replicate 512 0) fields := by
    refine ⟨[(0,_),(8,_),(12,_),(16,_),(28,_),(32,_),(36,_),(40,_),(48,_),(56,_),(60,_),(68,_),(64,_)],
      ?_,?_,rfl⟩
    · have long (v : UInt32) : (be32 v).length = 4 := rfl
      constructor <;> simp [Outside,uniqueId.size,long,be64,-List.reduceReplicate]
    · exact List.mem_of_getElem? (i := 9) rfl
  obtain ⟨fields,layout,member,same⟩ := placed
  rw [same]
  exact layout.read List.length_replicate member

theorem footerGeometry_vhdFooter (diskSize : UInt64) (uniqueId : Bytes 16) :
    footerGeometry (vhdFooter diskSize uniqueId) = widened (vhdGeometry diskSize) := by
  have block := slice_geometry diskSize uniqueId
  have byte (i : Nat) (inside : i < 4) :=
    getD_slice (vhdFooter diskSize uniqueId) 56 4 i inside
  rw [block] at byte
  have first := byte 0 (by decide)
  have second := byte 1 (by decide)
  have third := byte 2 (by decide)
  have fourth := byte 3 (by decide)
  simp only [List.getD_cons_zero,List.getD_cons_succ] at first second third fourth
  have high : ((vhdGeometry diskSize).1 >>> 8).toUInt8.toNat = (vhdGeometry diskSize).1.toNat / 256 % 256 := by
    rw [UInt16.toNat_toUInt8,UInt16.toNat_shiftRight,Nat.shiftRight_eq_div_pow]
    rfl
  have small := (vhdGeometry diskSize).1.toNat_lt
  have whole : (vhdGeometry diskSize).1.toNat / 256 % 256 * 256 + (vhdGeometry diskSize).1.toNat % 2 ^ 8 =
      (vhdGeometry diskSize).1.toNat := by omega
  simp only [footerGeometry,widened]
  rw [← first,← second,← third,← fourth,high,UInt16.toNat_toUInt8,whole]

theorem footer_of_attached {paths : Paths} {env : MountEnv} {data : List UInt8} {readOnly : Bool}
    {s t : VaultState} {mountPoint : String}
    (attached : s.createAndAttachVhd paths env data readOnly = (.ok mountPoint,t)) :
    t.files (env.vhdPath paths) = some (data ++ vhdFooter (UInt64.ofNat data.length) env.uniqueId) := by
  by_cases attaches : env.Attaches
  · rw [VaultState.createAndAttachVhd_attaches s attaches] at attached
    cases attached
    exact if_pos rfl
  · obtain ⟨e,failed | failed⟩ := VaultState.createAndAttachVhd_fails paths s attaches data readOnly <;>
      rw [failed] at attached <;> cases attached

/-- The footer of every size holds the geometry of the format, with nothing lost to a cast,
and this footer ends the file that is attached. -/
theorem vhd_geometry_spec :
    (∀ (diskSize : UInt64) (uniqueId : Bytes 16),
      footerGeometry (vhdFooter diskSize uniqueId) = specGeometry (diskSize.toNat / 512) ∧
        WithinDisk (diskSize.toNat / 512) (footerGeometry (vhdFooter diskSize uniqueId))) ∧
    ∀ (paths : Paths) (env : MountEnv) (data : List UInt8) (readOnly : Bool) (s t : VaultState) (mountPoint : String),
      s.createAndAttachVhd paths env data readOnly = (.ok mountPoint,t) →
      t.files (env.vhdPath paths) = some (data ++ vhdFooter (UInt64.ofNat data.length) env.uniqueId) := by
  refine ⟨fun diskSize uniqueId => ?_,?_⟩
  · have same : footerGeometry (vhdFooter diskSize uniqueId) = specGeometry (diskSize.toNat / 512) := by
      rw [footerGeometry_vhdFooter,vhdGeometry_spec]
    exact ⟨same,same ▸ specGeometry_within _⟩
  · intro paths env data readOnly s t mountPoint attached
    exact footer_of_attached attached

/-- Four GiB need more heads than a byte holds before they are replaced. -/
theorem vhd_geometry_large :
    footerGeometry (vhdFooter 0x100000000 (.zero 16)) = (8322,16,63) ∧
      (VaultState.createAndAttachVhd ⟨"tmp",id⟩ { uuid := "4f2a" } [1] true { files := fun _ => none }).2.files
        (MountEnv.vhdPath { uuid := "4f2a" } ⟨"tmp",id⟩) = some ([1] ++ vhdFooter 1 (.zero 16)) :=
  ⟨(vhd_geometry_spec.1 0x100000000 (.zero 16)).1.trans (by decide),
    vhd_geometry_spec.2 ⟨"tmp",id⟩ { uuid := "4f2a" } [1] true { files := fun _ => none } _ "" rfl⟩

end SetecWizard.Core
