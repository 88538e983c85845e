import SetecWizard.Core.FormatFat32
import SetecWizard.Library.Growing
import Mathlib.Tactic.Ring

/-! The iteration for the size of a FAT. More sectors for the FATs leave fewer clusters,
which need a smaller FAT: the iteration is that of an antitone function, and ten rounds
are an even number, so that it stops on a size that is large enough.
-/
namespace SetecWizard.Core.FormatEngine
open SetecWizard.Library

def clustersOf (total perCluster fatSize : Nat) : Nat := (total - 32 - 2 * fatSize) / perCluster

def nextFatSize (total perCluster fatSize : Nat) : Nat := ((clustersOf total perCluster fatSize + 2) * 4 + 511) / 512

theorem nextFatSize_antitone (total perCluster : Nat) : Antitone (nextFatSize total perCluster) := by
  intro small large le
  have fewer : clustersOf total perCluster large ≤ clustersOf total perCluster small :=
    Nat.div_le_div_right (by omega)
  unfold nextFatSize
  omega

theorem entries_fit {total perCluster fatSize : Nat} (above : nextFatSize total perCluster fatSize ≤ fatSize) :
    clustersOf total perCluster fatSize + 2 ≤ fatSize * 128 := by
  unfold nextFatSize at above
  omega

section Words

variable {totalSectors : UInt64} {sectorsPerCluster : UInt8} {fatSize : UInt32}

/-- A FAT is never estimated so large that two of them do not fit. -/
theorem nextFatSize_le {total : Nat} (large : 34 ≤ total) (perCluster fatSize : Nat) :
    32 + 2 * nextFatSize total perCluster fatSize ≤ total := by
  have most : clustersOf total perCluster fatSize ≤ total - 32 := (Nat.div_le_self _ _).trans (by omega)
  unfold nextFatSize
  omega

theorem nextFatSize_small (total perCluster fatSize : Nat) : nextFatSize total perCluster fatSize ≤ total / 128 + 2 := by
  have most : clustersOf total perCluster fatSize ≤ total := (Nat.div_le_self _ _).trans (by omega)
  unfold nextFatSize
  omega

theorem clustersBehind_toNat (fits : 32 + 2 * fatSize.toNat ≤ totalSectors.toNat) :
    (clustersBehind totalSectors sectorsPerCluster fatSize).toNat =
      clustersOf totalSectors.toNat sectorsPerCluster.toNat fatSize.toNat := by
  have reserved : reservedSectors.toUInt64.toNat = 32 := rfl
  have fats : (numFats.toUInt64 * fatSize.toUInt64).toNat = 2 * fatSize.toNat := by
    have two : numFats.toUInt64.toNat = 2 := rfl
    have width := fatSize.toNat_lt
    rw [UInt64.toNat_mul,two,UInt32.toNat_toUInt64,Nat.mod_eq_of_lt (by omega)]
  have first : (totalSectors - reservedSectors.toUInt64).toNat = totalSectors.toNat - 32 := by
    rw [UInt64.toNat_sub_of_le _ _ (by rw [UInt64.le_iff_toNat_le,reserved]; omega),reserved]
  rw [clustersBehind,UInt64.toNat_div,UInt64.toNat_sub_of_le _ _ (by rw [UInt64.le_iff_toNat_le,first,fats]; omega),
    first,fats,UInt8.toNat_toUInt64,clustersOf]

theorem fatSectors_toNat {totalClusters : UInt64} (small : totalClusters.toNat < 2 ^ 32) :
    (fatSectors totalClusters).toNat = ((totalClusters.toNat + 2) * 4 + 511) / 512 := by
  have size : SECTOR_SIZE_512.toUInt64.toNat = 512 := rfl
  have two : (2 : UInt64).toNat = 2 := rfl
  have four : (4 : UInt64).toNat = 4 := rfl
  have one : (1 : UInt64).toNat = 1 := rfl
  have bytes : ((totalClusters + 2) * 4).toNat = (totalClusters.toNat + 2) * 4 := by
    rw [UInt64.toNat_mul,UInt64.toNat_add,two,four,Nat.mod_eq_of_lt (by omega),Nat.mod_eq_of_lt (by omega)]
  have rounded : ((totalClusters + 2) * 4 + SECTOR_SIZE_512.toUInt64 - 1).toNat = (totalClusters.toNat + 2) * 4 + 511 := by
    rw [UInt64.toNat_sub_of_le,UInt64.toNat_add,bytes,size,one,Nat.mod_eq_of_lt (by omega)]
    · omega
    · rw [UInt64.le_iff_toNat_le,UInt64.toNat_add,bytes,size,one,Nat.mod_eq_of_lt (by omega)]
      omega
  rw [fatSectors,UInt64.toNat_toUInt32,UInt64.toNat_div,rounded,size,Nat.mod_eq_of_lt (by omega)]

theorem refineFatSize_toNat (large : 34 ≤ totalSectors.toNat) (small : totalSectors.toNat < 2 ^ 32)
    (rounds : Nat) (fits : 32 + 2 * fatSize.toNat ≤ totalSectors.toNat) :
    (refineFatSize totalSectors sectorsPerCluster rounds fatSize).toNat =
      settle (nextFatSize totalSectors.toNat sectorsPerCluster.toNat) rounds fatSize.toNat := by
  induction rounds generalizing fatSize with
  | zero => rfl
  | succ rounds ih =>
    have clusters := @clustersBehind_toNat totalSectors sectorsPerCluster fatSize fits
    have fewer : clustersOf totalSectors.toNat sectorsPerCluster.toNat fatSize.toNat ≤ totalSectors.toNat :=
      (Nat.div_le_self _ _).trans (by omega)
    have next : (fatSectors (clustersBehind totalSectors sectorsPerCluster fatSize)).toNat =
        nextFatSize totalSectors.toNat sectorsPerCluster.toNat fatSize.toNat := by
      rw [fatSectors_toNat (by omega),clusters,nextFatSize]
    rw [refineFatSize,settle,← next]
    simp only [UInt32.toNat_inj]
    split
    · rfl
    · rw [ih (by rw [next]; exact nextFatSize_le large _ _),next]

theorem fatSize32_toNat (large : 34 ≤ totalSectors.toNat) (small : totalSectors.toNat < 2 ^ 32) :
    (fatSize32 totalSectors sectorsPerCluster).toNat =
      settle (nextFatSize totalSectors.toNat sectorsPerCluster.toNat) (2 * 5)
        (nextFatSize totalSectors.toNat sectorsPerCluster.toNat 0) := by
  have clusters := @clustersBehind_toNat totalSectors sectorsPerCluster 0 (by rw [UInt32.toNat_zero]; omega)
  have fewer : clustersOf totalSectors.toNat sectorsPerCluster.toNat 0 ≤ totalSectors.toNat :=
    (Nat.div_le_self _ _).trans (by omega)
  have whole : totalSectors - reservedSectors.toUInt64 - numFats.toUInt64 * (0 : UInt32).toUInt64 =
      totalSectors - reservedSectors.toUInt64 := UInt64.sub_zero _
  rw [clustersBehind,whole,UInt32.toNat_zero] at clusters
  have first : (fatSectors ((totalSectors - reservedSectors.toUInt64) / sectorsPerCluster.toUInt64)).toNat =
      nextFatSize totalSectors.toNat sectorsPerCluster.toNat 0 := by
    rw [fatSectors_toNat (by rw [clusters]; omega),clusters,nextFatSize]
  rw [fatSize32,refineFatSize_toNat large small 10 (by rw [first]; exact nextFatSize_le large _ _),first]

theorem fatSize32_bounds (large : 34 ≤ totalSectors.toNat) (small : totalSectors.toNat < 2 ^ 32) :
    nextFatSize totalSectors.toNat sectorsPerCluster.toNat (fatSize32 totalSectors sectorsPerCluster).toNat ≤
        (fatSize32 totalSectors sectorsPerCluster).toNat ∧
      32 + 2 * (fatSize32 totalSectors sectorsPerCluster).toNat ≤ totalSectors.toNat := by
  have anti := nextFatSize_antitone totalSectors.toNat sectorsPerCluster.toNat
  rw [fatSize32_toNat large small]
  exact ⟨settle_above anti 5 (anti (Nat.zero_le _)),
    @settle_mem _ _ _ (32 + 2 * · ≤ totalSectors.toNat) (fun _ _ => nextFatSize_le large _ _) _ _
      (nextFatSize_le large _ _)⟩

theorem fatSize32_small (large : 34 ≤ totalSectors.toNat) (small : totalSectors.toNat < 2 ^ 32) :
    (fatSize32 totalSectors sectorsPerCluster).toNat ≤ totalSectors.toNat / 128 + 2 := by
  rw [fatSize32_toNat large small]
  exact @settle_mem _ _ _ (· ≤ totalSectors.toNat / 128 + 2) (fun _ _ => nextFatSize_small _ _ _) _ _
    (nextFatSize_small _ _ _)

theorem fatClusters_toNat (large : 34 ≤ totalSectors.toNat) (small : totalSectors.toNat < 2 ^ 32) :
    (fatClusters totalSectors sectorsPerCluster).toNat = clustersOf totalSectors.toNat sectorsPerCluster.toNat
      (fatSize32 totalSectors sectorsPerCluster).toNat := by
  have room := (@fatSize32_bounds totalSectors sectorsPerCluster large small).2
  have clusters := @clustersBehind_toNat totalSectors sectorsPerCluster (fatSize32 totalSectors sectorsPerCluster) room
  have fewer : clustersOf totalSectors.toNat sectorsPerCluster.toNat
      (fatSize32 totalSectors sectorsPerCluster).toNat ≤ totalSectors.toNat := (Nat.div_le_self _ _).trans (by omega)
  have start : totalSectors - (reservedSectors.toUInt64 +
      numFats.toUInt64 * (fatSize32 totalSectors sectorsPerCluster).toUInt64) =
      totalSectors - reservedSectors.toUInt64 -
        numFats.toUInt64 * (fatSize32 totalSectors sectorsPerCluster).toUInt64 := by grind
  rw [clustersBehind] at clusters
  rw [fatClusters,start,UInt64.toNat_toUInt32,clusters,Nat.mod_eq_of_lt (by omega)]

end Words

theorem cluster_size : ∀ n ∈ ([1,2,4,8,16,32,64,128] : List UInt8), ¬ (n = 0 ∨ n &&& (n - 1) ≠ 0) ∧
    (n.toUInt32 * 512 / SECTOR_SIZE_512).toUInt8 = n ∧ 0 < n.toNat ∧ n.toNat ≤ 128 := by
  intro n member
  simp only [List.mem_cons,List.not_mem_nil,or_false] at member
  rcases member with rfl | rfl | rfl | rfl | rfl | rfl | rfl | rfl <;> decide

/-- The layout of every volume from 32 GB to 2 TB: the FAT has an entry for every cluster
and the two reserved ones, and the last cluster ends inside the volume. -/
theorem layoutFat32_sound (partSize : UInt64) (options : FormatOptions) (volumeSerial : UInt32)
    (sectorsPerCluster : UInt8) (power : sectorsPerCluster ∈ [1,2,4,8,16,32,64,128])
    (asked : (if options.clusterSize = 0 then recommendedClusterSize .fat32 partSize else options.clusterSize) =
      sectorsPerCluster.toUInt32 * 512)
    (large : 2 ^ 26 ≤ (partSize / 512).toNat) (small : (partSize / 512).toNat < 2 ^ 32) :
    ∃ bpb fsInfo totalClusters, layoutFat32 partSize options volumeSerial = .ok (bpb,fsInfo) ∧
      bpb.sectorsPerCluster = sectorsPerCluster ∧ bpb.totalSectors32.toNat = (partSize / 512).toNat ∧
      fsInfo.freeCount.toNat + 1 = totalClusters ∧
      (bpb.totalSectors32.toNat - bpb.reservedSectors.toNat - bpb.numFats.toNat * bpb.fatSize32.toNat) /
        bpb.sectorsPerCluster.toNat = totalClusters ∧
      totalClusters + 2 ≤ bpb.fatSize32.toNat * 128 ∧
      bpb.reservedSectors.toNat + bpb.numFats.toNat * bpb.fatSize32.toNat +
        totalClusters * bpb.sectorsPerCluster.toNat ≤ bpb.totalSectors32.toNat := by
  obtain ⟨above,room⟩ := @fatSize32_bounds (partSize / 512) sectorsPerCluster (by omega) small
  have clusters := @fatClusters_toNat (partSize / 512) sectorsPerCluster (by omega) small
  have fit := entries_fit above
  have used := Nat.div_mul_le_self ((partSize / 512).toNat - 32 -
    2 * (fatSize32 (partSize / 512) sectorsPerCluster).toNat) sectorsPerCluster.toNat
  have few := @fatSize32_small (partSize / 512) sectorsPerCluster (by omega) small
  obtain ⟨accepted,count,positive,most⟩ := cluster_size sectorsPerCluster power
  -- Even with the largest clusters there are more than FAT32 must have.
  have many : 65525 ≤ clustersOf (partSize / 512).toNat sectorsPerCluster.toNat
      (fatSize32 (partSize / 512) sectorsPerCluster).toNat := by
    rw [clustersOf,Nat.le_div_iff_mul_le positive]
    calc 65525 * sectorsPerCluster.toNat ≤ 65525 * 128 := Nat.mul_le_mul_left _ most
      _ ≤ _ := by omega
  have sectors : (partSize / 512).toUInt32.toNat = (partSize / 512).toNat := by
    rw [UInt64.toNat_toUInt32,Nat.mod_eq_of_lt small]
  have limit : (0xFFFFFFFF : UInt64).toNat = 2 ^ 32 - 1 := rfl
  have fewest : (65525 : UInt32).toNat = 65525 := rfl
  have one : (1 : UInt32).toNat = 1 := rfl
  have size : SECTOR_SIZE_512.toUInt64 = 512 := rfl
  refine ⟨
    { sectorsPerCluster := sectorsPerCluster
      totalSectors32 := (partSize / 512).toUInt32
      fatSize32 := fatSize32 (partSize / 512) sectorsPerCluster
      volumeSerial := volumeSerial
      volumeLabel := fatLabel options.volumeLabel },
    { freeCount := fatClusters (partSize / 512) sectorsPerCluster - 1 },_,?_,rfl,sectors,?_,?_,fit,?_⟩
  · unfold layoutFat32
    simp only [asked,count,size]
    refine bind_unit_ok.mpr ⟨refuse_ok.mpr ?_,bind_unit_ok.mpr ⟨refuse_ok.mpr accepted,
      bind_unit_ok.mpr ⟨refuse_ok.mpr ?_,rfl⟩⟩⟩
    · rw [UInt64.lt_iff_toNat_lt,limit]
      omega
    · rw [UInt32.lt_iff_toNat_lt,clusters,fewest]
      omega
  · simp only
    rw [UInt32.toNat_sub_of_le _ _ (by rw [UInt32.le_iff_toNat_le,clusters,one]; omega),clusters,one]
    omega
  · simp only [sectors]
    rfl
  · simp only [sectors]
    unfold clustersOf
    have fixed : (32 : UInt16).toNat = 32 ∧ (2 : UInt8).toNat = 2 := ⟨rfl,rfl⟩
    rw [fixed.1,fixed.2]
    omega

/-- A volume of 32 GB with the clusters recommended for it. -/
theorem layoutFat32_sample : ∃ bpb fsInfo totalClusters, layoutFat32 0x800000000 {} 0x1234 = .ok (bpb,fsInfo) ∧
    bpb.sectorsPerCluster = 64 ∧ bpb.totalSectors32.toNat = ((0x800000000 : UInt64) / 512).toNat ∧
    fsInfo.freeCount.toNat + 1 = totalClusters ∧
    (bpb.totalSectors32.toNat - bpb.reservedSectors.toNat - bpb.numFats.toNat * bpb.fatSize32.toNat) /
      bpb.sectorsPerCluster.toNat = totalClusters ∧
    totalClusters + 2 ≤ bpb.fatSize32.toNat * 128 ∧
    bpb.reservedSectors.toNat + bpb.numFats.toNat * bpb.fatSize32.toNat +
      totalClusters * bpb.sectorsPerCluster.toNat ≤ bpb.totalSectors32.toNat :=
  layoutFat32_sound 0x800000000 {} 0x1234 64 (by decide) (by decide) (by decide) (by decide)

/-! Which sizes a FAT can get. The rounds shrink distances, so that after ten of them the
size is at most one sector from a size that asks for it. Whether it stays below a bound
is then a question about one value of the estimate, and a bound on the sectors of the
volume.
-/

section Estimate

variable {total perCluster : Nat}

theorem clustersOf_close (positive : 0 < perCluster) {d x y : Nat} (near : x ≤ y + d) :
    clustersOf total perCluster y ≤ clustersOf total perCluster x + 2 * d := by
  have spread : 2 * d ≤ 2 * d * perCluster := Nat.le_mul_of_pos_right _ positive
  calc clustersOf total perCluster y
      ≤ (total - 32 - 2 * x + 2 * d * perCluster) / perCluster := Nat.div_le_div_right (by omega)
    _ = clustersOf total perCluster x + 2 * d := Nat.add_mul_div_right _ _ positive

theorem nextFatSize_shrinks (positive : 0 < perCluster) (d x y : Nat) (near : Close (64 * d) x y) :
    Close d (nextFatSize total perCluster x) (nextFatSize total perCluster y) := by
  have first := @clustersOf_close total _ positive _ _ _ near.1
  have second := @clustersOf_close total _ positive _ _ _ near.2
  unfold Close nextFatSize
  omega

theorem nextFatSize_le_iff (x : Nat) : nextFatSize total perCluster x ≤ x ↔
    clustersOf total perCluster x + 2 ≤ 128 * x := by
  unfold nextFatSize
  omega

end Estimate

def clusterSectors : List UInt8 := [1,2,4,8,16,32,64,128]

theorem clusterSectors_bounds (n : UInt8) (accepted : n ∈ clusterSectors) : 0 < n.toNat ∧ n.toNat ≤ 128 := by
  simp only [clusterSectors,List.mem_cons,List.not_mem_nil,or_false] at accepted
  rcases accepted with rfl | rfl | rfl | rfl | rfl | rfl | rfl | rfl <;> decide

theorem clusterSectors_accepted (n : UInt8) : ¬ (n = 0 ∨ n &&& (n - 1) ≠ 0) ↔ n ∈ clusterSectors := by
  have each : ∀ k < 256, ¬ (UInt8.ofNat k = 0 ∨ UInt8.ofNat k &&& (UInt8.ofNat k - 1) ≠ 0) ↔
      UInt8.ofNat k ∈ clusterSectors := by decide +kernel
  have word := each n.toNat n.toNat_lt
  rwa [UInt8.ofNat_toNat] at word

/-- On volumes with no room for two FATs and a cluster the subtractions wrap around. -/
theorem fatSize32_tiny : ∀ total < 34, ∀ n ∈ clusterSectors,
    (fatSize32 (UInt64.ofNat total) n).toNat = if total + n.toNat < 32 then 0 else 1 := by
  decide +kernel

section Bounds

variable {totalSectors : UInt64} {sectorsPerCluster : UInt8} (accepted : sectorsPerCluster ∈ clusterSectors)
  (large : 34 ≤ totalSectors.toNat) (small : totalSectors.toNat < 2 ^ 32)
include accepted large small

theorem fatSize32_settled :
    let f := nextFatSize totalSectors.toNat sectorsPerCluster.toNat
    let fatSize := (fatSize32 totalSectors sectorsPerCluster).toNat
    f fatSize = fatSize ∨ ∃ y, f y = fatSize ∧ Close 1 y fatSize := by
  intro f fatSize
  have found : fatSize = settle f (9 + 1) (f 0) := fatSize32_toNat large small
  have first : f 0 ≤ _ := nextFatSize_small totalSectors.toNat sectorsPerCluster.toNat 0
  have second : f (f 0) ≤ _ := nextFatSize_small totalSectors.toNat sectorsPerCluster.toNat (f 0)
  have start : Close (64 ^ 9) (f 0) (f (f 0)) := ⟨by omega,by omega⟩
  rw [found]
  exact settle_close (nextFatSize_shrinks (clusterSectors_bounds _ accepted).1) 9 start

theorem fatSize32_lt_iff {bound : Nat} (positive : 0 < bound) :
    (fatSize32 totalSectors sectorsPerCluster).toNat < bound ↔
      clustersOf totalSectors.toNat sectorsPerCluster.toNat (bound - 1) + 2 ≤ 128 * (bound - 1) := by
  have anti := nextFatSize_antitone totalSectors.toNat sectorsPerCluster.toNat
  have settled := fatSize32_settled accepted large small
  have above := (@fatSize32_bounds _ sectorsPerCluster large small).1
  rw [← nextFatSize_le_iff]
  constructor
  · intro below
    have asked := anti (by omega : (fatSize32 totalSectors sectorsPerCluster).toNat ≤ bound - 1)
    omega
  · intro enough
    by_contra reached
    rcases settled with still | ⟨y,asks,near⟩
    · have asked := anti (by omega : bound - 1 ≤ (fatSize32 totalSectors sectorsPerCluster).toNat)
      omega
    · have asked := anti (by unfold Close at near; omega : bound - 1 ≤ y)
      omega

theorem clusters_le_iff : clustersOf totalSectors.toNat sectorsPerCluster.toNat
      (fatSize32 totalSectors sectorsPerCluster).toNat ≤ 0x0FFFFFF4 ↔
    totalSectors.toNat < 4194336 + 268435445 * sectorsPerCluster.toNat := by
  have positive := (clusterSectors_bounds _ accepted).1
  obtain ⟨above,room⟩ := @fatSize32_bounds _ sectorsPerCluster large small
  have fits := entries_fit above
  have reach (n fatSize : Nat) : n ≤ clustersOf totalSectors.toNat sectorsPerCluster.toNat fatSize ↔
      n * sectorsPerCluster.toNat ≤ totalSectors.toNat - 32 - 2 * fatSize := Nat.le_div_iff_mul_le positive
  have enough := reach 268435445 (fatSize32 totalSectors sectorsPerCluster).toNat
  constructor
  · intro most
    by_contra many
    by_cases size : (fatSize32 totalSectors sectorsPerCluster).toNat ≤ 2097152
    · omega
    · -- A sector less in each FAT would not be enough, so that there are yet more clusters.
      have short := (fatSize32_lt_iff accepted large small (by omega)).not.mp
        (Nat.lt_irrefl (fatSize32 totalSectors sectorsPerCluster).toNat)
      have beyond := (reach 268435455 _).mp (by omega :
        268435455 ≤ clustersOf totalSectors.toNat sectorsPerCluster.toNat
          ((fatSize32 totalSectors sectorsPerCluster).toNat - 1))
      omega
  · intro few
    by_contra many
    omega

theorem fatSize32_counted_iff : (fatSize32 totalSectors sectorsPerCluster).toNat < 2 ^ 23 ↔
    totalSectors.toNat < 16777246 + 1073741695 * sectorsPerCluster.toNat := by
  have positive := (clusterSectors_bounds _ accepted).1
  have reach : 1073741695 ≤ clustersOf totalSectors.toNat sectorsPerCluster.toNat (2 ^ 23 - 1) ↔
      1073741695 * sectorsPerCluster.toNat ≤ totalSectors.toNat - 32 - 2 * (2 ^ 23 - 1) :=
    Nat.le_div_iff_mul_le positive
  rw [fatSize32_lt_iff accepted large small (by decide)]
  omega

end Bounds

end SetecWizard.Core.FormatEngine
