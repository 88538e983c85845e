import SetecWizard.Core.DiskMapWidget
import SetecWizard.Library.Gaps
import Mathlib.Data.List.Perm.Basic

/-! The free space on the map of a disk. The map goes on behind the partition it has shown last,
so that the rest of a partition around it is shown as free.
-/
namespace SetecWizard.Core.DiskMapWidget
open SetecWizard.Library

def Block.extent (b : Block) : Extent := ⟨b.startBytes.toNat,b.sizeBytes.toNat⟩

def partitionExtent (p : PartitionInfo) : Extent := ⟨p.offsetBytes.toNat,p.sizeBytes.toNat⟩

/-- The partitions have a size and lie inside the disk. -/
def Inside (diskSize : UInt64) (partitions : List PartitionInfo) : Prop :=
  ∀ p ∈ partitions, p.sizeBytes ≠ 0 ∧ (partitionExtent p).stop ≤ diskSize.toNat

instance (diskSize : UInt64) (partitions : List PartitionInfo) : Decidable (Inside diskSize partitions) :=
  inferInstanceAs (Decidable (∀ p ∈ partitions, _))

/-- One block for each partition, and blocks of free space that are apart and together hold
what no partition does. -/
def ShowsFreeSpace (diskSize : UInt64) (partitions : List PartitionInfo) (blocks : List Block) : Prop :=
  ∃ free : List Block, blocks.Perm (partitions.map partitionBlock ++ free) ∧
    (∀ b ∈ free, b.partitionIndex = -1 ∧ b.fsType = .unallocated) ∧
    (free.map Block.extent).Pairwise Extent.Apart ∧
    ∀ x, (∃ b ∈ free, b.extent.Covers x) ↔ x < diskSize.toNat ∧ ∀ p ∈ partitions, ¬ (partitionExtent p).Covers x

def freeFrom (diskSize : UInt64) : List PartitionInfo → UInt64 → List Block
  | [],currentOffset => gap currentOffset diskSize
  | p::rest,currentOffset => gap currentOffset p.offsetBytes ++ freeFrom diskSize rest (p.offsetBytes + p.sizeBytes)

variable {diskSize : UInt64} {partitions sorted : List PartitionInfo}

theorem gap_extent (low high : UInt64) : (gap low high).map Block.extent = Extent.between low.toNat high.toNat := by
  unfold gap Extent.between
  by_cases below : low < high
  · rw [if_pos below,if_pos (UInt64.lt_iff_toNat_lt.mp below),List.map_cons,List.map_nil,Block.extent]
    simp only [UInt64.toNat_sub_of_le _ _ (UInt64.le_of_lt below)]
  · rw [if_neg below,if_neg (fun under => below (UInt64.lt_iff_toNat_lt.mpr under)),List.map_nil]

theorem gap_unallocated {low high : UInt64} {b : Block} (member : b ∈ gap low high) :
    b.partitionIndex = -1 ∧ b.fsType = .unallocated := by
  unfold gap at member
  split at member
  next =>
    rw [List.mem_singleton.mp member]
    exact ⟨rfl,rfl⟩
  next => cases member

theorem freeFrom_unallocated (sorted : List PartitionInfo) (currentOffset : UInt64) :
    ∀ b ∈ freeFrom diskSize sorted currentOffset, b.partitionIndex = -1 ∧ b.fsType = .unallocated := by
  induction sorted generalizing currentOffset with
  | nil => exact fun b member => gap_unallocated member
  | cons p rest ih =>
    intro b member
    rcases List.mem_append.mp member with first | later
    · exact gap_unallocated first
    · exact ih _ b later

theorem blocksFrom_perm (sorted : List PartitionInfo) (currentOffset : UInt64) :
    (blocksFrom diskSize sorted currentOffset).Perm
      (sorted.map partitionBlock ++ freeFrom diskSize sorted currentOffset) := by
  induction sorted generalizing currentOffset with
  | nil => exact .refl _
  | cons p rest ih =>
    rw [blocksFrom,freeFrom,List.map_cons,List.cons_append]
    refine List.perm_middle.trans (List.Perm.cons _ (((ih _).append_left _).trans ?_))
    rw [← List.append_assoc,← List.append_assoc]
    exact List.perm_append_comm.append_right _

/-- Inside the disk no end of a partition wraps. -/
theorem freeFrom_extents (inside : Inside diskSize sorted) (currentOffset : UInt64) :
    (freeFrom diskSize sorted currentOffset).map Block.extent =
      Extent.gaps diskSize.toNat currentOffset.toNat (sorted.map partitionExtent) := by
  induction sorted generalizing currentOffset with
  | nil => exact gap_extent _ _
  | cons p rest ih =>
    have within := (inside p (by simp)).2
    have width := diskSize.toNat_lt
    have stop : (p.offsetBytes + p.sizeBytes).toNat = (partitionExtent p).stop := by
      rw [UInt64.toNat_add]
      exact Nat.mod_eq_of_lt (Nat.lt_of_le_of_lt within width)
    rw [freeFrom,List.map_append,gap_extent,ih (fun q member => inside q (List.mem_cons_of_mem _ member)),stop]
    rfl

theorem showsFreeSpace_iff (from_ : SortedFrom partitions sorted) (inside : Inside diskSize sorted) {blocks : List Block}
    (made : blocks.Perm (sorted.map partitionBlock ++ freeFrom diskSize sorted 0)) :
    ShowsFreeSpace diskSize partitions blocks ↔
      (Extent.gaps diskSize.toNat 0 (sorted.map partitionExtent)).Pairwise Extent.Apart ∧
      ∀ x, (∃ g ∈ Extent.gaps diskSize.toNat 0 (sorted.map partitionExtent), g.Covers x) ↔
        x < diskSize.toNat ∧ ∀ e ∈ sorted.map partitionExtent, ¬ e.Covers x := by
  have extents : (freeFrom diskSize sorted 0).map Block.extent =
      Extent.gaps diskSize.toNat 0 (sorted.map partitionExtent) := freeFrom_extents inside 0
  have members (free : List Block) (x : Nat) :
      (∃ b ∈ free, b.extent.Covers x) ↔ ∃ g ∈ free.map Block.extent, g.Covers x := by
    simp only [List.mem_map,exists_exists_and_eq_and]
  have outside (x : Nat) : (∀ p ∈ partitions, ¬ (partitionExtent p).Covers x) ↔
      ∀ e ∈ sorted.map partitionExtent, ¬ e.Covers x := by
    simp only [List.mem_map,forall_exists_index,and_imp,forall_apply_eq_imp_iff₂,from_.perm.mem_iff]
  constructor
  · rintro ⟨free,perm,_,apart,covers⟩
    have same : free.Perm (freeFrom diskSize sorted 0) := by
      have all := perm.symm.trans made
      exact (List.perm_append_left_iff _).mp
        (all.trans ((from_.perm.map partitionBlock).append_right _))
    have extents' := same.map Block.extent
    rw [extents] at extents'
    refine ⟨extents'.pairwise apart (fun apart => Extent.apart_comm apart),fun x => ?_⟩
    rw [← outside x,← covers x,members]
    exact exists_congr (fun g => and_congr_left (fun _ => (extents'.mem_iff).symm))
  · rintro ⟨apart,covers⟩
    refine ⟨freeFrom diskSize sorted 0,made.trans ((from_.perm.map partitionBlock).append_right _),
      freeFrom_unallocated sorted 0,extents ▸ apart,fun x => ?_⟩
    rw [members,extents,outside x]
    exact covers x

theorem rebuildBlocks_free_iff (from_ : SortedFrom partitions sorted) (inside : Inside diskSize partitions) :
    ShowsFreeSpace diskSize partitions (rebuildBlocks diskSize sorted) ↔
      Extent.Outermost diskSize.toNat (sorted.map partitionExtent) := by
  have inside' : Inside diskSize sorted := fun p member => inside p (from_.perm.mem_iff.mp member)
  have order : Extent.Sorted (sorted.map partitionExtent) :=
    List.pairwise_map.mpr (from_.order.imp UInt64.le_iff_toNat_le.mp)
  have blocks : rebuildBlocks diskSize sorted = blocksFrom diskSize sorted 0 := by
    unfold rebuildBlocks
    split
    next empty =>
      subst empty
      cases sorted with
      | nil => rfl
      | cons p rest =>
        obtain ⟨some_,within⟩ := inside' p (by simp)
        have none : p.sizeBytes.toNat = (0 : UInt64).toNat :=
          Nat.eq_zero_of_le_zero (Nat.le_trans (Nat.le_add_left _ _) within)
        exact absurd (UInt64.toNat_inj.mp none) some_
    next => rfl
  rw [blocks,showsFreeSpace_iff from_ inside' (blocksFrom_perm sorted 0),← Extent.gaps_free_iff order]
  constructor
  · rintro ⟨_,covers⟩ g member e inside x first second
    exact ((covers x).mp ⟨g,member,first⟩).2 e inside second
  · intro free
    refine ⟨Extent.gaps_apart order,fun x => ⟨?_,?_⟩⟩
    · rintro ⟨g,member,covered⟩
      have ends : ∀ e ∈ sorted.map partitionExtent, e.stop ≤ diskSize.toNat := by
        intro e listed
        obtain ⟨p,present,rfl⟩ := List.mem_map.mp listed
        exact (inside' p present).2
      exact ⟨Nat.lt_of_lt_of_le covered.2 (Extent.gaps_inside ends g member),
        fun e listed => free g member e listed x covered⟩
    · rintro ⟨within,unused⟩
      exact Extent.gaps_complete (Nat.zero_le x) within unused

theorem side_by_side : ShowsFreeSpace 1000
    [{ index := 1,offsetBytes := 500,sizeBytes := 100 },{ index := 0,offsetBytes := 100,sizeBytes := 400 }]
    (rebuildBlocks 1000
      [{ index := 0,offsetBytes := 100,sizeBytes := 400 },{ index := 1,offsetBytes := 500,sizeBytes := 100 }]) :=
  (rebuildBlocks_free_iff ⟨List.Perm.swap _ _ _,by decide⟩ (by decide)).mpr
    (Extent.outermost_of_apart (by decide) (by decide) (by decide))

/-- The first logical partition of an extended one does not reach to its end. -/
theorem logical_inside : ¬ ∀ diskSize partitions sorted, SortedFrom partitions sorted → Inside diskSize partitions →
    ShowsFreeSpace diskSize partitions (rebuildBlocks diskSize sorted) := by
  intro all
  have shown := all 1000 [{ index := 0,offsetBytes := 100,sizeBytes := 800 },{ index := 1,offsetBytes := 200,sizeBytes := 300 }]
    _ ⟨.refl _,by decide⟩ (by decide)
  obtain ⟨free,perm,_,_,covers⟩ := shown
  have gapShown : ({ startBytes := 500,sizeBytes := 500,fsType := .unallocated } : Block) ∈ free := by
    have listed := (perm.mem_iff (a := { startBytes := 500,sizeBytes := 500,fsType := .unallocated })).mp (by decide)
    exact (List.mem_append.mp listed).resolve_left (by decide)
  have unused := ((covers 600).mp ⟨_,gapShown,by decide⟩).2
  revert unused
  decide

end SetecWizard.Core.DiskMapWidget
