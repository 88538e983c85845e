import SetecWizard.Core.PartitionScan
import SetecWizard.Library.Extent

/-! The marks on partitions that were found. The search for an existing partition ends at the
first that overlaps, and the end of a found one is a sum of 64-bit numbers.
-/
namespace SetecWizard.Core.PartitionRecovery
open SetecWizard.Library

variable {bytesPerSector : UInt32} {layout : List DriveLayoutPartition} {found : FoundPartition}

/-- The sectors of a found partition, as numbers that do not wrap. -/
def FoundPartition.extent (found : FoundPartition) : Extent := ⟨found.startLba.toNat,found.sectorCount.toNat⟩

def existing (bytesPerSector : UInt32) (e : DriveLayoutPartition) : Extent :=
  ⟨e.startingOffset.toNat / bytesPerSector.toNat,e.partitionLength.toNat / bytesPerSector.toNat⟩

/-- The test of the search. -/
def Overlapping (bytesPerSector : UInt32) (found : FoundPartition) (e : DriveLayoutPartition) : Prop :=
  found.startLba < existEnd bytesPerSector e ∧ existStart bytesPerSector e < found.foundEnd

instance (bytesPerSector : UInt32) (found : FoundPartition) : DecidablePred (Overlapping bytesPerSector found) :=
  fun _ => inferInstanceAs (Decidable (_ ∧ _))

/-- A found partition as the scan leaves it, with a size. -/
structure Fresh (found : FoundPartition) : Prop where
  sized : found.sectorCount ≠ 0
  unmarked : found.overlapsExisting = false
  confidence : found.confidence ≠ 10

theorem candidateAt_fresh {env : ScanEnv} {disk : Disk} {lba : UInt64} (at_lba : candidateAt env disk lba = some found)
    (sized : found.sectorCount ≠ 0) : Fresh found := by
  unfold candidateAt probeOffset at at_lba
  cases detected : env.detect (probeReadFunc env.device disk env.bytesPerSector lba) with
  | none =>
    simp only [detected] at at_lba
    cases at_lba
  | some detection =>
    simp only [detected] at at_lba
    cases at_lba
    refine ⟨sized,rfl,?_⟩
    simp only [confidenceOf]
    split_ifs <;> decide

theorem markAgainst_eq (bytesPerSector : UInt32) (found : FoundPartition) (layout : List DriveLayoutPartition) :
    markAgainst bytesPerSector found layout =
      match layout.find? (fun e => decide (Overlapping bytesPerSector found e)) with
      | none => found
      | some e =>
        { found with
          overlapsExisting := true
          confidence :=
            if found.startLba = existStart bytesPerSector e ∧ found.foundEnd = existEnd bytesPerSector e then 10
            else found.confidence } := by
  induction layout with
  | nil => rfl
  | cons e rest ih =>
    rw [markAgainst]
    by_cases overlaps : Overlapping bytesPerSector found e
    · rw [List.find?_cons_of_pos (by simpa using overlaps)]
      exact if_pos overlaps
    · rw [List.find?_cons_of_neg (by simpa using overlaps),← ih]
      exact if_neg overlaps

section Ranges

theorem existStart_toNat (e : DriveLayoutPartition) :
    (existStart bytesPerSector e).toNat = (existing bytesPerSector e).start := by
  rw [existStart,UInt64.toNat_div,UInt32.toNat_toUInt64,existing]

theorem foundEnd_toNat (found : FoundPartition) : found.foundEnd.toNat = found.extent.stop % 2 ^ 64 :=
  UInt64.toNat_add _ _

variable (wide : 2 ≤ bytesPerSector.toNat)
include wide

theorem existing_stop (e : DriveLayoutPartition) : (existing bytesPerSector e).stop < 2 ^ 64 := by
  have start := Nat.div_le_div_left wide (by decide : 0 < 2) (a := e.startingOffset.toNat)
  have length := Nat.div_le_div_left wide (by decide : 0 < 2) (a := e.partitionLength.toNat)
  have first := e.startingOffset.toNat_lt
  have second := e.partitionLength.toNat_lt
  simp only [Extent.stop,existing]
  omega

/-- Two numbers of whole sectors do not add up to a number that wraps. -/
theorem existEnd_toNat (e : DriveLayoutPartition) :
    (existEnd bytesPerSector e).toNat = (existing bytesPerSector e).stop := by
  rw [existEnd,UInt64.toNat_add,existStart_toNat,UInt64.toNat_div,UInt32.toNat_toUInt64]
  exact Nat.mod_eq_of_lt (existing_stop wide e)

theorem overlapping_iff (e : DriveLayoutPartition) : Overlapping bytesPerSector found e ↔
    found.extent.start < (existing bytesPerSector e).stop ∧
      (existing bytesPerSector e).start < found.extent.stop % 2 ^ 64 := by
  rw [Overlapping,UInt64.lt_iff_toNat_lt,UInt64.lt_iff_toNat_lt,existEnd_toNat wide,existStart_toNat,foundEnd_toNat]
  rfl

theorem coinciding_iff (e : DriveLayoutPartition) :
    (found.startLba = existStart bytesPerSector e ∧ found.foundEnd = existEnd bytesPerSector e) ↔
      found.extent.start = (existing bytesPerSector e).start ∧
        found.extent.stop % 2 ^ 64 = (existing bytesPerSector e).stop := by
  rw [← UInt64.toNat_inj,← UInt64.toNat_inj,existEnd_toNat wide,existStart_toNat,foundEnd_toNat]
  rfl

end Ranges

/-- What the marks of a found partition should say. -/
structure MarkedExactly (bytesPerSector : UInt32) (layout : List DriveLayoutPartition)
    (found marked : FoundPartition) : Prop where
  overlap : marked.overlapsExisting = true ↔ ∃ e ∈ layout, found.extent.Meets (existing bytesPerSector e)
  confidence : marked.confidence = 10 ↔ ∃ e ∈ layout, existing bytesPerSector e = found.extent

def Crosses (a b : Extent) : Prop := a.start < b.stop ∧ b.start < a.stop

instance (a : Extent) : DecidablePred (Crosses a) := fun _ => inferInstanceAs (Decidable (_ ∧ _))

/-- The layouts that the search is right about. Where the end of the found partition is
below 2^64, an empty partition strictly inside it comes with one that really overlaps, and
the first partition it crosses is the one it coincides with, if there is one. Otherwise a
partition that ends behind its start comes with one that also starts before its wrapped end. -/
def Favourable (bytesPerSector : UInt32) (layout : List DriveLayoutPartition) (found : FoundPartition) : Prop :=
  if found.extent.stop < 2 ^ 64 then
    ((∃ e ∈ layout, (existing bytesPerSector e).count = 0 ∧ found.extent.start < (existing bytesPerSector e).start ∧
        (existing bytesPerSector e).start < found.extent.stop) →
      ∃ e ∈ layout, found.extent.Meets (existing bytesPerSector e)) ∧
    ∀ first, layout.find? (fun e => decide (Crosses found.extent (existing bytesPerSector e))) = some first →
      (∃ e ∈ layout, existing bytesPerSector e = found.extent) → existing bytesPerSector first = found.extent
  else
    (∃ e ∈ layout, 0 < (existing bytesPerSector e).count ∧ found.extent.start < (existing bytesPerSector e).stop) →
      ∃ e ∈ layout, found.extent.start < (existing bytesPerSector e).stop ∧
        (existing bytesPerSector e).start < found.extent.stop - 2 ^ 64

section Exactness

variable (fresh : Fresh found)
include fresh

theorem some_sector : 0 < found.extent.count := by
  have sized := fresh.sized
  rw [ne_eq,← UInt64.toNat_inj] at sized
  exact Nat.pos_of_ne_zero sized

theorem marked_overlaps_iff :
    (markAgainst bytesPerSector found layout).overlapsExisting = true ↔
      ∃ e ∈ layout, Overlapping bytesPerSector found e := by
  rw [markAgainst_eq]
  cases first : layout.find? (fun e => decide (Overlapping bytesPerSector found e)) with
  | none =>
    have none_such := List.find?_eq_none.mp first
    refine ⟨fun marked => ?_,fun ⟨e,member,overlaps⟩ => absurd overlaps (by simpa using none_such e member)⟩
    rw [fresh.unmarked] at marked
    cases marked
  | some e =>
    have overlaps := List.find?_some first
    exact ⟨fun _ => ⟨e,List.mem_of_find?_eq_some first,by simpa using overlaps⟩,fun _ => rfl⟩

theorem marked_confidence_iff :
    (markAgainst bytesPerSector found layout).confidence = 10 ↔
      ∃ first, layout.find? (fun e => decide (Overlapping bytesPerSector found e)) = some first ∧
        found.startLba = existStart bytesPerSector first ∧ found.foundEnd = existEnd bytesPerSector first := by
  rw [markAgainst_eq]
  cases first : layout.find? (fun e => decide (Overlapping bytesPerSector found e)) with
  | none => exact ⟨fun lowered => absurd lowered fresh.confidence,fun ⟨_,impossible,_⟩ => (by cases impossible)⟩
  | some e =>
    simp only [Option.some.injEq,exists_eq_left']
    split
    next same => exact ⟨fun _ => same,fun _ => rfl⟩
    next apart => exact ⟨fun lowered => absurd lowered fresh.confidence,fun same => absurd same apart⟩

theorem meets_existing_iff (e : DriveLayoutPartition) : found.extent.Meets (existing bytesPerSector e) ↔
    0 < (existing bytesPerSector e).count ∧ Crosses found.extent (existing bytesPerSector e) :=
  Extent.meets_iff (some_sector fresh)

variable (wide : 2 ≤ bytesPerSector.toNat)
include wide

theorem exact_below (below : found.extent.stop < 2 ^ 64) :
    MarkedExactly bytesPerSector layout found (markAgainst bytesPerSector found layout) ↔
      Favourable bytesPerSector layout found := by
  have sectors := some_sector fresh
  have whole := Nat.mod_eq_of_lt below
  have crossing : ∀ e, Overlapping bytesPerSector found e ↔ Crosses found.extent (existing bytesPerSector e) := by
    intro e
    rw [overlapping_iff wide,whole,Crosses]
  have same_search : layout.find? (fun e => decide (Overlapping bytesPerSector found e)) =
      layout.find? (fun e => decide (Crosses found.extent (existing bytesPerSector e))) :=
    congrArg (fun test => layout.find? test) (funext (fun e => decide_eq_decide.mpr (crossing e)))
  have coinciding : ∀ e, (found.startLba = existStart bytesPerSector e ∧ found.foundEnd = existEnd bytesPerSector e) ↔
      existing bytesPerSector e = found.extent := by
    intro e
    rw [coinciding_iff wide,whole,Extent.stop,Extent.stop,Extent.eq_iff]
    omega
  have crossed : ∀ e, existing bytesPerSector e = found.extent → Crosses found.extent (existing bytesPerSector e) := by
    intro e same
    rw [same,Crosses,Extent.stop]
    omega
  have overlap : (markAgainst bytesPerSector found layout).overlapsExisting = true ↔
      ∃ e ∈ layout, Crosses found.extent (existing bytesPerSector e) := by
    rw [marked_overlaps_iff fresh]
    exact exists_congr (fun e => and_congr_right (fun _ => crossing e))
  have confidence : (markAgainst bytesPerSector found layout).confidence = 10 ↔
      ∃ first, layout.find? (fun e => decide (Crosses found.extent (existing bytesPerSector e))) = some first ∧
        existing bytesPerSector first = found.extent := by
    rw [marked_confidence_iff fresh,same_search]
    exact exists_congr (fun e => and_congr_right (fun _ => coinciding e))
  rw [Favourable,if_pos below]
  constructor
  · rintro ⟨marks,lowers⟩
    constructor
    · rintro ⟨e,member,empty,after,before⟩
      refine marks.mp (overlap.mpr ⟨e,member,?_,before⟩)
      rw [Extent.stop,empty]
      exact after
    · intro first searched coincides
      obtain ⟨first',searched',same⟩ := confidence.mp (lowers.mpr coincides)
      rw [searched] at searched'
      cases searched'
      exact same
  · rintro ⟨real,ordered⟩
    constructor
    · rw [overlap]
      constructor
      · rintro ⟨e,member,crosses⟩
        rcases Nat.eq_zero_or_pos (existing bytesPerSector e).count with empty | some_sector
        · refine real ⟨e,member,empty,?_,crosses.2⟩
          have start := crosses.1
          rw [Extent.stop,empty] at start
          exact start
        · exact ⟨e,member,(meets_existing_iff fresh e).mpr ⟨some_sector,crosses⟩⟩
      · rintro ⟨e,member,meets⟩
        exact ⟨e,member,((meets_existing_iff fresh e).mp meets).2⟩
    · rw [confidence]
      constructor
      · rintro ⟨first,searched,same⟩
        exact ⟨first,List.mem_of_find?_eq_some searched,same⟩
      · rintro ⟨e,member,same⟩
        cases searched : layout.find? (fun e => decide (Crosses found.extent (existing bytesPerSector e))) with
        | none =>
          have never := List.find?_eq_none.mp searched e member
          exact absurd (crossed e same) (by simpa using never)
        | some first => exact ⟨first,rfl,ordered first searched ⟨e,member,same⟩⟩

theorem exact_above (above : ¬ found.extent.stop < 2 ^ 64) :
    MarkedExactly bytesPerSector layout found (markAgainst bytesPerSector found layout) ↔
      Favourable bytesPerSector layout found := by
  have sectors := some_sector fresh
  have start : found.extent.start < 2 ^ 64 := found.startLba.toNat_lt
  have count : found.extent.count < 2 ^ 64 := found.sectorCount.toNat_lt
  have wraps : found.extent.stop % 2 ^ 64 = found.extent.stop - 2 ^ 64 := by
    rw [Extent.stop] at above ⊢
    omega
  have early : found.extent.stop - 2 ^ 64 < found.extent.start := by
    rw [Extent.stop] at above ⊢
    omega
  have overlap : (markAgainst bytesPerSector found layout).overlapsExisting = true ↔
      ∃ e ∈ layout, found.extent.start < (existing bytesPerSector e).stop ∧
        (existing bytesPerSector e).start < found.extent.stop - 2 ^ 64 := by
    rw [marked_overlaps_iff fresh]
    refine exists_congr (fun e => and_congr_right (fun _ => ?_))
    rw [overlapping_iff wide,wraps]
  have meets : ∀ e, found.extent.Meets (existing bytesPerSector e) ↔
      0 < (existing bytesPerSector e).count ∧ found.extent.start < (existing bytesPerSector e).stop := by
    intro e
    have limit := existing_stop wide e
    rw [meets_existing_iff fresh,Crosses]
    simp only [Extent.stop] at limit above ⊢
    omega
  have never_lowered : (markAgainst bytesPerSector found layout).confidence ≠ 10 := by
    intro lowered
    obtain ⟨first,searched,same⟩ := (marked_confidence_iff fresh).mp lowered
    have overlaps : Overlapping bytesPerSector found first := by simpa using List.find?_some searched
    have reached := (overlapping_iff wide first).mp overlaps
    have starts := ((coinciding_iff wide first).mp same).1
    omega
  have never_same : ¬ ∃ e ∈ layout, existing bytesPerSector e = found.extent := by
    rintro ⟨e,_,same⟩
    have limit := existing_stop wide e
    rw [same] at limit
    exact above limit
  rw [Favourable,if_neg above]
  constructor
  · rintro ⟨marks,_⟩ ⟨e,member,reached⟩
    exact overlap.mp (marks.mpr ⟨e,member,(meets e).mpr reached⟩)
  · intro real
    constructor
    · rw [overlap]
      constructor
      · rintro ⟨e,member,after,before⟩
        refine ⟨e,member,(meets e).mpr ⟨?_,after⟩⟩
        rw [Extent.stop] at after
        omega
      · rintro ⟨e,member,met⟩
        exact real ⟨e,member,(meets e).mp met⟩
    · exact ⟨fun lowered => absurd lowered never_lowered,fun same => absurd same never_same⟩

theorem markAgainst_exact_iff :
    MarkedExactly bytesPerSector layout found (markAgainst bytesPerSector found layout) ↔
      Favourable bytesPerSector layout found := by
  by_cases below : found.extent.stop < 2 ^ 64
  · exact exact_below fresh wide below
  · exact exact_above fresh wide below

end Exactness

/-- The marks of all found partitions are exact when the layout is favourable to each of them. -/
theorem markOverlaps_exact_iff (wide : 2 ≤ bytesPerSector.toNat) {results : List FoundPartition}
    (fresh : ∀ found ∈ results, Fresh found) :
    List.Forall₂ (MarkedExactly bytesPerSector layout) results (markOverlaps bytesPerSector layout results) ↔
      ∀ found ∈ results, Favourable bytesPerSector layout found := by
  rw [markOverlaps,List.forall₂_map_right_iff,List.forall₂_same]
  refine forall₂_congr (fun found member => ?_)
  rw [if_neg (fresh found member).sized]
  exact markAgainst_exact_iff (fresh found member) wide

section Samples

def lost : FoundPartition := { startLba := 2048,sectorCount := 204800,confidence := 95 }

def larger : FoundPartition := { startLba := 409600,sectorCount := 8192,confidence := 80 }

/-- One partition in front of both, one where the first was found, and one in the second. -/
def mixed : List DriveLayoutPartition := [⟨512,1048064⟩,⟨1048576,104857600⟩,⟨209715200,1048576⟩]

theorem lost_fresh : ∀ found ∈ [lost,larger], Fresh found := by
  intro found member
  simp only [List.mem_cons,List.not_mem_nil,or_false] at member
  rcases member with rfl | rfl <;> exact ⟨by decide,rfl,by decide⟩

/-- Both are marked as they should be: the first lies where a partition is, the second
overlaps one. -/
theorem lost_marked : (markOverlaps 512 mixed [lost,larger]).map (·.confidence) = [10,80] ∧
    List.Forall₂ (MarkedExactly 512 mixed) [lost,larger] (markOverlaps 512 mixed [lost,larger]) := by
  have filled (e : DriveLayoutPartition) (listed : e ∈ mixed) : (existing 512 e).count ≠ 0 := by
    simp only [mixed,List.mem_cons,List.not_mem_nil,or_false] at listed
    rcases listed with rfl | rfl | rfl <;> decide
  refine ⟨by decide,(markOverlaps_exact_iff (by decide) lost_fresh).mpr (fun found member => ?_)⟩
  simp only [List.mem_cons,List.not_mem_nil,or_false] at member
  rcases member with rfl | rfl
  · rw [Favourable,if_pos (by decide)]
    refine ⟨fun ⟨e,listed,empty,_⟩ => absurd empty (filled e listed),fun first searched _ => ?_⟩
    cases searched
    rfl
  · rw [Favourable,if_pos (by decide)]
    refine ⟨fun ⟨e,listed,empty,_⟩ => absurd empty (filled e listed),fun _ _ ⟨e,listed,same⟩ => ?_⟩
    simp only [mixed,List.mem_cons,List.not_mem_nil,or_false] at listed
    rcases listed with rfl | rfl | rfl <;> exact absurd same (by decide)

/-- An extended container of 1 GiB, and the logical partition in it that is the found one. -/
def nested : List DriveLayoutPartition := [⟨1047552,1073741824⟩,⟨1048576,104857600⟩]

/-- The search ends at the container, and the confidence is kept. -/
theorem nested_unnoticed :
    ¬ List.Forall₂ (MarkedExactly 512 nested) [lost] (markOverlaps 512 nested [lost]) := by
  intro exactly
  have marked := (List.forall₂_cons.mp exactly).1
  have lowered := marked.confidence.mpr ⟨⟨1048576,104857600⟩,List.mem_cons_of_mem _ List.mem_cons_self,rfl⟩
  exact absurd lowered (by decide)

end Samples

end SetecWizard.Core.PartitionRecovery
