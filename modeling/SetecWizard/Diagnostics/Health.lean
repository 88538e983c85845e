import SetecWizard.Core.SmartReader
import Mathlib.Data.List.Forall2
import Mathlib.Data.UInt

/-! Whether the health of a disk follows its numbers. Of the attributes of an ATA disk it does,
with an unknown status between a good one and a warning. The health of an NVMe disk gets
better when the spare space that has already made it critical is used up, and when a lesser
warning is reported beside it.
-/
namespace SetecWizard.Core

/-- The order in which the evaluation of the attributes looks for a status. -/
def SmartStatus.severity : SmartStatus → Nat
  | .ok => 0
  | .unknown => 1
  | .warning => 2
  | .critical => 3

namespace SmartReader

theorem severity_le (status : SmartStatus) : status.severity ≤ 3 := by
  cases status <;> decide

section Attributes

/-- An attribute whose values are not higher than those of another one. -/
structure Lower (first second : SmartAttribute) : Prop where
  id : second.id = first.id
  threshold : second.threshold = first.threshold
  status : second.status = first.status
  currentValue : second.currentValue ≤ first.currentValue
  worstValue : second.worstValue ≤ first.worstValue

def evaluated (attr : SmartAttribute) : SmartAttribute :=
  { attr with status := evaluateAttributeHealth attr.currentValue attr.worstValue attr.threshold }

theorem attributeHealth_mono {current worst current' worst' : UInt8} (threshold : UInt8)
    (lower : current' ≤ current) (lowest : worst' ≤ worst) :
    (evaluateAttributeHealth current worst threshold).severity ≤
      (evaluateAttributeHealth current' worst' threshold).severity := by
  rw [UInt8.le_iff_toNat_le] at lower lowest
  by_cases passing : threshold = 0
  · rw [evaluateAttributeHealth,evaluateAttributeHealth,if_pos passing,if_pos passing]
  have positive : 0 < threshold := by
    rw [UInt8.lt_iff_toNat_lt]
    exact Nat.pos_of_ne_zero (fun zero => passing (UInt8.toNat_inj.mp zero))
  rw [evaluateAttributeHealth,evaluateAttributeHealth,if_neg passing,if_neg passing]
  by_cases failed : current' ≤ threshold
  · rw [if_pos failed]
    exact severity_le _
  have above : ¬ current ≤ threshold := by
    rw [UInt8.le_iff_toNat_le] at failed ⊢
    omega
  rw [if_neg failed,if_neg above]
  by_cases was : worst' ≤ threshold
  · rw [if_pos was]
    split
    next => exact le_refl _
    next =>
      split
      next => exact le_refl _
      next => exact Nat.zero_le _
  have never : ¬ worst ≤ threshold := by
    rw [UInt8.le_iff_toNat_le] at was ⊢
    omega
  rw [if_neg was,if_neg never]
  by_cases close : current.toNat < threshold.toNat + 10
  · rw [if_pos ⟨positive,close⟩,if_pos ⟨positive,by omega⟩]
  · rw [if_neg (fun both => close both.2)]
    exact Nat.zero_le _

theorem evaluated_mono {first second : SmartAttribute} (lower : Lower first second) :
    (evaluated first).status.severity ≤ (evaluated second).status.severity := by
  rw [evaluated,evaluated,lower.threshold]
  exact attributeHealth_mono _ lower.currentValue lower.worstValue

/-- An attribute without a threshold is good unless its value is zero. -/
theorem mergeThreshold_mono (thresholds : List (UInt8 × UInt8)) {first second : SmartAttribute}
    (lower : Lower first second) :
    (mergeThreshold thresholds first).status.severity ≤ (mergeThreshold thresholds second).status.severity := by
  have evaluates (current worst threshold : UInt8) : evaluateAttributeHealth current worst threshold ≠ .unknown := by
    unfold evaluateAttributeHealth
    repeat' split
    all_goals nofun
  unfold mergeThreshold
  rw [lower.id]
  cases thresholds.find? (fun entry => entry.1 = first.id) with
  | some entry =>
    simp only [if_neg (evaluates _ _ _)]
    exact attributeHealth_mono _ lower.currentValue lower.worstValue
  | none =>
    simp only [lower.status]
    split
    next =>
      by_cases healthy : 0 < second.currentValue
      · have same : 0 < first.currentValue := UInt8.lt_of_lt_of_le healthy lower.currentValue
        rw [if_pos healthy,if_pos same]
      · rw [if_neg healthy]
        simp only
        split
        next => exact Nat.zero_le _
        next => exact le_refl _
    next => rw [lower.status]

/-- What the loop has seen before, as one severity. -/
def seen (hasWarning hasUnknown : Bool) : Nat := if hasWarning then 2 else if hasUnknown then 1 else 0

def worst (attributes : List SmartAttribute) : Nat :=
  attributes.foldr (fun attr rest => max attr.status.severity rest) 0

theorem worst_le (attributes : List SmartAttribute) : worst attributes ≤ 3 := by
  induction attributes with
  | nil => exact Nat.zero_le _
  | cons attr rest ih => exact Nat.max_le.mpr ⟨severity_le _,ih⟩

theorem worst_mono {first second : List SmartAttribute}
    (worse : List.Forall₂ (fun a b => a.status.severity ≤ b.status.severity) first second) :
    worst first ≤ worst second := by
  induction worse with
  | nil => exact le_refl _
  | cons pair _ ih => exact max_le_max pair ih

/-- The loop finds the most severe status. A list without any attribute is unknown. -/
theorem overallLoop_severity (empty : Bool) (attributes : List SmartAttribute) (w u : Bool) :
    (overallLoop empty attributes w u).severity = max (worst attributes) (max (seen w u) empty.toNat) := by
  induction attributes generalizing w u with
  | nil => cases empty <;> cases w <;> cases u <;> rfl
  | cons attr rest ih =>
    have most := worst_le rest
    have alone : empty.toNat ≤ 1 := Bool.toNat_le empty
    have before : seen w u ≤ 2 := by cases w <;> cases u <;> decide
    have all : worst (attr::rest) = max attr.status.severity (worst rest) := rfl
    rw [overallLoop,all]
    cases status : attr.status with
    | critical =>
      have own : SmartStatus.critical.severity = 3 := rfl
      simp only [own]
      omega
    | warning =>
      have own : SmartStatus.warning.severity = 2 := rfl
      have after : seen true u = 2 := rfl
      simp only [ih,after,own]
      omega
    | unknown =>
      have after : seen w true = max (seen w u) 1 := by cases w <;> cases u <;> rfl
      have own : SmartStatus.unknown.severity = 1 := rfl
      simp only [ih,after,own]
      omega
    | ok =>
      have own : SmartStatus.ok.severity = 0 := rfl
      simp only [ih,own]
      omega

theorem overall_mono {first second : List SmartAttribute}
    (worse : List.Forall₂ (fun a b => a.status.severity ≤ b.status.severity) first second) :
    (evaluateOverallHealth first).severity ≤ (evaluateOverallHealth second).severity := by
  have empty : second.isEmpty = first.isEmpty := by
    cases worse <;> rfl
  rw [evaluateOverallHealth,evaluateOverallHealth,empty,overallLoop_severity,overallLoop_severity]
  exact max_le_max (worst_mono worse) (le_refl _)

theorem attributes_mono {first second : List SmartAttribute} (lower : List.Forall₂ Lower first second) :
    (evaluateOverallHealth (first.map evaluated)).severity ≤ (evaluateOverallHealth (second.map evaluated)).severity ∧
    ∀ thresholds, (evaluateOverallHealth (first.map (mergeThreshold thresholds))).severity ≤
      (evaluateOverallHealth (second.map (mergeThreshold thresholds))).severity := by
  constructor
  · apply overall_mono
    rw [List.forall₂_map_left_iff,List.forall₂_map_right_iff]
    exact lower.imp (fun _ _ pair => evaluated_mono pair)
  · intro thresholds
    apply overall_mono
    rw [List.forall₂_map_left_iff,List.forall₂_map_right_iff]
    exact lower.imp (fun _ _ pair => mergeThreshold_mono thresholds pair)

/-- A sector of data with the same attributes, and with values that are not higher. -/
structure Fallen (data data' : List UInt8) : Prop where
  id : ∀ i, data'.getD (SMART_ATTR_START_OFFSET + i * SMART_ATTR_ENTRY_SIZE) 0 =
    data.getD (SMART_ATTR_START_OFFSET + i * SMART_ATTR_ENTRY_SIZE) 0
  currentValue : ∀ i, data'.getD (SMART_ATTR_START_OFFSET + i * SMART_ATTR_ENTRY_SIZE + 3) 0 ≤
    data.getD (SMART_ATTR_START_OFFSET + i * SMART_ATTR_ENTRY_SIZE + 3) 0
  worstValue : ∀ i, data'.getD (SMART_ATTR_START_OFFSET + i * SMART_ATTR_ENTRY_SIZE + 4) 0 ≤
    data.getD (SMART_ATTR_START_OFFSET + i * SMART_ATTR_ENTRY_SIZE + 4) 0

theorem parseAtaAttributes_lower {data data' : List UInt8} (fallen : Fallen data data') :
    List.Forall₂ Lower (parseAtaAttributes data) (parseAtaAttributes data') := by
  unfold parseAtaAttributes
  induction List.range SMART_MAX_ATTRS with
  | nil => exact .nil
  | cons i rest ih =>
    simp only [List.filterMap_cons,parseAtaAttribute,fallen.id]
    by_cases empty : data.getD (SMART_ATTR_START_OFFSET + i * SMART_ATTR_ENTRY_SIZE) 0 = 0
    · rw [if_pos empty,if_pos empty]
      exact ih
    · rw [if_neg empty,if_neg empty]
      exact .cons ⟨rfl,rfl,rfl,fallen.currentValue i,fallen.worstValue i⟩ ih

/-- Of two readings the one with the lower values is not the better one, with or without thresholds. -/
theorem readAtaSmart_mono {data data' : List UInt8} (fallen : Fallen data data') (threshResult : Result (List UInt8)) :
    ∃ first second, readAtaSmart (.ok data) threshResult = .ok first ∧ readAtaSmart (.ok data') threshResult = .ok second ∧
      first.overallHealth.severity ≤ second.overallHealth.severity := by
  have lower := parseAtaAttributes_lower fallen
  refine ⟨_,_,rfl,rfl,?_⟩
  cases threshResult with
  | ok sector => exact (attributes_mono lower).2 (parseAtaThresholds sector)
  | error e =>
    apply overall_mono
    rw [List.forall₂_map_left_iff,List.forall₂_map_right_iff]
    exact lower.imp (fun _ _ _ => le_refl _)

end Attributes

section Log

/-- A log that is in no field better than another one. -/
structure Degraded (a b : NvmeHealthInfo) : Prop where
  criticalWarning : a.criticalWarning &&& b.criticalWarning = a.criticalWarning
  availableSpareThreshold : b.availableSpareThreshold = a.availableSpareThreshold
  availableSpare : b.availableSpare ≤ a.availableSpare
  percentageUsed : a.percentageUsed ≤ b.percentageUsed
  mediaErrors : a.mediaErrors ≤ b.mediaErrors

/-- The spare space has made a disk critical, and it is used up or a lesser warning comes with it. -/
def Relieved (a b : NvmeHealthInfo) : Prop :=
  a.criticalWarning = 0 ∧ 0 < a.availableSpare ∧ a.availableSpare ≤ a.availableSpareThreshold ∧
    b.criticalWarning &&& 0x0C = 0 ∧ (b.criticalWarning ≠ 0 ∨ b.availableSpare = 0)

variable {a b : NvmeHealthInfo}

theorem Degraded.bits (worse : Degraded a b) (mask : UInt8) (none : b.criticalWarning &&& mask = 0) :
    a.criticalWarning &&& mask = 0 := by
  rw [← worse.criticalWarning,UInt8.and_assoc,none,UInt8.and_zero]

theorem Degraded.quiet (worse : Degraded a b) (none : b.criticalWarning = 0) : a.criticalWarning = 0 := by
  rw [← worse.criticalWarning,none,UInt8.and_zero]

/-- What the wear and the errors alone make of a log. -/
def worn (health : NvmeHealthInfo) : SmartStatus :=
  if 100 < health.percentageUsed then .warning else if 0 < health.mediaErrors then .warning else .ok

theorem worn_le (health : NvmeHealthInfo) : (worn health).severity ≤ 2 := by
  unfold worn
  repeat' split
  all_goals decide

theorem worn_mono (worse : Degraded a b) : (worn a).severity ≤ (worn b).severity := by
  rw [worn,worn]
  by_cases worn_out : 100 < b.percentageUsed
  · rw [if_pos worn_out]
    exact worn_le a
  have under : ¬ 100 < a.percentageUsed := fun worn => worn_out (UInt8.lt_of_lt_of_le worn worse.percentageUsed)
  rw [if_neg worn_out,if_neg under]
  by_cases failed : 0 < a.mediaErrors
  · rw [if_pos failed,if_pos (UInt64.lt_of_lt_of_le failed worse.mediaErrors)]
  · rw [if_neg failed]
    exact Nat.zero_le _

/-- The spare space as the evaluation tests it. -/
def SpareLow (health : NvmeHealthInfo) : Prop :=
  0 < health.availableSpare ∧ 0 < health.availableSpareThreshold ∧
    health.availableSpare ≤ health.availableSpareThreshold

theorem nvmeHealth_warned (warned : a.criticalWarning ≠ 0) :
    evaluateNvmeHealth a = if a.criticalWarning &&& 0x0C ≠ 0 then .critical else .warning := by
  rw [evaluateNvmeHealth,if_pos warned]

theorem nvmeHealth_low (quiet : a.criticalWarning = 0) (low : SpareLow a) : evaluateNvmeHealth a = .critical := by
  rw [evaluateNvmeHealth,if_neg (not_not.mpr quiet)]
  exact if_pos low

theorem nvmeHealth_worn (quiet : a.criticalWarning = 0) (high : ¬ SpareLow a) : evaluateNvmeHealth a = worn a := by
  rw [evaluateNvmeHealth,if_neg (not_not.mpr quiet)]
  exact if_neg high

theorem Relieved.low (relieved : Relieved a b) : SpareLow a :=
  ⟨relieved.2.1,UInt8.lt_of_lt_of_le relieved.2.1 relieved.2.2.1,relieved.2.2.1⟩

theorem nvmeHealth_mono_iff (worse : Degraded a b) :
    (evaluateNvmeHealth a).severity ≤ (evaluateNvmeHealth b).severity ↔ ¬ Relieved a b := by
  have warning : SmartStatus.warning.severity = 2 := rfl
  have critical : SmartStatus.critical.severity = 3 := rfl
  by_cases quiet : b.criticalWarning = 0
  · have quiet' := worse.quiet quiet
    by_cases low : SpareLow b
    · rw [nvmeHealth_low quiet low]
      refine iff_of_true (severity_le _) ?_
      rintro ⟨_,_,_,_,warned | used⟩
      · exact warned quiet
      · exact absurd low.1 (used ▸ UInt8.lt_irrefl 0)
    rw [nvmeHealth_worn quiet low]
    by_cases low' : SpareLow a
    · rw [nvmeHealth_low quiet' low',critical]
      have most := worn_le b
      refine iff_of_false (by omega) (not_not.mpr ⟨quiet',low'.1,low'.2.2,by rw [quiet,UInt8.zero_and],.inr ?_⟩)
      -- The spare space of the second log is not above the threshold either.
      by_contra left
      have some_ : 0 < b.availableSpare := by
        rw [UInt8.lt_iff_toNat_lt]
        exact Nat.pos_of_ne_zero (fun zero => left (UInt8.toNat_inj.mp zero))
      have threshold := worse.availableSpareThreshold
      exact low ⟨some_,threshold ▸ low'.2.1,threshold ▸ UInt8.le_trans worse.availableSpare low'.2.2⟩
    · rw [nvmeHealth_worn quiet' low']
      exact iff_of_true (worn_mono worse) (fun relieved => low' relieved.low)
  · rw [nvmeHealth_warned quiet]
    by_cases severe : b.criticalWarning &&& 0x0C ≠ 0
    · rw [if_pos severe]
      exact iff_of_true (severity_le _) (fun relieved => severe relieved.2.2.2.1)
    rw [if_neg severe,warning]
    by_cases quiet' : a.criticalWarning = 0
    · by_cases low' : SpareLow a
      · rw [nvmeHealth_low quiet' low',critical]
        exact iff_of_false (by decide) (not_not.mpr ⟨quiet',low'.1,low'.2.2,not_not.mp severe,.inl quiet⟩)
      · rw [nvmeHealth_worn quiet' low']
        exact iff_of_true (worn_le a) (fun relieved => low' relieved.low)
    · rw [nvmeHealth_warned quiet',if_neg (not_not.mpr (worse.bits _ (not_not.mp severe)))]
      exact iff_of_true (le_refl _) (fun relieved => quiet' relieved.1)

theorem health_mono_iff (a b : NvmeHealthInfo) (first second : List SmartAttribute) :
    (Degraded a b →
      ((evaluateNvmeHealth a).severity ≤ (evaluateNvmeHealth b).severity ↔ ¬ Relieved a b)) ∧
    (List.Forall₂ Lower first second →
      (evaluateOverallHealth (first.map evaluated)).severity ≤
        (evaluateOverallHealth (second.map evaluated)).severity ∧
      ∀ thresholds, (evaluateOverallHealth (first.map (mergeThreshold thresholds))).severity ≤
        (evaluateOverallHealth (second.map (mergeThreshold thresholds))).severity) :=
  ⟨nvmeHealth_mono_iff,attributes_mono⟩

/-- An attribute falls from 100 to 20, at a threshold of 25, while a disk of the other kind wears out. -/
theorem wear_noticed :
    (evaluateNvmeHealth { availableSpare := 100,availableSpareThreshold := 10 }).severity ≤
      (evaluateNvmeHealth { availableSpare := 5,availableSpareThreshold := 10,percentageUsed := 120 }).severity ∧
    (evaluateOverallHealth (List.map (mergeThreshold [(1,50),(5,25)]) [{ id := 5,currentValue := 100,worstValue := 100 }])).severity ≤
      (evaluateOverallHealth (List.map (mergeThreshold [(1,50),(5,25)]) [{ id := 5,currentValue := 20,worstValue := 20 }])).severity := by
  have sample := health_mono_iff { availableSpare := 100,availableSpareThreshold := 10 }
    { availableSpare := 5,availableSpareThreshold := 10,percentageUsed := 120 }
    [{ id := 5,currentValue := 100,worstValue := 100 }] [{ id := 5,currentValue := 20,worstValue := 20 }]
  constructor
  · exact (sample.1 ⟨by decide,rfl,by decide,by decide,by decide⟩).mpr (fun relieved => absurd relieved.2.2.1 (by decide))
  · exact (sample.2 (.cons ⟨rfl,rfl,rfl,by decide,by decide⟩ .nil)).2 [(1,50),(5,25)]

/-- The spare space goes from five percent, with a threshold of ten, to none. -/
theorem spare_used_up : ¬ ∀ a b : NvmeHealthInfo, Degraded a b →
    (evaluateNvmeHealth a).severity ≤ (evaluateNvmeHealth b).severity := by
  intro all
  have lost := all { availableSpare := 5,availableSpareThreshold := 10 } { availableSpareThreshold := 10 }
    ⟨by decide,rfl,by decide,by decide,by decide⟩
  revert lost
  decide

end Log

end SmartReader
end SetecWizard.Core
