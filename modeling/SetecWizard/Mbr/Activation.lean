import SetecWizard.Mbr.Indices
import SetecWizard.Mbr.Placement
import SetecWizard.Operations.MbrDisk

/-! The active flag of the primary partitions. Setting it clears the flags of all the
others, before it is known whether there is a partition to set it for; adding a
partition that is to be active clears none.
-/
namespace SetecWizard.Core
open SetecWizard.Library

/-- A call of one of the mutators, or one that sets the active partition. -/
inductive MbrEdit where
  | change (call : MbrCall)
  | setActive (index : Int)

def MbrEdit.apply (t : MbrPartitionTable) : MbrEdit → Mutation MbrPartitionTable
  | .change call => call.apply t
  | .setActive index => t.setActivePartition index

def MbrEdit.step (t : MbrPartitionTable) (edit : MbrEdit) : MbrPartitionTable := (edit.apply t).2

namespace MbrPartitionTable

def deactivated (e : PartitionEntry) : PartitionEntry := if e.isLogical then e else { e with isActive := false }

/-- What setting the active partition does, by the branch it takes. -/
inductive ActiveEffect (t : MbrPartitionTable) (index : Int) : Mutation MbrPartitionTable → Prop
  | cleared (none : index < 0) : ActiveEffect t index (.ok (),{ t with entries := t.entries.map deactivated })
  | missing (named : 0 ≤ index) (absent : ∀ e ∈ t.entries, e.isLogical = false → e.index ≠ index) :
      ActiveEffect t index (.error (.fromCode .partitionNotFound "Primary partition index not found"),
        { t with entries := t.entries.map deactivated })
  | activated (pos : Nat) (e : PartitionEntry) (target : t.entries[pos]? = some e) (named : e.index = index)
      (primary : e.isLogical = false) :
      ActiveEffect t index (.ok (),{ t with
        entries := (t.entries.map deactivated).modify pos (fun e => { e with isActive := true }) })

theorem deactivated_same (e : PartitionEntry) :
    (deactivated e).index = e.index ∧ (deactivated e).isLogical = e.isLogical := by
  unfold deactivated
  split <;> exact ⟨rfl,rfl⟩

theorem setActive_effect (t : MbrPartitionTable) (index : Int) :
    ActiveEffect t index (t.setActivePartition index) := by
  unfold setActivePartition
  simp only
  split
  next none => exact .cleared none
  next named =>
    split
    next absent =>
      refine .missing (Int.not_lt.mp named) (fun e member primary same => ?_)
      have other := List.findIdx?_eq_none_iff.mp absent (deactivated e) (List.mem_map_of_mem member)
      simp [deactivated_same,same,primary] at other
    next pos found =>
      obtain ⟨bound,matched,_⟩ := List.findIdx?_eq_some_iff_getElem.mp found
      rw [List.length_map] at bound
      simp only [List.getElem_map,Bool.and_eq_true,beq_iff_eq,Bool.not_eq_true'] at matched
      have same := deactivated_same t.entries[pos]
      exact .activated pos _ (List.getElem?_eq_getElem bound) (same.1.symm.trans matched.1)
        (same.2.symm.trans matched.2)

/-- The calls that leave the entries alone when they fail. -/
def Atomic (t : MbrPartitionTable) : MbrEdit → Prop
  | .change _ => True
  | .setActive index => 0 ≤ index → (∀ e ∈ t.entries, e.isLogical = false → e.index ≠ index) →
      ∀ e ∈ t.entries, e.isLogical = false → e.isActive = false

theorem map_deactivated (t : MbrPartitionTable) : t.entries.map deactivated = t.entries ↔
    ∀ e ∈ t.entries, e.isLogical = false → e.isActive = false := by
  have pointwise := @List.map_inj_left _ _ t.entries deactivated id
  rw [List.map_id] at pointwise
  rw [pointwise]
  refine forall₂_congr (fun e _ => ?_)
  by_cases logical : e.isLogical = true
  · simp [deactivated,logical]
  · rw [deactivated,if_neg logical]
    refine ⟨fun same _ => ?_,fun off => ?_⟩
    · exact (congrArg (·.isActive) same).symm
    · have inactive := off (Bool.eq_false_of_not_eq_true logical)
      cases e
      simp_all

theorem failed_call_keeps {t : MbrPartitionTable} {call : MbrCall} {error : ErrorInfo}
    (failed : (call.apply t).1 = .error error) : (call.apply t).2 = t := by
  have rejected : ¬ t.Accepts call := by
    rw [← apply_ok,failed]
    simp
  have effect := step_effect t call
  rw [MbrCall.step] at effect
  generalize (call.apply t).2 = t' at effect ⊢
  cases effect with
  | refused => rfl
  | added params accepted => exact absurd accepted rejected
  | deleted index pos e found target => exact absurd (Option.isSome_iff_exists.mpr ⟨pos,found⟩) rejected
  | resized index newStart newSize pos found accepted =>
    exact absurd ⟨Option.isSome_iff_exists.mpr ⟨pos,found⟩,accepted⟩ rejected

/-- A call that fails leaves the entries as they were, but for setting a partition active
that there is not while there is one that is. -/
theorem failed_edit_keeps_iff (t : MbrPartitionTable) (edit : MbrEdit) :
    (∀ error, (edit.apply t).1 = .error error → (edit.apply t).2.entries = t.entries) ↔ t.Atomic edit := by
  cases edit with
  | change call =>
    refine iff_of_true (fun error failed => ?_) trivial
    exact congrArg (·.entries) (failed_call_keeps failed)
  | setActive index =>
    simp only [MbrEdit.apply]
    have effect := t.setActive_effect index
    generalize t.setActivePartition index = outcome at effect ⊢
    cases effect with
    | cleared none =>
      refine iff_of_true (fun error failed => ?_) (fun named => ?_)
      · cases failed
      · omega
    | missing named absent =>
      rw [Atomic,map_deactivated]
      exact ⟨fun kept _ _ => kept _ rfl,fun kept error _ => kept named absent⟩
    | activated pos e target named primary =>
      refine iff_of_true (fun error failed => ?_) (fun _ absent => ?_)
      · cases failed
      · exact absurd named (absent e (List.mem_of_getElem? target) primary)

def activeTable : MbrPartitionTable :=
  (emptyTable.addPartition { startLba := 1,sectorCount := 100,isActive := true }).2

/-- The flag of the only partition is lost to a call that names another one. -/
theorem failed_setActive_clears : ¬ ∀ (t : MbrPartitionTable) (edit : MbrEdit) (error : ErrorInfo),
    (edit.apply t).1 = .error error → (edit.apply t).2.entries = t.entries := by
  intro always
  have kept := always activeTable (.setActive 1)
    (.fromCode .partitionNotFound "Primary partition index not found") rfl
  revert kept
  decide

section Active

def activeCount (t : MbrPartitionTable) : Nat := t.entries.countP (fun e => !e.isLogical && e.isActive)

def activeSlots (image : List UInt8) : Nat :=
  ((List.range MBR_MAX_PRIMARY_PARTITIONS).filter
    (fun i => image.getD (MBR_PARTITION_ENTRY_OFFSET + i * MBR_PARTITION_ENTRY_SIZE) 0 == 0x80)).length

/-- An active primary is added only while there is none. -/
def ActivatesAlone (t : MbrPartitionTable) : MbrEdit → Prop
  | .change (.add params) => t.addChecks params = .ok () → params.isLogical = false → params.isActive = true →
      t.activeCount = 0
  | _ => True

theorem countP_deactivated (entries : List PartitionEntry) :
    (entries.map deactivated).countP (fun e => !e.isLogical && e.isActive) = 0 := by
  rw [List.countP_map,List.countP_eq_zero]
  intro e _
  rw [Function.comp_apply,deactivated]
  split <;> simp_all

theorem countP_of_map {p : PartitionEntry → Bool} {first second : List PartitionEntry}
    (same : first.map p = second.map p) : first.countP p = second.countP p := by
  have counted (entries : List PartitionEntry) : entries.countP p = (entries.map p).countP id := by
    rw [List.countP_map]
    rfl
  rw [counted,counted,same]

/-- One call keeps the active primary the only one exactly when it adds no second one. -/
theorem active_step {t : MbrPartitionTable} (few : t.activeCount ≤ 1) (edit : MbrEdit) :
    activeCount (edit.step t) ≤ 1 ↔ t.ActivatesAlone edit := by
  cases edit with
  | setActive index =>
    refine iff_of_true ?_ trivial
    have effect := t.setActive_effect index
    rw [MbrEdit.step,MbrEdit.apply]
    generalize t.setActivePartition index = outcome at effect ⊢
    have none := countP_deactivated t.entries
    cases effect with
    | cleared => exact (countP_deactivated t.entries).le.trans (by omega)
    | missing => exact (countP_deactivated t.entries).le.trans (by omega)
    | activated pos e target named primary =>
      obtain ⟨before,after,split,rfl⟩ := split_at target
      have place : before.length = (before.map deactivated).length := (List.length_map _).symm
      rw [activeCount]
      simp only [split,List.map_append,List.map_cons] at none ⊢
      rw [place,modify_at,List.countP_append,List.countP_cons]
      rw [List.countP_append,List.countP_cons] at none
      split <;> omega
  | change call =>
    rw [MbrEdit.step,MbrEdit.apply]
    have effect := step_effect t call
    rw [MbrCall.step] at effect
    generalize (call.apply t).2 = t' at effect ⊢
    cases effect with
    | refused call failed =>
      refine iff_of_true few ?_
      cases call with
      | add params => exact fun accepted => absurd accepted failed
      | delete index => trivial
      | resize index newStart newSize => trivial
    | added params accepted =>
      have count : activeCount { t with entries := t.entries ++ [t.newEntry params] } =
          t.activeCount + if !params.isLogical && params.isActive then 1 else 0 := by
        rw [activeCount,List.countP_append,List.countP_singleton]
        rfl
      rw [count,ActivatesAlone]
      cases params.isLogical <;> cases params.isActive <;> simp [accepted] <;> omega
    | deleted index pos e found target =>
      refine iff_of_true ?_ trivial
      have same := countP_of_map (map_reindex (fun e => !e.isLogical && e.isActive) (fun _ _ => rfl)
        (withoutEntry t.entries pos e))
      rw [activeCount,same]
      exact (withoutEntry_sublist t.entries pos e).countP_le.trans few
    | resized index newStart newSize pos found accepted =>
      refine iff_of_true ?_ trivial
      rw [activeCount,countP_of_map (map_modified _ (·.movedTo newStart newSize) (fun _ => rfl) t.entries pos)]
      exact few

theorem countP_take {α : Type} (p : α → Bool) (xs : List α) (n : Nat) :
    ((List.range n).filter (fun i => xs[i]?.any p)).length = (xs.take n).countP p := by
  induction n with
  | zero => rfl
  | succ n ih =>
    rw [List.range_succ,List.filter_append,List.length_append,ih,List.take_add_one,List.countP_append,
      List.filter_singleton]
    cases xs[n]? with
    | none => rfl
    | some x => cases holds : p x <;> simp [holds]

theorem activeSlots_le {t : MbrPartitionTable} {image : List UInt8} (serialized : t.serialize = .ok image) :
    activeSlots image ≤ t.activeCount := by
  rw [serialize_eq,Except.ok.injEq] at serialized
  have length := t.length_mbrSector
  have base : MBR_PARTITION_ENTRY_OFFSET = 446 := rfl
  have size : MBR_PARTITION_ENTRY_SIZE = 16 := rfl
  have byte (i : Nat) (bound : i < 4) : (image.getD (MBR_PARTITION_ENTRY_OFFSET + i * MBR_PARTITION_ENTRY_SIZE) 0 == 0x80) =
      t.primaries[i]?.any (·.isActive) := by
    have slot := t.slotBytes_mbrSector i bound
    have first := congrArg (·.getD 0 0) slot
    simp only [slotBytes,base,size] at first
    rw [getD_slice _ _ _ _ (by decide),Nat.add_zero] at first
    rw [base,size,← serialized,List.getD_eq_getElem?_getD,List.getElem?_append_left (by omega),
      ← List.getD_eq_getElem?_getD,first]
    cases t.primaries[i]? with
    | none => rfl
    | some e =>
      rw [Option.elim_some,Option.any_some]
      change (statusByte e == 0x80) = e.isActive
      rw [statusByte]
      cases e.isActive <;> rfl
  have slots : activeSlots image = (t.primaries.take 4).countP (·.isActive) := by
    rw [← countP_take,activeSlots]
    exact congrArg List.length (List.filter_congr (fun i member => byte i (List.mem_range.mp member)))
  have all : t.primaries.countP (·.isActive) = t.activeCount := by
    rw [primaries,List.countP_filter,activeCount]
    exact List.countP_congr (fun e _ => by simp [and_comm])
  rw [slots,← all]
  exact (List.take_sublist 4 t.primaries).countP_le

/-- There is at most one active primary, in the table and in its sector, throughout a run
that starts so exactly when no active primary is added while there is one. -/
theorem active_run_iff (t : MbrPartitionTable) (few : t.activeCount ≤ 1) (edits : List MbrEdit) :
    (∀ t' ∈ Run.trace MbrEdit.step t edits,
      t'.activeCount ≤ 1 ∧ ∀ image, t'.serialize = .ok image → activeSlots image ≤ 1) ↔
        Run.Guarded MbrEdit.step ActivatesAlone t edits := by
  have run := Run.invariant_iff_guarded MbrEdit.step ActivatesAlone (fun _ => True) (fun t => t.activeCount ≤ 1)
    (fun _ _ _ => trivial) (fun _ edit _ few => active_step few edit) t edits trivial few
  rw [← run]
  refine forall₂_congr (fun t' _ => ?_)
  exact and_iff_left_of_imp (fun few image serialized => (activeSlots_le serialized).trans few)

/-- The first partition is added active, and then made active again. -/
theorem active_run_sample : activeCount ([MbrEdit.change (.add { startLba := 1,sectorCount := 100,isActive := true }),
    .setActive 0].foldl MbrEdit.step emptyTable) ≤ 1 :=
  ((active_run_iff emptyTable (by decide) [.change (.add { startLba := 1,sectorCount := 100,isActive := true }),
    .setActive 0]).mpr ⟨fun _ _ _ => rfl,trivial,trivial⟩ _ (Run.foldl_mem_trace _ _ _)).1

/-- Two partitions are added active, one after the other. -/
theorem both_active : ¬ ∀ edits : List MbrEdit, ∀ t' ∈ Run.trace MbrEdit.step emptyTable edits, t'.activeCount ≤ 1 := by
  intro always
  have last := always [.change (.add { startLba := 1,sectorCount := 100,isActive := true }),
    .change (.add { startLba := 101,sectorCount := 100,isActive := true })] _ (Run.foldl_mem_trace _ _ _)
  revert last
  decide

end Active

end MbrPartitionTable
end SetecWizard.Core
