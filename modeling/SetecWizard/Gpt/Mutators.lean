import SetecWizard.Core.GptPartitionTable
import SetecWizard.Library.Run

/-! What one call of a GPT mutator can do. A call that fails may still have set the
last usable LBA, which `addPartition` computes before it checks anything.
-/
namespace SetecWizard.Core
open SetecWizard.Library

namespace GptPartitionTable

theorem diskSectors_toNat (t : GptPartitionTable) :
    t.diskSectors.toNat = t.diskSizeBytes.toNat / t.sectorSize.toNat := by
  rw [diskSectors,UInt64.toNat_div,UInt32.toNat_toUInt64]

section WithLastUsable

variable (t : GptPartitionTable)

@[simp] theorem withLastUsable_entries : t.withLastUsable.entries = t.entries := by
  unfold withLastUsable
  split <;> rfl

@[simp] theorem withLastUsable_entryCount : t.withLastUsable.entryCount = t.entryCount := by
  unfold withLastUsable
  split <;> rfl

@[simp] theorem withLastUsable_entrySize : t.withLastUsable.entrySize = t.entrySize := by
  unfold withLastUsable
  split <;> rfl

@[simp] theorem withLastUsable_diskSizeBytes : t.withLastUsable.diskSizeBytes = t.diskSizeBytes := by
  unfold withLastUsable
  split <;> rfl

@[simp] theorem withLastUsable_sectorSize : t.withLastUsable.sectorSize = t.sectorSize := by
  unfold withLastUsable
  split <;> rfl

@[simp] theorem withLastUsable_diskSectors : t.withLastUsable.diskSectors = t.diskSectors := by
  unfold withLastUsable
  split <;> rfl

@[simp] theorem withLastUsable_freeSlot : t.withLastUsable.freeSlot = t.freeSlot := by
  unfold freeSlot usedSlots
  rw [withLastUsable_entries,withLastUsable_entryCount]

end WithLastUsable

/-- The checks a call has to pass before it changes an entry. -/
def Accepts (t : GptPartitionTable) : GptCall → Prop
  | .add params _ => params.sectorCount ≠ 0 ∧ t.withLastUsable.addChecks params = .ok () ∧
    t.freeSlot.isSome
  | .delete index => (findIndex t.entries index).isSome
  | .resize index newStart newSize =>
    (findIndex t.entries index).isSome ∧ t.resizeChecks index newStart newSize = .ok ()

/-- What a call does to the table, by the branch it takes. -/
inductive Effect (t : GptPartitionTable) : GptCall → GptPartitionTable → Prop
  | refused (call : GptCall) (failed : ¬ t.Accepts call) : Effect t call t
  | settled (params : PartitionParams) (random : Bytes 16) (failed : ¬ t.Accepts (.add params random)) :
      Effect t (.add params random) t.withLastUsable
  | added (params : PartitionParams) (random : Bytes 16) (slot : Nat) (positive : params.sectorCount ≠ 0)
      (accepted : t.withLastUsable.addChecks params = .ok ()) (free : t.freeSlot = some slot) :
      Effect t (.add params random) { t.withLastUsable with
        entries := t.entries ++ [t.withLastUsable.newEntry params random slot] }
  | deleted (index : Int) (pos : Nat) (found : findIndex t.entries index = some pos) :
      Effect t (.delete index) { t with entries := t.entries.eraseIdx pos }
  | resized (index : Int) (newStart newSize : UInt64) (pos : Nat)
      (found : findIndex t.entries index = some pos)
      (accepted : t.resizeChecks index newStart newSize = .ok ()) :
      Effect t (.resize index newStart newSize)
        { t with entries := t.entries.modify pos (·.movedTo newStart newSize) }

theorem step_effect (t : GptPartitionTable) (call : GptCall) : Effect t call (call.step t) := by
  cases call with
  | add params random =>
    simp only [GptCall.step,GptCall.apply,addPartition]
    by_cases empty : params.sectorCount = 0
    · rw [if_pos empty]
      exact .refused _ (by simp [Accepts,empty])
    · rw [if_neg empty]
      cases checks : t.withLastUsable.addChecks params with
      | error e => exact .settled params random (by simp [Accepts,checks])
      | ok _ =>
        simp only [withLastUsable_freeSlot,withLastUsable_entries]
        cases free : t.freeSlot with
        | none => exact .settled params random (by simp [Accepts,free])
        | some slot => exact .added params random slot empty checks free
  | delete index =>
    simp only [GptCall.step,GptCall.apply,deletePartition]
    cases found : findIndex t.entries index with
    | none => exact .refused _ (by simp [Accepts,found])
    | some pos => exact .deleted index pos found
  | resize index newStart newSize =>
    simp only [GptCall.step,GptCall.apply,resizePartition]
    cases found : findIndex t.entries index with
    | none => exact .refused _ (by simp [Accepts,found])
    | some pos =>
      cases checks : t.resizeChecks index newStart newSize with
      | error e => exact .refused _ (by simp [Accepts,checks])
      | ok _ => exact .resized index newStart newSize pos found checks

theorem effect_geometry {t t' : GptPartitionTable} {call : GptCall} (effect : Effect t call t') :
    t'.entryCount = t.entryCount ∧ t'.entrySize = t.entrySize ∧
      t'.diskSizeBytes = t.diskSizeBytes ∧ t'.sectorSize = t.sectorSize := by
  cases effect with
  | refused => exact ⟨rfl,rfl,rfl,rfl⟩
  | settled => simp
  | added => simp
  | deleted => exact ⟨rfl,rfl,rfl,rfl⟩
  | resized => exact ⟨rfl,rfl,rfl,rfl⟩

theorem addChecks_ok (t : GptPartitionTable) (params : PartitionParams) :
    t.addChecks params = .ok () ↔
      t.firstUsableLba ≤ params.startLba ∧
      params.startLba + params.sectorCount - 1 ≤ t.lastUsableLba ∧
      t.overlapsExisting params.startLba (params.startLba + params.sectorCount - 1) (-1) = false := by
  unfold addChecks
  simp only [bind_unit_ok,refuse_ok,UInt64.not_lt,Bool.not_eq_true]

theorem resizeChecks_ok (t : GptPartitionTable) (index : Int) (newStart newSize : UInt64) :
    t.resizeChecks index newStart newSize = .ok () ↔
      newSize ≠ 0 ∧ t.firstUsableLba ≤ newStart ∧ newStart + newSize - 1 ≤ t.lastUsableLba ∧
      t.overlapsExisting newStart (newStart + newSize - 1) index = false := by
  unfold resizeChecks
  simp only [bind_unit_ok,refuse_ok,UInt64.not_lt,Bool.not_eq_true,ne_eq]

theorem overlapsExisting_false (t : GptPartitionTable) (start stop : UInt64) (excludeIndex : Int) :
    t.overlapsExisting start stop excludeIndex = false ↔
      ∀ e ∈ t.entries, e.index ≠ excludeIndex →
        start ≤ e.startLba + e.sectorCount - 1 → ¬ e.startLba ≤ stop := by
  simp [overlapsExisting,List.any_eq_false]

/-- A slot that the scan still finds unmarked belongs to no entry. -/
theorem usedSlots_false (entries : List PartitionEntry) (count slot : Nat) (used : List Bool)
    (size : used.length = count)
    (unmarked : (entries.foldl (fun used e =>
      if 0 ≤ e.index ∧ e.index < (count : Int) then used.set e.index.toNat true else used) used)[slot]? =
        some false) :
    used[slot]? = some false ∧ slot < count ∧ ∀ e ∈ entries, e.index ≠ slot := by
  induction entries generalizing used with
  | nil =>
    obtain ⟨bound,_⟩ := List.getElem?_eq_some_iff.mp unmarked
    exact ⟨unmarked,size ▸ bound,by simp⟩
  | cons e rest ih =>
    rw [List.foldl_cons] at unmarked
    split at unmarked
    next inside =>
      obtain ⟨still,bound,others⟩ := ih _ (by rw [List.length_set,size]) unmarked
      rw [List.getElem?_set] at still
      have other : e.index.toNat ≠ slot := by
        intro same
        rw [if_pos same] at still
        split at still <;> simp at still
      rw [if_neg other] at still
      refine ⟨still,bound,?_⟩
      intro x member
      rcases List.mem_cons.mp member with rfl | later
      · omega
      · exact others x later
    next outside =>
      obtain ⟨still,bound,others⟩ := ih _ size unmarked
      refine ⟨still,bound,?_⟩
      intro x member
      rcases List.mem_cons.mp member with rfl | later
      · omega
      · exact others x later

theorem freeSlot_spec {t : GptPartitionTable} {slot : Nat} (free : t.freeSlot = some slot) :
    slot < t.entryCount.toNat ∧ ∀ e ∈ t.entries, e.index ≠ slot := by
  obtain ⟨bound,unmarked,_⟩ := List.findIdx?_eq_some_iff_getElem.mp free
  have cell : t.usedSlots[slot]? = some false := by
    rw [List.getElem?_eq_getElem bound]
    simpa using unmarked
  exact (usedSlots_false t.entries _ slot _ List.length_replicate cell).2

end GptPartitionTable
end SetecWizard.Core
