import Mathlib.Data.List.Nodup
import SetecWizard.Core.PartitionTable
import SetecWizard.Gpt.Mutators

/-! The layout of a GPT that was made from scratch. Slots are told apart whatever the
calls are; the ranges are kept inside the usable area and apart as long as no
accepted range ends beyond the last 64-bit address, because the checks compute
the end of a range modulo the word size.
-/
namespace SetecWizard.Core
open SetecWizard.Library

namespace GptPartitionTable

/-- Every entry has a slot of its own. -/
structure Slotted (t : GptPartitionTable) : Prop where
  distinct : (t.entries.map (·.index)).Nodup
  inside : ∀ e ∈ t.entries, 0 ≤ e.index ∧ e.index < (t.entryCount.toNat : Int)

/-- Every entry has a slot of its own, and the ranges, none of which is empty, lie in
the usable area as natural numbers and do not meet. -/
structure WellPlaced (t : GptPartitionTable) : Prop where
  slotted : t.Slotted
  packed : Packed t.firstUsableLba.toNat (t.lastUsableLba.toNat + 1) (t.entries.map PartitionEntry.extent)

/-- What holds whatever the calls are: slots are told apart, and a table with
entries has its last usable LBA. -/
structure Settled (t : GptPartitionTable) : Prop where
  slotted : t.Slotted
  last : t.lastUsableLba = 0 → t.entries = []
  large : 68 ≤ t.diskSectors.toNat

/-- The last address of the range is at most 2^64 - 1. -/
def Unwrapped : GptCall → Prop
  | .add params _ => params.startLba.toNat + params.sectorCount.toNat ≤ 2 ^ 64
  | .delete _ => True
  | .resize _ newStart newSize => newStart.toNat + newSize.toNat ≤ 2 ^ 64

instance : (call : GptCall) → Decidable (Unwrapped call)
  | .add _ _ => inferInstanceAs (Decidable (_ ≤ _))
  | .delete _ => isTrue trivial
  | .resize _ _ _ => inferInstanceAs (Decidable (_ ≤ _))

/-- If the call passes its checks, its range does not wrap. -/
def AcceptsUnwrapped (t : GptPartitionTable) (call : GptCall) : Prop := t.Accepts call → Unwrapped call

section Ranges

variable {t : GptPartitionTable}

theorem toNat_last {start count : UInt64} (positive : count ≠ 0)
    (unwrapped : start.toNat + count.toNat ≤ 2 ^ 64) :
    (start + count - 1).toNat + 1 = start.toNat + count.toNat := by
  have nonzero : count.toNat ≠ 0 := fun zero => positive (UInt64.toNat_inj.mp zero)
  have one : (1 : UInt64).toNat = 1 := rfl
  have low := start.toNat_lt
  rw [UInt64.toNat_sub,UInt64.toNat_add,one]
  omega

theorem clear_of_packed {high : Nat} (packed : Packed t.firstUsableLba.toNat high
      (t.entries.map PartitionEntry.extent)) (representable : high ≤ 2 ^ 64)
    {start count : UInt64} (positive : count ≠ 0) (unwrapped : start.toNat + count.toNat ≤ 2 ^ 64)
    {excludeIndex : Int} (clear : t.overlapsExisting start (start + count - 1) excludeIndex = false)
    (e : PartitionEntry) (member : e ∈ t.entries) (other : e.index ≠ excludeIndex) :
    e.extent.Apart ⟨start.toNat,count.toNat⟩ := by
  have among : e.extent ∈ t.entries.map PartitionEntry.extent := List.mem_map_of_mem member
  have nonempty : 1 ≤ e.sectorCount.toNat := packed.nonempty _ among
  have within : e.startLba.toNat + e.sectorCount.toNat ≤ high := (packed.inside _ among).2
  have filled : e.sectorCount ≠ 0 := by
    intro zero
    rw [zero] at nonempty
    exact absurd nonempty (by decide)
  have pass := (overlapsExisting_false t start _ excludeIndex).mp clear e member other
  simp only [UInt64.le_iff_toNat_le] at pass
  have newLast := toNat_last positive unwrapped
  have oldLast := toNat_last filled (by omega : e.startLba.toNat + e.sectorCount.toNat ≤ 2 ^ 64)
  simp only [Extent.Apart,Extent.stop,PartitionEntry.extent]
  omega

theorem packed_added_iff (packed : Packed t.firstUsableLba.toNat (t.lastUsableLba.toNat + 1)
      (t.entries.map PartitionEntry.extent)) (slotted : t.Slotted) {params : PartitionParams}
    (positive : params.sectorCount ≠ 0) (accepted : t.addChecks params = .ok ()) :
    Packed t.firstUsableLba.toNat (t.lastUsableLba.toNat + 1)
        (t.entries.map PartitionEntry.extent ++ [params.extent]) ↔
      params.startLba.toNat + params.sectorCount.toNat ≤ 2 ^ 64 := by
  obtain ⟨low,fits,clear⟩ := (addChecks_ok t params).mp accepted
  have last := t.lastUsableLba.toNat_lt
  constructor
  · intro still
    have inside := (still.inside params.extent (by simp)).2
    simp only [PartitionParams.extent,Extent.stop] at inside
    omega
  · intro unwrapped
    have ends := toNat_last positive unwrapped
    rw [UInt64.le_iff_toNat_le] at low fits
    have nonzero : params.sectorCount.toNat ≠ 0 := fun zero => positive (UInt64.toNat_inj.mp zero)
    refine packed.concat ?_ low ?_ ?_
    · simp only [PartitionParams.extent]
      omega
    · simp only [PartitionParams.extent,Extent.stop]
      omega
    · intro x among
      obtain ⟨e,member,rfl⟩ := List.mem_map.mp among
      have named := slotted.inside e member
      exact clear_of_packed packed (by omega) positive unwrapped clear e member (by omega)

theorem packed_resized_iff (packed : Packed t.firstUsableLba.toNat (t.lastUsableLba.toNat + 1)
      (t.entries.map PartitionEntry.extent)) (slotted : t.Slotted) {index : Int}
    {newStart newSize : UInt64} {pos : Nat} (found : findIndex t.entries index = some pos)
    (accepted : t.resizeChecks index newStart newSize = .ok ()) :
    Packed t.firstUsableLba.toNat (t.lastUsableLba.toNat + 1)
        ((t.entries.map PartitionEntry.extent).set pos ⟨newStart.toNat,newSize.toNat⟩) ↔
      newStart.toNat + newSize.toNat ≤ 2 ^ 64 := by
  obtain ⟨positive,low,fits,clear⟩ := (resizeChecks_ok t _ _ _).mp accepted
  obtain ⟨bound,matched⟩ := findIndex_some found
  have last := t.lastUsableLba.toNat_lt
  constructor
  · intro still
    have inside := (still.inside ⟨newStart.toNat,newSize.toNat⟩
      (List.mem_set (by simpa using bound) _)).2
    simp only [Extent.stop] at inside
    omega
  · intro unwrapped
    have ends := toNat_last positive unwrapped
    rw [UInt64.le_iff_toNat_le] at low fits
    have nonzero : newSize.toNat ≠ 0 := fun zero => positive (UInt64.toNat_inj.mp zero)
    refine packed.set (by simp only; omega) low (by simp only [Extent.stop]; omega) ?_
    intro j inside elsewhere
    rw [List.length_map] at inside
    have other : t.entries[j].index ≠ index := by
      intro same
      refine elsewhere ((List.getElem?_inj (by simpa using inside) slotted.distinct).mp ?_)
      simpa [inside,bound] using same.trans matched.symm
    rw [List.getElem_map]
    exact clear_of_packed packed (by omega) positive unwrapped clear _ (List.getElem_mem inside) other

end Ranges

section Steps

variable {t t' : GptPartitionTable}

theorem Slotted.added (slotted : t.Slotted) {slot : Nat} (free : t.freeSlot = some slot)
    {e : PartitionEntry} (index : e.index = slot) (u : GptPartitionTable)
    (entries : u.entries = t.entries ++ [e]) (count : u.entryCount = t.entryCount) : u.Slotted := by
  obtain ⟨bound,unused⟩ := freeSlot_spec free
  constructor
  · rw [entries,List.map_append,List.map_singleton,List.nodup_append]
    refine ⟨slotted.distinct,List.nodup_singleton _,?_⟩
    intro a among b last
    obtain ⟨x,member,rfl⟩ := List.mem_map.mp among
    rw [List.mem_singleton.mp last,index]
    exact unused x member
  · rw [entries,count]
    intro x member
    rcases List.mem_append.mp member with old | last
    · exact slotted.inside x old
    · rw [List.mem_singleton.mp last,index]
      omega

theorem Slotted.kept (slotted : t.Slotted) {call : GptCall} (effect : Effect t call t') : t'.Slotted := by
  cases effect with
  | refused => exact slotted
  | settled => exact ⟨by simpa using slotted.distinct,by simpa using slotted.inside⟩
  | added params random slot positive accepted free =>
    exact slotted.added free rfl _ rfl (withLastUsable_entryCount t)
  | deleted index pos found =>
    have sub := List.eraseIdx_sublist t.entries pos
    exact ⟨slotted.distinct.sublist (sub.map _),fun e member => slotted.inside e (sub.subset member)⟩
  | resized index newStart newSize pos found accepted =>
    have indices : (t.entries.modify pos (·.movedTo newStart newSize)).map (·.index) =
        t.entries.map (·.index) := by
      apply List.ext_getElem?
      intro i
      rw [List.getElem?_map,getElem?_moved,List.getElem?_map]
      split <;> cases t.entries[i]? <;> rfl
    refine ⟨by rw [indices]; exact slotted.distinct,?_⟩
    intro e member
    rcases mem_after_resize member with old | ⟨old,at_pos,rfl⟩
    · exact slotted.inside e old
    · exact slotted.inside old (List.mem_of_getElem? at_pos)

theorem withLastUsable_nonzero (large : 68 ≤ t.diskSectors.toNat) : t.withLastUsable.lastUsableLba ≠ 0 := by
  unfold withLastUsable
  split
  next =>
    intro zero
    have value := congrArg UInt64.toNat zero
    have room : (34 : UInt64).toNat = 34 := rfl
    have none : (0 : UInt64).toNat = 0 := rfl
    have below : (34 : UInt64) ≤ t.diskSectors := by
      rw [UInt64.le_iff_toNat_le,room]
      omega
    simp only [UInt64.toNat_sub_of_le _ _ below,room,none] at value
    omega
  next nonzero => exact nonzero

theorem effect_diskSectors {call : GptCall} (effect : Effect t call t') : t'.diskSectors = t.diskSectors := by
  cases effect with
  | refused => rfl
  | settled => exact withLastUsable_diskSectors t
  | added => exact withLastUsable_diskSectors t
  | deleted => rfl
  | resized => rfl

theorem Settled.kept (settled : t.Settled) {call : GptCall} (effect : Effect t call t') : t'.Settled := by
  refine ⟨settled.slotted.kept effect,?_,by rw [effect_diskSectors effect]; exact settled.large⟩
  cases effect with
  | refused => exact settled.last
  | settled => exact fun zero => absurd zero (withLastUsable_nonzero settled.large)
  | added => exact fun zero => absurd zero (withLastUsable_nonzero settled.large)
  | deleted => exact fun zero => by simp [settled.last zero]
  | resized => exact fun zero => by simp [settled.last zero]

theorem packed_withLastUsable (settled : t.Settled)
    (packed : Packed t.firstUsableLba.toNat (t.lastUsableLba.toNat + 1)
      (t.entries.map PartitionEntry.extent)) :
    Packed t.withLastUsable.firstUsableLba.toNat (t.withLastUsable.lastUsableLba.toNat + 1)
      (t.withLastUsable.entries.map PartitionEntry.extent) := by
  by_cases unset : t.lastUsableLba = 0
  · rw [withLastUsable_entries,settled.last unset]
    exact Packed.nil
  · have same : t.withLastUsable = t := by
      unfold withLastUsable
      exact if_neg unset
    rw [same]
    exact packed

/-- One call keeps the entries well placed exactly when the range it places, if it is
accepted, does not wrap. -/
theorem wellPlaced_step (settled : t.Settled) (placed : t.WellPlaced) (call : GptCall) :
    (call.step t).WellPlaced ↔ t.AcceptsUnwrapped call := by
  have effect := step_effect t call
  generalize call.step t = t' at effect ⊢
  have slotted := placed.slotted.kept effect
  have only_packed : t'.WellPlaced ↔ Packed t'.firstUsableLba.toNat (t'.lastUsableLba.toNat + 1)
      (t'.entries.map PartitionEntry.extent) := ⟨fun well => well.packed,fun packed => ⟨slotted,packed⟩⟩
  rw [only_packed]
  cases effect with
  | refused call failed => exact iff_of_true placed.packed (fun accepted => absurd accepted failed)
  | settled params random failed =>
    exact iff_of_true (packed_withLastUsable settled placed.packed) (fun accepted => absurd accepted failed)
  | added params random slot positive accepted free =>
    have whole : t.Accepts (.add params random) := ⟨positive,accepted,by simp [free]⟩
    have named : t.withLastUsable.Slotted :=
      ⟨by simpa using placed.slotted.distinct,by simpa using placed.slotted.inside⟩
    have exact_range := packed_added_iff (packed_withLastUsable settled placed.packed) named positive accepted
    rw [withLastUsable_entries] at exact_range
    rw [List.map_append,List.map_singleton]
    exact exact_range.trans ⟨fun unwrapped _ => unwrapped,fun unwrapped => unwrapped whole⟩
  | deleted index pos found =>
    have sub := List.eraseIdx_sublist t.entries pos
    exact iff_of_true (placed.packed.sublist (sub.map _)) (fun _ => trivial)
  | resized index newStart newSize pos found accepted =>
    have whole : t.Accepts (.resize index newStart newSize) := ⟨by simp [found],accepted⟩
    rw [map_extent_moved]
    exact (packed_resized_iff placed.packed placed.slotted found accepted).trans
      ⟨fun unwrapped _ => unwrapped,fun unwrapped => unwrapped whole⟩

end Steps

theorem created_settled {diskSizeBytes : UInt64} {sectorSize : UInt32} {diskGuid : Guid}
    {random : Bytes 16} {t : GptPartitionTable}
    (created : PartitionTable.createNew .gpt diskSizeBytes sectorSize diskGuid random = some (.gpt t))
    (large : 68 ≤ diskSizeBytes.toNat / sectorSize.toNat) : t.Settled ∧ t.WellPlaced := by
  simp only [PartitionTable.createNew,Option.some.injEq,PartitionTable.gpt.injEq] at created
  have none : t.entries = [] := by rw [← created]
  have sectors : t.diskSectors.toNat = diskSizeBytes.toNat / sectorSize.toNat := by
    rw [← created,diskSectors_toNat]
  have slotted : t.Slotted := ⟨by simp [none],by simp [none]⟩
  refine ⟨⟨slotted,fun _ => none,by rw [sectors]; exact large⟩,slotted,?_⟩
  rw [none]
  exact Packed.nil

/-- From a new table on, the entries stay well placed through a run exactly when no
call of it is accepted with a range that wraps. -/
theorem created_run_wellPlaced_iff (diskSizeBytes : UInt64) (sectorSize : UInt32) (diskGuid : Guid)
    (random : Bytes 16) (t : GptPartitionTable)
    (created : PartitionTable.createNew .gpt diskSizeBytes sectorSize diskGuid random = some (.gpt t))
    (large : 68 ≤ diskSizeBytes.toNat / sectorSize.toNat) (calls : List GptCall) :
    (∀ t' ∈ Run.trace GptCall.step t calls, t'.WellPlaced) ↔
      Run.Guarded GptCall.step AcceptsUnwrapped t calls := by
  obtain ⟨settled,placed⟩ := created_settled created large
  exact Run.invariant_iff_guarded GptCall.step AcceptsUnwrapped Settled WellPlaced
    (fun s call held => held.kept (step_effect s call))
    (fun s call held well => wellPlaced_step held well call) t calls settled placed

def sampleGuid : Guid := ⟨1 :: List.replicate 15 0,rfl⟩

def emptyTable : GptPartitionTable :=
  { diskSizeBytes := 1048576,sectorSize := 512,diskGuid := sampleGuid }

theorem created_emptyTable :
    PartitionTable.createNew .gpt 1048576 512 sampleGuid (.zero 16) = some (.gpt emptyTable) := rfl

/-- One partition of a hundred sectors from sector 40 on. -/
theorem created_run_wellPlaced_sample :
    (GptCall.step emptyTable (.add { startLba := 40,sectorCount := 100 } (.zero 16))).WellPlaced := by
  refine (created_run_wellPlaced_iff 1048576 512 sampleGuid (.zero 16) emptyTable created_emptyTable
    (by decide) [.add { startLba := 40,sectorCount := 100 } (.zero 16)]).mpr ⟨fun _ => ?_,trivial⟩ _
    (Run.foldl_mem_trace _ _ _)
  decide

/-- A range of almost 2^64 sectors whose computed end lies before its start is accepted. -/
theorem wrapped_range_accepted :
    ¬ ∀ calls, ∀ t' ∈ Run.trace GptCall.step emptyTable calls, t'.WellPlaced := by
  intro always
  let call : GptCall := .add { startLba := 40,sectorCount := 18446744073709551606 } (.zero 16)
  have accepted : emptyTable.Accepts call := ⟨by decide,by decide,by decide⟩
  obtain ⟨settled,placed⟩ := created_settled created_emptyTable (by decide)
  have wraps : ¬ (call.step emptyTable).WellPlaced := by
    rw [wellPlaced_step settled placed]
    intro unwrapped
    have bound := unwrapped accepted
    revert bound
    decide
  exact wraps (always [call] _ (by simp [Run.trace]))

end GptPartitionTable
end SetecWizard.Core
