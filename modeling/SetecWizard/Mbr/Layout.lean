import SetecWizard.Mbr.Mutators
import SetecWizard.Core.PartitionTable

/-! The layout of an MBR table that was made from scratch: at most four entries,
all of them primary, numbered by position, on the disk and apart. Every call
keeps it, whatever its arguments are.
-/
namespace SetecWizard.Core
open SetecWizard.Library

namespace MbrPartitionTable

structure Layout (t : MbrPartitionTable) : Prop where
  primary : ∀ e ∈ t.entries, e.isLogical = false
  few : t.entries.length ≤ MBR_MAX_PRIMARY_PARTITIONS
  indexed : ∀ (i : Nat) e, t.entries[i]? = some e → e.index = i
  addressable : ∀ e ∈ t.entries, e.sectorCount.toNat ≤ 2 ^ 32 - 1 ∧ e.startLba.toNat ≤ 2 ^ 32 - 1
  packed : Packed 0 t.diskSectors (t.entries.map PartitionEntry.extent)

namespace Layout

variable {t t' : MbrPartitionTable}

theorem empty (t : MbrPartitionTable) (none : t.entries = []) : t.Layout := by
  refine ⟨?_,?_,?_,?_,?_⟩
  · simp [none]
  · simp [none]
  · simp [none]
  · simp [none]
  · simpa [none] using Packed.nil

theorem tame (layout : t.Layout) : ∀ e ∈ t.entries, Tame e := by
  intro e member
  obtain ⟨i,at_i⟩ := List.getElem?_of_mem member
  have index := layout.indexed i e at_i
  have bounds := layout.addressable e member
  simp only [Tame]
  omega

theorem filled (layout : t.Layout) {e : PartitionEntry} (member : e ∈ t.entries) :
    e.sectorCount ≠ 0 := by
  intro zero
  have nonempty := layout.packed.nonempty _ (List.mem_map_of_mem member)
  simp [PartitionEntry.extent,zero] at nonempty

theorem primaries_eq (layout : t.Layout) : t.entries.filter (fun e => !e.isLogical) = t.entries :=
  List.filter_eq_self.mpr (fun e member => by simp [layout.primary e member])

theorem added (layout : t.Layout) {params : PartitionParams}
    (accepted : t.addChecks params = .ok ()) :
    Layout { t with entries := t.entries ++ [t.newEntry params] } := by
  have notLogical : params.isLogical = false := by
    cases logical : params.isLogical with
    | false => rfl
    | true => exact absurd accepted (logical_add_rejected t params layout.tame logical)
  obtain ⟨positive,room,clear,onDisk,low,short⟩ := (addChecks_ok t params).mp accepted
  obtain ⟨nonempty,countBound,startBound,fits⟩ := placed_bounds t positive onDisk low short
  have free : t.entries.length < MBR_MAX_PRIMARY_PARTITIONS := by
    simpa [roomFor,notLogical,layout.primaries_eq] using room
  refine ⟨?_,?_,?_,?_,?_⟩
  · intro e member
    rcases List.mem_append.mp member with old | last
    · exact layout.primary e old
    · rw [List.mem_singleton.mp last]
      exact notLogical
  · rw [List.length_append,List.length_singleton]
    exact free
  · intro i e at_i
    rcases Nat.lt_or_ge i t.entries.length with old | last
    · rw [List.getElem?_append_left old] at at_i
      exact layout.indexed i e at_i
    · rw [List.getElem?_append_right last,List.getElem?_singleton] at at_i
      split at at_i
      next here =>
        cases at_i
        have position : i = t.entries.length := by omega
        simp [newEntry,position]
      next => cases at_i
  · intro e member
    rcases List.mem_append.mp member with old | last
    · exact layout.addressable e old
    · rw [List.mem_singleton.mp last]
      exact ⟨countBound,startBound⟩
  · rw [List.map_append,List.map_singleton]
    refine layout.packed.concat nonempty (Nat.zero_le _) fits ?_
    intro x among
    obtain ⟨e,member,rfl⟩ := List.mem_map.mp among
    have tame := layout.tame e member
    exact clear_of_tame t startBound countBound clear e member tame (by have := tame.1; omega)
      (layout.filled member)

theorem deleted (layout : t.Layout) (pos : Nat) (target : PartitionEntry) :
    Layout { t with entries := reindex (withoutEntry t.entries pos target) } := by
  have sub := withoutEntry_sublist t.entries pos target
  refine ⟨?_,?_,?_,?_,?_⟩
  · intro e member
    obtain ⟨old,kept,i,rfl⟩ := mem_after_delete member
    exact layout.primary old kept
  · rw [reindex_length]
    exact sub.length_le.trans layout.few
  · intro i e at_i
    rw [reindex_getElem?] at at_i
    obtain ⟨old,_,rfl⟩ := Option.map_eq_some_iff.mp at_i
    rfl
  · intro e member
    obtain ⟨old,kept,i,rfl⟩ := mem_after_delete member
    exact layout.addressable old kept
  · rw [map_reindex PartitionEntry.extent (fun e i => rfl)]
    exact layout.packed.sublist (sub.map _)

theorem resized (layout : t.Layout) {index : Int} {newStart newSize : UInt64} {pos : Nat}
    (found : findIndex t.entries index = some pos)
    (accepted : t.resizeChecks index newStart newSize = .ok ()) :
    Layout { t with entries := t.entries.modify pos (·.movedTo newStart newSize) } := by
  obtain ⟨positive,onDisk,⟨low,short⟩,clear⟩ := (resizeChecks_ok t _ _ _).mp accepted
  obtain ⟨nonempty,countBound,startBound,fits⟩ := placed_bounds t positive onDisk low short
  obtain ⟨bound,matched⟩ := findIndex_some found
  have here : index = pos :=
    matched.symm.trans (layout.indexed pos _ (List.getElem?_eq_getElem bound))
  refine ⟨?_,?_,?_,?_,?_⟩
  · intro e member
    rcases mem_after_resize member with old | ⟨old,at_pos,rfl⟩
    · exact layout.primary e old
    · exact layout.primary old (List.mem_of_getElem? at_pos)
  · rw [List.length_modify]
    exact layout.few
  · intro i e at_i
    rw [getElem?_moved] at at_i
    split at at_i
    next =>
      obtain ⟨old,at_pos,rfl⟩ := Option.map_eq_some_iff.mp at_i
      exact layout.indexed i old at_pos
    next => exact layout.indexed i e at_i
  · intro e member
    rcases mem_after_resize member with old | ⟨old,at_pos,rfl⟩
    · exact layout.addressable e old
    · exact ⟨countBound,startBound⟩
  · rw [map_extent_moved]
    refine layout.packed.set nonempty (Nat.zero_le _) fits ?_
    intro j inside elsewhere
    rw [List.length_map] at inside
    have member : t.entries[j] ∈ t.entries := List.getElem_mem inside
    have other : t.entries[j].index ≠ index := by
      rw [layout.indexed j _ (List.getElem?_eq_getElem inside),here]
      omega
    rw [List.getElem_map]
    exact clear_of_tame t startBound countBound clear _ member (layout.tame _ member) other
      (layout.filled member)

theorem kept {call : MbrCall} (layout : t.Layout) (effect : Effect t call t') : t'.Layout := by
  cases effect with
  | refused => exact layout
  | added params accepted => exact layout.added accepted
  | deleted index pos e found target => exact layout.deleted pos e
  | resized index newStart newSize pos found accepted => exact layout.resized found accepted

end Layout

theorem run_disk (t : MbrPartitionTable) (calls : List MbrCall) :
    (calls.foldl MbrCall.step t).diskSectors = t.diskSectors := by
  induction calls generalizing t with
  | nil => rfl
  | cons call rest ih =>
    obtain ⟨size,sector⟩ := effect_disk (step_effect t call)
    rw [List.foldl_cons,ih,diskSectors,size,sector,diskSectors]

theorem run_layout (t : MbrPartitionTable) (layout : t.Layout) (calls : List MbrCall) :
    (calls.foldl MbrCall.step t).Layout :=
  Run.trace_invariant MbrCall.step Layout (fun s call held => held.kept (step_effect s call))
    t calls layout _ (Run.foldl_mem_trace MbrCall.step t calls)

/-- A new table stays well formed through every sequence of calls. -/
theorem created_run_well_formed (diskSizeBytes : UInt64) (sectorSize : UInt32) (diskGuid : Guid)
    (random : Bytes 16) (t : MbrPartitionTable)
    (created : PartitionTable.createNew .mbr diskSizeBytes sectorSize diskGuid random = some (.mbr t))
    (calls : List MbrCall) :
    let entries := (calls.foldl MbrCall.step t).entries
    (entries.filter (fun e => !e.isLogical)).length ≤ 4 ∧
    (∀ (i : Nat) e, entries[i]? = some e → e.index = i) ∧
    (∀ e ∈ entries, 1 ≤ e.sectorCount.toNat ∧ e.sectorCount.toNat ≤ 2 ^ 32 - 1 ∧
      e.startLba.toNat ≤ 2 ^ 32 - 1 ∧
      e.startLba.toNat + e.sectorCount.toNat ≤ diskSizeBytes.toNat / sectorSize.toNat) ∧
    entries.Pairwise (fun a b => a.extent.Apart b.extent) := by
  simp only [PartitionTable.createNew,Option.some.injEq,PartitionTable.mbr.injEq] at created
  have layout := run_layout t (Layout.empty t (by rw [← created])) calls
  have disk : (calls.foldl MbrCall.step t).diskSectors = diskSizeBytes.toNat / sectorSize.toNat := by
    rw [run_disk,← created]
    rfl
  intro entries
  refine ⟨?_,layout.indexed,?_,List.pairwise_map.mp layout.packed.apart⟩
  · rw [layout.primaries_eq]
    exact layout.few
  · intro e member
    have among : e.extent ∈ entries.map PartitionEntry.extent := List.mem_map_of_mem member
    obtain ⟨short,low⟩ := layout.addressable e member
    have inside := (layout.packed.inside _ among).2
    rw [disk] at inside
    exact ⟨layout.packed.nonempty _ among,short,low,inside⟩

/-- Two primaries on a disk of 2048 sectors, the second moved, the first deleted. -/
theorem created_run_well_formed_sample :
    let t : MbrPartitionTable := { diskSizeBytes := 1048576,sectorSize := 512 }
    let calls : List MbrCall := [.add { startLba := 64,sectorCount := 100 },
      .add { startLba := 200,sectorCount := 50 },.resize 1 300 80,.delete 0]
    (calls.foldl MbrCall.step t).entries.Pairwise (fun a b => a.extent.Apart b.extent) :=
  (created_run_well_formed 1048576 512 (.zero 16) (.zero 16) { diskSizeBytes := 1048576,sectorSize := 512 }
    rfl _).2.2.2

end MbrPartitionTable
end SetecWizard.Core
