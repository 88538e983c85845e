import SetecWizard.Core.MbrPartitionTable
import SetecWizard.Library.Run

/-! What one call of an MBR mutator can do. Every later argument about a call
starts from these facts and does not look at the mutators again. Sums of 64-bit
words become sums of naturals once the 32-bit checks have passed.
-/
namespace SetecWizard.Core
open SetecWizard.Library

namespace MbrPartitionTable

def diskSectors (t : MbrPartitionTable) : Nat := t.diskSizeBytes.toNat / t.sectorSize.toNat

/-- An entry whose end does not wrap and whose index is not the one that excludes nothing. -/
def Tame (e : PartitionEntry) : Prop :=
  0 ≤ e.index ∧ e.startLba.toNat < 2 ^ 34 ∧ e.sectorCount.toNat < 2 ^ 32

theorem addChecks_ok (t : MbrPartitionTable) (params : PartitionParams) :
    t.addChecks params = .ok () ↔
      params.sectorCount ≠ 0 ∧ t.roomFor params = .ok () ∧
      t.overlapsExisting params.startLba params.sectorCount (-1) = false ∧
      params.startLba + params.sectorCount ≤ t.diskSizeBytes / t.sectorSize.toUInt64 ∧
      params.startLba ≤ 0xFFFFFFFF ∧ params.sectorCount ≤ 0xFFFFFFFF := by
  unfold addChecks
  simp only [bind_unit_ok,refuse_ok,not_or,UInt64.not_lt,Bool.not_eq_true,ne_eq]

theorem resizeChecks_ok (t : MbrPartitionTable) (index : Int) (newStart newSize : UInt64) :
    t.resizeChecks index newStart newSize = .ok () ↔
      newSize ≠ 0 ∧ newStart + newSize ≤ t.diskSizeBytes / t.sectorSize.toUInt64 ∧
      (newStart ≤ 0xFFFFFFFF ∧ newSize ≤ 0xFFFFFFFF) ∧
      t.overlapsExisting newStart newSize index = false := by
  unfold resizeChecks
  simp only [bind_unit_ok,refuse_ok,not_or,UInt64.not_lt,Bool.not_eq_true,ne_eq]

theorem overlapsExisting_false (t : MbrPartitionTable) (start count : UInt64) (excludeIndex : Int) :
    t.overlapsExisting start count excludeIndex = false ↔
      ∀ e ∈ t.entries, e.index ≠ excludeIndex → e.sectorCount ≠ 0 →
        start < e.startLba + e.sectorCount → ¬ e.startLba < start + count := by
  simp [overlapsExisting,List.any_eq_false]

theorem placed_bounds (t : MbrPartitionTable) {start count : UInt64} (positive : count ≠ 0)
    (onDisk : start + count ≤ t.diskSizeBytes / t.sectorSize.toUInt64)
    (low : start ≤ 0xFFFFFFFF) (short : count ≤ 0xFFFFFFFF) :
    1 ≤ count.toNat ∧ count.toNat ≤ 2 ^ 32 - 1 ∧ start.toNat ≤ 2 ^ 32 - 1 ∧
      start.toNat + count.toNat ≤ t.diskSectors := by
  have nonzero : count.toNat ≠ 0 := fun zero => positive (UInt64.toNat_inj.mp zero)
  rw [UInt64.le_iff_toNat_le] at low short onDisk
  rw [UInt64.toNat_add,UInt64.toNat_div,UInt32.toNat_toUInt64] at onDisk
  have lowBound : start.toNat ≤ 4294967295 := low
  have shortBound : count.toNat ≤ 4294967295 := short
  rw [Nat.mod_eq_of_lt (by omega)] at onDisk
  exact ⟨by omega,by omega,by omega,onDisk⟩

theorem clear_of_tame (t : MbrPartitionTable) {start count : UInt64} {excludeIndex : Int}
    (low : start.toNat ≤ 2 ^ 32 - 1) (short : count.toNat ≤ 2 ^ 32 - 1)
    (clear : t.overlapsExisting start count excludeIndex = false)
    (e : PartitionEntry) (member : e ∈ t.entries) (tame : Tame e) (other : e.index ≠ excludeIndex)
    (nonempty : e.sectorCount ≠ 0) : e.extent.Apart ⟨start.toNat,count.toNat⟩ := by
  have pass := (overlapsExisting_false t start count excludeIndex).mp clear e member other nonempty
  obtain ⟨_,startBound,countBound⟩ := tame
  simp only [UInt64.lt_iff_toNat_lt,UInt64.toNat_add] at pass
  rw [Nat.mod_eq_of_lt (by omega),Nat.mod_eq_of_lt (by omega)] at pass
  simp only [Extent.Apart,Extent.stop,PartitionEntry.extent]
  omega

/-- A logical partition that fits the container overlaps the container itself, so
the call that would create it is always turned down. -/
theorem logical_add_rejected (t : MbrPartitionTable) (params : PartitionParams)
    (tame : ∀ e ∈ t.entries, Tame e) (logical : params.isLogical = true) :
    t.addChecks params ≠ .ok () := by
  intro accepted
  obtain ⟨positive,room,clear,onDisk,low,short⟩ := (addChecks_ok t params).mp accepted
  obtain ⟨nonempty,countBound,startBound,_⟩ := placed_bounds t positive onDisk low short
  unfold roomFor at room
  rw [if_pos logical] at room
  cases search : t.findExtended with
  | none => simp [search] at room
  | some ext =>
    have member : ext ∈ t.entries := List.mem_of_find?_eq_some search
    have extTame := tame ext member
    simp only [search] at room
    split at room
    next outside => simp at room
    next fits =>
      obtain ⟨indexBound,extStart,extCount⟩ := extTame
      simp only [not_or,UInt64.not_lt,UInt64.le_iff_toNat_le,UInt64.toNat_add] at fits
      rw [Nat.mod_eq_of_lt (by omega),Nat.mod_eq_of_lt (by omega)] at fits
      have filled : ext.sectorCount ≠ 0 := by
        intro zero
        rw [zero] at fits
        have : (0 : UInt64).toNat = 0 := rfl
        omega
      have apart := clear_of_tame t startBound countBound clear ext member (tame ext member)
        (by omega) filled
      simp only [Extent.Apart,Extent.stop,PartitionEntry.extent] at apart
      omega

/-- The checks a call has to pass, all of them made before anything is changed. -/
def Accepts (t : MbrPartitionTable) : MbrCall → Prop
  | .add params => t.addChecks params = .ok ()
  | .delete index => (findIndex t.entries index).isSome
  | .resize index newStart newSize =>
    (findIndex t.entries index).isSome ∧ t.resizeChecks index newStart newSize = .ok ()

/-- What a call does to the table, by the branch it takes. -/
inductive Effect (t : MbrPartitionTable) : MbrCall → MbrPartitionTable → Prop
  | refused (call : MbrCall) (failed : ¬ t.Accepts call) : Effect t call t
  | added (params : PartitionParams) (accepted : t.addChecks params = .ok ()) :
      Effect t (.add params) { t with entries := t.entries ++ [t.newEntry params] }
  | deleted (index : Int) (pos : Nat) (e : PartitionEntry)
      (found : findIndex t.entries index = some pos) (target : t.entries[pos]? = some e) :
      Effect t (.delete index) { t with entries := reindex (withoutEntry t.entries pos e) }
  | resized (index : Int) (newStart newSize : UInt64) (pos : Nat)
      (found : findIndex t.entries index = some pos)
      (accepted : t.resizeChecks index newStart newSize = .ok ()) :
      Effect t (.resize index newStart newSize)
        { t with entries := t.entries.modify pos (·.movedTo newStart newSize) }

theorem step_effect (t : MbrPartitionTable) (call : MbrCall) : Effect t call (call.step t) := by
  cases call with
  | add params =>
    simp only [MbrCall.step,MbrCall.apply,addPartition]
    cases checks : t.addChecks params with
    | error e => exact .refused _ (by simp [Accepts,checks])
    | ok _ => exact .added params checks
  | delete index =>
    simp only [MbrCall.step,MbrCall.apply,deletePartition]
    cases found : findIndex t.entries index with
    | none => exact .refused _ (by simp [Accepts,found])
    | some pos =>
      obtain ⟨bound,_⟩ := findIndex_some found
      have target : t.entries[pos]? = some t.entries[pos] := List.getElem?_eq_getElem bound
      simp only [target,Option.getD_some]
      exact .deleted index pos _ found target
  | resize index newStart newSize =>
    simp only [MbrCall.step,MbrCall.apply,resizePartition]
    cases found : findIndex t.entries index with
    | none => exact .refused _ (by simp [Accepts,found])
    | some pos =>
      cases checks : t.resizeChecks index newStart newSize with
      | error e => exact .refused _ (by simp [Accepts,checks])
      | ok _ => exact .resized index newStart newSize pos found checks

theorem apply_ok (t : MbrPartitionTable) (call : MbrCall) :
    (call.apply t).1 = .ok () ↔ t.Accepts call := by
  cases call with
  | add params =>
    simp only [MbrCall.apply,addPartition,Accepts]
    cases t.addChecks params <;> simp
  | delete index =>
    simp only [MbrCall.apply,deletePartition,Accepts]
    cases findIndex t.entries index <;> simp
  | resize index newStart newSize =>
    simp only [MbrCall.apply,resizePartition,Accepts]
    cases findIndex t.entries index with
    | none => simp
    | some pos => cases t.resizeChecks index newStart newSize <;> simp

theorem effect_disk {t t' : MbrPartitionTable} {call : MbrCall} (effect : Effect t call t') :
    t'.diskSizeBytes = t.diskSizeBytes ∧ t'.sectorSize = t.sectorSize := by
  cases effect <;> exact ⟨rfl,rfl⟩

theorem reindex_length (entries : List PartitionEntry) :
    (reindex entries).length = entries.length := by
  simp [reindex]

theorem reindex_getElem? (entries : List PartitionEntry) (i : Nat) :
    (reindex entries)[i]? = entries[i]?.map (fun e => { e with index := i }) := by
  simp [reindex]

/-- Re-indexing is invisible to whatever does not look at the index. -/
theorem map_reindex {β : Type} (f : PartitionEntry → β)
    (blind : ∀ e (i : Int), f { e with index := i } = f e) (entries : List PartitionEntry) :
    (reindex entries).map f = entries.map f := by
  apply List.ext_getElem?
  intro i
  simp only [List.getElem?_map,reindex_getElem?]
  cases entries[i]? with
  | none => rfl
  | some e => simp [blind]

theorem mem_reindex {entries : List PartitionEntry} {e : PartitionEntry} (member : e ∈ reindex entries) :
    ∃ old ∈ entries, ∃ i : Nat, e = { old with index := i } := by
  obtain ⟨i,bound,rfl⟩ := List.mem_mapIdx.mp member
  exact ⟨entries[i],List.getElem_mem bound,i,rfl⟩

theorem withoutEntry_sublist (entries : List PartitionEntry) (pos : Nat) (e : PartitionEntry) :
    (withoutEntry entries pos e).Sublist entries := by
  unfold withoutEntry
  split
  · simp only
    split
    · exact List.filter_sublist
    · exact (List.eraseIdx_sublist _ _).trans List.filter_sublist
  · exact List.eraseIdx_sublist _ _

theorem withoutEntry_container (entries : List PartitionEntry) (pos : Nat) (e : PartitionEntry)
    (container : (e.isExtended && !e.isLogical) = true) :
    ∀ x ∈ withoutEntry entries pos e, x.isLogical = false := by
  intro x member
  have among : x ∈ entries.filter (fun e => !e.isLogical) := by
    unfold withoutEntry at member
    rw [if_pos container] at member
    simp only at member
    split at member
    · exact member
    · exact (List.eraseIdx_sublist _ _).subset member
  simpa using (List.mem_filter.mp among).2

theorem mem_after_delete {t : MbrPartitionTable} {pos : Nat} {target e : PartitionEntry}
    (member : e ∈ reindex (withoutEntry t.entries pos target)) :
    ∃ old ∈ t.entries, ∃ i : Nat, e = { old with index := i } := by
  obtain ⟨old,kept,i,same⟩ := mem_reindex member
  exact ⟨old,(withoutEntry_sublist _ _ _).subset kept,i,same⟩

theorem tame_newEntry (t : MbrPartitionTable) (params : PartitionParams)
    (low : params.startLba ≤ 0xFFFFFFFF) (short : params.sectorCount ≤ 0xFFFFFFFF) :
    Tame (t.newEntry params) := by
  have lowBound : params.startLba.toNat ≤ 4294967295 := UInt64.le_iff_toNat_le.mp low
  have shortBound : params.sectorCount.toNat ≤ 4294967295 := UInt64.le_iff_toNat_le.mp short
  simp only [Tame,newEntry]
  omega

/-- No call makes an entry whose end could wrap. -/
theorem tame_kept {t t' : MbrPartitionTable} {call : MbrCall} (effect : Effect t call t')
    (tame : ∀ e ∈ t.entries, Tame e) : ∀ e ∈ t'.entries, Tame e := by
  cases effect with
  | refused => exact tame
  | added params accepted =>
    obtain ⟨_,_,_,_,low,short⟩ := (addChecks_ok t params).mp accepted
    intro e member
    rcases List.mem_append.mp member with old | last
    · exact tame e old
    · rw [List.mem_singleton.mp last]
      exact tame_newEntry t params low short
  | deleted index pos target found at_pos =>
    intro e member
    obtain ⟨old,kept,i,rfl⟩ := mem_after_delete member
    obtain ⟨_,startBound,countBound⟩ := tame old kept
    exact ⟨Int.natCast_nonneg i,startBound,countBound⟩
  | resized index newStart newSize pos found accepted =>
    obtain ⟨_,_,⟨low,short⟩,_⟩ := (resizeChecks_ok t index newStart newSize).mp accepted
    have lowBound : newStart.toNat ≤ 4294967295 := UInt64.le_iff_toNat_le.mp low
    have shortBound : newSize.toNat ≤ 4294967295 := UInt64.le_iff_toNat_le.mp short
    intro e member
    rcases mem_after_resize member with old | ⟨old,at_pos,rfl⟩
    · exact tame e old
    · have bounds := tame old (List.mem_of_getElem? at_pos)
      exact ⟨bounds.1,by simp only [PartitionEntry.movedTo]; omega,
        by simp only [PartitionEntry.movedTo]; omega⟩

end MbrPartitionTable
end SetecWizard.Core
