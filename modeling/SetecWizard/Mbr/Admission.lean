import SetecWizard.Mbr.Activation

/-! Requests for logical partitions. The overlap test knows no container: a range that
lies in one overlaps it, and so a request that asks for nothing illegal is turned down.
-/
namespace SetecWizard.Core
open SetecWizard.Library

namespace MbrPartitionTable

/-- A table that was made or read, and then edited. -/
def Reached (t : MbrPartitionTable) : Prop :=
  ∃ (first : MbrPartitionTable) (edits : List MbrEdit), first.Obtained ∧ edits.foldl MbrEdit.step first = t

/-- What is asked of a logical partition: a new one, or another range for one there is. -/
inductive LogicalRequest where
  | add (params : PartitionParams)
  | resize (pos : Nat) (newStart newSize : UInt64)

/-- A range in a container and apart from all logical partitions but the one at `pos`. -/
structure FreeRange (t : MbrPartitionTable) (pos : Option Nat) (range : Extent) : Prop where
  filled : range.count ≠ 0
  inside : ∃ ext ∈ t.entries, isContainer ext = true ∧ range.Within ext.extent
  clear : ∀ (j : Nat) (l : PartitionEntry), t.entries[j]? = some l → l.isLogical = true → some j ≠ pos →
    l.extent.Apart range

def Legal (t : MbrPartitionTable) : LogicalRequest → Prop
  | .add params => params.isLogical = true ∧ t.FreeRange none params.extent
  | .resize pos newStart newSize =>
    (∃ e, t.entries[pos]? = some e ∧ e.isLogical = true) ∧
      t.FreeRange (some pos) ⟨newStart.toNat,newSize.toNat⟩

/-- The request succeeds and does what was asked for. -/
def Grants (t : MbrPartitionTable) : LogicalRequest → Prop
  | .add params => ∃ e : PartitionEntry, e.extent = params.extent ∧ e.isLogical = true ∧ e.mbrType = params.mbrType ∧
      t.addPartition params = (.ok (),{ t with entries := t.entries ++ [e] })
  | .resize pos newStart newSize => ∀ e, t.entries[pos]? = some e →
      t.resizePartition e.index newStart newSize =
        (.ok (),{ t with entries := t.entries.modify pos (·.movedTo newStart newSize) })

/-- The index names an entry further up, and both entries have the range already. -/
def Pointless (t : MbrPartitionTable) : LogicalRequest → Prop
  | .add _ => False
  | .resize pos newStart newSize => ∀ e, t.entries[pos]? = some e →
      t.resizeChecks e.index newStart newSize = .ok () ∧ e.startLba = newStart ∧ e.sectorCount = newSize ∧
        ∃ (first : Nat) (other : PartitionEntry), findIndex t.entries e.index = some first ∧ first ≠ pos ∧
          t.entries[first]? = some other ∧ other.startLba = newStart ∧ other.sectorCount = newSize

def Positioned (t : MbrPartitionTable) : Prop :=
  ∀ (p q : Nat) (x y : PartitionEntry), p ≤ q → t.entries[p]? = some x → x.isLogical = true →
    t.entries[q]? = some y → y.index = q

section Reached

variable {t t' : MbrPartitionTable}

theorem Positioned.congr (positioned : t.Positioned) (same : t'.entries.map (fun e => (e.isLogical,e.index)) =
    t.entries.map (fun e => (e.isLogical,e.index))) : t'.Positioned := by
  have look {j : Nat} {e : PartitionEntry} (found : t'.entries[j]? = some e) :
      ∃ old, t.entries[j]? = some old ∧ old.isLogical = e.isLogical ∧ old.index = e.index := by
    have there := congrArg (·[j]?) same
    simp only [List.getElem?_map,found,Option.map_some] at there
    obtain ⟨old,before,view⟩ := Option.map_eq_some_iff.mp there.symm
    simp only [Prod.mk.injEq] at view
    exact ⟨old,before,view⟩
  intro p q x y order first logical second
  obtain ⟨old,before,kind,_⟩ := look first
  obtain ⟨old',before',_,number⟩ := look second
  rw [← number]
  exact positioned p q old old' order before (kind.trans logical) before'

theorem positioned_reindexed (entries : List PartitionEntry) : Positioned { t with entries := reindex entries } := by
  intro p q x y _ _ _ second
  rw [reindex_getElem?] at second
  obtain ⟨old,_,rfl⟩ := Option.map_eq_some_iff.mp second
  rfl

theorem Positioned.added (positioned : t.Positioned) {e : PartitionEntry} (number : e.index = t.entries.length) :
    Positioned { t with entries := t.entries ++ [e] } := by
  intro p q x y order first logical second
  simp only [List.getElem?_append,List.getElem?_singleton] at first second
  split at second
  next inside =>
    rw [if_pos (by omega)] at first
    exact positioned p q x y order first logical second
  next outside =>
    split at second
    next last =>
      cases second
      rw [number]
      omega
    next => cases second

theorem positioned_step (positioned : t.Positioned) (edit : MbrEdit) : (edit.step t).Positioned := by
  cases edit with
  | change call =>
    rw [MbrEdit.step,MbrEdit.apply]
    have effect := step_effect t call
    rw [MbrCall.step] at effect
    generalize (call.apply t).2 = t' at effect ⊢
    cases effect with
    | refused => exact positioned
    | added params accepted => exact positioned.added rfl
    | deleted index pos e found target => exact positioned_reindexed _
    | resized index newStart newSize pos found accepted =>
      exact positioned.congr (map_modified _ (·.movedTo newStart newSize) (fun _ => rfl) t.entries pos)
  | setActive index =>
    have effect := t.setActive_effect index
    rw [MbrEdit.step,MbrEdit.apply]
    generalize t.setActivePartition index = outcome at effect ⊢
    have cleared : (t.entries.map deactivated).map (fun e => (e.isLogical,e.index)) =
        t.entries.map (fun e => (e.isLogical,e.index)) := by
      rw [List.map_map]
      refine List.map_congr_left (fun e _ => ?_)
      rw [Function.comp_apply,(deactivated_same e).1,(deactivated_same e).2]
    cases effect with
    | cleared => exact positioned.congr cleared
    | missing => exact positioned.congr cleared
    | activated pos e target named primary =>
      refine positioned.congr (Eq.trans ?_ cleared)
      exact map_modified _ (fun e : PartitionEntry => { e with isActive := true }) (fun _ => rfl) _ pos

theorem tame_step (tame : ∀ e ∈ t.entries, Tame e) (edit : MbrEdit) : ∀ e ∈ (edit.step t).entries, Tame e := by
  cases edit with
  | change call => exact tame_kept (step_effect t call) tame
  | setActive index =>
    have effect := t.setActive_effect index
    rw [MbrEdit.step,MbrEdit.apply]
    generalize t.setActivePartition index = outcome at effect ⊢
    have cleared : ∀ e ∈ t.entries.map deactivated, Tame e := by
      intro e member
      obtain ⟨old,among,rfl⟩ := List.mem_map.mp member
      unfold deactivated
      split
      · exact tame old among
      · exact tame old among
    cases effect with
    | cleared => exact cleared
    | missing => exact cleared
    | activated pos e target named primary =>
      intro x member
      obtain ⟨i,there⟩ := List.getElem?_of_mem member
      rw [List.getElem?_modify] at there
      obtain ⟨old,before,same⟩ := Option.map_eq_some_iff.mp there
      have kept := cleared old (List.mem_of_getElem? before)
      rw [← same]
      split
      · exact kept
      · exact kept

theorem Obtained.positioned (obtained : t.Obtained) : t.Positioned := by
  rcases obtained with ⟨diskSizeBytes,sectorSize,diskGuid,random,created⟩ | ⟨fuel,self,readFunc,parsed⟩
  · simp only [PartitionTable.createNew,Option.some.injEq,PartitionTable.mbr.injEq] at created
    rw [← created]
    intro p q x y _ first
    simp at first
  · obtain ⟨raw,chain,scan⟩ := parse_scan parsed
    have entries : t.entries = primaryEntries self.sectorSize raw ++
        chainLogicals self.sectorSize (occupiedSlots raw).length chain := by
      rw [scan.table]
      rfl
    have count : (primaryEntries self.sectorSize raw).length = (occupiedSlots raw).length := List.length_map _
    intro p q x y order first logical second
    rw [entries,List.getElem?_append] at first second
    by_cases front : p < (primaryEntries self.sectorSize raw).length
    · rw [if_pos front] at first
      obtain ⟨i,_,rfl⟩ := mem_primaryEntries (List.mem_of_getElem? first)
      cases logical
    · rw [if_neg (by omega),chainLogicals,List.getElem?_mapIdx] at second
      obtain ⟨ebr,_,rfl⟩ := Option.map_eq_some_iff.mp second
      simp only [Ebr.logical]
      omega

theorem Reached.kept (reached : t.Reached) : (∀ e ∈ t.entries, Tame e) ∧ t.Positioned := by
  obtain ⟨first,edits,obtained,rfl⟩ := reached
  exact Run.trace_invariant MbrEdit.step (fun t => (∀ e ∈ t.entries, Tame e) ∧ t.Positioned)
    (fun _ edit held => ⟨tame_step held.1 edit,positioned_step held.2 edit⟩) first edits
    ⟨obtained.chained.tame,obtained.positioned⟩ _ (Run.foldl_mem_trace _ _ _)

end Reached

theorem overlaps_container {t : MbrPartitionTable} (tame : ∀ e ∈ t.entries, Tame e) {ext : PartitionEntry}
    (member : ext ∈ t.entries) {start count : UInt64} (filled : count.toNat ≠ 0)
    (inside : Extent.Within ⟨start.toNat,count.toNat⟩ ext.extent) {excluded : Int} (other : ext.index ≠ excluded)
    (low : start.toNat ≤ 2 ^ 32 - 1) (short : count.toNat ≤ 2 ^ 32 - 1) :
    t.overlapsExisting start count excluded ≠ false := by
  intro clear
  simp only [Extent.Within,Extent.stop,PartitionEntry.extent] at inside
  have nonempty : ext.sectorCount ≠ 0 := by
    intro zero
    rw [zero] at inside
    have none : (0 : UInt64).toNat = 0 := rfl
    omega
  have apart := clear_of_tame t low short clear ext member (tame ext member) other nonempty
  simp only [Extent.Apart,Extent.stop,PartitionEntry.extent] at apart
  omega

theorem Positioned.container_apart {t : MbrPartitionTable} (positioned : t.Positioned) {pos : Nat}
    {e ext : PartitionEntry} (target : t.entries[pos]? = some e) (logical : e.isLogical = true)
    (found : findIndex t.entries e.index = some pos) (member : ext ∈ t.entries) (container : isContainer ext = true) :
    ext.index ≠ e.index := by
  intro same
  obtain ⟨q,there⟩ := List.getElem?_of_mem member
  obtain ⟨_,_,before⟩ := List.findIdx?_eq_some_iff_getElem.mp found
  rcases Nat.lt_or_ge q pos with front | behind
  · obtain ⟨bound,at_q⟩ := List.getElem?_eq_some_iff.mp there
    have differs := before q front
    rw [at_q,same] at differs
    simp at differs
  · have first := positioned pos pos e e (Nat.le_refl pos) target logical target
    have second := positioned pos q e ext behind target logical there
    have position : q = pos := by omega
    rw [position,target,Option.some.injEq] at there
    rw [← there,isContainer,logical] at container
    simp at container

theorem movedTo_same (e : PartitionEntry) {start count : UInt64} :
    e.movedTo start count = e ↔ e.startLba = start ∧ e.sectorCount = count := by
  cases e
  simp only [PartitionEntry.movedTo,PartitionEntry.mk.injEq,and_true,true_and]
  exact ⟨fun same => ⟨same.1.symm,same.2.symm⟩,fun same => ⟨same.1.symm,same.2.symm⟩⟩

theorem modify_same {entries : List PartitionEntry} {pos : Nat} {e : PartitionEntry} (target : entries[pos]? = some e)
    {start count : UInt64} (there : e.startLba = start ∧ e.sectorCount = count) :
    entries.modify pos (·.movedTo start count) = entries := by
  apply List.ext_getElem?
  intro i
  rw [getElem?_moved]
  split
  next same =>
    subst same
    rw [target,Option.map_some,(movedTo_same e).mpr there]
  next => rfl

/-- A legal request is granted exactly when it is to give a logical partition the range it
has, and its number is that of an entry further up which has that range as well. -/
theorem legal_granted_iff {t : MbrPartitionTable} (reached : t.Reached) {request : LogicalRequest}
    (legal : t.Legal request) : t.Grants request ↔ t.Pointless request := by
  obtain ⟨tame,positioned⟩ := reached.kept
  cases request with
  | add params =>
    refine iff_of_false ?_ id
    rintro ⟨e,_,_,_,granted⟩
    have accepted := (apply_ok t (.add params)).mp (congrArg Prod.fst granted)
    exact logical_add_rejected t params tame legal.1 accepted
  | resize pos newStart newSize =>
    obtain ⟨⟨e,target,logical⟩,filled,⟨ext,member,container,inside⟩,_⟩ := legal
    have matched : (findIndex t.entries e.index).isSome := by
      rw [findIndex,List.findIdx?_isSome,List.any_eq_true]
      exact ⟨e,List.mem_of_getElem? target,by simp⟩
    obtain ⟨first,found⟩ := Option.isSome_iff_exists.mp matched
    obtain ⟨bound,_⟩ := findIndex_some found
    have other : t.entries[first]? = some t.entries[first] := List.getElem?_eq_getElem bound
    simp only [Grants,Pointless,target,Option.some.injEq,forall_eq']
    rw [resizePartition,found]
    simp only
    cases checks : t.resizeChecks e.index newStart newSize with
    | error error => simp
    | ok _ =>
      obtain ⟨_,_,⟨low,short⟩,clear⟩ := (resizeChecks_ok t e.index newStart newSize).mp checks
      have lowBound : newStart.toNat ≤ 2 ^ 32 - 1 := UInt64.le_iff_toNat_le.mp low
      have shortBound : newSize.toNat ≤ 2 ^ 32 - 1 := UInt64.le_iff_toNat_le.mp short
      have elsewhere : first ≠ pos := by
        rintro rfl
        have apart := positioned.container_apart target logical found member container
        exact overlaps_container tame member filled inside apart lowBound shortBound clear
      simp only [Prod.mk.injEq,MbrPartitionTable.mk.injEq,true_and]
      constructor
      · intro same
        have here := congrArg (·[pos]?) same
        have there := congrArg (·[first]?) same
        simp only [getElem?_moved,if_neg elsewhere,if_neg (Ne.symm elsewhere),if_true,target,other,Option.map_some,
          Option.some.injEq] at here there
        have own := (movedTo_same e).mp here.symm
        have its := (movedTo_same _).mp there
        exact ⟨own.1,own.2,first,_,rfl,elsewhere,other,its⟩
      · rintro ⟨start,count,q,x,same,_,at_q,its⟩
        rw [Option.some.inj same,modify_same at_q its,modify_same target ⟨start,count⟩]

section Sample

def containerTable : MbrPartitionTable :=
  MbrEdit.step emptyTable (.change (.add { startLba := 8,sectorCount := 40,mbrType := MbrTypes.Extended }))

def firstLogical : PartitionParams := { startLba := 9,sectorCount := 20,isLogical := true }

theorem reached_containerTable : containerTable.Reached :=
  ⟨emptyTable,[.change (.add { startLba := 8,sectorCount := 40,mbrType := MbrTypes.Extended })],obtained_emptyTable,rfl⟩

theorem legal_firstLogical : containerTable.Legal (.add firstLogical) := by
  refine ⟨rfl,by decide,⟨containerTable.entries[0],by decide,by decide,by decide⟩,fun j l there logical _ => ?_⟩
  have plain : ∀ e ∈ containerTable.entries, e.isLogical = false := by decide
  rw [plain l (List.mem_of_getElem? there)] at logical
  cases logical

/-- The first logical partition of an empty container. -/
theorem firstLogical_not_granted : ¬ containerTable.Grants (.add firstLogical) :=
  (not_congr (legal_granted_iff reached_containerTable legal_firstLogical)).mpr id

/-- It is turned down as an overlap. -/
theorem legal_logical_refused : ¬ ∀ (t : MbrPartitionTable) (request : LogicalRequest), t.Reached →
    t.Legal request → t.Grants request := by
  intro always
  obtain ⟨e,_,_,_,granted⟩ := always containerTable _ reached_containerTable legal_firstLogical
  have refused : (containerTable.addPartition firstLogical).1 =
      .error (.fromCode .partitionOverlap "New partition overlaps an existing partition") := by decide
  rw [granted] at refused
  cases refused

end Sample

end MbrPartitionTable
end SetecWizard.Core
