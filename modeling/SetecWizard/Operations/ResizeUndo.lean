import SetecWizard.Operations.GptRewrite
import SetecWizard.Operations.Inversion
import SetecWizard.Operations.Overlay

/-! Resizing a partition and undoing it. The number that names the partition is its slot
when the disk is read first, and a position when undo reads it again.
-/
namespace SetecWizard.Core
open SetecWizard.Library

/-- What is to be as before: where a partition is and whether it is flagged. -/
def PartitionEntry.standing (e : PartitionEntry) : UInt64 × UInt64 × Bool := (e.startLba,e.sectorCount,e.isActive)

theorem PartitionEntry.standing_of_shown {a b : PartitionEntry} (same : a.shown = b.shown) :
    a.standing = b.standing := by
  simp only [shown,Prod.mk.injEq] at same
  simp only [standing,same.1,same.2.1,same.2.2.2.1]

section Edits

variable {α β : Type}

theorem modify_append (f : α → α) (first second : List α) (pos : Nat) :
    (first ++ second).modify pos f =
      first.modify pos f ++ if first.length ≤ pos then second.modify (pos - first.length) f else second := by
  apply List.ext_getElem?
  intro i
  grind

theorem map_modify {view : α → β} {f : α → α} {g : β → β} (follows : ∀ a, view (f a) = g (view a))
    (list : List α) (pos : Nat) : (list.modify pos f).map view = (list.map view).modify pos g := by
  apply List.ext_getElem?
  intro i
  grind

theorem modify_back {f g : β → β} {list : List β} {pos : Nat}
    (back : ∀ b, list[pos]? = some b → g (f b) = b) : (list.modify pos f).modify pos g = list := by
  apply List.ext_getElem?
  intro i
  grind

end Edits

namespace MbrPartitionTable

variable {t t' : MbrPartitionTable}

theorem mem_modify {f : PartitionEntry → PartitionEntry} {P : PartitionEntry → Prop} {entries : List PartitionEntry}
    (kept : ∀ e ∈ entries, P e → P (f e)) (each : ∀ e ∈ entries, P e) (pos : Nat) : ∀ e ∈ entries.modify pos f, P e := by
  intro e member
  obtain ⟨i,at_i⟩ := List.getElem?_of_mem member
  rw [List.getElem?_modify] at at_i
  obtain ⟨old,at_old,rfl⟩ := Option.map_eq_some_iff.mp at_i
  have among := List.mem_of_getElem? at_old
  split
  · exact kept old among (each old among)
  · exact each old among

theorem primaries_modify (split : t.entries = t.primaries ++ t.logicals) {f : PartitionEntry → PartitionEntry}
    (kept : ∀ e, (f e).isLogical = e.isLogical) (pos : Nat) :
    primaries { t with entries := t.entries.modify pos f } = t.primaries.modify pos f := by
  have primary : ∀ e ∈ t.primaries.modify pos f, e.isLogical = false :=
    mem_modify (fun e _ => (kept e).trans) (fun e member => by simpa using (List.mem_filter.mp member).2) pos
  have logical : ∀ e ∈ (if t.primaries.length ≤ pos then t.logicals.modify (pos - t.primaries.length) f
      else t.logicals), e.isLogical = true := by
    have old : ∀ e ∈ t.logicals, e.isLogical = true := fun e member => (List.mem_filter.mp member).2
    split
    · exact mem_modify (fun e _ => (kept e).trans) old _
    · exact old
  have whole : (t.entries.modify pos f).filter (fun e => !e.isLogical) = t.primaries.modify pos f := by
    rw [split,modify_append,List.filter_append,List.filter_eq_self.mpr (fun e member => by simp [primary e member]),
      List.filter_eq_nil_iff.mpr (fun e member => by simp [logical e member]),List.append_nil]
  exact whole

theorem Rewritable.of_kinds (rewritable : Rewritable t)
    (kinds : t'.entries.map (·.isLogical) = t.entries.map (·.isLogical)) (slots : ∀ e ∈ t'.primaries, Slottable e)
    (boot : t'.bootCode = t.bootCode) : Rewritable t' := by
  have counts (kind : Bool → Bool) : (t'.entries.filter (fun e => kind e.isLogical)).length =
      (t.entries.filter (fun e => kind e.isLogical)).length := by
    have same := congrArg (List.countP kind) kinds
    rw [List.countP_map,List.countP_map,List.countP_eq_length_filter,List.countP_eq_length_filter] at same
    exact same
  refine ⟨slots,?_,?_,by rw [boot]; exact rewritable.noMap⟩
  · exact (counts (!·)).trans_le rewritable.few
  · exact (counts id).trans_le rewritable.short

theorem Slottable.moved {e : PartitionEntry} (fits : Slottable e) {newStart newSize : UInt64} (positive : newSize ≠ 0)
    (low : newStart.toNat < 2 ^ 32) (short : newSize.toNat < 2 ^ 32) : Slottable (e.movedTo newStart newSize) := by
  refine ⟨fits.primary,fits.kind,low,short,?_⟩
  rintro ⟨_,_,zero⟩
  have none : newSize.toNat % 2 ^ 32 = 0 := by
    have word := congrArg UInt32.toNat zero
    rwa [UInt64.toNat_toUInt32] at word
  rw [Nat.mod_eq_of_lt short] at none
  exact positive (UInt64.toNat_inj.mp none)

theorem Rewritable.resized (rewritable : Rewritable t) (split : t.entries = t.primaries ++ t.logicals) {index : Int}
    {newStart newSize : UInt64} (checks : t.resizeChecks index newStart newSize = .ok ()) (pos : Nat) :
    Rewritable { t with entries := t.entries.modify pos (·.movedTo newStart newSize) } := by
  obtain ⟨positive,_,⟨low,short⟩,_⟩ := (resizeChecks_ok t index newStart newSize).mp checks
  have lowBound : newStart.toNat ≤ 4294967295 := UInt64.le_iff_toNat_le.mp low
  have shortBound : newSize.toNat ≤ 4294967295 := UInt64.le_iff_toNat_le.mp short
  refine rewritable.of_kinds ?_ ?_ rfl
  · have same := @map_modify _ _ (·.isLogical) (·.movedTo newStart newSize) id (fun e => rfl) t.entries pos
    rw [List.modify_id] at same
    exact same
  · rw [primaries_modify split (f := (·.movedTo newStart newSize)) (fun e => rfl)]
    exact mem_modify (fun e _ fits => fits.moved positive (by omega) (by omega)) rewritable.slots pos

end MbrPartitionTable

section Resized

open MbrPartitionTable

variable {disk disk' disk'' : Disk} {sectorSize : UInt32} {chain chain' : List Ebr} {t v : MbrPartitionTable}
    {newStart newSize : UInt64} {pos : Nat} {saved : PartitionEntry}

theorem map_shown_moved (entries : List PartitionEntry) (pos : Nat) (start count : UInt64) :
    (entries.modify pos (·.movedTo start count)).map PartitionEntry.shown =
      (entries.map PartitionEntry.shown).modify pos (fun shown => (start,count,shown.2.2)) :=
  @map_modify _ _ PartitionEntry.shown (·.movedTo start count) (fun shown => (start,count,shown.2.2)) (fun _ => rfl) entries pos

theorem MbrAt.logical_position (held : MbrAt disk sectorSize chain t) {e : PartitionEntry}
    (at_pos : t.entries[pos]? = some e) (behind : t.primaries.length ≤ pos) : e.index = (pos : Int) := by
  have primaries := congrArg List.length held.primaries_logicals.1
  rw [held.split,List.getElem?_append_right behind,held.primaries_logicals.2,chainLogicals,List.getElem?_mapIdx] at at_pos
  obtain ⟨ebr,_,rfl⟩ := Option.map_eq_some_iff.mp at_pos
  simp only [Ebr.logical]
  omega

theorem resized_back (held : MbrAt disk sectorSize chain t) (at_pos : t.entries[pos]? = some saved)
    (laid : Overwrote disk sectorSize { t with entries := t.entries.modify pos (·.movedTo newStart newSize) } disk')
    (again : MbrAt disk' sectorSize chain' v) :
    (primaries { v with entries := v.entries.modify pos (·.movedTo saved.startLba saved.sectorCount) }).map
        PartitionEntry.shown = t.primaries.map PartitionEntry.shown := by
  have shown := laid.reread_shown again
  rw [primaries_modify held.split (f := (·.movedTo newStart newSize)) (fun _ => rfl),map_shown_moved] at shown
  rw [primaries_modify again.split (f := (·.movedTo saved.startLba saved.sectorCount)) (fun _ => rfl),
    map_shown_moved,shown]
  refine modify_back (fun old at_old => ?_)
  rw [List.getElem?_map] at at_old
  obtain ⟨e,at_e,rfl⟩ := Option.map_eq_some_iff.mp at_old
  have bound := (List.getElem?_eq_some_iff.mp at_e).1
  rw [held.split,List.getElem?_append_left bound,at_e] at at_pos
  cases at_pos
  rfl

/-- The entry that undo resizes is another one when the number was not the position, and
then the moved one stays where it was put. -/
theorem resized_elsewhere (held : MbrAt disk sectorSize chain t) (at_pos : t.entries[pos]? = some saved)
    (other : saved.index ≠ (pos : Int)) (filled : newSize ≠ 0)
    (laid : Overwrote disk sectorSize { t with entries := t.entries.modify pos (·.movedTo newStart newSize) } disk')
    (again : MbrAt disk' sectorSize chain' v) {place : Nat} (apart : place ≠ pos)
    (clear : v.resizeChecks (place : Int) saved.startLba saved.sectorCount = .ok ())
    (over' : Overwrote disk' sectorSize
      { v with entries := v.entries.modify place (·.movedTo saved.startLba saved.sectorCount) } disk'') :
    ¬ ReadsEqual PartitionEntry.standing disk'' sectorSize (.mbr t) := by
  intro equal
  obtain ⟨_,w,last,listed⟩ := equal.mbr
  have front : pos < t.primaries.length :=
    Nat.lt_of_not_le (fun behind => other (held.logical_position at_pos behind))
  have old : t.primaries[pos]? = some saved := by
    rw [held.split,List.getElem?_append_left front] at at_pos
    exact at_pos
  have primaries := primaries_modify held.split (f := (·.movedTo newStart newSize)) (fun _ => rfl) pos
  have edited := primaries_modify again.split (f := (·.movedTo saved.startLba saved.sectorCount)) (fun _ => rfl) place
  obtain ⟨length,at_first⟩ := laid.primary_at again
  obtain ⟨moved,at_moved,first⟩ := at_first pos (saved.movedTo newStart newSize) (by
    rw [primaries,List.getElem?_modify_eq,old]
    rfl)
  rw [primaries,List.length_modify] at length
  have kept : v.primaries[pos]? = some moved := by
    rw [again.split,List.getElem?_append_left (by omega)] at at_moved
    exact at_moved
  obtain ⟨final,at_final,second⟩ := (over'.primary_at last).2 pos moved (by
    rw [edited,List.getElem?_modify_ne _ _ apart]
    exact kept)
  have same := congrArg (fun entries => entries[pos]?) listed
  simp only [List.getElem?_map,at_final,at_pos,Option.map_some,Option.some.injEq] at same
  rw [PartitionEntry.standing_of_shown (second.trans first)] at same
  simp only [PartitionEntry.standing,PartitionEntry.movedTo,Prod.mk.injEq] at same
  obtain ⟨start,count,_⟩ := same
  -- The range of undo would be the one that the moved entry has, which its checks forbid.
  rw [← start,← count] at clear
  obtain ⟨_,onDisk,⟨low,short⟩,free⟩ := (resizeChecks_ok v _ _ _).mp clear
  obtain ⟨nonempty,countBound,startBound,_⟩ := placed_bounds v filled onDisk low short
  have member := List.mem_of_getElem? at_moved
  have index := laid.numbered again pos moved at_moved
  simp only [PartitionEntry.shown,PartitionEntry.movedTo,Prod.mk.injEq] at first
  have clear := clear_of_tame v startBound countBound free moved member (again.tame moved member)
    (by rw [index]; omega) (by rw [first.2.1]; exact filled)
  simp only [Extent.Apart,Extent.stop,PartitionEntry.extent,first.1,first.2.1] at clear
  omega

end Resized

theorem map_standing_moved (entries : List PartitionEntry) (pos : Nat) (start count : UInt64) :
    (entries.modify pos (·.movedTo start count)).map PartitionEntry.standing =
      (entries.map PartitionEntry.standing).modify pos (fun standing => (start,count,standing.2.2)) :=
  @map_modify _ _ PartitionEntry.standing (·.movedTo start count) (fun standing => (start,count,standing.2.2)) (fun _ => rfl) entries pos

theorem GptPartitionTable.map_standing {entries : List PartitionEntry} (blank : ∀ e ∈ entries, Blank e)
    (sectorSize : UInt32) : entries.map (fun pe => (recorded sectorSize pe.index.toNat pe).standing) =
      entries.map PartitionEntry.standing := by
  refine List.map_congr_left (fun e member => ?_)
  simp only [PartitionEntry.standing,recorded,(blank e member).2.1]

namespace ResizePartitionOp

/-- What undo of a resize needs: the number of the partition is its position, the disk
is not taken for a GPT's in between, and the chain survives both writes. -/
def Reversible (disk : Disk) (params : Params) : PartitionTable → Prop
  | .mbr t => ∀ pos saved, findIndex t.entries params.partitionIndex = some pos → t.entries[pos]? = some saved →
    let resized : MbrPartitionTable :=
      { t with entries := t.entries.modify pos (·.movedTo params.newStartLba params.newSectorCount) }
    params.partitionIndex = pos ∧ ¬ TakenForGpt disk params.sectorSize resized ∧
      ChainAfter disk params.sectorSize resized (·.modify pos (·.movedTo saved.startLba saved.sectorCount))
        (containerOf t.primaries)
        (fun logicals => logicals.map PartitionEntry.standing = t.logicals.map PartitionEntry.standing)
  | .gpt _ => True
  | .apm _ => True

variable {fuel fuel' : Nat} {os os' : Win32} {op op' : ResizePartitionOp} {disk disk' disk'' : Disk}

theorem undo_mbr_iff (full : os.ReadsInFull) (full' : os'.ReadsInFull) {t : MbrPartitionTable}
    (parsed : OperationUtils.readPartitionTable fuel os disk op.params.sectorSize = some (.ok (.mbr t)))
    (executed : op.execute fuel os disk = some (.ok (),op',disk'))
    (reverted : op'.undo fuel' os' disk' = some (.ok (),disk'')) :
    ReadsEqual PartitionEntry.standing disk'' op.params.sectorSize (.mbr t) ↔ Reversible disk op.params (.mbr t) := by
  obtain ⟨before,after,saved,replaced,entry,params⟩ := execute_ok executed
  obtain ⟨table,table',undone⟩ := undo_ok entry.kept reverted
  rw [params] at undone
  have same := replaced.read
  rw [parsed] at same
  cases same
  obtain ⟨chain,held,alone⟩ := MbrAt.of_read (readPartitionTable_full full parsed)
  obtain ⟨pos,found,checks,rfl⟩ := PartitionTable.resize_mbr_ok replaced.changed
  have at_pos : t.entries[pos]? = some saved := by
    rw [← entry.found]
    exact (@saveEntry_found (.mbr t) _ _ found op.savedEntry).symm
  have reduced : Reversible disk op.params (.mbr t) ↔ op.params.partitionIndex = pos ∧
      ¬ TakenForGpt disk op.params.sectorSize
        { t with entries := t.entries.modify pos (·.movedTo op.params.newStartLba op.params.newSectorCount) } ∧
      ChainAfter disk op.params.sectorSize
        { t with entries := t.entries.modify pos (·.movedTo op.params.newStartLba op.params.newSectorCount) }
        (·.modify pos (·.movedTo saved.startLba saved.sectorCount)) (containerOf t.primaries)
        (fun logicals => logicals.map PartitionEntry.standing = t.logicals.map PartitionEntry.standing) := by
    refine ⟨fun reversible => reversible pos saved found at_pos,fun reversible place other found' at_place => ?_⟩
    rw [found] at found'
    cases found'
    rw [at_pos] at at_place
    cases at_place
    exact reversible
  rw [reduced]
  have index : saved.index = op.params.partitionIndex := by
    obtain ⟨bound,number⟩ := findIndex_some found
    rw [List.getElem?_eq_getElem bound] at at_pos
    cases at_pos
    exact number
  have filled := ((MbrPartitionTable.resizeChecks_ok _ _ _ _).mp checks).1
  have laid := Overwrote.of_write (held.rewritable.resized held.split checks pos) held.long held.moderate replaced.written
  obtain ⟨chain',v,reread,⟨rfl,apart⟩ | ⟨g,rfl,both,behind⟩⟩ :=
    laid.read_again (readPartitionTable_full full' undone.read)
  · rw [laid.taken_iff] at apart
    obtain ⟨place,found',checks',rfl⟩ := PartitionTable.resize_mbr_ok undone.changed
    have number := (laid.numbered reread).position found'
    have over' := Overwrote.of_write (reread.rewritable.resized reread.split checks' place) reread.long reread.moderate
      undone.written
    by_cases same : place = pos
    · rw [same] at over' number
      have addressable := held.rewritable.addressable
      have apart' := over'.apart addressable
        (laid.apart addressable fun both => alone (held.protects_iff.mpr both.2) both.1)
      have remade := congrArg (fun shown => shown.modify pos (fun shown => (saved.startLba,saved.sectorCount,shown.2.2)))
        (laid.reread_entries reread)
      simp only [← map_shown_moved] at remade
      have survives := @chainAfter_iff _ _ _ _ _ _ _ _ _ (·.modify pos (·.movedTo saved.startLba saved.sectorCount))
        (fun logicals => logicals.map PartitionEntry.standing = t.logicals.map PartitionEntry.standing)
        laid reread over' addressable (MbrPartitionTable.ebrImages_congr remade)
      rw [readsEqual_iff (fun _ _ => PartitionEntry.standing_of_shown) held over'
        (resized_back held at_pos laid reread) apart',survives]
      exact ⟨fun kept => ⟨number,apart,kept⟩,fun reversible => reversible.2.2⟩
    · rw [number] at checks'
      refine iff_of_false (resized_elsewhere held at_pos (by omega) filled laid reread same checks' over') ?_
      exact fun reversible => same (by omega)
  · obtain ⟨place,found',checks',rfl⟩ := PartitionTable.resize_gpt_ok undone.changed
    have nonempty : g.entries ≠ [] := by
      obtain ⟨bound,_⟩ := findIndex_some found'
      exact List.ne_nil_of_length_pos (by omega)
    have over' := GptPartitionTable.Overwrote.of_write
      ((GptPartitionTable.anchored_of_parse reread.toLegible behind).kept (.resized _ _ _ place found' checks'))
      ((GptPartitionTable.recordable_of_parse reread.toLegible behind nonempty).resized place _ _)
      reread.long reread.moderate undone.written
    exact iff_of_false (fun equal => over'.other t equal.same)
      (fun reversible => reversible.2.1 (laid.taken_iff.mp both))

theorem undo_gpt (full : os.ReadsInFull) (full' : os'.ReadsInFull) {t : GptPartitionTable}
    (read : OperationUtils.readPartitionTable fuel os disk op.params.sectorSize = some (.ok (.gpt t)))
    (executed : op.execute fuel os disk = some (.ok (),op',disk'))
    (reverted : op'.undo fuel' os' disk' = some (.ok (),disk'')) :
    ReadsEqual PartitionEntry.standing disk'' op.params.sectorSize (.gpt t) := by
  obtain ⟨before,after,saved,replaced,entry,params⟩ := execute_ok executed
  obtain ⟨table,table',undone⟩ := undo_ok entry.kept reverted
  rw [params] at undone
  have same := replaced.read
  rw [read] at same
  cases same
  obtain ⟨legible,parsed⟩ := GptPartitionTable.of_read (readPartitionTable_full full read)
  obtain ⟨pos,found,checks,rfl⟩ := PartitionTable.resize_gpt_ok replaced.changed
  have at_pos : t.entries[pos]? = some saved := by
    rw [← entry.found]
    exact (@saveEntry_found (.gpt t) _ _ found op.savedEntry).symm
  have nonempty : t.entries ≠ [] := List.ne_nil_of_mem (List.mem_of_getElem? at_pos)
  have laid := GptPartitionTable.Overwrote.of_write
    ((GptPartitionTable.anchored_of_parse legible parsed).kept (.resized _ _ _ pos found checks))
    ((GptPartitionTable.recordable_of_parse legible parsed nonempty).resized pos _ _)
    legible.long legible.moderate replaced.written
  obtain ⟨g,always,_,reparsed,_,_,_,listed⟩ := laid.reread
  have ascending := GptPartitionTable.ascending_moved (GptPartitionTable.ascending_of_parse parsed) pos
    op.params.newStartLba op.params.newSectorCount
  replace listed := listed ascending
  have table_eq := always fuel' table (readPartitionTable_full full' undone.read)
  subst table_eq
  obtain ⟨place,found',checks',rfl⟩ := PartitionTable.resize_gpt_ok undone.changed
  have numbers : g.entries.map (·.index) = t.entries.map (·.index) := by
    have moved := indices_moved t.entries pos op.params.newStartLba op.params.newSectorCount
    have kept := (GptPartitionTable.recordable_of_parse legible parsed nonempty).resized pos
      op.params.newStartLba op.params.newSectorCount
    rw [listed,List.map_map,← moved]
    exact List.map_congr_left (fun pe member => (kept.toArrayed.slot member).2)
  have again := found'
  have same : place = pos := by
    have lookup (entries : List PartitionEntry) : findIndex entries op.params.partitionIndex =
        (entries.map (·.index)).findIdx? (· == op.params.partitionIndex) := by
      rw [List.findIdx?_map]
      rfl
    rw [lookup,numbers,← lookup,found] at found'
    exact (Option.some.inj found').symm
  subst same
  have nonempty' : g.entries ≠ [] := by
    obtain ⟨bound,_⟩ := findIndex_some again
    exact List.ne_nil_of_length_pos (by omega)
  have over' := GptPartitionTable.Overwrote.of_write
    ((GptPartitionTable.anchored_of_parse laid.legible reparsed).kept (.resized _ _ _ place again checks'))
    ((GptPartitionTable.recordable_of_parse laid.legible reparsed nonempty').resized place _ _)
    laid.long laid.moderate undone.written
  have blank := GptPartitionTable.blank_of_parse parsed
  have blank' := GptPartitionTable.blank_of_parse reparsed
  have moved (entries : List PartitionEntry) (each : ∀ e ∈ entries, GptPartitionTable.Blank e) (a b : UInt64) :
      ∀ e ∈ entries.modify place (·.movedTo a b), GptPartitionTable.Blank e :=
    MbrPartitionTable.mem_modify (f := (·.movedTo a b)) (fun e _ plain => plain) each place
  have first : g.entries.map PartitionEntry.standing = (t.entries.map PartitionEntry.standing).modify place
      (fun standing => (op.params.newStartLba,op.params.newSectorCount,standing.2.2)) := by
    rw [listed,List.map_map,← map_standing_moved]
    exact GptPartitionTable.map_standing (moved t.entries blank _ _) _
  refine over'.readsEqual (GptPartitionTable.ascending_moved (GptPartitionTable.ascending_of_parse reparsed) place _ _) ?_
  refine (GptPartitionTable.map_standing (moved g.entries blank' _ _) _).trans ?_
  rw [map_standing_moved,first]
  refine modify_back (fun old at_old => ?_)
  rw [List.getElem?_map,at_pos,Option.map_some] at at_old
  cases at_old
  rfl

theorem undo_iff (full : os.ReadsInFull) (full' : os'.ReadsInFull) {table : PartitionTable}
    (read : OperationUtils.readPartitionTable fuel os disk op.params.sectorSize = some (.ok table))
    (executed : op.execute fuel os disk = some (.ok (),op',disk'))
    (reverted : op'.undo fuel' os' disk' = some (.ok (),disk'')) :
    ReadsEqual PartitionEntry.standing disk'' op.params.sectorSize table ↔ Reversible disk op.params table := by
  cases table with
  | mbr t => exact undo_mbr_iff full full' read executed reverted
  | gpt t => exact iff_of_true (undo_gpt full full' read executed reverted) trivial
  | apm t =>
    obtain ⟨before,after,saved,replaced,_⟩ := execute_ok executed
    have same := replaced.read
    rw [read] at same
    cases same
    have changed := replaced.changed
    simp [PartitionTable.resizePartition] at changed

end ResizePartitionOp

end SetecWizard.Core
