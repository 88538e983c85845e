import Mathlib.Data.List.InsertIdx
import Mathlib.Data.List.Perm.Basic
import Mathlib.Data.Multiset.AddSub
import SetecWizard.Operations.GptRewrite
import SetecWizard.Operations.Inversion
import SetecWizard.Operations.MbrEdits

/-! Creating a partition and undoing it. The new entry of an MBR is remembered by the
number of entries before it, and the table that undo reads has it between the primaries
and the logical partitions: the number is its own only when there are none of the latter.
-/
namespace SetecWizard.Core
open SetecWizard.Library

/-- Two lists with the same elements go on with the same elements just when they begin
with the same one. -/
theorem perm_tail_iff {α : Type} {a b : α} {first second : List α} (whole : (a :: first).Perm (b :: second)) :
    first.Perm second ↔ a = b := by
  constructor
  · intro tail
    have both := Multiset.coe_eq_coe.mpr (whole.trans (tail.symm.cons b))
    rw [← Multiset.cons_coe,← Multiset.cons_coe] at both
    exact (Multiset.cons_inj_left _).mp both
  · rintro rfl
    exact whole.cons_inv

/-- What tells a partition from the others of its table. -/
def PartitionEntry.identity (e : PartitionEntry) : UInt64 × UInt64 × UInt8 × Guid × Bool × Bool :=
  (e.startLba,e.sectorCount,e.mbrType,e.typeGuid,e.isExtended,e.isLogical)

namespace MbrPartitionTable

variable {t : MbrPartitionTable} {params : PartitionParams}

theorem range_fresh (tame : ∀ e ∈ t.entries, Tame e) (accepted : t.addChecks params = .ok ()) :
    ∀ e ∈ t.entries, (e.startLba == params.startLba && e.sectorCount == params.sectorCount) = false := by
  intro e member
  refine Bool.eq_false_iff.mpr (fun same => ?_)
  simp only [Bool.and_eq_true,beq_iff_eq] at same
  obtain ⟨start,count⟩ := same
  obtain ⟨positive,_,clear,onDisk,low,short⟩ := (addChecks_ok t params).mp accepted
  obtain ⟨nonempty,countBound,startBound,_⟩ := placed_bounds t positive onDisk low short
  have index := (tame e member).1
  have apart := clear_of_tame t startBound countBound clear e member (tame e member) (by omega)
    (by rw [count]; exact positive)
  simp only [Extent.Apart,Extent.stop,PartitionEntry.extent,start,count] at apart
  omega

end MbrPartitionTable

namespace CreatePartitionOp

variable {op : CreatePartitionOp}

theorem indexCreated_mbr {t : MbrPartitionTable} (tame : ∀ e ∈ t.entries, MbrPartitionTable.Tame e)
    (accepted : t.addChecks (partParams op.params .mbr) = .ok ()) :
    op.indexCreated (.mbr { t with entries := t.entries ++ [t.newEntry (partParams op.params .mbr)] }) =
      (t.entries.length : Int) := by
  have fresh := MbrPartitionTable.range_fresh tame accepted
  have before : t.entries.find? (fun e =>
      e.startLba == op.params.startLba && e.sectorCount == op.params.sectorCount) = none :=
    List.find?_eq_none.mpr (fun e member => by rw [Bool.not_eq_true]; exact fresh e member)
  simp only [indexCreated,PartitionTable.partitions,List.find?_append,before,Option.none_or,List.find?_cons,
    MbrPartitionTable.newEntry,partParams,beq_self_eq_true,Bool.and_true]

end CreatePartitionOp

section Created

variable {disk disk' disk'' : Disk} {sectorSize : UInt32} {chain chain' : List Ebr} {t v : MbrPartitionTable}

namespace MbrPartitionTable

variable {e : PartitionEntry}

/-- Undo finds the created entry behind the other primaries, and takes it out with
whatever a new container seems to hold. -/
theorem created_deleted (held : MbrAt disk sectorSize chain t) (none : t.logicals = []) (fits : Slottable e)
    (few : t.primaries.length < MBR_MAX_PRIMARY_PARTITIONS)
    (laid : Overwrote disk sectorSize { t with entries := t.entries ++ [e] } disk')
    (again : MbrAt disk' sectorSize chain' v) {target : PartitionEntry}
    (found : v.entries[t.entries.length]? = some target) :
    (withoutEntry v.entries t.entries.length target).map PartitionEntry.shown =
      t.entries.map PartitionEntry.shown := by
  obtain ⟨_,primaries,logicals⟩ := held.rewritable.appended fits few
  have entries : t.entries = t.primaries := by rw [held.split,none,List.append_nil]
  have numbered := laid.numbered again
  have shown := laid.reread_shown again
  have length := (laid.primary_at again).1
  rw [primaries,List.map_append,List.map_singleton] at shown
  rw [primaries,List.length_append,List.length_singleton] at length
  have front : (v.primaries.eraseIdx t.entries.length).map PartitionEntry.shown =
      t.entries.map PartitionEntry.shown := by
    have size : t.entries.length = (t.primaries.map PartitionEntry.shown).length := by rw [entries,List.length_map]
    rw [← List.eraseIdx_map,shown,size,List.eraseIdx_append_of_length_le (Nat.le_refl _),Nat.sub_self,
      List.eraseIdx_cons_zero,List.append_nil,entries]
  -- The entry at that position is the one that was created.
  obtain ⟨created,at_created,same⟩ := (laid.primary_at again).2 t.entries.length e (by
    rw [primaries,entries,List.getElem?_append_right (Nat.le_refl _),Nat.sub_self]
    rfl)
  rw [found] at at_created
  cases at_created
  simp only [PartitionEntry.shown,Prod.mk.injEq] at same
  obtain ⟨_,_,_,_,kind,primary⟩ := same
  rw [again.split] at numbered found ⊢
  rw [← entries] at length
  unfold withoutEntry
  rw [kind,primary,fits.primary,Bool.not_false,Bool.and_true]
  cases extended : e.isExtended with
  | true =>
    have rest : (v.primaries ++ v.logicals).filter (fun e => !e.isLogical) = v.primaries := by
      rw [← again.split]
      rfl
    have index := numbered _ target found
    have position := numbered.front.found (by omega : t.entries.length < v.primaries.length)
    simp only [if_true,rest,index,position]
    exact front
  | false =>
    have same_place : containerOf (t.primaries ++ [e]) = containerOf t.primaries := by
      rw [containerOf,List.find?_append,List.find?_singleton,extended]
      simp [containerOf]
    have logical : v.logicals = [] := by
      obtain ⟨_,listed,chained⟩ := laid.reread again
      rw [primaries,same_place,laid.chain_plain (logicals.trans none) held.rewritable.addressable] at chained
      have shown := congrArg (List.map PartitionEntry.shown) held.primaries_logicals.2
      rw [none,held.chainOf.unique chained,List.map_nil] at shown
      have renumbered := types_chainLogicals sectorSize (primaryEntries sectorSize (window disk.byte 0 512)).length
        (MbrPartitionTable.primaries { t with entries := t.entries ++ [e] }).length chain'
      rw [← shown,← listed] at renumbered
      exact List.map_eq_nil_iff.mp renumbered.symm
    simp only [Bool.false_eq_true,if_false,logical,List.append_nil]
    exact front

/-- Undo takes the created entry out when there are no logical partitions, and then the
disk is read as before unless it is taken for a GPT's meanwhile. -/
theorem created_undone (held : MbrAt disk sectorSize chain t)
    (alone : t.hasGptProtective = true → ¬ GptBehind disk sectorSize) (none : t.logicals = []) (fits : Slottable e)
    (few : t.primaries.length < MBR_MAX_PRIMARY_PARTITIONS)
    (laid : Overwrote disk sectorSize { t with entries := t.entries ++ [e] } disk')
    (again : MbrAt disk' sectorSize chain' v) {target : PartitionEntry}
    (found : v.entries[t.entries.length]? = some target)
    (over' : Overwrote disk' sectorSize
      { v with entries := reindex (withoutEntry v.entries t.entries.length target) } disk'') :
    ReadsSame PartitionEntry.identity disk'' sectorSize (.mbr t) := by
  have shown := created_deleted held none fits few laid again found
  rw [← map_reindex PartitionEntry.shown (fun _ _ => rfl)] at shown
  obtain ⟨_,_,logicals⟩ := held.rewritable.appended fits few
  have place := held.rewritable.addressable
  have primary := shown_primaries { v with entries := reindex (withoutEntry v.entries t.entries.length target) }
  have logical := shown_logicals { v with entries := reindex (withoutEntry v.entries t.entries.length target) }
  rw [shown,← shown_primaries] at primary
  rw [shown,← shown_logicals,none,List.map_nil,List.map_eq_nil_iff] at logical
  refine ReadsSame.of_overwrote ?_ held over' primary ?_ ?_
  · intro a b same fields
    simp only [PartitionEntry.shown,PartitionEntry.gptFields,Prod.mk.injEq] at same fields
    obtain ⟨start,count,type,_,kind,logical⟩ := same
    simp only [PartitionEntry.identity,start,count,type,kind,logical,fields.1]
  · rw [over'.chain_plain logical place,laid.chain_plain (logicals.trans none) place]
    exact held.chainOf
  · rw [over'.protects_plain logical place,laid.protects_plain (logicals.trans none) place,← held.protects_iff]
    exact fun both => alone both.2 both.1

theorem created_stays (held : MbrAt disk sectorSize chain t) (some : t.logicals ≠ []) (fits : Slottable e)
    (few : t.primaries.length < MBR_MAX_PRIMARY_PARTITIONS)
    (laid : Overwrote disk sectorSize { t with entries := t.entries ++ [e] } disk')
    (again : MbrAt disk' sectorSize chain' v) {target : PartitionEntry}
    (found : v.entries[t.entries.length]? = .some target)
    (over' : Overwrote disk' sectorSize
      { v with entries := reindex (withoutEntry v.entries t.entries.length target) } disk'') :
    ¬ ReadsSame PartitionEntry.identity disk'' sectorSize (.mbr t) := by
  intro same
  obtain ⟨_,w,last,_,perm⟩ := same.mbr
  obtain ⟨_,primaries,_⟩ := held.rewritable.appended fits few
  have length := (laid.primary_at again).1
  have final := (over'.primary_at last).1
  rw [primaries,List.length_append,List.length_singleton] at length
  have behind : v.primaries.length ≤ t.entries.length := by
    have whole := congrArg List.length held.split
    have more := List.length_pos_iff.mpr some
    rw [List.length_append] at whole
    omega
  have kept := congrArg List.length (logical_deleted again.split found behind)
  rw [List.length_map,List.length_map] at kept
  have count := perm.countP_eq (fun identity => !identity.2.2.2.2.2)
  rw [List.countP_map,List.countP_map,List.countP_eq_length_filter,List.countP_eq_length_filter] at count
  have same_count : w.primaries.length = t.primaries.length := count
  omega

end MbrPartitionTable

end Created

/-- What undo of a creation needs to take out the created partition and no other. -/
def CreatePartitionOp.Reversible (disk : Disk) (params : Params) : PartitionTable → Prop
  | .mbr t => t.logicals = [] ∧ ¬ (GptBehind disk params.sectorSize ∧
      Protects disk params.sectorSize (t.primaries ++ [t.newEntry (partParams params .mbr)]))
  | .gpt t => ∀ e, t.entries.find? (fun e =>
      e.startLba == params.startLba && e.sectorCount == params.sectorCount) = some e →
        e.typeGuid = (partParams params .gpt).typeGuid
  | .apm _ => True

/-- The buffers of the serializer hold the table, when it is a GPT. -/
def PartitionTable.InBuffers : PartitionTable → Prop
  | .gpt t => t.InBuffers
  | .mbr _ => True
  | .apm _ => True

theorem GptPartitionTable.identity_recorded {e : PartitionEntry} (blank : Blank e) (sectorSize : UInt32) (i : Nat) :
    (recorded sectorSize i e).identity = e.identity := by
  obtain ⟨type,_,kind,logical⟩ := blank
  simp only [PartitionEntry.identity,recorded,type,kind,logical]

theorem GptPartitionTable.map_identity {entries : List PartitionEntry} (blank : ∀ e ∈ entries, Blank e)
    (sectorSize : UInt32) : entries.map (fun pe => (recorded sectorSize pe.index.toNat pe).identity) =
      entries.map PartitionEntry.identity :=
  List.map_congr_left (fun pe member => identity_recorded (blank pe member) sectorSize pe.index.toNat)

namespace CreatePartitionOp

variable {fuel fuel' : Nat} {os os' : Win32} {op : CreatePartitionOp} {disk disk' disk'' : Disk}

theorem partParams_typed (params : Params) : (partParams params .gpt).typeGuid.isZero = false := by
  unfold partParams
  cases zero : params.typeGuid.isZero with
  | true => rfl
  | false => simpa using zero

theorem indexCreated_gpt {t t' : GptPartitionTable} (blank : ∀ e ∈ t.entries, GptPartitionTable.Blank e)
    {random : Bytes 16} {slot : Nat}
    (entries : t'.entries = t.entries ++ [t.withLastUsable.newEntry (partParams op.params .gpt) random slot]) :
    ∃ e ∈ t'.entries, op.indexCreated (.gpt t') = e.index ∧
      (e.identity = (t.withLastUsable.newEntry (partParams op.params .gpt) random slot).identity ↔
        Reversible disk op.params (.gpt t)) := by
  have typed : (t.withLastUsable.newEntry (partParams op.params .gpt) random slot).typeGuid =
      (partParams op.params .gpt).typeGuid := by
    simp only [GptPartitionTable.newEntry,partParams_typed,Bool.false_eq_true,if_false]
  cases search : t.entries.find? (fun e =>
      e.startLba == op.params.startLba && e.sectorCount == op.params.sectorCount) with
  | none =>
    refine ⟨_,by rw [entries]; exact List.mem_append_right _ List.mem_cons_self,?_,?_⟩
    · simp only [indexCreated,PartitionTable.partitions,entries,List.find?_append,search,Option.none_or,
        List.find?_cons,GptPartitionTable.newEntry,partParams,beq_self_eq_true,Bool.and_true]
    · refine iff_of_true rfl (fun old found => ?_)
      rw [search] at found
      cases found
  | some old =>
    have member := List.mem_of_find?_eq_some search
    have same := List.find?_some search
    simp only [Bool.and_eq_true,beq_iff_eq] at same
    obtain ⟨type,_,kind,logical⟩ := blank old member
    refine ⟨old,by rw [entries]; exact List.mem_append_left _ member,?_,?_⟩
    · simp only [indexCreated,PartitionTable.partitions,entries,List.find?_append,search,Option.some_or]
    · have one : old.identity = (op.params.startLba,op.params.sectorCount,0,old.typeGuid,false,false) := by
        simp only [PartitionEntry.identity,type,kind,logical,same.1,same.2]
      have other : (t.withLastUsable.newEntry (partParams op.params .gpt) random slot).identity =
          (op.params.startLba,op.params.sectorCount,0,(partParams op.params .gpt).typeGuid,false,false) := by
        rw [← typed]
        rfl
      rw [one,other,Reversible]
      constructor
      · intro equal e found
        rw [search] at found
        cases found
        exact (Prod.mk.inj (Prod.mk.inj (Prod.mk.inj (Prod.mk.inj equal).2).2).2).1
      · intro reversible
        rw [reversible old search]

theorem undo_mbr_iff (full : os.ReadsInFull) (full' : os'.ReadsInFull) {t : MbrPartitionTable}
    {op' op'' : CreatePartitionOp} {random : Bytes 16} {format : Disk → Mutation Disk}
    (plain : op.params.formatAfter = false)
    (parsed : OperationUtils.readPartitionTable fuel os disk op.params.sectorSize = some (.ok (.mbr t)))
    (executed : op.execute fuel os random format disk = some (.ok (),op',disk'))
    (reverted : op'.undo fuel' os' disk' = some (.ok (),op'',disk'')) :
    ReadsSame PartitionEntry.identity disk'' op.params.sectorSize (.mbr t) ↔ Reversible disk op.params (.mbr t) := by
  obtain ⟨before,after,replaced,rfl⟩ := execute_ok plain executed
  obtain ⟨table,table',undone⟩ := undo_ok reverted
  have same := replaced.read
  rw [parsed] at same
  cases same
  have read := readPartitionTable_full full parsed
  have again := readPartitionTable_full full' undone.read
  obtain ⟨accepted,rfl⟩ : t.addChecks (partParams op.params .mbr) = .ok () ∧
      after = .mbr { t with entries := t.entries ++ [t.newEntry (partParams op.params .mbr)] } :=
    PartitionTable.add_mbr_ok replaced.changed
  have written := replaced.written
  have changed : table.deletePartition (op.indexCreated (.mbr { t with
    entries := t.entries ++ [t.newEntry (partParams op.params .mbr)] })) = (.ok (),table') := undone.changed
  obtain ⟨chain,held,alone⟩ := MbrAt.of_read read
  obtain ⟨fits,few⟩ := MbrPartitionTable.slottable_newEntry held.tame accepted
  obtain ⟨rewritable,primaries,logicals⟩ := held.rewritable.appended fits few
  have laid := Overwrote.of_write rewritable held.long held.moderate written
  rw [indexCreated_mbr held.tame accepted] at changed
  have plain (none : t.logicals = []) := laid.protects_plain (logicals.trans none) rewritable.addressable
  rw [primaries] at plain
  obtain ⟨chain',v,reread,⟨rfl,apart⟩ | ⟨g,rfl,both,parsed⟩⟩ := laid.read_again again
  · rw [primaries] at apart
    obtain ⟨pos,target,found,at_pos,rfl⟩ := PartitionTable.delete_mbr_ok changed
    have position : pos = t.entries.length := by
      have number := (laid.numbered reread).position found
      omega
    subst position
    have over' := Overwrote.of_write (reread.rewritable.deleted _ target) reread.long reread.moderate undone.written
    by_cases none : t.logicals = []
    · rw [plain none] at apart
      exact iff_of_true (MbrPartitionTable.created_undone held alone none fits few laid reread at_pos over')
        ⟨none,apart⟩
    · exact iff_of_false (MbrPartitionTable.created_stays held none fits few laid reread at_pos over')
        (fun reversible => none reversible.1)
  · rw [primaries] at both
    obtain ⟨pos,found,rfl⟩ := PartitionTable.delete_gpt_ok changed
    have nonempty : g.entries ≠ [] := by
      obtain ⟨bound,_⟩ := findIndex_some found
      exact List.ne_nil_of_length_pos (by omega)
    have over' := GptPartitionTable.Overwrote.of_write
      ((GptPartitionTable.anchored_of_parse reread.toLegible parsed).kept (.deleted _ pos found))
      ((GptPartitionTable.recordable_of_parse reread.toLegible parsed nonempty).deleted pos)
      reread.long reread.moderate undone.written
    refine iff_of_false (over'.other t) ?_
    rintro ⟨none,apart⟩
    exact apart ((plain none).mp both)

theorem undo_gpt_iff (full : os.ReadsInFull) (full' : os'.ReadsInFull) {t : GptPartitionTable}
    {op' op'' : CreatePartitionOp} {random : Bytes 16} {format : Disk → Mutation Disk}
    (plain : op.params.formatAfter = false)
    (found : OperationUtils.readPartitionTable fuel os disk op.params.sectorSize = some (.ok (.gpt t)))
    (executed : op.execute fuel os random format disk = some (.ok (),op',disk'))
    (within : (((PartitionTable.gpt t).addPartition (partParams op.params .gpt) random).2).InBuffers)
    (reverted : op'.undo fuel' os' disk' = some (.ok (),op'',disk'')) :
    ReadsSame PartitionEntry.identity disk'' op.params.sectorSize (.gpt t) ↔ Reversible disk op.params (.gpt t) := by
  obtain ⟨before,after,replaced,rfl⟩ := execute_ok plain executed
  obtain ⟨table,table',undone⟩ := undo_ok reverted
  have same := replaced.read
  rw [found] at same
  cases same
  have read := readPartitionTable_full full found
  have again := readPartitionTable_full full' undone.read
  have changed : (PartitionTable.gpt t).addPartition (partParams op.params .gpt) random = (.ok (),after) := replaced.changed
  rw [changed] at within
  have written := replaced.written
  obtain ⟨legible,parsed⟩ := GptPartitionTable.of_read read
  obtain ⟨slot,positive,accepted,free,same⟩ := PartitionTable.add_gpt_ok changed
  rw [GptPartitionTable.withLastUsable_entries] at same
  rw [GptPartitionTable.withLastUsable_freeSlot] at free
  have effect := GptPartitionTable.Effect.added (partParams op.params .gpt) random slot positive accepted free
  generalize new : t.withLastUsable.newEntry (partParams op.params .gpt) random slot = created at same effect
  generalize added : ({ t.withLastUsable with entries := t.entries ++ [created] } : GptPartitionTable) = t' at same effect
  have entries : t'.entries = t.entries ++ [created] := by rw [← added]
  subst same
  have blank := GptPartitionTable.blank_of_parse parsed
  have blank' : ∀ e ∈ t'.entries, GptPartitionTable.Blank e := by
    rw [entries]
    intro e member
    rcases List.mem_append.mp member with old | last
    · exact blank e old
    · rw [List.mem_singleton.mp last,← new]
      exact ⟨rfl,rfl,rfl,rfl⟩
  have anchored := GptPartitionTable.anchored_of_parse legible parsed
  have ready := GptPartitionTable.Recordable.of_added anchored (GptPartitionTable.parse_shape parsed).1
    (GptPartitionTable.typed_of_parse parsed) effect within
  have laid := GptPartitionTable.Overwrote.of_write (anchored.kept effect) ready legible.long legible.moderate written
  obtain ⟨g,always,_,reparsed,_,_,perm,_⟩ := laid.reread
  have table_eq := always fuel' table again
  subst table_eq
  obtain ⟨pos,found,rfl⟩ := PartitionTable.delete_gpt_ok undone.changed
  obtain ⟨bound,number⟩ := findIndex_some found
  have over' := GptPartitionTable.Overwrote.of_write
    ((GptPartitionTable.anchored_of_parse laid.legible reparsed).kept (.deleted _ pos found))
    ((GptPartitionTable.recordable_of_parse laid.legible reparsed (List.ne_nil_of_length_pos (by omega))).deleted pos)
    laid.long laid.moderate undone.written
  have remembered := @indexCreated_gpt op disk t t' blank random slot (by rw [new]; exact entries)
  rw [new] at remembered
  obtain ⟨target,among,index,matched⟩ := remembered
  -- What undo deletes is the record of the entry that the range led to.
  have victim : g.entries[pos].identity = target.identity := by
    obtain ⟨pe,member,same⟩ := List.mem_map.mp (perm.mem_iff.mp (List.getElem_mem bound))
    have slots := ready.slotted
    have slot := (ready.toArrayed.slot member).2
    have numbers : pe.index = target.index := by
      rw [← same,index] at number
      exact slot.symm.trans number
    rw [← same,List.inj_on_of_nodup_map slots.distinct member among numbers]
    exact GptPartitionTable.identity_recorded (blank' target among) _ _
  have split := (List.getElem_cons_eraseIdx_perm bound).map PartitionEntry.identity
  have whole : (g.entries.map PartitionEntry.identity).Perm
      (created.identity :: t.entries.map PartitionEntry.identity) := by
    have listed : (g.entries.map PartitionEntry.identity).Perm (t'.entries.map PartitionEntry.identity) := by
      have mapped := perm.map PartitionEntry.identity
      rw [List.map_map] at mapped
      rw [← GptPartitionTable.map_identity blank' op.params.sectorSize]
      exact mapped
    rw [entries,List.map_append,List.map_singleton] at listed
    exact listed.trans (List.perm_append_singleton _ _)
  rw [over'.readsSame_iff,GptPartitionTable.map_identity (fun e member =>
    GptPartitionTable.blank_of_parse reparsed e ((List.eraseIdx_sublist _ _).subset member)),← matched,← victim]
  exact perm_tail_iff (split.trans whole)

/-- When everything works, a creation and its undo succeed on an MBR whose chain the
written table leaves alone. -/
theorem create_undo_runs {chain : List Ebr} {t : MbrPartitionTable} {sectorSize : UInt32}
    (held : MbrAt disk sectorSize chain t) (noGpt : ¬ GptBehind disk sectorSize)
    (room : 2 ^ 18 + sectorSize.toNat ≤ disk.totalBytes.toNat) (plain : op.params.formatAfter = false)
    (size : op.params.sectorSize = sectorSize) (accepted : t.addChecks (partParams op.params .mbr) = .ok ())
    (ordinary : MbrTypes.isExtendedType op.params.mbrType = false)
    (reach : OutOfReach sectorSize (512 + t.logicals.length * 512 + sectorSize.toNat) (containerOf t.primaries))
    (random : Bytes 16) (format : Disk → Mutation Disk) :
    ∃ op' op'' disk' disk'', op.execute (chain.length + 1) .working random format disk = some (.ok (),op',disk') ∧
      op'.undo (chain.length + 1) .working disk' = some (.ok (),op'',disk'') := by
  subst size
  obtain ⟨fits,few⟩ := MbrPartitionTable.slottable_newEntry held.tame accepted
  obtain ⟨rewritable,primaries,logicals⟩ := held.rewritable.appended fits few
  have index := indexCreated_mbr held.tame accepted
  have extended : (t.newEntry (partParams op.params .mbr)).isExtended = false := ordinary
  have read := held.read (fun _ => noGpt)
  have changed : (PartitionTable.mbr t).addPartition (partParams op.params (PartitionTable.mbr t).type) random =
      (.ok (),.mbr { t with entries := t.entries ++ [t.newEntry (partParams op.params .mbr)] }) := by
    simp only [PartitionTable.addPartition,PartitionTable.type,MbrPartitionTable.addPartition,accepted]
    rfl
  generalize t.newEntry (partParams op.params .mbr) = e at *
  generalize added : ({ t with entries := t.entries ++ [e] } : MbrPartitionTable) = t' at *
  obtain ⟨written,laid⟩ := Overwrote.of_room rewritable held.long held.moderate room
  generalize disk.patched 0 (t'.buffer op.params.sectorSize) = middle at written laid
  have place : containerOf t'.primaries = containerOf t.primaries := by
    rw [primaries,containerOf,List.find?_append,List.find?_singleton,extended]
    simp [containerOf]
  have near : OutOfReach op.params.sectorSize (t'.buffer op.params.sectorSize).length (containerOf t'.primaries) := by
    have length := MbrPartitionTable.length_buffer_le t' held.positive rewritable.short
    rw [logicals] at length
    rw [place]
    exact fun start count same => (reach start count same).imp_right (length.trans ·)
  have chained := (laid.chain_iff rewritable.addressable near).mpr (by rw [place]; exact held.chainOf)
  obtain ⟨v,again,reread⟩ := laid.reads chained (fun both => noGpt (laid.gptBehind both.1))
  have count : v.entries.length = t.entries.length + 1 := by
    have listed := (laid.reread again).2.1
    have length := (laid.primary_at again).1
    rw [again.split,held.split,List.length_append,List.length_append,listed,held.primaries_logicals.2,
      length_chainLogicals,length_chainLogicals,length,primaries,List.length_append,List.length_singleton]
    omega
  have bound : t.entries.length < v.entries.length := by omega
  have found := (laid.numbered again).found bound
  have target : v.entries[t.entries.length]? = some v.entries[t.entries.length] := List.getElem?_eq_getElem bound
  have deleted : (PartitionTable.mbr v).deletePartition (t.entries.length : Int) = (.ok (),.mbr { v with
      entries := MbrPartitionTable.reindex (MbrPartitionTable.withoutEntry v.entries t.entries.length
        v.entries[t.entries.length]) }) := by
    simp only [PartitionTable.deletePartition,MbrPartitionTable.deletePartition,found,target,Option.getD_some]
    rfl
  rw [← laid.size] at room
  have written' := (Overwrote.of_room (again.rewritable.deleted t.entries.length v.entries[t.entries.length])
    held.long held.moderate room).1
  generalize MbrPartitionTable.buffer _ op.params.sectorSize = block at written'
  have named : ¬ (t.entries.length : Int) < 0 := by omega
  refine ⟨{ op with createdIndex := t.entries.length },{ op with createdIndex := -1 },middle,middle.patched 0 block,?_,?_⟩
  · simp only [execute,read,changed,written,plain,index]
    rfl
  · simp only [undo,named,if_false,reread,deleted,written']

/-- Undo takes out the created partition and no other exactly when an MBR has no logical
partitions and the added entry did not turn it into a GPT's, and when the first entry of
a GPT with the range of the new one, if there is any, has its type. -/
theorem create_undo_iff (full : os.ReadsInFull) (full' : os'.ReadsInFull)
    {op' op'' : CreatePartitionOp} {random : Bytes 16} {format : Disk → Mutation Disk} {table : PartitionTable}
    (plain : op.params.formatAfter = false)
    (read : OperationUtils.readPartitionTable fuel os disk op.params.sectorSize = some (.ok table))
    (executed : op.execute fuel os random format disk = some (.ok (),op',disk'))
    (within : (table.addPartition (partParams op.params table.type) random).2.InBuffers)
    (undone : op'.undo fuel' os' disk' = some (.ok (),op'',disk'')) :
    ReadsSame PartitionEntry.identity disk'' op.params.sectorSize table ↔ Reversible disk op.params table := by
  cases table with
  | mbr t => exact undo_mbr_iff full full' plain read executed undone
  | gpt t => exact undo_gpt_iff full full' plain read executed within undone
  | apm t =>
    obtain ⟨before,after,replaced,_⟩ := execute_ok plain executed
    have same := replaced.read
    rw [read] at same
    cases same
    have changed := replaced.changed
    simp [PartitionTable.addPartition] at changed

section Sample
open MbrPartitionTable

def createFar : CreatePartitionOp := { params := { startLba := 1000,sectorCount := 100 } }

def asIs : Disk → Mutation Disk := fun disk => (.ok (),disk)

theorem addChecks_congr {t t' : MbrPartitionTable} (size : t.diskSizeBytes = t'.diskSizeBytes)
    (sector : t.sectorSize = t'.sectorSize) (entries : t.entries = t'.entries) (params : PartitionParams) :
    t.addChecks params = t'.addChecks params := by
  cases t
  cases t'
  simp only at size sector entries
  subst size sector entries
  rfl

/-- The partition that was created stays, and the logical one is gone. -/
theorem undo_takes_logical : ∃ table op' op'' disk' disk'',
    OperationUtils.readPartitionTable 2 .working farDisk 512 = some (.ok table) ∧
      createFar.execute 2 .working (.zero 16) asIs farDisk = some (.ok (),op',disk') ∧
      op'.undo 2 .working disk' = some (.ok (),op'',disk'') ∧
      ¬ ReadsSame PartitionEntry.identity disk'' 512 table := by
  obtain ⟨noGpt,t,held,entries⟩ := farDisk_held
  obtain ⟨size,sector⟩ := held.geometry
  have accepted : t.addChecks (partParams createFar.params .mbr) = .ok () := by
    rw [@addChecks_congr t (tableOf [rewritten 512 0 farContainer,ebrRewritten 512 8 1 farLogical]) size sector entries]
    decide
  have logicals : t.logicals = [ebrRewritten 512 8 1 farLogical] := by
    rw [MbrPartitionTable.logicals,entries]
    rfl
  have reach : OutOfReach 512 (512 + t.logicals.length * 512 + (512 : UInt32).toNat) (containerOf t.primaries) := by
    rw [logicals,primaries,entries]
    rintro start count same
    cases same
    exact .inr (by decide)
  have room := room_of_size farDisk_size
  have plain : createFar.params.formatAfter = false := rfl
  have sectors : createFar.params.sectorSize = 512 := rfl
  obtain ⟨op',op'',disk',disk'',executed,undone⟩ := create_undo_runs held noGpt room plain sectors accepted rfl reach
    (.zero 16) asIs
  have read := held.read (fun _ => noGpt)
  refine ⟨.mbr t,op',op'',disk',disk'',read,executed,undone,?_⟩
  have law := undo_mbr_iff Win32.working_readsInFull Win32.working_readsInFull plain read executed undone
  refine (not_congr law).mpr (fun reversible => ?_)
  have none := reversible.1
  rw [logicals] at none
  cases none

def emptyDisk : Disk := bearing blankDisk []

/-- On a disk without partitions the created one is taken out again. -/
theorem create_undo_sample : ∃ table op' op'' disk' disk'',
    OperationUtils.readPartitionTable 1 .working emptyDisk 512 = some (.ok table) ∧
      createFar.execute 1 .working (.zero 16) asIs emptyDisk = some (.ok (),op',disk') ∧
      op'.undo 1 .working disk' = some (.ok (),op'',disk'') ∧
      ReadsSame PartitionEntry.identity disk'' 512 table := by
  have rewritable : Rewritable (tableOf []) := ⟨fun e member => absurd member (by simp [tableOf,primaries]),
    by decide,by decide,by decide⟩
  obtain ⟨noGpt,t,held,entries⟩ := held_bearing rewritable rfl (rfl : blankDisk.totalBytes = 1048576) rfl .absent
  obtain ⟨size,sector⟩ := held.geometry
  replace entries : t.entries = [] := entries
  have accepted : t.addChecks (partParams createFar.params .mbr) = .ok () := by
    rw [@addChecks_congr t (tableOf []) size sector entries]
    decide
  have plain : createFar.params.formatAfter = false := rfl
  have sectors : createFar.params.sectorSize = 512 := rfl
  have room := room_of_size (bearing_size [] (rfl : blankDisk.totalBytes = 1048576))
  have reach : OutOfReach 512 (512 + t.logicals.length * 512 + (512 : UInt32).toNat) (containerOf t.primaries) := by
    rw [primaries,entries]
    rintro start count same
    cases same
  obtain ⟨op',op'',disk',disk'',executed,undone⟩ := create_undo_runs held noGpt room plain sectors accepted rfl reach
    (.zero 16) asIs
  have read := held.read (fun _ => noGpt)
  refine ⟨.mbr t,op',op'',disk',disk'',read,executed,undone,?_⟩
  have law := create_undo_iff Win32.working_readsInFull Win32.working_readsInFull plain read executed trivial undone
  exact law.mpr ⟨by rw [logicals,entries]; rfl,fun both => noGpt both.1⟩

end Sample
end CreatePartitionOp
end SetecWizard.Core
