import SetecWizard.Operations.ResizeUndo

/-! Setting the active flag and undoing it. Setting a flag clears those of all other
primaries, and undo knows the flag of one entry only.
-/
namespace SetecWizard.Core
open SetecWizard.Library MbrPartitionTable

namespace MbrPartitionTable

def flagged (target : Option Nat) (entries : List PartitionEntry) : List PartitionEntry :=
  entries.mapIdx (fun i e => if e.isLogical then e else { e with isActive := decide (target = some i) })

variable {t t' : MbrPartitionTable}

def FlagPlace (t : MbrPartitionTable) (index : Int) : Option Nat → Prop
  | none => index < 0
  | some pos => 0 ≤ index ∧ ∃ e, t.entries[pos]? = some e ∧ e.index = index ∧ e.isLogical = false

theorem flagged_none (entries : List PartitionEntry) :
    entries.map (fun e => if e.isLogical then e else { e with isActive := false }) = flagged none entries := by
  apply List.ext_getElem?
  intro i
  rw [List.getElem?_map,flagged,List.getElem?_mapIdx]
  simp

theorem flagged_some {entries : List PartitionEntry} {pos : Nat} {e : PartitionEntry} (at_pos : entries[pos]? = some e)
    (primary : e.isLogical = false) :
    (entries.map (fun e => if e.isLogical then e else { e with isActive := false })).modify pos
      (fun e => { e with isActive := true }) = flagged (some pos) entries := by
  apply List.ext_getElem?
  intro i
  rw [List.getElem?_modify,List.getElem?_map,flagged,List.getElem?_mapIdx]
  by_cases same : pos = i
  · rw [← same,at_pos]
    simp [primary]
  · cases entries[i]? <;> simp [same]

theorem setActivePartition_ok {index : Int} (done : t.setActivePartition index = (.ok (),t')) :
    ∃ target, t.FlagPlace index target ∧ t' = { t with entries := flagged target t.entries } := by
  unfold setActivePartition at done
  simp only at done
  split at done
  next below =>
    rw [flagged_none] at done
    exact ⟨none,below,(Prod.mk.inj done).2.symm⟩
  next above =>
    split at done
    next => simp at done
    next pos found =>
      obtain ⟨bound,matched,_⟩ := List.findIdx?_eq_some_iff_getElem.mp found
      rw [List.length_map] at bound
      rw [List.getElem_map,Bool.and_eq_true,beq_iff_eq,Bool.not_eq_true'] at matched
      have at_pos : t.entries[pos]? = some t.entries[pos] := List.getElem?_eq_getElem bound
      generalize t.entries[pos] = e at at_pos matched
      have primary : e.isLogical = false := by
        cases kind : e.isLogical with
        | false => rfl
        | true => simp [kind] at matched
      simp only [primary,Bool.false_eq_true,if_false] at matched
      rw [flagged_some at_pos primary] at done
      exact ⟨some pos,⟨Int.not_lt.mp above,e,at_pos,matched.1,primary⟩,(Prod.mk.inj done).2.symm⟩

/-- Flags leave everything but flags. -/
theorem map_flagged {β : Type} {view : PartitionEntry → β} (blind : ∀ (e : PartitionEntry) (active : Bool),
    view { e with isActive := active } = view e) (target : Option Nat) (entries : List PartitionEntry) :
    (flagged target entries).map view = entries.map view := by
  apply List.ext_getElem?
  intro i
  rw [List.getElem?_map,flagged,List.getElem?_mapIdx,List.getElem?_map]
  cases entries[i]? with
  | none => rfl
  | some e =>
    simp only [Option.map_some]
    split
    · rfl
    · rw [blind]

theorem mem_flagged {target : Option Nat} {entries : List PartitionEntry} {e : PartitionEntry}
    (member : e ∈ flagged target entries) : ∃ old ∈ entries, ∃ active, e = { old with isActive := active } := by
  obtain ⟨i,bound,rfl⟩ := List.mem_mapIdx.mp member
  refine ⟨entries[i],List.getElem_mem bound,?_⟩
  by_cases logical : entries[i].isLogical = true
  · exact ⟨entries[i].isActive,by rw [if_pos logical]⟩
  · exact ⟨_,if_neg logical⟩

theorem flagged_append {target : Option Nat} {first second : List PartitionEntry}
    (logical : ∀ e ∈ second, e.isLogical = true) : flagged target (first ++ second) = flagged target first ++ second := by
  have kept : second.mapIdx (fun i e => if e.isLogical then e else
      { e with isActive := decide (target = some (i + first.length)) }) = second := by
    apply List.ext_getElem?
    intro i
    rw [List.getElem?_mapIdx]
    cases at_i : second[i]? with
    | none => rfl
    | some e => simp [logical e (List.mem_of_getElem? at_i)]
  rw [flagged,List.mapIdx_append,kept]
  rfl

theorem parts_flagged (split : t.entries = t.primaries ++ t.logicals) (target : Option Nat) :
    primaries { t with entries := flagged target t.entries } = flagged target t.primaries ∧
      logicals { t with entries := flagged target t.entries } = t.logicals := by
  have logical : ∀ e ∈ t.logicals, e.isLogical = true := fun e member => (List.mem_filter.mp member).2
  have primary : ∀ e ∈ flagged target t.primaries, e.isLogical = false := by
    intro e member
    obtain ⟨old,among,active,rfl⟩ := mem_flagged member
    simpa using (List.mem_filter.mp among).2
  rw [primaries,logicals,split,flagged_append logical,List.filter_append,List.filter_append]
  constructor
  · rw [List.filter_eq_self.mpr (fun e member => by simp [primary e member]),
      List.filter_eq_nil_iff.mpr (fun e member => by simp [logical e member]),List.append_nil]
  · rw [List.filter_eq_nil_iff.mpr (fun e member => by simp [primary e member]),
      List.filter_eq_self.mpr (fun e member => by simp [logical e member]),List.nil_append]

theorem Rewritable.flagged (rewritable : Rewritable t) (split : t.entries = t.primaries ++ t.logicals)
    (target : Option Nat) : Rewritable { t with entries := MbrPartitionTable.flagged target t.entries } := by
  refine rewritable.of_kinds (map_flagged (fun _ _ => rfl) target t.entries) ?_ rfl
  rw [(parts_flagged split target).1]
  intro e member
  obtain ⟨old,among,active,rfl⟩ := mem_flagged member
  have fits := rewritable.slots old among
  exact ⟨fits.primary,fits.kind,fits.low,fits.short,fits.occupies⟩

theorem getElem?_flagged {target : Option Nat} {entries : List PartitionEntry} {i : Nat} {e : PartitionEntry}
    (at_i : entries[i]? = some e) (primary : e.isLogical = false) :
    (flagged target entries)[i]? = some { e with isActive := decide (target = some i) } := by
  rw [flagged,List.getElem?_mapIdx,at_i]
  simp [primary]

/-- Flags apart, what a table and another one have in common. -/
structure Reflagged (t u : MbrPartitionTable) : Prop where
  anchors : u.primaries.map PartitionEntry.anchor = t.primaries.map PartitionEntry.anchor
  logicals : u.logicals.map PartitionEntry.shown = t.logicals.map PartitionEntry.shown

theorem reflagged_flagged (split : t.entries = t.primaries ++ t.logicals) (target : Option Nat) :
    Reflagged t { t with entries := MbrPartitionTable.flagged target t.entries } := by
  obtain ⟨primary,logical⟩ := parts_flagged split target
  refine ⟨?_,by rw [logical]⟩
  rw [primary]
  exact map_flagged (fun _ _ => rfl) target t.primaries

theorem Reflagged.images {u : MbrPartitionTable} (same : Reflagged t u) : u.ebrImages = t.ebrImages :=
  ebrImages_of_parts (containerOf_anchor same.anchors) same.logicals

theorem parts_chained (t : MbrPartitionTable) (sectorSize : UInt32) (first : Nat) (chain : List Ebr) :
    primaries { t with entries := t.primaries ++ chainLogicals sectorSize first chain } = t.primaries ∧
      logicals { t with entries := t.primaries ++ chainLogicals sectorSize first chain } =
        chainLogicals sectorSize first chain := by
  have primary : ∀ e ∈ t.primaries, e.isLogical = false := fun e member => by
    simpa using (List.mem_filter.mp member).2
  have logical : ∀ e ∈ chainLogicals sectorSize first chain, e.isLogical = true := by
    intro e member
    obtain ⟨ebr,_,i,rfl⟩ := mem_chainLogicals member
    rfl
  constructor
  · have kept : (t.primaries ++ chainLogicals sectorSize first chain).filter (fun e => !e.isLogical) = t.primaries := by
      rw [List.filter_append,List.filter_eq_self.mpr (fun e member => by simp [primary e member]),
        List.filter_eq_nil_iff.mpr (fun e member => by simp [logical e member]),List.append_nil]
    exact kept
  · have kept : (t.primaries ++ chainLogicals sectorSize first chain).filter (fun e => e.isLogical) =
        chainLogicals sectorSize first chain := by
      rw [List.filter_append,List.filter_eq_nil_iff.mpr (fun e member => by simp [primary e member]),
        List.filter_eq_self.mpr (fun e member => by simp [logical e member]),List.nil_append]
    exact kept

theorem primary_primaries (t : MbrPartitionTable) : ∀ e ∈ t.primaries, e.isLogical = false := fun e member => by
  simpa using (List.mem_filter.mp member).2

theorem shown_of_standing {first second : List PartitionEntry}
    (standing : first.map PartitionEntry.standing = second.map PartitionEntry.standing)
    (anchors : first.map PartitionEntry.anchor = second.map PartitionEntry.anchor)
    (primary : ∀ e ∈ first, e.isLogical = false) (primary' : ∀ e ∈ second, e.isLogical = false) :
    first.map PartitionEntry.shown = second.map PartitionEntry.shown := by
  apply List.ext_getElem?
  intro i
  have one := congrArg (fun entries => entries[i]?) standing
  have two := congrArg (fun entries => entries[i]?) anchors
  simp only [List.getElem?_map] at one two ⊢
  cases at_i : first[i]? with
  | none =>
    rw [at_i,Option.map_none,eq_comm,Option.map_eq_none_iff] at one
    rw [one,Option.map_none]
  | some a =>
    rw [at_i,Option.map_some,eq_comm,Option.map_eq_some_iff] at one
    obtain ⟨b,at_i',same⟩ := one
    rw [at_i,at_i',Option.map_some,Option.map_some,Option.some.injEq] at two
    have kind := (primary a (List.mem_of_getElem? at_i)).trans (primary' b (List.mem_of_getElem? at_i')).symm
    simp only [PartitionEntry.standing,PartitionEntry.anchor,Prod.mk.injEq] at same two
    rw [at_i',Option.map_some,Option.map_some]
    simp only [PartitionEntry.shown,two.1,two.2.1,two.2.2.1,two.2.2.2,kind,same.2.2]

theorem flags_back_iff {first second : List PartitionEntry} (target : Option Nat)
    (anchors : first.map PartitionEntry.anchor = second.map PartitionEntry.anchor)
    (primary : ∀ e ∈ first, e.isLogical = false) (primary' : ∀ e ∈ second, e.isLogical = false) :
    (flagged target first).map PartitionEntry.shown = second.map PartitionEntry.shown ↔
      ∀ (pos : Nat) (e : PartitionEntry), second[pos]? = some e → e.isActive = decide (target = some pos) := by
  have entry {pos : Nat} {e : PartitionEntry} (at_pos : second[pos]? = some e) : ∃ old, first[pos]? = some old ∧
      old.isLogical = false ∧ old.anchor = e.anchor := by
    have same := congrArg (fun entries => entries[pos]?) anchors
    simp only [List.getElem?_map,at_pos,Option.map_some] at same
    obtain ⟨old,at_old,view⟩ := Option.map_eq_some_iff.mp same
    exact ⟨old,at_old,primary old (List.mem_of_getElem? at_old),view⟩
  constructor
  · intro same pos e at_pos
    obtain ⟨old,at_old,kind,_⟩ := entry at_pos
    have view := congrArg (fun entries => entries[pos]?) same
    simp only [List.getElem?_map,getElem?_flagged at_old kind,at_pos,Option.map_some,Option.some.injEq] at view
    simp only [PartitionEntry.shown,Prod.mk.injEq] at view
    exact view.2.2.2.1.symm
  · intro flags
    apply List.ext_getElem?
    intro i
    cases at_i : second[i]? with
    | none =>
      have length := congrArg List.length anchors
      rw [List.length_map,List.length_map] at length
      have beyond := List.getElem?_eq_none_iff.mp at_i
      rw [List.getElem?_map,List.getElem?_map,at_i,List.getElem?_eq_none (by rw [flagged,List.length_mapIdx]; omega)]
    | some e =>
      obtain ⟨old,at_old,kind,view⟩ := entry at_i
      rw [List.getElem?_map,List.getElem?_map,getElem?_flagged at_old kind,at_i,Option.map_some,Option.map_some]
      simp only [PartitionEntry.anchor,Prod.mk.injEq] at view
      have logical := primary' e (List.mem_of_getElem? at_i)
      simp only [PartitionEntry.shown,view.1,view.2.1,view.2.2.1,view.2.2.2,kind,logical,flags i e at_i]

end MbrPartitionTable

section Twice

variable {disk disk' disk'' : Disk} {sectorSize : UInt32} {t u v u' : MbrPartitionTable} {chain chain' : List Ebr}

theorem ChainAfter.reflagged (same : Reflagged t u) (long : 512 ≤ sectorSize.toNat)
    (moderate : sectorSize.toNat ≤ 2 ^ 31) (addressable : Addressable (containerOf t.primaries))
    (holds : List PartitionEntry → Prop) :
    ChainAfter disk sectorSize u id (containerOf t.primaries) holds ↔
      ChainAfter disk sectorSize t id (containerOf t.primaries) holds := by
  have place := containerOf_anchor same.anchors
  have one (first : List Ebr) : ChainOf (u.laidOver disk sectorSize) sectorSize (containerOf u.primaries) first ↔
      ChainOf (t.laidOver disk sectorSize) sectorSize (containerOf t.primaries) first := by
    rw [place]
    exact chain_laidOver long moderate same.images rfl (fun _ _ => rfl) addressable
  have two (first second : List Ebr) :
      ChainOf (laidOver { u with entries := id (u.primaries ++ chainLogicals sectorSize u.primaries.length first) }
          (u.laidOver disk sectorSize) sectorSize) sectorSize (containerOf t.primaries) second ↔
        ChainOf (laidOver { t with entries := id (t.primaries ++ chainLogicals sectorSize t.primaries.length first) }
          (t.laidOver disk sectorSize) sectorSize) sectorSize (containerOf t.primaries) second := by
    have size : (u.laidOver disk sectorSize).totalBytes = (t.laidOver disk sectorSize).totalBytes := by
      rw [laidOver,laidOver,Disk.patched_totalBytes,Disk.patched_totalBytes]
    have bytes : ∀ i, 512 ≤ i → (u.laidOver disk sectorSize).byte i = (t.laidOver disk sectorSize).byte i :=
      fun i beyond => laidOver_congr same.images (fun _ _ => rfl) beyond
    refine chain_laidOver long moderate ?_ size bytes addressable
    obtain ⟨primary,logical⟩ := parts_chained u sectorSize u.primaries.length first
    obtain ⟨primary',logical'⟩ := parts_chained t sectorSize t.primaries.length first
    refine ebrImages_of_parts ?_ ?_
    · rw [id,id,primary,primary',place]
    · rw [id,id,logical,logical']
      exact types_chainLogicals _ _ _ _
  simp only [ChainAfter,one,two]

/-- Two tables with other flags are written: whether the disk is read as before hangs on
the flags in the end, and on the chain. -/
theorem reflagged_iff (held : MbrAt disk sectorSize chain t) (alone : t.hasGptProtective = true →
      ¬ GptBehind disk sectorSize) (first : Reflagged t u) (laid : Overwrote disk sectorSize u disk')
    (again : MbrAt disk' sectorSize chain' v) (second : Reflagged v u') (over' : Overwrote disk' sectorSize u' disk'') :
    ReadsEqual PartitionEntry.standing disk'' sectorSize (.mbr t) ↔
      u'.primaries.map PartitionEntry.shown = t.primaries.map PartitionEntry.shown ∧
        ChainAfter disk sectorSize t id (containerOf t.primaries)
          (fun logicals => logicals.map PartitionEntry.standing = t.logicals.map PartitionEntry.standing) := by
  have addressable := held.rewritable.addressable
  have between : v.primaries.map PartitionEntry.anchor = u.primaries.map PartitionEntry.anchor :=
    map_determined (laid.reread_shown again) fun _ _ _ _ => PartitionEntry.anchor_of_shown
  have anchors : u'.primaries.map PartitionEntry.anchor = t.primaries.map PartitionEntry.anchor :=
    (second.anchors.trans between).trans first.anchors
  have apart : ¬ (GptBehind disk'' sectorSize ∧ Protects disk'' sectorSize t.primaries) :=
    over'.apart addressable (laid.apart addressable fun both => alone (held.protects_iff.mpr both.2) both.1)
  have images : u'.ebrImages = MbrPartitionTable.ebrImages { u with
      entries := id (u.primaries ++ chainLogicals sectorSize u.primaries.length chain') } :=
    second.images.trans (MbrPartitionTable.ebrImages_congr (laid.reread_entries again))
  have survives := @chainAfter_iff _ _ _ _ _ _ _ _ _ id
    (fun logicals => logicals.map PartitionEntry.standing = t.logicals.map PartitionEntry.standing)
    laid again over' addressable images
  rw [ChainAfter.reflagged first held.long held.moderate addressable] at survives
  have exactly (same : u'.primaries.map PartitionEntry.shown = t.primaries.map PartitionEntry.shown) :=
    (readsEqual_iff (fun _ _ => PartitionEntry.standing_of_shown) held over' same apart).trans survives
  constructor
  · intro equal
    obtain ⟨_,w,last,listed⟩ := equal.mbr
    have shown := over'.reread_shown last
    have lengths : w.primaries.length = t.primaries.length := by
      have one := congrArg List.length shown
      have two := congrArg List.length anchors
      simp only [List.length_map] at one two
      omega
    rw [last.split,held.split,List.map_append,List.map_append] at listed
    have standing := (List.append_inj listed (by rw [List.length_map,List.length_map,lengths])).1
    have same : u'.primaries.map PartitionEntry.shown = t.primaries.map PartitionEntry.shown := by
      have views : w.primaries.map PartitionEntry.standing = u'.primaries.map PartitionEntry.standing :=
        map_determined shown fun _ _ _ _ => PartitionEntry.standing_of_shown
      exact shown_of_standing (views.symm.trans standing) anchors u'.primary_primaries t.primary_primaries
    exact ⟨same,(exactly same).mp equal⟩
  · exact fun both => (exactly both.1).mpr both.2

end Twice

namespace SetFlagsOp

/-- What undo of a change of flags needs: of the primaries that one alone was flagged, if
any, whose index is given, and the chain survives both writes. A GPT is rewritten as it is. -/
def Reversible (disk : Disk) (params : Params) : PartitionTable → Prop
  | .mbr t =>
    (∀ saved, params.setActive.isSome = true → t.entries.find? (·.index == params.partitionIndex) = some saved →
      ∀ (pos : Nat) (e : PartitionEntry), t.primaries[pos]? = some e →
        (e.isActive = true ↔ saved.isActive = true ∧ params.partitionIndex = pos)) ∧
      ChainAfter disk params.sectorSize t id (containerOf t.primaries)
        (fun logicals => logicals.map PartitionEntry.standing = t.logicals.map PartitionEntry.standing)
  | .gpt _ => True
  | .apm _ => True

theorem changeFlags_mbr_ok {params : Params} {t : MbrPartitionTable} {table' : PartitionTable}
    (changed : changeFlags params (.mbr t) = (.ok (),table')) :
    ∃ u, table' = .mbr u ∧ ((params.setActive = none ∧ u = t) ∨ ∃ active target, params.setActive = some active ∧
      t.FlagPlace (if active then params.partitionIndex else -1) target ∧
      u = { t with entries := flagged target t.entries }) := by
  have mapped {index : Int} (done : (t.setActivePartition index).map id PartitionTable.mbr = (.ok (),table')) :
      ∃ target, t.FlagPlace index target ∧ table' = .mbr { t with entries := flagged target t.entries } := by
    cases set : t.setActivePartition index with
    | mk result u =>
      rw [set] at done
      obtain ⟨ok,same⟩ := Prod.mk.inj done
      obtain ⟨target,place,rfl⟩ := setActivePartition_ok (set.trans (congrArg (fun r => (r,u)) ok))
      exact ⟨target,place,same.symm⟩
  unfold changeFlags at changed
  simp only at changed
  split at changed
  next none => exact ⟨t,(Prod.mk.inj changed).2.symm,.inl ⟨none,rfl⟩⟩
  next on =>
    obtain ⟨target,place,same⟩ := mapped changed
    exact ⟨_,same,.inr ⟨true,target,on,place,rfl⟩⟩
  next off =>
    obtain ⟨target,place,same⟩ := mapped changed
    exact ⟨_,same,.inr ⟨false,target,off,place,rfl⟩⟩

theorem undone_place {v : MbrPartitionTable} (numbered : Numbered v.entries) {index : Int} {there saved : PartitionEntry}
    (present : saveEntry (.mbr v) index none = some there) {target : Option Nat}
    (place : v.FlagPlace (if saved.isActive then index else -1) target) (pos : Nat) :
    target = some pos ↔ saved.isActive = true ∧ index = pos := by
  cases active : saved.isActive with
  | false =>
    rw [active] at place
    cases target with
    | none => simp
    | some p =>
      obtain ⟨above,_⟩ := place
      rw [if_neg Bool.false_ne_true] at above
      exact absurd above (by decide)
  | true =>
    rw [active] at place
    cases target with
    | none =>
      have below : index < 0 := place
      rw [saveEntry,Option.or_none] at present
      obtain ⟨i,at_i⟩ := List.getElem?_of_mem (List.mem_of_find?_eq_some present)
      have number := numbered i there at_i
      have same := List.find?_some present
      rw [beq_iff_eq] at same
      omega
    | some p =>
      obtain ⟨_,e,at_p,named,_⟩ := place
      have number := numbered p e at_p
      have index_eq : index = (p : Int) := named.symm.trans number
      rw [index_eq]
      simp only [Option.some.injEq,true_and,Nat.cast_inj]

variable {fuel fuel' : Nat} {os os' : Win32} {params : Params} {op' : SetFlagsOp} {disk disk' disk'' : Disk}

theorem undo_mbr_iff (full : os.ReadsInFull) (full' : os'.ReadsInFull) {t : MbrPartitionTable}
    (parsed : OperationUtils.readPartitionTable fuel os disk params.sectorSize = some (.ok (.mbr t)))
    (executed : execute fuel os disk { params } = some (.ok (),op',disk'))
    (reverted : op'.undo fuel' os' disk' = some (.ok (),disk'')) :
    ReadsEqual PartitionEntry.standing disk'' params.sectorSize (.mbr t) ↔ Reversible disk params (.mbr t) := by
  obtain ⟨before,after,saved,replaced,entry,named⟩ := execute_ok executed
  obtain ⟨table,table',there,undone,present⟩ := undo_ok entry.kept reverted
  rw [named] at undone present
  have same := replaced.read
  rw [parsed] at same
  cases same
  obtain ⟨chain,held,alone⟩ := MbrAt.of_read (readPartitionTable_full full parsed)
  have lookup : t.entries.find? (·.index == params.partitionIndex) = some saved := by
    have found := entry.found
    rw [saveEntry,Option.or_none] at found
    exact found
  obtain ⟨u,rfl,change⟩ := changeFlags_mbr_ok replaced.changed
  obtain ⟨first,rewritable⟩ : Reflagged t u ∧ Rewritable u := by
    rcases change with ⟨_,rfl⟩ | ⟨active,target,_,_,rfl⟩
    · exact ⟨⟨rfl,rfl⟩,held.rewritable⟩
    · exact ⟨reflagged_flagged held.split target,held.rewritable.flagged held.split target⟩
  have laid := Overwrote.of_write rewritable held.long held.moderate replaced.written
  have addressable := held.rewritable.addressable
  obtain ⟨chain',v,reread,⟨rfl,apart⟩ | ⟨g,rfl,both,behind⟩⟩ :=
    laid.read_again (readPartitionTable_full full' undone.read)
  · obtain ⟨u',rfl,change'⟩ := changeFlags_mbr_ok undone.changed
    obtain ⟨second,rewritable'⟩ : Reflagged v u' ∧ Rewritable u' := by
      rcases change' with ⟨_,rfl⟩ | ⟨active,target,_,_,rfl⟩
      · exact ⟨⟨rfl,rfl⟩,reread.rewritable⟩
      · exact ⟨reflagged_flagged reread.split target,reread.rewritable.flagged reread.split target⟩
    have over' := Overwrote.of_write rewritable' reread.long reread.moderate undone.written
    rw [reflagged_iff held alone first laid reread second over',Reversible]
    refine and_congr_left' ?_
    rcases change' with ⟨kept,rfl⟩ | ⟨active,target,on,place,rfl⟩
    · have unset : params.setActive = none := Option.map_eq_none_iff.mp kept
      rcases change with ⟨_,rfl⟩ | ⟨active,_,on,_⟩
      · refine iff_of_true (laid.reread_shown reread) (fun _ on => ?_)
        rw [unset] at on
        cases on
      · rw [unset] at on
        cases on
    · obtain ⟨asked,on',rfl⟩ := Option.map_eq_some_iff.mp on
      have anchors : v.primaries.map PartitionEntry.anchor = t.primaries.map PartitionEntry.anchor :=
        (map_determined (laid.reread_shown reread) fun _ _ _ _ => PartitionEntry.anchor_of_shown).trans first.anchors
      have lands := undone_place (laid.numbered reread) present place
      rw [(parts_flagged reread.split target).1,
        flags_back_iff target anchors v.primary_primaries t.primary_primaries]
      constructor
      · intro flags other _ lookup' pos e at_pos
        rw [lookup] at lookup'
        cases lookup'
        rw [flags pos e at_pos,decide_eq_true_iff]
        exact lands pos
      · intro flags pos e at_pos
        have back := flags saved (by rw [on']; rfl) lookup pos e at_pos
        rw [Bool.eq_iff_iff,decide_eq_true_iff]
        exact back.trans (lands pos).symm
  · refine absurd ?_ (laid.apart addressable fun both => alone (held.protects_iff.mpr both.2) both.1)
    exact ⟨both.1,(protects_anchor first.anchors).mp both.2⟩

/-- A GPT is written as it was read, twice. -/
theorem undo_gpt (full : os.ReadsInFull) (full' : os'.ReadsInFull) {t : GptPartitionTable}
    (read : OperationUtils.readPartitionTable fuel os disk params.sectorSize = some (.ok (.gpt t)))
    (executed : execute fuel os disk { params } = some (.ok (),op',disk'))
    (reverted : op'.undo fuel' os' disk' = some (.ok (),disk'')) :
    ReadsEqual PartitionEntry.standing disk'' params.sectorSize (.gpt t) := by
  obtain ⟨before,after,saved,replaced,entry,named⟩ := execute_ok executed
  obtain ⟨table,table',there,undone,present⟩ := undo_ok entry.kept reverted
  rw [named] at undone present
  have same := replaced.read
  rw [read] at same
  cases same
  obtain ⟨legible,parsed⟩ := GptPartitionTable.of_read (readPartitionTable_full full read)
  have unchanged := replaced.changed
  cases unchanged
  have nonempty {g : GptPartitionTable} {index : Int} {found : PartitionEntry}
      (lookup : saveEntry (.gpt g) index none = some found) : g.entries ≠ [] := by
    rw [saveEntry,Option.or_none] at lookup
    exact List.ne_nil_of_mem (List.mem_of_find?_eq_some lookup)
  have laid := GptPartitionTable.Overwrote.of_write (GptPartitionTable.anchored_of_parse legible parsed)
    (GptPartitionTable.recordable_of_parse legible parsed (nonempty entry.found)) legible.long legible.moderate
    replaced.written
  obtain ⟨g,always,_,reparsed,_,_,_,listed⟩ := laid.reread
  replace listed := listed (GptPartitionTable.ascending_of_parse parsed)
  have table_eq := always fuel' table (readPartitionTable_full full' undone.read)
  subst table_eq
  have unchanged' := undone.changed
  cases unchanged'
  have over' := GptPartitionTable.Overwrote.of_write (GptPartitionTable.anchored_of_parse laid.legible reparsed)
    (GptPartitionTable.recordable_of_parse laid.legible reparsed (nonempty present)) laid.long laid.moderate
    undone.written
  refine over'.readsEqual (GptPartitionTable.ascending_of_parse reparsed) ?_
  rw [GptPartitionTable.map_standing (GptPartitionTable.blank_of_parse reparsed),listed,List.map_map]
  exact GptPartitionTable.map_standing (GptPartitionTable.blank_of_parse parsed) _

theorem undo_iff (full : os.ReadsInFull) (full' : os'.ReadsInFull) {table : PartitionTable}
    (read : OperationUtils.readPartitionTable fuel os disk params.sectorSize = some (.ok table))
    (executed : execute fuel os disk { params } = some (.ok (),op',disk'))
    (reverted : op'.undo fuel' os' disk' = some (.ok (),disk'')) :
    ReadsEqual PartitionEntry.standing disk'' params.sectorSize table ↔ Reversible disk params table := by
  cases table with
  | mbr t => exact undo_mbr_iff full full' read executed reverted
  | gpt t => exact iff_of_true (undo_gpt full full' read executed reverted) trivial
  | apm t =>
    obtain ⟨before,after,saved,replaced,_⟩ := execute_ok executed
    have same := replaced.read
    rw [read] at same
    cases same
    have unchanged := replaced.changed
    cases unchanged
    have written := replaced.written
    simp [OperationUtils.writePartitionTable,PartitionTable.serialize] at written

end SetFlagsOp

/-- On a disk that is read as some table, undo of a resize and undo of a change of flags
bring every partition back to where it was, flag included, exactly when they are
reversible there. -/
theorem undo_standing_iff {fuel fuel' : Nat} {os os' : Win32} (full : os.ReadsInFull) (full' : os'.ReadsInFull)
    {disk : Disk} {sectorSize : UInt32} {table : PartitionTable}
    (read : OperationUtils.readPartitionTable fuel os disk sectorSize = some (.ok table)) :
    (∀ (op op' : ResizePartitionOp) (disk' disk'' : Disk), op.params.sectorSize = sectorSize →
      op.execute fuel os disk = some (.ok (),op',disk') → op'.undo fuel' os' disk' = some (.ok (),disk'') →
      (ReadsEqual PartitionEntry.standing disk'' sectorSize table ↔ ResizePartitionOp.Reversible disk op.params table)) ∧
    (∀ (params : SetFlagsOp.Params) (op' : SetFlagsOp) (disk' disk'' : Disk), params.sectorSize = sectorSize →
      SetFlagsOp.execute fuel os disk { params } = some (.ok (),op',disk') →
      op'.undo fuel' os' disk' = some (.ok (),disk'') →
      (ReadsEqual PartitionEntry.standing disk'' sectorSize table ↔ SetFlagsOp.Reversible disk params table)) := by
  constructor
  · intro op op' disk' disk'' same executed reverted
    subst same
    exact ResizePartitionOp.undo_iff full full' read executed reverted
  · intro params op' disk' disk'' same executed reverted
    subst same
    exact SetFlagsOp.undo_iff full full' read executed reverted

section Sample

/-- An MBR without container, numbered by position, and room to write it. -/
structure PlainMbr (disk : Disk) (sectorSize : UInt32) (t : MbrPartitionTable) : Prop where
  held : MbrAt disk sectorSize [] t
  noGpt : ¬ GptBehind disk sectorSize
  room : 2 ^ 18 + sectorSize.toNat ≤ disk.totalBytes.toNat
  numbered : Numbered t.entries
  closed : ∀ e ∈ t.entries, e.isExtended = false

variable {disk : Disk} {sectorSize : UInt32} {t u : MbrPartitionTable}

theorem PlainMbr.read (plain : PlainMbr disk sectorSize t) :
    OperationUtils.readPartitionTable 1 .working disk sectorSize = some (.ok (.mbr t)) :=
  plain.held.read (fun _ => plain.noGpt)

theorem PlainMbr.primary (plain : PlainMbr disk sectorSize t) : ∀ e ∈ t.entries, e.isLogical = false := by
  have none : t.logicals = [] := plain.held.primaries_logicals.2
  intro e member
  rw [plain.held.split,none,List.append_nil] at member
  exact t.primary_primaries e member

theorem PlainMbr.write (plain : PlainMbr disk sectorSize t) (rewritable : Rewritable u)
    (primary : ∀ e ∈ u.entries, e.isLogical = false) (closed : ∀ e ∈ u.entries, e.isExtended = false) :
    ∃ disk' v, OperationUtils.writePartitionTable .working disk sectorSize (.mbr u) = (.ok (),disk') ∧
      PlainMbr disk' sectorSize v ∧ disk'.totalBytes = disk.totalBytes ∧
      v.entries = u.entries.mapIdx (rewritten sectorSize) := by
  have primaries : u.primaries = u.entries := List.filter_eq_self.mpr (fun e member => by simp [primary e member])
  have none : containerOf u.primaries = none := by
    rw [primaries,containerOf,List.find?_eq_none.mpr (fun e member => by simp [closed e member])]
    rfl
  obtain ⟨written,laid⟩ := Overwrote.of_room rewritable plain.held.long plain.held.moderate plain.room
  obtain ⟨v,held⟩ := laid.mbrAt (by rw [none]; exact .absent)
  have entries : v.entries = u.entries.mapIdx (rewritten sectorSize) := by
    obtain ⟨first,second,_⟩ := laid.reread held
    rw [held.split,first,second,primaries]
    exact List.append_nil _
  refine ⟨_,v,written,⟨held,fun found => plain.noGpt (laid.gptBehind found),?_,laid.numbered held,?_⟩,laid.size,entries⟩
  · rw [laid.size]
    exact plain.room
  · intro e member
    rw [entries] at member
    obtain ⟨i,bound,rfl⟩ := List.mem_mapIdx.mp member
    have slots : ∀ e ∈ u.entries, Slottable e := by
      rw [← primaries]
      exact rewritable.slots
    have among := List.getElem_mem bound
    exact (slots _ among).kind.symm.trans (closed _ among)

theorem setActivePartition_clears (t : MbrPartitionTable) :
    t.setActivePartition (-1) = (.ok (),{ t with entries := flagged none t.entries }) := by
  rw [setActivePartition,if_pos (by decide),flagged_none]

theorem PlainMbr.setActivePartition (plain : PlainMbr disk sectorSize t) {pos : Nat} (bound : pos < t.entries.length) :
    t.setActivePartition (pos : Int) = (.ok (),{ t with entries := flagged (some pos) t.entries }) := by
  have at_pos := List.getElem?_eq_getElem bound
  have primary := plain.primary _ (List.getElem_mem bound)
  have found : (t.entries.map (fun e => if e.isLogical then e else { e with isActive := false })).findIdx?
      (fun e => e.index == (pos : Int) && !e.isLogical) = some pos := by
    refine List.findIdx?_eq_some_iff_getElem.mpr ⟨by rwa [List.length_map],?_,fun j before => ?_⟩
    · have number := plain.numbered pos _ at_pos
      simp [primary,number]
    · have bound' : j < t.entries.length := Nat.lt_trans before bound
      have number := plain.numbered j _ (List.getElem?_eq_getElem bound')
      have kind := plain.primary _ (List.getElem_mem bound')
      simp [kind,number]
      omega
  rw [MbrPartitionTable.setActivePartition,if_neg (by omega)]
  simp only [found,flagged_some at_pos primary]

theorem PlainMbr.saves (plain : PlainMbr disk sectorSize t) {pos : Nat} (bound : pos < t.entries.length) :
    saveEntry (.mbr t) (pos : Int) none = t.entries[pos]? := @saveEntry_found (.mbr t) _ _ (plain.numbered.found bound) none

theorem PlainMbr.setFlags (plain : PlainMbr disk sectorSize t) {params : SetFlagsOp.Params} {pos : Nat}
    (bound : pos < t.entries.length) (named : params.partitionIndex = pos) (size : params.sectorSize = sectorSize) :
    ∃ disk' v, SetFlagsOp.execute 1 .working disk { params } =
        some (.ok (),{ params,savedEntry := t.entries[pos]? },disk') ∧
      PlainMbr disk' sectorSize v ∧ v.entries.length = t.entries.length := by
  subst size
  have saved := plain.saves bound
  have at_pos := List.getElem?_eq_getElem bound
  have flags : ∃ entries, SetFlagsOp.changeFlags params (.mbr t) = (.ok (),.mbr { t with entries }) ∧
      (entries = t.entries ∨ ∃ target, entries = flagged target t.entries) := by
    unfold SetFlagsOp.changeFlags
    simp only [named]
    cases params.setActive with
    | none => exact ⟨t.entries,rfl,.inl rfl⟩
    | some active =>
      cases active with
      | true => exact ⟨_,by rw [plain.setActivePartition bound]; rfl,.inr ⟨_,rfl⟩⟩
      | false => exact ⟨_,by rw [setActivePartition_clears]; rfl,.inr ⟨_,rfl⟩⟩
  obtain ⟨entries,changed,kind⟩ := flags
  have fine : Rewritable { t with entries } ∧ entries.length = t.entries.length ∧
      (∀ e ∈ entries, e.isLogical = false) ∧ ∀ e ∈ entries, e.isExtended = false := by
    rcases kind with rfl | ⟨target,rfl⟩
    · exact ⟨plain.held.rewritable,rfl,plain.primary,plain.closed⟩
    · refine ⟨plain.held.rewritable.flagged plain.held.split target,?_,fun e member => ?_,fun e member => ?_⟩
      · rw [flagged,List.length_mapIdx]
      · obtain ⟨old,among,active,rfl⟩ := mem_flagged member
        exact plain.primary old among
      · obtain ⟨old,among,active,rfl⟩ := mem_flagged member
        exact plain.closed old among
  obtain ⟨rewritable,length,primary,closed⟩ := fine
  obtain ⟨disk',v,written,plain',_,entries'⟩ := plain.write rewritable primary closed
  refine ⟨disk',v,?_,plain',by rw [entries',List.length_mapIdx]; exact length⟩
  rw [at_pos] at saved
  simp only [SetFlagsOp.execute,plain.read,named,saved,changed,written,at_pos]

def movedTo (t : MbrPartitionTable) (pos : Nat) (start count : UInt64) : MbrPartitionTable :=
  { t with entries := t.entries.modify pos (·.movedTo start count) }

theorem PlainMbr.resize (plain : PlainMbr disk sectorSize t) {pos : Nat} (bound : pos < t.entries.length)
    {start count : UInt64} (checks : t.resizeChecks (pos : Int) start count = .ok ()) :
    ∃ disk' v, (PartitionTable.mbr t).resizePartition (pos : Int) start count = (.ok (),.mbr (movedTo t pos start count)) ∧
      OperationUtils.writePartitionTable .working disk sectorSize (.mbr (movedTo t pos start count)) = (.ok (),disk') ∧
      PlainMbr disk' sectorSize v ∧ disk'.totalBytes = disk.totalBytes ∧
      v.entries = (t.entries.modify pos (·.movedTo start count)).mapIdx (rewritten sectorSize) := by
  have found := plain.numbered.found bound
  obtain ⟨disk',v,written,plain',same,entries⟩ := plain.write
    (plain.held.rewritable.resized plain.held.split checks pos)
    (mem_modify (f := (·.movedTo start count)) (fun _ _ kept => kept) plain.primary pos)
    (mem_modify (f := (·.movedTo start count)) (fun _ _ kept => kept) plain.closed pos)
  refine ⟨disk',v,?_,written,plain',same,entries⟩
  simp only [PartitionTable.resizePartition,MbrPartitionTable.resizePartition,found,checks]
  rfl

theorem PlainMbr.executes {op : ResizePartitionOp} (plain : PlainMbr disk op.params.sectorSize t) {pos : Nat}
    (bound : pos < t.entries.length) (free : OperationUtils.lockIfMounted .working op.params.driveLetter = .ok ())
    (named : op.params.partitionIndex = pos) (counted : op.params.newSectorCount ≠ 0)
    (checks : t.resizeChecks (pos : Int) op.params.newStartLba op.params.newSectorCount = .ok ()) :
    ∃ disk' v, op.execute 1 .working disk = some (.ok (),{ op with savedEntry := t.entries[pos]? },disk') ∧
      PlainMbr disk' op.params.sectorSize v ∧ disk'.totalBytes = disk.totalBytes ∧
      v.entries = (t.entries.modify pos (·.movedTo op.params.newStartLba op.params.newSectorCount)).mapIdx
        (rewritten op.params.sectorSize) := by
  obtain ⟨disk',v,changed,written,plain',same,entries⟩ := plain.resize bound checks
  have saved := @saveEntry_found (.mbr t) _ _ (plain.numbered.found bound) op.savedEntry
  have at_pos := List.getElem?_eq_getElem bound
  refine ⟨disk',v,?_,plain',same,entries⟩
  replace saved : saveEntry (.mbr t) (pos : Int) op.savedEntry = some t.entries[pos] := saved.trans at_pos
  simp only [ResizePartitionOp.execute,free,plain.read,named,saved,if_neg counted,changed,written,at_pos]

theorem PlainMbr.undoes {params : ResizePartitionOp.Params} (plain : PlainMbr disk params.sectorSize t) {pos : Nat}
    (bound : pos < t.entries.length) (named : params.partitionIndex = pos) {saved : PartitionEntry}
    (checks : t.resizeChecks (pos : Int) saved.startLba saved.sectorCount = .ok ()) :
    ∃ disk', (ResizePartitionOp.mk params (some saved)).undo 1 .working disk = some (.ok (),disk') := by
  obtain ⟨disk',v,changed,written,_⟩ := plain.resize bound checks
  exact ⟨disk',by simp only [ResizePartitionOp.undo,plain.read,named,changed,written]⟩

theorem resizeChecks_congr {t t' : MbrPartitionTable} (size : t.diskSizeBytes = t'.diskSizeBytes)
    (sector : t.sectorSize = t'.sectorSize) (entries : t.entries = t'.entries) (index : Int) (start count : UInt64) :
    t.resizeChecks index start count = t'.resizeChecks index start count := by
  cases t
  cases t'
  simp only at size sector entries
  subst size sector entries
  rfl

def twoEntries : List PartitionEntry :=
  [{ startLba := 8,sectorCount := 8,mbrType := 0x07,isActive := true },
    { startLba := 16,sectorCount := 8,mbrType := 0x07 }]

def twoDisk : Disk := bearing blankDisk twoEntries

theorem twoDisk_plain : ∃ t, PlainMbr twoDisk 512 t ∧ t.diskSizeBytes = 1048576 ∧ t.sectorSize = 512 ∧
    t.entries = twoEntries.mapIdx (rewritten 512) := by
  have rewritable : Rewritable (tableOf twoEntries) := by
    refine ⟨fun e member => ?_,by decide,by decide,by decide⟩
    have listed : e ∈ twoEntries := member
    rw [twoEntries,List.mem_cons,List.mem_singleton] at listed
    rcases listed with rfl | rfl
    · exact ⟨rfl,rfl,by decide,by decide,by rw [Occupies]; decide⟩
    · exact ⟨rfl,rfl,by decide,by decide,by rw [Occupies]; decide⟩
  obtain ⟨noGpt,t,held,entries⟩ := held_bearing rewritable rfl (rfl : blankDisk.totalBytes = 1048576) rfl .absent
  replace entries : t.entries = twoEntries.mapIdx (rewritten 512) := entries
  have size : twoDisk.totalBytes = 1048576 := bearing_size twoEntries rfl
  refine ⟨t,⟨held,noGpt,room_of_size size,?_,?_⟩,held.geometry.1.trans size,held.geometry.2,entries⟩
  · intro i e at_i
    rw [entries,List.getElem?_mapIdx] at at_i
    obtain ⟨old,_,rfl⟩ := Option.map_eq_some_iff.mp at_i
    rfl
  · intro e member
    rw [entries] at member
    obtain ⟨i,bound,rfl⟩ := List.mem_mapIdx.mp member
    have plain : ∀ old ∈ twoEntries, MbrTypes.isExtendedType old.mbrType = false := by decide
    exact plain _ (List.getElem_mem bound)

def flagSecond : SetFlagsOp.Params := { partitionIndex := 1,setActive := some true }

/-- The flag of the first partition does not come back when that of the second one was
set and taken back. -/
theorem undo_loses_flag : ∃ table op' disk' disk'',
    OperationUtils.readPartitionTable 1 .working twoDisk 512 = some (.ok table) ∧
      SetFlagsOp.execute 1 .working twoDisk { params := flagSecond } = some (.ok (),op',disk') ∧
      op'.undo 1 .working disk' = some (.ok (),disk'') ∧
      ¬ ReadsEqual PartitionEntry.standing disk'' 512 table := by
  obtain ⟨t,plain,_,_,entries⟩ := twoDisk_plain
  have two : t.entries.length = 2 := by rw [entries]; rfl
  have saved : t.entries[1]? = twoEntries[1]?.map (rewritten 512 1) := by rw [entries]; rfl
  obtain ⟨disk',v,executed,plain',length⟩ := @PlainMbr.setFlags _ _ _ plain flagSecond 1 (by omega) rfl rfl
  obtain ⟨disk'',w,undone,plain'',_⟩ := @PlainMbr.setFlags _ _ _ plain' { flagSecond with setActive := some false } 1
    (by omega) rfl rfl
  have reverted : (SetFlagsOp.mk flagSecond t.entries[1]?).undo 1 .working disk' = some (.ok (),disk'') := by
    rw [saved]
    exact congrArg (Option.map (fun run => (run.1,run.2.2))) undone
  have size : flagSecond.sectorSize = 512 := rfl
  have law := @SetFlagsOp.undo_mbr_iff 1 1 .working .working flagSecond _ twoDisk disk' disk''
    Win32.working_readsInFull Win32.working_readsInFull t (by rw [size]; exact plain.read) executed reverted
  rw [size] at law
  refine ⟨_,_,disk',disk'',plain.read,executed,reverted,(not_congr law).mpr (fun reversible => ?_)⟩
  have lookup : t.entries.find? (·.index == flagSecond.partitionIndex) = twoEntries[1]?.map (rewritten 512 1) := by
    rw [entries]
    decide
  have first : t.primaries[0]? = twoEntries[0]?.map (rewritten 512 0) := by
    rw [primaries,entries]
    decide
  have flags := (reversible.1 _ rfl lookup 0 _ first).mp rfl
  cases flags.1

def flagFirst : SetFlagsOp.Params := { partitionIndex := 0,setActive := some true }

def growSecond : ResizePartitionOp :=
  { params := { partitionIndex := 1,newStartLba := 16,newSectorCount := 16 } }

/-- Growing the second partition, and setting the flag that is set, are undone. -/
theorem undo_standing_sample : ∃ table op' disk' disk'' flags' one two,
    OperationUtils.readPartitionTable 1 .working twoDisk 512 = some (.ok table) ∧
      growSecond.execute 1 .working twoDisk = some (.ok (),op',disk') ∧
      op'.undo 1 .working disk' = some (.ok (),disk'') ∧
      ReadsEqual PartitionEntry.standing disk'' 512 table ∧
      SetFlagsOp.execute 1 .working twoDisk { params := flagFirst } = some (.ok (),flags',one) ∧
      flags'.undo 1 .working one = some (.ok (),two) ∧
      ReadsEqual PartitionEntry.standing two 512 table := by
  obtain ⟨t,plain,size,sector,entries⟩ := twoDisk_plain
  have both : t.entries.length = 2 := by rw [entries]; rfl
  have saved : t.entries[1]? = twoEntries[1]?.map (rewritten 512 1) := by rw [entries]; rfl
  have first : t.entries[0]? = twoEntries[0]?.map (rewritten 512 0) := by rw [entries]; rfl
  have law := @undo_standing_iff 1 1 .working .working Win32.working_readsInFull Win32.working_readsInFull twoDisk 512 _
    plain.read
  have primaries : t.primaries = t.entries := List.filter_eq_self.mpr (fun e member => by simp [plain.primary e member])
  have chain (u : MbrPartitionTable) (closed : containerOf u.primaries = none)
      (remake : List PartitionEntry → List PartitionEntry) :
      ChainAfter twoDisk 512 u remake (containerOf t.primaries)
        (fun logicals => logicals.map PartitionEntry.standing = t.logicals.map PartitionEntry.standing) := by
    have none : containerOf t.primaries = none := by
      rw [primaries,entries]
      decide
    have logicals : t.logicals = [] := plain.held.primaries_logicals.2
    rw [ChainAfter,none,closed,logicals]
    exact ⟨[],[],.absent,.absent,rfl⟩
  obtain ⟨one,v,executed,plain',length⟩ := @PlainMbr.setFlags _ _ _ plain flagFirst 0 (by omega) rfl rfl
  obtain ⟨two,w,again,_,_⟩ := @PlainMbr.setFlags _ _ _ plain' flagFirst 0 (by omega) rfl rfl
  have reverted : (SetFlagsOp.mk flagFirst t.entries[0]?).undo 1 .working one = some (.ok (),two) := by
    rw [first]
    exact congrArg (Option.map (fun run => (run.1,run.2.2))) again
  have none : containerOf t.primaries = none := by
    rw [primaries,entries]
    decide
  have flags : ReadsEqual PartitionEntry.standing two 512 (.mbr t) := by
    refine (law.2 flagFirst _ one two rfl executed reverted).mpr ⟨fun old _ lookup pos e at_pos => ?_,chain t none id⟩
    have found : t.entries.find? (·.index == flagFirst.partitionIndex) = twoEntries[0]?.map (rewritten 512 0) := by
      rw [entries]
      decide
    have same : old = rewritten 512 0 { startLba := 8,sectorCount := 8,mbrType := 0x07,isActive := true } :=
      Option.some.inj (lookup.symm.trans found)
    rw [primaries,entries] at at_pos
    rw [same]
    rcases pos with _ | _ | pos
    · cases at_pos
      exact ⟨fun _ => ⟨rfl,rfl⟩,fun _ => rfl⟩
    · cases at_pos
      exact ⟨fun active => absurd active (by decide),fun both => absurd both.2 (by decide)⟩
    · cases at_pos
  have checks : t.resizeChecks (1 : Nat) 16 16 = .ok () := by
    rw [@resizeChecks_congr t (tableOf (twoEntries.mapIdx (rewritten 512))) size sector entries]
    decide
  obtain ⟨disk',grown,executed',plain₁,same,moved⟩ := @PlainMbr.executes _ _ growSecond plain 1 (by omega) rfl rfl
    (by decide) checks
  replace moved : grown.entries =
      ((twoEntries.mapIdx (rewritten 512)).modify 1 (·.movedTo 16 16)).mapIdx (rewritten 512) := by
    rw [moved,entries]
    rfl
  have size₁ : grown.diskSizeBytes = 1048576 := plain₁.held.geometry.1.trans (same.trans (bearing_size twoEntries rfl))
  have old : t.entries[1]? = some (rewritten 512 1 { startLba := 16,sectorCount := 8,mbrType := 0x07 }) := saved
  have back : grown.resizeChecks (1 : Nat) 16 8 = .ok () := by
    rw [@resizeChecks_congr grown (tableOf _) size₁ plain₁.held.geometry.2 moved]
    decide
  obtain ⟨disk'',undone⟩ := @PlainMbr.undoes _ _ growSecond.params plain₁ 1 (by rw [moved]; decide) rfl
    (rewritten 512 1 { startLba := 16,sectorCount := 8,mbrType := 0x07 }) back
  rw [old] at executed'
  refine ⟨_,_,disk',disk'',_,one,two,plain.read,executed',undone,?_,executed,reverted,flags⟩
  refine (law.1 growSecond _ disk' disk'' rfl executed' undone).mpr (fun pos entry found at_pos => ?_)
  have place : pos = 1 := Option.some.inj (found.symm.trans (plain.numbered.found (by omega : 1 < t.entries.length)))
  subst place
  refine ⟨rfl,fun taken => plain.noGpt taken.2.1,chain _ ?_ _⟩
  rw [MbrPartitionTable.primaries,entries]
  show containerOf (((twoEntries.mapIdx (rewritten 512)).modify 1 (·.movedTo 16 16)).filter (!·.isLogical)) = Option.none
  decide

end Sample
end SetecWizard.Core
