import SetecWizard.Mbr.Containment
import SetecWizard.Core.PartitionTable

/-! Where placed entries may not lie: on sector 0, and on the sectors the EBRs of
the logical partitions go to, each one sector before its partition. The bounds
checks know the end of the disk and the other entries, but neither of these.
-/
namespace SetecWizard.Core
open SetecWizard.Library

/-- A call that places an entry or moves one. -/
inductive PlaceCall where
  | add (params : PartitionParams)
  | resize (index : Int) (newStart newSize : UInt64)

namespace PlaceCall

def call : PlaceCall → MbrCall
  | .add params => .add params
  | .resize index newStart newSize => .resize index newStart newSize

def position (t : MbrPartitionTable) : PlaceCall → Nat
  | .add _ => t.entries.length
  | .resize index _ _ => (findIndex t.entries index).getD t.entries.length

end PlaceCall

/-- A table together with the positions of the entries placed or moved so far.
Neither call ever moves an entry to another position. -/
structure Placing where
  table : MbrPartitionTable
  placed : List Nat

def PlaceCall.step (s : Placing) (c : PlaceCall) : Placing :=
  match c.call.apply s.table with
  | (.error _,t) => ⟨t,s.placed⟩
  | (.ok _,t) => ⟨t,c.position s.table :: s.placed⟩

namespace MbrPartitionTable

/-- The sectors of the EBRs that `serialize` emits. -/
def emittedEbrs (t : MbrPartitionTable) : List UInt64 :=
  match t.findExtended with
  | none => []
  | some _ => t.logicals.map (fun l => l.startLba - 1)

def ClearOfMetadata (t : MbrPartitionTable) (x : Extent) : Prop :=
  ¬ x.Covers 0 ∧ ∀ lba ∈ t.emittedEbrs, ¬ x.Covers lba.toNat

def PlacedClear (s : Placing) : Prop :=
  ∀ p ∈ s.placed, ∀ e, s.table.entries[p]? = some e → s.table.ClearOfMetadata e.extent

/-- The accepted calls that place their entry clear of sector 0 and of the EBRs of
the other logical partitions; a logical partition also takes its own EBR with it,
which must not land in an entry placed before. -/
def PlacesClear (s : Placing) : PlaceCall → Prop
  | .add params => s.table.addChecks params = .ok () →
    params.startLba ≠ 0 ∧ ∀ lba ∈ s.table.emittedEbrs, ¬ params.extent.Covers lba.toNat
  | .resize index newStart newSize =>
    ∀ pos e, findIndex s.table.entries index = some pos → s.table.entries[pos]? = some e →
      s.table.resizeChecks index newStart newSize = .ok () →
        newStart ≠ 0 ∧
        (∀ j (l : PartitionEntry), j ≠ pos → s.table.entries[j]? = some l → l.isLogical = true →
          ¬ Extent.Covers ⟨newStart.toNat,newSize.toNat⟩ (l.startLba - 1).toNat) ∧
        (e.isLogical = true → ∀ p ∈ s.placed, p ≠ pos → ∀ x, s.table.entries[p]? = some x →
          ¬ x.extent.Covers (newStart - 1).toNat)

/-- Entries whose ends do not wrap, and logical ones only where there is a container. -/
structure Chained (t : MbrPartitionTable) : Prop where
  tame : ∀ e ∈ t.entries, Tame e
  container : ∀ e ∈ t.entries, e.isLogical = true → t.findExtended.isSome

theorem findExtended_isSome (t : MbrPartitionTable) :
    t.findExtended.isSome ↔ ∃ e ∈ t.entries, isContainer e = true := by
  rw [findExtended,List.find?_isSome]
  rfl

theorem Chained.mem_emittedEbrs {t : MbrPartitionTable} (chained : t.Chained) (lba : UInt64) :
    lba ∈ t.emittedEbrs ↔
      ∃ (j : Nat) (l : PartitionEntry), t.entries[j]? = some l ∧ l.isLogical = true ∧
        lba = l.startLba - 1 := by
  unfold emittedEbrs
  constructor
  · intro emitted
    cases search : t.findExtended with
    | none => simp [search] at emitted
    | some ext =>
      simp only [search] at emitted
      obtain ⟨l,among,rfl⟩ := List.mem_map.mp emitted
      obtain ⟨member,logical⟩ := List.mem_filter.mp among
      obtain ⟨j,at_j⟩ := List.getElem?_of_mem member
      exact ⟨j,l,at_j,logical,rfl⟩
  · rintro ⟨j,l,at_j,logical,rfl⟩
    have member := List.mem_of_getElem? at_j
    obtain ⟨ext,search⟩ := Option.isSome_iff_exists.mp (chained.container l member logical)
    simp only [search]
    exact List.mem_map_of_mem (List.mem_filter.mpr ⟨member,logical⟩)

theorem covers_zero (start count : UInt64) (nonempty : 1 ≤ count.toNat) :
    Extent.Covers ⟨start.toNat,count.toNat⟩ 0 ↔ start = 0 := by
  have zero : start = 0 ↔ start.toNat = 0 := by
    rw [← UInt64.toNat_inj]
    rfl
  rw [zero]
  simp only [Extent.Covers,Extent.stop]
  omega

theorem own_ebr_outside {start : UInt64} (count : UInt64) (nonzero : start ≠ 0) :
    ¬ Extent.Covers ⟨start.toNat,count.toNat⟩ (start - 1).toNat := by
  have positive : start.toNat ≠ 0 := fun zero => nonzero (UInt64.toNat_inj.mp zero)
  have before : (start - 1).toNat = start.toNat - 1 := by
    have one : (1 : UInt64).toNat = 1 := rfl
    have below : (1 : UInt64) ≤ start := by
      rw [UInt64.le_iff_toNat_le,one]
      omega
    rw [UInt64.toNat_sub_of_le _ _ below,one]
  simp only [Extent.Covers,before]
  omega

section Steps

variable {t : MbrPartitionTable}

theorem added_primary (chained : t.Chained) {params : PartitionParams}
    (accepted : t.addChecks params = .ok ()) : params.isLogical = false := by
  cases logical : params.isLogical with
  | false => rfl
  | true => exact absurd accepted (logical_add_rejected t params chained.tame logical)

theorem Chained.added (chained : t.Chained) {params : PartitionParams}
    (accepted : t.addChecks params = .ok ()) :
    Chained { t with entries := t.entries ++ [t.newEntry params] } := by
  refine ⟨tame_kept (.added params accepted) chained.tame,?_⟩
  intro e member logical
  rw [findExtended_isSome]
  rcases List.mem_append.mp member with old | last
  · obtain ⟨ext,among,kind⟩ := (findExtended_isSome t).mp (chained.container e old logical)
    exact ⟨ext,List.mem_append_left _ among,kind⟩
  · rw [List.mem_singleton.mp last] at logical
    have primary := added_primary chained accepted
    simp [newEntry,primary] at logical

theorem Chained.resized (chained : t.Chained) {index : Int} {newStart newSize : UInt64} {pos : Nat}
    (found : findIndex t.entries index = some pos)
    (accepted : t.resizeChecks index newStart newSize = .ok ()) :
    Chained { t with entries := t.entries.modify pos (·.movedTo newStart newSize) } := by
  refine ⟨tame_kept (.resized index newStart newSize pos found accepted) chained.tame,?_⟩
  intro e member logical
  have old : ∃ e₀ ∈ t.entries, e₀.isLogical = true := by
    rcases mem_after_resize member with kept | ⟨e₀,at_pos,rfl⟩
    · exact ⟨e,kept,logical⟩
    · exact ⟨e₀,List.mem_of_getElem? at_pos,logical⟩
  obtain ⟨e₀,kept,logical₀⟩ := old
  obtain ⟨ext,among,kind⟩ := (findExtended_isSome t).mp (chained.container e₀ kept logical₀)
  obtain ⟨j,at_j⟩ := List.getElem?_of_mem among
  rw [findExtended_isSome]
  by_cases same : pos = j
  · refine ⟨ext.movedTo newStart newSize,List.mem_iff_getElem?.mpr ⟨j,?_⟩,kind⟩
    rw [getElem?_moved,if_pos same,at_j]
    rfl
  · refine ⟨ext,List.mem_iff_getElem?.mpr ⟨j,?_⟩,kind⟩
    rw [getElem?_moved,if_neg same,at_j]

theorem mem_emittedEbrs_resized {index : Int} {newStart newSize : UInt64} {pos : Nat}
    {e : PartitionEntry} (chained : t.Chained) (found : findIndex t.entries index = some pos)
    (at_pos : t.entries[pos]? = some e) (accepted : t.resizeChecks index newStart newSize = .ok ())
    (lba : UInt64) :
    lba ∈ emittedEbrs { t with entries := t.entries.modify pos (·.movedTo newStart newSize) } ↔
      (e.isLogical = true ∧ lba = newStart - 1) ∨
        ∃ (j : Nat) (l : PartitionEntry), j ≠ pos ∧ t.entries[j]? = some l ∧ l.isLogical = true ∧
          lba = l.startLba - 1 := by
  rw [(chained.resized found accepted).mem_emittedEbrs]
  constructor
  · rintro ⟨j,l,at_j,logical,rfl⟩
    rw [getElem?_moved] at at_j
    split at at_j
    next same =>
      rw [← same,at_pos,Option.map_some,Option.some.injEq] at at_j
      rw [← at_j] at logical ⊢
      exact .inl ⟨logical,rfl⟩
    next other => exact .inr ⟨j,l,Ne.symm other,at_j,logical,rfl⟩
  · rintro (⟨logical,rfl⟩ | ⟨j,l,other,at_j,logical,rfl⟩)
    · refine ⟨pos,e.movedTo newStart newSize,?_,logical,rfl⟩
      rw [getElem?_moved,if_pos rfl,at_pos]
      rfl
    · refine ⟨j,l,?_,logical,rfl⟩
      rw [getElem?_moved,if_neg (Ne.symm other),at_j]

theorem mem_emittedEbrs_added (chained : t.Chained) {params : PartitionParams}
    (accepted : t.addChecks params = .ok ()) (lba : UInt64) :
    lba ∈ emittedEbrs { t with entries := t.entries ++ [t.newEntry params] } ↔ lba ∈ t.emittedEbrs := by
  have primary := added_primary chained accepted
  rw [(chained.added accepted).mem_emittedEbrs,chained.mem_emittedEbrs]
  constructor
  · rintro ⟨j,l,at_j,logical,same⟩
    rcases List.mem_append.mp (List.mem_of_getElem? at_j) with old | last
    · obtain ⟨i,at_i⟩ := List.getElem?_of_mem old
      exact ⟨i,l,at_i,logical,same⟩
    · rw [List.mem_singleton.mp last] at logical
      simp [newEntry,primary] at logical
  · rintro ⟨j,l,at_j,logical,same⟩
    exact ⟨j,l,List.getElem?_append_left (List.getElem?_eq_some_iff.mp at_j).1 ▸ at_j,logical,same⟩

theorem placedClear_added {placed : List Nat} (chained : t.Chained)
    (clear : PlacedClear ⟨t,placed⟩) {params : PartitionParams}
    (accepted : t.addChecks params = .ok ()) :
    PlacedClear ⟨{ t with entries := t.entries ++ [t.newEntry params] },t.entries.length :: placed⟩ ↔
      params.startLba ≠ 0 ∧ ∀ lba ∈ t.emittedEbrs, ¬ params.extent.Covers lba.toNat := by
  obtain ⟨positive,_,_,onDisk,low,short⟩ := (addChecks_ok t params).mp accepted
  obtain ⟨nonempty,_⟩ := placed_bounds t positive onDisk low short
  let t' : MbrPartitionTable := { t with entries := t.entries ++ [t.newEntry params] }
  have ebrs (lba : UInt64) : lba ∈ t'.emittedEbrs ↔ lba ∈ t.emittedEbrs :=
    mem_emittedEbrs_added chained accepted lba
  have same (x : Extent) : t'.ClearOfMetadata x ↔ t.ClearOfMetadata x := by
    simp only [ClearOfMetadata,ebrs]
  have last : t'.entries[t.entries.length]? = some (t.newEntry params) := List.getElem?_concat_length
  have goal : t.ClearOfMetadata params.extent ↔
      params.startLba ≠ 0 ∧ ∀ lba ∈ t.emittedEbrs, ¬ params.extent.Covers lba.toNat := by
    unfold ClearOfMetadata
    rw [PartitionParams.extent,covers_zero _ _ nonempty]
  rw [← goal]
  constructor
  · intro all
    exact (same _).mp (all t.entries.length List.mem_cons_self _ last)
  · intro new p member e at_p
    refine (same _).mpr ?_
    rcases Nat.lt_or_ge p t.entries.length with old | beyond
    · have at_old : t.entries[p]? = some e := by
        rw [← at_p]
        exact (List.getElem?_append_left old).symm
      rcases List.mem_cons.mp member with rfl | earlier
      · omega
      · exact clear p earlier e at_old
    · have bound := (List.getElem?_eq_some_iff.mp at_p).1
      have here : p = t.entries.length := by
        simp only [List.length_append,List.length_singleton] at bound
        omega
      rw [here] at at_p
      rw [last] at at_p
      cases at_p
      exact new

theorem placedClear_resized {placed : List Nat} (chained : t.Chained)
    (clear : PlacedClear ⟨t,placed⟩) {index : Int} {newStart newSize : UInt64} {pos : Nat}
    {e : PartitionEntry} (found : findIndex t.entries index = some pos)
    (at_pos : t.entries[pos]? = some e) (accepted : t.resizeChecks index newStart newSize = .ok ()) :
    PlacedClear ⟨{ t with entries := t.entries.modify pos (·.movedTo newStart newSize) },pos :: placed⟩ ↔
      newStart ≠ 0 ∧
      (∀ j (l : PartitionEntry), j ≠ pos → t.entries[j]? = some l → l.isLogical = true →
        ¬ Extent.Covers ⟨newStart.toNat,newSize.toNat⟩ (l.startLba - 1).toNat) ∧
      (e.isLogical = true → ∀ p ∈ placed, p ≠ pos → ∀ x, t.entries[p]? = some x →
        ¬ x.extent.Covers (newStart - 1).toNat) := by
  obtain ⟨positive,onDisk,⟨low,short⟩,_⟩ := (resizeChecks_ok t _ _ _).mp accepted
  obtain ⟨nonempty,_⟩ := placed_bounds t positive onDisk low short
  let t' : MbrPartitionTable := { t with entries := t.entries.modify pos (·.movedTo newStart newSize) }
  have ebrs := mem_emittedEbrs_resized chained found at_pos accepted
  have moved : t'.entries[pos]? = some (e.movedTo newStart newSize) := by
    simp only [t',getElem?_moved,if_pos,at_pos,Option.map_some]
  constructor
  · intro all
    obtain ⟨start,apart⟩ := all pos List.mem_cons_self _ moved
    refine ⟨?_,?_,?_⟩
    · exact fun zero => start ((covers_zero _ _ nonempty).mpr zero)
    · intro j l other at_j logical
      exact apart _ ((ebrs _).mpr (.inr ⟨j,l,other,at_j,logical,rfl⟩))
    · intro logical p member other x at_p
      have at_p' : t'.entries[p]? = some x := by
        simp only [t',getElem?_moved,if_neg (Ne.symm other),at_p]
      exact (all p (List.mem_cons_of_mem _ member) x at_p').2 _ ((ebrs _).mpr (.inl ⟨logical,rfl⟩))
  · rintro ⟨start,others,own⟩ p member x at_p
    by_cases here : p = pos
    · subst here
      have same : e.movedTo newStart newSize = x := Option.some.inj (moved.symm.trans at_p)
      rw [← same]
      refine ⟨fun zero => start ((covers_zero _ _ nonempty).mp zero),?_⟩
      intro lba emitted
      rcases (ebrs lba).mp emitted with ⟨_,rfl⟩ | ⟨j,l,other,at_j,logical,rfl⟩
      · exact own_ebr_outside newSize start
      · exact others j l other at_j logical
    · have at_old : t.entries[p]? = some x := by
        rw [← at_p]
        simp only [getElem?_moved,if_neg (Ne.symm here)]
      have earlier : p ∈ placed := (List.mem_cons.mp member).resolve_left here
      obtain ⟨zero,apart⟩ := clear p earlier x at_old
      refine ⟨zero,?_⟩
      intro lba emitted
      rcases (ebrs lba).mp emitted with ⟨logical,rfl⟩ | ⟨j,l,_,at_j,logical,rfl⟩
      · exact own logical p earlier here x at_old
      · exact apart _ ((chained.mem_emittedEbrs _).mpr ⟨j,l,at_j,logical,rfl⟩)

end Steps

/-- What a call does to a placing. -/
inductive PlaceEffect (s : Placing) : PlaceCall → Placing → Prop
  | refused (c : PlaceCall) (failed : ¬ s.table.Accepts c.call) : PlaceEffect s c s
  | added (params : PartitionParams) (accepted : s.table.addChecks params = .ok ()) :
      PlaceEffect s (.add params)
        ⟨{ s.table with entries := s.table.entries ++ [s.table.newEntry params] },
          s.table.entries.length :: s.placed⟩
  | resized (index : Int) (newStart newSize : UInt64) (pos : Nat)
      (found : findIndex s.table.entries index = some pos)
      (accepted : s.table.resizeChecks index newStart newSize = .ok ()) :
      PlaceEffect s (.resize index newStart newSize)
        ⟨{ s.table with entries := s.table.entries.modify pos (·.movedTo newStart newSize) },
          pos :: s.placed⟩

theorem place_effect (s : Placing) (c : PlaceCall) : PlaceEffect s c (c.step s) := by
  cases c with
  | add params =>
    simp only [PlaceCall.step,PlaceCall.call,MbrCall.apply,addPartition]
    cases checks : s.table.addChecks params with
    | error e => exact .refused _ (by simp [PlaceCall.call,Accepts,checks])
    | ok _ => exact .added params checks
  | resize index newStart newSize =>
    simp only [PlaceCall.step,PlaceCall.call,MbrCall.apply,resizePartition]
    cases found : findIndex s.table.entries index with
    | none => exact .refused _ (by simp [PlaceCall.call,Accepts,found])
    | some pos =>
      cases checks : s.table.resizeChecks index newStart newSize with
      | error e => exact .refused _ (by simp [PlaceCall.call,Accepts,checks])
      | ok _ =>
        simp only [PlaceCall.position,found,Option.getD_some]
        exact .resized index newStart newSize pos found checks

theorem chained_step {s : Placing} (chained : s.table.Chained) (c : PlaceCall) :
    (c.step s).table.Chained := by
  have effect := place_effect s c
  generalize c.step s = s' at effect ⊢
  cases effect with
  | refused => exact chained
  | added params accepted => exact chained.added accepted
  | resized index newStart newSize pos found accepted => exact chained.resized found accepted

theorem placedClear_step {s : Placing} (chained : s.table.Chained) (clear : PlacedClear s)
    (c : PlaceCall) : PlacedClear (c.step s) ↔ PlacesClear s c := by
  have effect := place_effect s c
  generalize c.step s = s' at effect ⊢
  cases effect with
  | refused c failed =>
    refine iff_of_true clear ?_
    cases c with
    | add params => exact fun accepted => absurd accepted failed
    | resize index newStart newSize =>
      intro pos e found at_pos accepted
      exact absurd ⟨Option.isSome_iff_exists.mpr ⟨pos,found⟩,accepted⟩ failed
  | added params accepted =>
    rw [placedClear_added chained clear accepted]
    exact ⟨fun places _ => places,fun places => places accepted⟩
  | resized index newStart newSize pos found accepted =>
    obtain ⟨bound,_⟩ := findIndex_some found
    have at_pos : s.table.entries[pos]? = some s.table.entries[pos] := List.getElem?_eq_getElem bound
    rw [placedClear_resized chained clear found at_pos accepted]
    constructor
    · intro places pos' e found' at_pos' _
      rw [found] at found'
      cases found'
      rw [at_pos] at at_pos'
      cases at_pos'
      exact places
    · intro places
      exact places pos _ found at_pos accepted

/-- A table made from scratch or read from a disk. -/
def Obtained (t : MbrPartitionTable) : Prop :=
  (∃ diskSizeBytes sectorSize diskGuid random,
    PartitionTable.createNew .mbr diskSizeBytes sectorSize diskGuid random = some (.mbr t)) ∨
  ∃ fuel self readFunc, parse fuel self readFunc = some (.ok t)

theorem Obtained.chained {t : MbrPartitionTable} (obtained : t.Obtained) : t.Chained := by
  rcases obtained with ⟨diskSizeBytes,sectorSize,diskGuid,random,created⟩ | ⟨fuel,self,readFunc,parsed⟩
  · simp only [PartitionTable.createNew,Option.some.injEq,PartitionTable.mbr.injEq] at created
    rw [← created]
    exact ⟨by simp,by simp⟩
  · obtain ⟨raw,chain,scan⟩ := parse_scan parsed
    exact ⟨scan.tame,fun e member logical => scan.container member logical⟩

/-- The placed entries stay clear of sector 0 and of the EBRs exactly when every
call places its own clear of them. -/
theorem placed_run_clear_iff (t : MbrPartitionTable) (obtained : t.Obtained) (calls : List PlaceCall) :
    (∀ s ∈ Run.trace PlaceCall.step ⟨t,[]⟩ calls, PlacedClear s) ↔
      Run.Guarded PlaceCall.step PlacesClear ⟨t,[]⟩ calls :=
  Run.invariant_iff_guarded PlaceCall.step PlacesClear (fun s => s.table.Chained) PlacedClear
    (fun _ c chained => chained_step chained c) (fun _ c chained clear => placedClear_step chained clear c)
    ⟨t,[]⟩ calls obtained.chained (fun p member => by cases member)

def emptyTable : MbrPartitionTable := { diskSizeBytes := 16777216,sectorSize := 512 }

theorem obtained_emptyTable : emptyTable.Obtained :=
  .inl ⟨16777216,512,.zero 16,.zero 16,rfl⟩

/-- One partition from sector 64 on. -/
theorem placed_run_clear_sample :
    PlacedClear (PlaceCall.step ⟨emptyTable,[]⟩ (.add { startLba := 64,sectorCount := 100 })) :=
  (placed_run_clear_iff emptyTable obtained_emptyTable [.add { startLba := 64,sectorCount := 100 }]).mpr
    ⟨fun _ => ⟨by decide,fun lba emitted => by cases emitted⟩,trivial⟩ _ (Run.foldl_mem_trace _ _ _)

/-- A partition is accepted on top of the MBR sector itself. -/
theorem placed_on_sector0 :
    ¬ ∀ calls : List PlaceCall, ∀ s ∈ Run.trace PlaceCall.step ⟨emptyTable,[]⟩ calls, PlacedClear s := by
  intro always
  let params : PartitionParams := { startLba := 0,sectorCount := 100 }
  have accepted : emptyTable.addChecks params = .ok () := by
    rw [addChecks_ok]
    exact ⟨by decide,rfl,rfl,by decide,by decide,by decide⟩
  have covers : ¬ PlacedClear (PlaceCall.step ⟨emptyTable,[]⟩ (.add params)) := by
    rw [placedClear_step obtained_emptyTable.chained (fun p member => by cases member)]
    exact fun places => (places accepted).1 rfl
  exact covers (always [.add params] _ (by simp [Run.trace]))

end MbrPartitionTable
end SetecWizard.Core
