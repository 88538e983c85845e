import SetecWizard.Format.Slots

/-! Logical partitions and their container. Adding checks that a logical partition
lies in the container and deleting the container deletes them all, but resizing
looks at neither, and nothing stops a second container from being added.
-/
namespace SetecWizard.Core
open SetecWizard.Library

namespace MbrPartitionTable

def rangesOf (kind : PartitionEntry → Bool) (entries : List PartitionEntry) : List Extent :=
  (entries.filter kind).map PartitionEntry.extent

def isContainer (e : PartitionEntry) : Bool := e.isExtended && !e.isLogical

def containers (t : MbrPartitionTable) : List Extent := rangesOf isContainer t.entries

def logicalRanges (t : MbrPartitionTable) : List Extent := rangesOf (·.isLogical) t.entries

/-- Every logical partition lies in the one container there is. -/
def Contained (t : MbrPartitionTable) : Prop := Housed t.containers t.logicalRanges

/-- The calls that keep the partitions contained: a container is added only when
there is no logical partition, a logical partition stays in its container, and a
container goes on covering its logical partitions. -/
def KeepsContained (t : MbrPartitionTable) : MbrCall → Prop
  | .add params =>
    t.addChecks params = .ok () → MbrTypes.isExtendedType params.mbrType = true → t.logicalRanges = []
  | .delete _ => True
  | .resize index newStart newSize =>
    ∀ pos e, findIndex t.entries index = some pos → t.entries[pos]? = some e →
      t.resizeChecks index newStart newSize = .ok () →
        (e.isLogical = true → ∀ c ∈ t.containers, Extent.Within ⟨newStart.toNat,newSize.toNat⟩ c) ∧
        (isContainer e = true →
          ∀ l ∈ t.logicalRanges, l.Within ⟨newStart.toNat,newSize.toNat⟩)

section Ranges

variable (kind : PartitionEntry → Bool)

theorem rangesOf_append (first second : List PartitionEntry) :
    rangesOf kind (first ++ second) = rangesOf kind first ++ rangesOf kind second := by
  simp [rangesOf]

theorem rangesOf_cons (e : PartitionEntry) (rest : List PartitionEntry) :
    rangesOf kind (e :: rest) = if kind e then e.extent :: rangesOf kind rest else rangesOf kind rest := by
  unfold rangesOf
  rw [List.filter_cons]
  split <;> simp

theorem rangesOf_reindex (blind : ∀ e (i : Int), kind { e with index := i } = kind e)
    (entries : List PartitionEntry) : rangesOf kind (reindex entries) = rangesOf kind entries := by
  have keyed := map_reindex (fun e => (kind e,e.extent)) (fun e i => by rw [blind]; rfl) entries
  have ranges (xs : List PartitionEntry) : rangesOf kind xs =
      ((xs.map (fun e => (kind e,e.extent))).filter (·.1)).map (·.2) := by
    simp [rangesOf,List.filter_map,Function.comp_def]
  rw [ranges,keyed,← ranges]

theorem rangesOf_nil_of_none {entries : List PartitionEntry} (none : ∀ e ∈ entries, kind e = false) :
    rangesOf kind entries = [] := by
  have empty : entries.filter kind = [] :=
    List.filter_eq_nil_iff.mpr (fun e member => by simp [none e member])
  rw [rangesOf,empty,List.map_nil]

end Ranges

theorem contained_added {t : MbrPartitionTable} (contained : t.Contained)
    (tame : ∀ e ∈ t.entries, Tame e) {params : PartitionParams}
    (accepted : t.addChecks params = .ok ()) :
    Contained { t with entries := t.entries ++ [t.newEntry params] } ↔
      (MbrTypes.isExtendedType params.mbrType = true → t.logicalRanges = []) := by
  have primary : params.isLogical = false := by
    cases logical : params.isLogical with
    | false => rfl
    | true => exact absurd accepted (logical_add_rejected t params tame logical)
  have logicals : rangesOf (·.isLogical) (t.entries ++ [t.newEntry params]) = t.logicalRanges := by
    simp only [logicalRanges,rangesOf_append,rangesOf_cons,newEntry,primary]
    simp [rangesOf]
  have kind : isContainer (t.newEntry params) = MbrTypes.isExtendedType params.mbrType := by
    simp [isContainer,newEntry,primary]
  have containers : rangesOf isContainer (t.entries ++ [t.newEntry params]) = t.containers ++
      if MbrTypes.isExtendedType params.mbrType then [(t.newEntry params).extent] else [] := by
    rw [MbrPartitionTable.containers,rangesOf_append,rangesOf_cons,kind]
    rfl
  change Housed (rangesOf _ _) (rangesOf _ _) ↔ _
  rw [logicals,containers]
  cases MbrTypes.isExtendedType params.mbrType with
  | false => simpa [Contained] using contained
  | true => simpa using Housed.concat_iff contained

theorem contained_deleted {t : MbrPartitionTable} (contained : t.Contained) {pos : Nat}
    {target : PartitionEntry} (at_pos : t.entries[pos]? = some target) :
    Contained { t with entries := reindex (withoutEntry t.entries pos target) } := by
  change Housed (rangesOf _ _) (rangesOf _ _)
  rw [rangesOf_reindex _ (fun _ _ => rfl),rangesOf_reindex _ (fun _ _ => rfl)]
  cases container : isContainer target with
  | true =>
    rw [rangesOf_nil_of_none (·.isLogical) (withoutEntry_container t.entries pos target container)]
    exact Housed.nil _
  | false =>
    obtain ⟨before,after,parts,rfl⟩ := split_at at_pos
    have kept : withoutEntry t.entries before.length target = before ++ after := by
      unfold withoutEntry
      rw [if_neg (by simpa [isContainer] using container),parts,eraseIdx_split]
    have containers : rangesOf isContainer (before ++ after) = t.containers := by
      rw [MbrPartitionTable.containers,parts,rangesOf_append,rangesOf_append,rangesOf_cons,
        if_neg (by simp [container])]
    have sub : (before ++ after).Sublist t.entries := by
      rw [parts]
      exact (List.sublist_cons_self _ _).append_left _
    rw [kept,containers]
    exact contained.mono (fun l member => ((sub.filter _).map _).subset member)

theorem contained_resized {t : MbrPartitionTable} (contained : t.Contained) {pos : Nat}
    {e : PartitionEntry} (at_pos : t.entries[pos]? = some e) (newStart newSize : UInt64) :
    Contained { t with entries := t.entries.modify pos (·.movedTo newStart newSize) } ↔
      (e.isLogical = true → ∀ c ∈ t.containers, Extent.Within ⟨newStart.toNat,newSize.toNat⟩ c) ∧
      (isContainer e = true → ∀ l ∈ t.logicalRanges, l.Within ⟨newStart.toNat,newSize.toNat⟩) := by
  obtain ⟨before,after,parts,rfl⟩ := split_at at_pos
  have moved (kind : PartitionEntry → Bool) (blind : kind (e.movedTo newStart newSize) = kind e) :
      rangesOf kind (t.entries.modify before.length (·.movedTo newStart newSize)) =
        rangesOf kind before ++ if kind e then ⟨newStart.toNat,newSize.toNat⟩ :: rangesOf kind after
          else rangesOf kind after := by
    rw [parts,modify_split,rangesOf_append,rangesOf_cons,blind]
    rfl
  have old (kind : PartitionEntry → Bool) : rangesOf kind t.entries = rangesOf kind before ++
      if kind e then e.extent :: rangesOf kind after else rangesOf kind after := by
    rw [parts,rangesOf_append,rangesOf_cons]
  unfold Contained at contained
  change Housed (rangesOf _ _) (rangesOf _ _) ↔ _
  rw [moved (·.isLogical) rfl,moved isContainer rfl]
  rw [containers,logicalRanges,old (·.isLogical),old isContainer] at contained ⊢
  -- an entry is a logical partition, a container, or neither
  cases logical : e.isLogical with
  | true =>
    have notContainer : isContainer e = false := by simp [isContainer,logical]
    simp only [logical,notContainer,if_true,Bool.false_eq_true,if_false] at contained ⊢
    rw [Housed.replace_inner_iff contained]
    simp
  | false =>
    cases container : isContainer e with
    | true =>
      simp only [logical,container,if_true,Bool.false_eq_true,if_false] at contained ⊢
      rw [Housed.replace_outer_iff contained]
      simp
    | false =>
      simp only [logical,container,Bool.false_eq_true,if_false] at contained ⊢
      simpa using contained

theorem contained_step {t : MbrPartitionTable} (tame : ∀ e ∈ t.entries, Tame e)
    (contained : t.Contained) (call : MbrCall) : (call.step t).Contained ↔ t.KeepsContained call := by
  have effect := step_effect t call
  generalize call.step t = t' at effect ⊢
  cases effect with
  | refused call failed =>
    refine iff_of_true contained ?_
    cases call with
    | add params => exact fun accepted => absurd accepted failed
    | delete index => trivial
    | resize index newStart newSize =>
      intro pos e found at_pos accepted
      exact absurd ⟨Option.isSome_iff_exists.mpr ⟨pos,found⟩,accepted⟩ failed
  | added params accepted =>
    rw [contained_added contained tame accepted]
    exact ⟨fun keeps _ => keeps,fun keeps => keeps accepted⟩
  | deleted index pos e found target => exact iff_of_true (contained_deleted contained target) trivial
  | resized index newStart newSize pos found accepted =>
    obtain ⟨bound,_⟩ := findIndex_some found
    have at_pos : t.entries[pos]? = some t.entries[pos] := List.getElem?_eq_getElem bound
    rw [contained_resized contained at_pos]
    constructor
    · intro keeps pos' e found' at_pos' _
      rw [found] at found'
      cases found'
      rw [at_pos] at at_pos'
      cases at_pos'
      exact keeps
    · intro keeps
      exact keeps pos _ found at_pos accepted

/-- From a parsed table whose logical partitions are contained, they stay contained
through a run exactly when each of its calls keeps them so. -/
theorem parsed_run_contained_iff (fuel : Nat) (self t : MbrPartitionTable) (readFunc : DiskReadCallback)
    (parsed : parse fuel self readFunc = some (.ok t)) (wellFormed : t.Contained)
    (calls : List MbrCall) :
    (∀ t' ∈ Run.trace MbrCall.step t calls, t'.Contained) ↔
      Run.Guarded MbrCall.step KeepsContained t calls :=
  Run.invariant_iff_guarded MbrCall.step KeepsContained (fun s => ∀ e ∈ s.entries, Tame e) Contained
    (fun s call tame => tame_kept (step_effect s call) tame)
    (fun _ call tame contained => contained_step tame contained call) t calls (parse_tame parsed) wellFormed

def container : PartitionEntry :=
  { startLba := 1,sectorCount := 40,mbrType := MbrTypes.Extended,isExtended := true }

def onlyLogical : PartitionEntry :=
  { startLba := 2,sectorCount := 10,mbrType := 0x07,isLogical := true }

def oneLogical : MbrPartitionTable :=
  { diskSizeBytes := 16777216,sectorSize := 512,entries := [container,onlyLogical] }

def oneLogicalImage : List UInt8 := oneLogical.mbrSector ++ ebrSector 1 onlyLogical none

def oneLogicalBlank : MbrPartitionTable := { diskSizeBytes := 16777216,sectorSize := 512 }

theorem occupied_container : ∀ e ∈ oneLogical.primaries, Occupies e := by
  intro e member
  have only : e = container := List.mem_singleton.mp member
  rw [only,Occupies]
  decide

theorem primaryEntries_oneLogical :
    primaryEntries 512 oneLogical.mbrSector = [rewritten 512 0 container] := by
  rw [primaryEntries_mbrSector _ _ (by decide) occupied_container]
  rfl

theorem ebr_oneLogical : ebrAt 512 (imageRead oneLogicalImage) 1 40 1 =
    some ⟨1,ebrSector 1 onlyLogical none⟩ := by
  refine ebrAt_of_read (by decide) (by decide) ?_ (length_ebrSector _ _ _) (ebrSector_signed _ _ _)
  rw [oneLogicalImage]
  exact imageRead_second _ _ (length_mbrSector _) (length_ebrSector _ _ _)

theorem chain_oneLogical : DiskChain oneLogicalBlank.sectorSize (imageRead oneLogicalImage)
    oneLogical.mbrSector [⟨1,ebrSector 1 onlyLogical none⟩] := by
  rw [show oneLogicalBlank.sectorSize = 512 from rfl]
  have extended : (primaryEntries 512 oneLogical.mbrSector).find? (·.isExtended) =
      some (rewritten 512 0 container) := by
    rw [primaryEntries_oneLogical]
    rfl
  exact .walked _ _ extended (.last 255 1 _ ebr_oneLogical (ebr_next 1 1 onlyLogical none 1))

def oneLogicalRead : MbrPartitionTable :=
  oneLogicalBlank.scanned oneLogical.mbrSector [⟨1,ebrSector 1 onlyLogical none⟩]

theorem parse_oneLogical :
    parse 2 oneLogicalBlank (imageRead oneLogicalImage) = some (.ok oneLogicalRead) := by
  have sector : imageRead oneLogicalImage 0 MBR_SIZE = .ok oneLogical.mbrSector := by
    rw [oneLogicalImage]
    exact imageRead_first _ _ (length_mbrSector _)
  exact parse_of_chain oneLogicalBlank sector oneLogical.mbrSector_whole oneLogical.mbrSector_signed
    chain_oneLogical (by rw [List.length_singleton]; exact Nat.lt_succ_self 1)

theorem entries_oneLogicalRead :
    oneLogicalRead.entries = [rewritten 512 0 container,ebrRewritten 512 1 1 onlyLogical] := by
  have used : (Ebr.mk 1 (ebrSector 1 onlyLogical none)).Used := (ebr_used _ _ _ _).mpr (by decide)
  change primaryEntries 512 oneLogical.mbrSector ++ chainLogicals 512
    (occupiedSlots oneLogical.mbrSector).length [⟨1,ebrSector 1 onlyLogical none⟩] = _
  rw [primaryEntries_oneLogical,occupiedSlots_mbrSector _ (by decide) occupied_container,
    chainLogicals_cons,if_pos used,ebr_logical]
  rfl

theorem contained_oneLogicalRead : oneLogicalRead.Contained := by
  have containers : oneLogicalRead.containers = [⟨1,40⟩] := by
    rw [containers,entries_oneLogicalRead]
    rfl
  have logicals : oneLogicalRead.logicalRanges = [⟨2,10⟩] := by
    rw [logicalRanges,entries_oneLogicalRead]
    rfl
  unfold Contained Housed
  rw [containers,logicals]
  intro l member
  rw [List.mem_singleton.mp member]
  exact ⟨_,rfl,by decide⟩

/-- Deleting the container takes the logical partition with it. -/
theorem parsed_run_contained_sample : (MbrCall.step oneLogicalRead (.delete 0)).Contained :=
  (parsed_run_contained_iff 2 oneLogicalBlank oneLogicalRead (imageRead oneLogicalImage) parse_oneLogical
    contained_oneLogicalRead [.delete 0]).mpr ⟨trivial,trivial⟩ _ (Run.foldl_mem_trace _ _ _)

/-- The logical partition is moved out of its container. -/
theorem resized_out_of_container :
    ¬ ∀ t calls, parse 2 oneLogicalBlank (imageRead oneLogicalImage) = some (.ok t) → t.Contained →
      ∀ t' ∈ Run.trace MbrCall.step t calls, t'.Contained := by
  intro always
  have tame := parse_tame parse_oneLogical
  have at_one : oneLogicalRead.entries[1]? = some (ebrRewritten 512 1 1 onlyLogical) := by
    rw [entries_oneLogicalRead]
    rfl
  have accepted : oneLogicalRead.resizeChecks 1 100 10 = .ok () := by
    rw [resizeChecks_ok,overlapsExisting,entries_oneLogicalRead]
    exact ⟨by decide,by decide,by decide,rfl⟩
  have found : findIndex oneLogicalRead.entries 1 = some 1 := by
    rw [entries_oneLogicalRead]
    rfl
  have escapes : ¬ Contained (MbrCall.step oneLogicalRead (.resize 1 100 10)) := by
    rw [contained_step tame contained_oneLogicalRead]
    intro keeps
    have inside := (keeps 1 _ found at_one accepted).1 rfl ⟨1,40⟩ (by
      rw [containers,entries_oneLogicalRead]
      decide)
    revert inside
    decide
  exact escapes (always _ [.resize 1 100 10] parse_oneLogical contained_oneLogicalRead _ (by simp [Run.trace]))

end MbrPartitionTable
end SetecWizard.Core
