import Mathlib.Data.List.Nodup
import Mathlib.Data.List.Range
import SetecWizard.Format.Slots

/-! Which indices the entries of a table answer to. Primary entries are numbered by
their slot, logical and added ones by the number of entries before them, and the
two ways of counting meet when a slot before an occupied one is empty.
-/
namespace SetecWizard.Core
open SetecWizard.Library

namespace MbrPartitionTable

/-- No two entries answer to the same index. -/
def DistinctIndices (t : MbrPartitionTable) : Prop := (t.entries.map (·.index)).Nodup

instance (t : MbrPartitionTable) : Decidable t.DistinctIndices :=
  inferInstanceAs (Decidable (List.Nodup _))

/-- An entry to be appended takes the number of entries as its index; an accepted
addition finds that index free. -/
def NextIndexFree (t : MbrPartitionTable) : MbrCall → Prop
  | .add params =>
    t.addChecks params = .ok () → ∀ e ∈ t.entries, e.index ≠ (t.entries.length : Int)
  | .delete _ => True
  | .resize _ _ _ => True

theorem distinct_added {t : MbrPartitionTable} (distinct : t.DistinctIndices)
    (params : PartitionParams) :
    DistinctIndices { t with entries := t.entries ++ [t.newEntry params] } ↔
      ∀ e ∈ t.entries, e.index ≠ (t.entries.length : Int) := by
  unfold DistinctIndices at distinct ⊢
  rw [List.map_append,List.map_singleton,List.nodup_append]
  constructor
  · rintro ⟨_,_,apart⟩ e member
    exact apart e.index (List.mem_map_of_mem member) t.entries.length (by simp [newEntry])
  · intro free
    refine ⟨distinct,List.nodup_singleton _,?_⟩
    intro a among b last
    obtain ⟨e,member,rfl⟩ := List.mem_map.mp among
    rw [List.mem_singleton.mp last]
    exact free e member

theorem distinct_reindexed (t : MbrPartitionTable) (entries : List PartitionEntry) :
    DistinctIndices { t with entries := reindex entries } := by
  unfold DistinctIndices
  have indices : (reindex entries).map (·.index) = (List.range entries.length).map (fun i : Nat => (i : Int)) := by
    apply List.ext_getElem?
    intro i
    rw [List.getElem?_map,reindex_getElem?,List.getElem?_map]
    rcases Nat.lt_or_ge i entries.length with inside | beyond
    · rw [List.getElem?_eq_getElem inside,List.getElem?_range inside]
      rfl
    · rw [List.getElem?_eq_none beyond,List.getElem?_eq_none (by simpa using beyond)]
      rfl
  rw [indices]
  exact List.nodup_range.map (fun i j same => Int.ofNat_inj.mp same)

theorem distinct_step {t : MbrPartitionTable} (distinct : t.DistinctIndices) (call : MbrCall) :
    DistinctIndices (call.step t) ↔ t.NextIndexFree call := by
  have effect := step_effect t call
  generalize call.step t = t' at effect ⊢
  cases effect with
  | refused call failed =>
    refine iff_of_true distinct ?_
    cases call with
    | add params => exact fun accepted => absurd accepted failed
    | delete index => trivial
    | resize index newStart newSize => trivial
  | added params accepted =>
    rw [distinct_added distinct]
    exact ⟨fun free _ => free,fun free => free accepted⟩
  | deleted index pos e found target => exact iff_of_true (distinct_reindexed t _) trivial
  | resized index newStart newSize pos found accepted =>
    refine iff_of_true ?_ trivial
    unfold DistinctIndices
    rw [indices_moved]
    exact distinct

/-- No occupied slot has a number that the walk gives to a logical partition. -/
def SlotsClear (raw : List UInt8) (chain : List Ebr) : Prop :=
  ∀ slot ∈ occupiedSlots raw, slot < (occupiedSlots raw).length ∨
    (occupiedSlots raw).length + (chain.filter (fun ebr => ebr.Used)).length ≤ slot

theorem indices_chainLogicals (sectorSize : UInt32) (first : Nat) (chain : List Ebr) :
    (chainLogicals sectorSize first chain).map (·.index) =
      (List.range (chain.filter (fun ebr => ebr.Used)).length).map (fun i : Nat => ((first + i : Nat) : Int)) := by
  apply List.ext_getElem?
  intro i
  rw [List.getElem?_map,List.getElem?_map]
  rcases Nat.lt_or_ge i (chain.filter (fun ebr => ebr.Used)).length with inside | beyond
  · have bound : i < (chainLogicals sectorSize first chain).length := by
      rw [length_chainLogicals]
      exact inside
    rw [List.getElem?_eq_getElem bound,List.getElem?_range inside]
    simp [chainLogicals,Ebr.logical]
  · rw [List.getElem?_eq_none (by rw [length_chainLogicals]; exact beyond),
      List.getElem?_eq_none (by rw [List.length_range]; exact beyond)]
    rfl

theorem indices_primaryEntries (sectorSize : UInt32) (raw : List UInt8) :
    (primaryEntries sectorSize raw).map (·.index) = (occupiedSlots raw).map (fun i : Nat => (i : Int)) := by
  simp [primaryEntries,primaryEntry,Function.comp_def]

theorem nodup_occupiedSlots (raw : List UInt8) : (occupiedSlots raw).Nodup :=
  List.nodup_range.filter _

theorem distinct_scanned (self : MbrPartitionTable) (raw : List UInt8) (chain : List Ebr) :
    DistinctIndices (self.scanned raw chain) ↔ SlotsClear raw chain := by
  unfold DistinctIndices SlotsClear scanned
  simp only
  rw [List.map_append,indices_primaryEntries,indices_chainLogicals,List.nodup_append]
  constructor
  · rintro ⟨_,_,apart⟩ slot occupied
    by_contra inside
    obtain ⟨low,high⟩ := not_or.mp inside
    let i := slot - (occupiedSlots raw).length
    have walked : ((slot : Nat) : Int) ∈ (List.range (chain.filter (fun ebr => ebr.Used)).length).map
        (fun i : Nat => (((occupiedSlots raw).length + i : Nat) : Int)) :=
      List.mem_map.mpr ⟨i,List.mem_range.mpr (by omega),by simp only [i]; omega⟩
    exact apart slot (List.mem_map_of_mem occupied) slot walked rfl
  · intro clear
    refine ⟨(nodup_occupiedSlots raw).map (fun i j same => Int.ofNat_inj.mp same),?_,?_⟩
    · exact List.nodup_range.map (fun i j same => by
        have := Int.ofNat_inj.mp same
        omega)
    · intro a primary b logical same
      obtain ⟨slot,occupied,rfl⟩ := List.mem_map.mp primary
      obtain ⟨i,counted,rfl⟩ := List.mem_map.mp logical
      have within := List.mem_range.mp counted
      have number := Int.ofNat_inj.mp same
      have := clear slot occupied
      omega

/-- The indices stay distinct through a run that starts with parsing exactly when
the slots are clear and every accepted addition finds its index free. -/
theorem parsed_run_distinct_iff (fuel : Nat) (self t : MbrPartitionTable) (readFunc : DiskReadCallback)
    (raw : List UInt8) (chain : List Ebr) (sector : readFunc 0 MBR_SIZE = .ok raw)
    (onDisk : DiskChain self.sectorSize readFunc raw chain)
    (parsed : parse fuel self readFunc = some (.ok t)) (calls : List MbrCall) :
    (∀ t' ∈ Run.trace MbrCall.step t calls, t'.DistinctIndices) ↔
      SlotsClear raw chain ∧ Run.Guarded MbrCall.step NextIndexFree t calls := by
  obtain ⟨raw',chain',scan⟩ := parse_scan parsed
  have sameRaw : raw' = raw := Except.ok.inj (scan.sector.symm.trans sector)
  subst sameRaw
  have sameChain : chain' = chain := scan.onDisk.unique onDisk
  subst sameChain
  have initial : t.DistinctIndices ↔ SlotsClear raw' chain' := by
    rw [scan.table]
    exact distinct_scanned self raw' chain'
  constructor
  · intro all
    have first := all t (Run.mem_trace_self MbrCall.step t calls)
    exact ⟨initial.mp first,(Run.invariant_iff_guarded MbrCall.step NextIndexFree (fun _ => True)
      DistinctIndices (fun _ _ _ => trivial) (fun s call _ held => distinct_step held call)
      t calls trivial first).mp all⟩
  · rintro ⟨clear,guarded⟩
    exact (Run.invariant_iff_guarded MbrCall.step NextIndexFree (fun _ => True)
      DistinctIndices (fun _ _ _ => trivial) (fun s call _ held => distinct_step held call)
      t calls trivial (initial.mpr clear)).mpr guarded

instance (raw : List UInt8) (chain : List Ebr) : Decidable (SlotsClear raw chain) :=
  inferInstanceAs (Decidable (∀ slot ∈ occupiedSlots raw,_))

def secondSlot : PartitionEntry := { startLba := 2048,sectorCount := 1024,mbrType := 0x07 }

@[irreducible] def secondSlotOnly : List UInt8 := slotSector 1 (primarySlot secondSlot)

def blankTable : MbrPartitionTable := { diskSizeBytes := 16777216,sectorSize := 512 }

theorem occupied_secondSlotOnly : occupiedSlots secondSlotOnly = [1] := by
  have filled : blockEmpty (primarySlot secondSlot) = false := by decide
  rw [secondSlotOnly,occupiedSlots_slotSector 1 _ (by decide) (length_primarySlot _) filled]

theorem entries_secondSlotOnly :
    primaryEntries 512 secondSlotOnly = [rewritten 512 1 secondSlot] := by
  rw [primaryEntries,occupied_secondSlotOnly,List.map_singleton,primaryEntry_eq,secondSlotOnly,
    slotBytes_slotSector 1 _ (by decide) (length_primarySlot _) 1 (by decide),if_pos rfl,
    blockEntry_primarySlot]

theorem chain_secondSlotOnly (readFunc : DiskReadCallback) :
    DiskChain blankTable.sectorSize readFunc secondSlotOnly [] := by
  have primary : (primaryEntries blankTable.sectorSize secondSlotOnly).find? (·.isExtended) = none := by
    rw [show blankTable.sectorSize = 512 from rfl,entries_secondSlotOnly]
    rfl
  exact .absent primary

theorem length_secondSlotOnly : secondSlotOnly.length = 512 := by
  rw [secondSlotOnly,length_slotSector 1 _ (by decide) (length_primarySlot _)]

theorem signed_secondSlotOnly : readLE16 secondSlotOnly 510 = MBR_SIGNATURE := by
  rw [secondSlotOnly,slotSector_signed 1 _ (by decide) (length_primarySlot _)]

theorem sector_secondSlotOnly : imageRead secondSlotOnly 0 MBR_SIZE = .ok secondSlotOnly := by
  have first := imageRead_first secondSlotOnly [] length_secondSlotOnly
  rwa [List.append_nil] at first

theorem parse_secondSlotOnly :
    parse 1 blankTable (imageRead secondSlotOnly) = some (.ok (blankTable.scanned secondSlotOnly [])) :=
  parse_of_chain blankTable sector_secondSlotOnly length_secondSlotOnly.ge signed_secondSlotOnly
    (chain_secondSlotOnly _) Nat.one_pos

/-- A run that deletes the only entry. -/
theorem parsed_run_distinct_sample :
    DistinctIndices (MbrCall.step (blankTable.scanned secondSlotOnly []) (.delete 1)) := by
  refine (parsed_run_distinct_iff 1 blankTable (blankTable.scanned secondSlotOnly [])
    (imageRead secondSlotOnly) secondSlotOnly [] sector_secondSlotOnly (chain_secondSlotOnly _)
    parse_secondSlotOnly [.delete 1]).mpr ⟨?_,trivial,trivial⟩ _ (Run.foldl_mem_trace _ _ _)
  simp [SlotsClear,occupied_secondSlotOnly]

/-- With the first slot empty, the entry in the second slot and the first one
added both answer to index 1. -/
theorem added_index_collides :
    ¬ ∀ t calls, parse 1 blankTable (imageRead secondSlotOnly) = some (.ok t) →
      (∀ call ∈ calls, (∃ params, call = .add params) ∨ ∃ index, call = .delete index) →
      ∀ t' ∈ Run.trace MbrCall.step t calls, t'.DistinctIndices := by
  intro always
  let params : PartitionParams := { startLba := 4096,sectorCount := 1024 }
  let t := blankTable.scanned secondSlotOnly []
  have entries : t.entries = [rewritten 512 1 secondSlot] := by
    simpa [t,scanned,chainLogicals,blankTable] using entries_secondSlotOnly
  have distinct : t.DistinctIndices := by simp [DistinctIndices,entries]
  have accepted : t.addChecks params = .ok () := by
    rw [addChecks_ok,roomFor,overlapsExisting,entries]
    exact ⟨by decide,rfl,rfl,by decide,by decide,by decide⟩
  have collides : ¬ DistinctIndices (MbrCall.step t (.add params)) := by
    rw [distinct_step distinct]
    intro free
    exact free accepted (rewritten 512 1 secondSlot) (by simp [entries]) (by simp [entries,rewritten])
  refine collides (always t [.add params] parse_secondSlotOnly ?_ _ (by simp [Run.trace]))
  intro call member
  exact .inl ⟨params,List.mem_singleton.mp member⟩

end MbrPartitionTable
end SetecWizard.Core
