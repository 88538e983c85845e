import Mathlib.Data.List.InsertIdx
import SetecWizard.Library.Ascending
import SetecWizard.Mbr.Indices
import SetecWizard.Operations.Execution

/-! A queue on a disk with primary partitions. The operations name partitions by the
indices of one snapshot, but each looks its index up in the table it reads itself,
and after the first operation these tables are numbered by position.
-/
namespace SetecWizard.Core
open SetecWizard.Library MbrPartitionTable

namespace DiskOperation

def named (op : DiskOperation) (entries : List PartitionEntry) : List PartitionEntry :=
  match op with
  | .delete op => entries.filter (fun e => e.index ≠ op.params.partitionIndex)
  | .resize op => entries.map (fun e =>
      if e.index = op.params.partitionIndex then
        e.movedTo op.params.newStartLba op.params.newSectorCount
      else e)

/-- The indices that still have a partition afterwards. -/
def left (op : DiskOperation) (slots : List Int) : List Int :=
  match op with
  | .delete op => slots.filter (· ≠ op.params.partitionIndex)
  | .resize _ => slots

end DiskOperation

section Named

variable {op : DiskOperation} {entries : List PartitionEntry}

theorem index_named (op : DiskOperation) (entries : List PartitionEntry) :
    (op.named entries).map (·.index) = op.left (entries.map (·.index)) := by
  cases op with
  | delete op =>
    simp only [DiskOperation.named,DiskOperation.left,List.filter_map]
    rfl
  | resize op =>
    simp only [DiskOperation.named,DiskOperation.left,List.map_map]
    refine List.map_congr_left (fun e _ => ?_)
    simp only [Function.comp_apply]
    split <;> rfl

theorem left_sublist (op : DiskOperation) (slots : List Int) : (op.left slots).Sublist slots := by
  cases op with
  | delete op => exact List.filter_sublist
  | resize op => exact List.Sublist.refl _

theorem named_eq_edit (distinct : (entries.map (·.index)).Nodup) {pos : Nat} {e : PartitionEntry}
    (at_pos : entries[pos]? = some e) (index : e.index = op.partitionIndex) :
    op.named entries = op.edit pos entries := by
  obtain ⟨before,after,rfl,rfl⟩ := split_at at_pos
  rw [List.map_append,List.map_cons,List.nodup_append] at distinct
  obtain ⟨_,tail,apart⟩ := distinct
  have first : ∀ x ∈ before, x.index ≠ op.partitionIndex := fun x member => by
    rw [← index]
    exact apart x.index (List.mem_map_of_mem member) e.index (List.mem_cons_self ..)
  have last : ∀ x ∈ after, x.index ≠ op.partitionIndex := fun x member same => by
    rw [← index] at same
    exact (List.nodup_cons.mp tail).1 (same ▸ List.mem_map_of_mem member)
  cases op with
  | delete op =>
    simp only [DiskOperation.partitionIndex] at index first last
    simp only [DiskOperation.named,DiskOperation.edit,eraseIdx_split,List.filter_append,List.filter_cons,
      index,ne_eq,not_true,decide_false,Bool.false_eq_true,if_false]
    rw [List.filter_eq_self.mpr (fun x member => by simpa using first x member),
      List.filter_eq_self.mpr (fun x member => by simpa using last x member)]
  | resize op =>
    simp only [DiskOperation.partitionIndex] at index first last
    have kept (xs : List PartitionEntry) (others : ∀ x ∈ xs, x.index ≠ op.params.partitionIndex) :
        xs.map (fun e => if e.index = op.params.partitionIndex then
          e.movedTo op.params.newStartLba op.params.newSectorCount else e) = xs :=
      (List.map_congr_left (fun x member => if_neg (others x member))).trans (List.map_id' xs)
    simp only [DiskOperation.named,DiskOperation.edit,modify_split,List.map_append,List.map_cons,if_pos index]
    rw [kept before first,kept after last]

theorem seen_edit {entries' : List PartitionEntry} (pos : Nat)
    (same : entries.map PartitionEntry.seen = entries'.map PartitionEntry.seen) :
    (op.edit pos entries).map PartitionEntry.seen = (op.edit pos entries').map PartitionEntry.seen := by
  cases op with
  | delete op => simp only [DiskOperation.edit,← List.eraseIdx_map,same]
  | resize op =>
    have moved (xs : List PartitionEntry) (i : Nat) :
        ((xs.modify pos (·.movedTo op.params.newStartLba op.params.newSectorCount)).map PartitionEntry.seen)[i]? =
          ((xs.map PartitionEntry.seen)[i]?).map (fun s => if pos = i then
            (op.params.newStartLba,op.params.newSectorCount,s.2.2) else s) := by
      rw [List.getElem?_map,getElem?_moved,List.getElem?_map]
      by_cases here : pos = i
      · simp only [if_pos here]
        cases xs[i]? <;> rfl
      · simp only [if_neg here]
        cases xs[i]? <;> rfl
    apply List.ext_getElem?
    intro i
    simp only [DiskOperation.edit,moved,same]

end Named

section Applied

variable (fuel : Nat) (os : Nat → Win32) (sectorSize : UInt32)

/-- Each operation from number `i` on finds under its index, in the table it reads, the
partition that the snapshot has under that index, and the disk ends up with what
is `remaining` of the snapshot after all of them. -/
inductive AppliedAsNamed : Nat → List DiskOperation → List PartitionEntry → Disk → Prop
  | done (i : Nat) (remaining : List PartitionEntry) (disk : Disk)
      (same : ∀ fuel os table,
        OperationUtils.readPartitionTable fuel os disk sectorSize = some (.ok table) →
          table.partitions.map PartitionEntry.seen = remaining.map PartitionEntry.seen) :
      AppliedAsNamed i [] remaining disk
  | next (i : Nat) (op op' : DiskOperation) (ops : List DiskOperation) (remaining : List PartitionEntry)
      (disk middle : Disk) (table : PartitionTable) (pos : Nat) (e : PartitionEntry)
      (read : OperationUtils.readPartitionTable fuel (os i) disk sectorSize = some (.ok table))
      (same : table.partitions.map PartitionEntry.seen = remaining.map PartitionEntry.seen)
      (found : findIndex table.partitions op.partitionIndex = some pos)
      (target : remaining[pos]? = some e) (index : e.index = op.partitionIndex)
      (run : op.execute fuel (os i) disk = some (.ok (),op',middle))
      (rest : AppliedAsNamed (i + 1) ops (op.named remaining) middle) :
      AppliedAsNamed i (op :: ops) remaining disk

/-- Every operation from number `i` on has succeeded. -/
inductive Ran : Nat → List DiskOperation → Disk → Disk → Prop
  | done (i : Nat) (disk : Disk) : Ran i [] disk disk
  | next (i : Nat) (op op' : DiskOperation) (ops : List DiskOperation) (disk middle disk' : Disk)
      (run : op.execute fuel (os i) disk = some (.ok (),op',middle)) (rest : Ran (i + 1) ops middle disk') :
      Ran i (op :: ops) disk disk'

end Applied

/-- Each operation finds all indices from 0 to its own still in use. -/
def KeepsNumbers : List Int → List DiskOperation → Prop
  | _,[] => True
  | slots,op :: ops => (∀ k : Int, 0 ≤ k → k ≤ op.partitionIndex → k ∈ slots) ∧ KeepsNumbers (op.left slots) ops

/-- The first operation still meets the numbers of the snapshot. -/
def MeetsNumbers (slots : List Int) : List DiskOperation → Prop
  | [] => True
  | op :: ops => KeepsNumbers (op.left slots) ops

section Run

variable {fuel : Nat} {os : Nat → Win32} {disk disk' : Disk} {sectorSize : UInt32} {raw : List UInt8}

/-- What the loop adds to the history is completed only if every operation has succeeded. -/
theorem applyLoop_ran {cancelRequested : Nat → Bool} {i : Nat} {pending history history' : List Operation}
    {lastError : ErrorInfo} (loop : OperationQueue.applyLoop fuel os cancelRequested i pending history disk =
      some (lastError,[],history',disk')) :
    ∃ done, history' = history ++ done ∧
      ((∀ op ∈ done, op.state = .completed) → Ran fuel os i (pending.map (·.body)) disk disk') := by
  induction pending generalizing i history disk with
  | nil =>
    simp only [OperationQueue.applyLoop,Option.some.injEq,Prod.mk.injEq] at loop
    obtain ⟨_,_,rfl,rfl⟩ := loop
    exact ⟨[],(List.append_nil _).symm,fun _ => .done i _⟩
  | cons op pending ih =>
    rw [OperationQueue.applyLoop] at loop
    split at loop
    next => simp at loop
    next =>
      split at loop
      next => cases loop
      next body middle run =>
        obtain ⟨done,rfl,ran⟩ := ih loop
        refine ⟨{ op with body := body,state := .completed } :: done,by simp,fun completed => ?_⟩
        exact .next i op.body body _ disk middle disk' run (ran (fun op member => completed op (by simp [member])))
      next e body middle run =>
        simp only [Option.some.injEq,Prod.mk.injEq] at loop
        obtain ⟨_,_,rfl,_⟩ := loop
        refine ⟨_,rfl,fun completed => ?_⟩
        cases completed _ (List.mem_singleton_self _)

theorem applyAll_ran {cancelRequested : Nat → Bool} {queue queue' : OperationQueue} {result : Result Unit}
    {done : List Operation}
    (ran : queue.applyAll fuel os cancelRequested disk = some (result,queue',disk'))
    (finished : queue'.pending = []) (history : queue'.history = queue.history ++ done)
    (succeeded : ∀ op ∈ done, op.state = .completed) :
    Ran fuel os 0 (queue.pending.map (·.body)) disk disk' := by
  unfold OperationQueue.applyAll at ran
  split at ran
  next empty =>
    simp only [Option.some.injEq,Prod.mk.injEq] at ran
    obtain ⟨_,_,rfl⟩ := ran
    rw [List.isEmpty_iff.mp empty]
    exact .done 0 _
  next =>
    split at ran
    next => cases ran
    next lastError pending after final loop =>
      simp only [Option.some.injEq,Prod.mk.injEq] at ran
      obtain ⟨_,rfl,rfl⟩ := ran
      simp only at finished history
      subst finished
      obtain ⟨added,same,went⟩ := applyLoop_ran loop
      have equal : added = done := List.append_cancel_left (same.symm.trans history)
      subst equal
      exact went succeeded

theorem ascending_primaryEntries (sectorSize : UInt32) (raw : List UInt8) :
    Ascending ((primaryEntries sectorSize raw).map (·.index)) := by
  rw [indices_primaryEntries]
  constructor
  · rw [List.pairwise_map]
    refine (List.pairwise_lt_range.sublist List.filter_sublist).imp ?_
    intro a b before
    exact Int.ofNat_lt.mpr before
  · intro x member
    obtain ⟨i,_,rfl⟩ := List.mem_map.mp member
    exact Int.natCast_nonneg i

theorem found_at {entries : List PartitionEntry} {index : Int} {pos : Nat}
    (numbered : ∀ (i : Nat) (e : PartitionEntry), entries[i]? = some e → e.index = (i : Int))
    (found : findIndex entries index = some pos) : index = (pos : Int) := by
  obtain ⟨bound,same⟩ := findIndex_some found
  rw [← same]
  exact numbered pos _ (List.getElem?_eq_getElem bound)

theorem BearsMbr.partitions (bears : BearsMbr disk sectorSize raw) {fuel : Nat} {os : Win32}
    {table : PartitionTable}
    (read : OperationUtils.readPartitionTable fuel os disk sectorSize = some (.ok table)) :
    table.partitions = primaryEntries sectorSize raw := by
  obtain ⟨_,rfl⟩ := bears.read read
  exact entries_scanned _ _

theorem BearsMbr.done (bears : BearsMbr disk sectorSize raw) {remaining : List PartitionEntry} (i : Nat)
    (same : (primaryEntries sectorSize raw).map PartitionEntry.seen = remaining.map PartitionEntry.seen) :
    AppliedAsNamed fuel os sectorSize i [] remaining disk := by
  refine .done i remaining disk (fun fuel os table read => ?_)
  rw [bears.partitions read]
  exact same

/-- One operation of a queue: given what it leaves to the rest, it is applied as named exactly
when the position it finds its index at is the position of its partition. -/
theorem BearsMbr.next_iff (bears : BearsMbr disk sectorSize raw) {i : Nat} {op op' : DiskOperation}
    {ops : List DiskOperation} {remaining : List PartitionEntry} {middle : Disk} {pos : Nat}
    (size : op.sectorSize = sectorSize)
    (same : (primaryEntries sectorSize raw).map PartitionEntry.seen = remaining.map PartitionEntry.seen)
    (run : op.execute fuel (os i) disk = some (.ok (),op',middle))
    (found : findIndex (primaryEntries sectorSize raw) op.partitionIndex = some pos) :
    AppliedAsNamed fuel os sectorSize i (op :: ops) remaining disk ↔
      (remaining.map (·.index))[pos]? = some op.partitionIndex ∧
        AppliedAsNamed fuel os sectorSize (i + 1) ops (op.named remaining) middle := by
  rw [List.getElem?_map]
  constructor
  · intro applied
    cases applied with
    | next _ _ op'' _ _ _ middle' table pos' e read _ found' target index run' rest =>
      rw [bears.partitions read,found] at found'
      cases found'
      rw [run] at run'
      cases run'
      rw [target,Option.map_some,index]
      exact ⟨rfl,rest⟩
  · rintro ⟨named,rest⟩
    obtain ⟨e,target,index⟩ := Option.map_eq_some_iff.mp named
    obtain ⟨table,read,_⟩ := executed run
    rw [size] at read
    have entries := bears.partitions read
    exact .next i op op' ops remaining disk middle table pos e read (by rw [entries]; exact same)
      (by rw [entries]; exact found) target index run rest

theorem seen_after {op : DiskOperation} {entries entries' remaining : List PartitionEntry} {pos : Nat}
    (advanced : Advanced op entries entries' pos) (ascending : Ascending (remaining.map (·.index)))
    (same : entries.map PartitionEntry.seen = remaining.map PartitionEntry.seen)
    (named : (remaining.map (·.index))[pos]? = some op.partitionIndex) :
    entries'.map PartitionEntry.seen = (op.named remaining).map PartitionEntry.seen := by
  rw [List.getElem?_map] at named
  obtain ⟨e,target,index⟩ := Option.map_eq_some_iff.mp named
  have distinct : (remaining.map (·.index)).Nodup := ascending.sorted.imp (fun before => Int.ne_of_lt before)
  rw [named_eq_edit distinct target index,advanced.seen]
  exact seen_edit pos same

theorem ascending_named {remaining : List PartitionEntry} (ascending : Ascending (remaining.map (·.index)))
    (op : DiskOperation) : Ascending ((op.named remaining).map (·.index)) := by
  rw [index_named]
  exact ascending.sublist (left_sublist op _)

/-- Once the entries are numbered by position, the operations that follow are applied as named
exactly when each finds all indices up to its own in use. -/
theorem numbered_iff {i : Nat} {ops : List DiskOperation} {remaining : List PartitionEntry}
    (bears : BearsMbr disk sectorSize raw)
    (numbered : ∀ (i : Nat) (e : PartitionEntry),
      (primaryEntries sectorSize raw)[i]? = some e → e.index = (i : Int))
    (same : (primaryEntries sectorSize raw).map PartitionEntry.seen = remaining.map PartitionEntry.seen)
    (ascending : Ascending (remaining.map (·.index))) (sizes : ∀ op ∈ ops, op.sectorSize = sectorSize)
    (ran : Ran fuel os i ops disk disk') :
    AppliedAsNamed fuel os sectorSize i ops remaining disk ↔ KeepsNumbers (remaining.map (·.index)) ops := by
  induction ran generalizing remaining raw with
  | done i disk => exact iff_of_true (bears.done i same) trivial
  | next i op op' ops disk middle disk' run rest ih =>
    have size := sizes op (List.mem_cons_self ..)
    obtain ⟨pos,raw',after,advanced⟩ := bears.step size run
    have index := found_at numbered advanced.found
    have present := ascending.own_iff (i := pos)
    rw [bears.next_iff size same run advanced.found,KeepsNumbers,← index_named,index,present]
    refine and_congr_right (fun all => ?_)
    have named : (remaining.map (·.index))[pos]? = some op.partitionIndex := by
      rw [index]
      exact present.mpr all
    exact ih after advanced.numbered (seen_after advanced ascending same named) (ascending_named ascending op)
      (fun op member => sizes op (List.mem_cons_of_mem _ member))

/-- The first operation still meets the numbers of the snapshot. -/
theorem snapshot_iff {i : Nat} {ops : List DiskOperation} (bears : BearsMbr disk sectorSize raw)
    (sizes : ∀ op ∈ ops, op.sectorSize = sectorSize) (ran : Ran fuel os i ops disk disk') :
    AppliedAsNamed fuel os sectorSize i ops (primaryEntries sectorSize raw) disk ↔
      MeetsNumbers ((primaryEntries sectorSize raw).map (·.index)) ops := by
  cases ran with
  | done => exact iff_of_true (bears.done i rfl) trivial
  | next _ op op' ops _ middle _ run rest =>
    have size := sizes op (List.mem_cons_self ..)
    obtain ⟨pos,raw',after,advanced⟩ := bears.step size run
    have ascending := ascending_primaryEntries sectorSize raw
    have named : ((primaryEntries sectorSize raw).map (·.index))[pos]? = some op.partitionIndex := by
      obtain ⟨bound,index⟩ := findIndex_some advanced.found
      rw [List.getElem?_map,List.getElem?_eq_getElem bound,Option.map_some,index]
    rw [bears.next_iff size rfl run advanced.found,and_iff_right named,MeetsNumbers,← index_named]
    exact numbered_iff after advanced.numbered (seen_after advanced ascending rfl named)
      (ascending_named ascending op) (fun op member => sizes op (List.mem_cons_of_mem _ member)) rest

end Run

/-- A queue whose indices all come from one snapshot of a disk with primary partitions, and
whose operations all succeed, is applied to the partitions it names exactly when
every operation but the first finds all indices from 0 to its own still in use. -/
theorem applyAll_named_iff (fuel steps : Nat) (reading : Win32) (os : Nat → Win32) (cancelRequested : Nat → Bool)
    (disk disk' : Disk) (sectorSize : UInt32) (t : MbrPartitionTable) (queue queue' : OperationQueue)
    (result : Result Unit) (done : List Operation)
    (snapshot : OperationUtils.readPartitionTable steps reading disk sectorSize = some (.ok (.mbr t)))
    (primary : ∀ e ∈ t.entries, e.isExtended = false)
    (unprotected : t.hasGptProtective = true → NoGpt disk sectorSize)
    (sizes : ∀ op ∈ queue.pending, op.body.sectorSize = sectorSize)
    (ran : queue.applyAll fuel os cancelRequested disk = some (result,queue',disk'))
    (finished : queue'.pending = []) (history : queue'.history = queue.history ++ done)
    (succeeded : ∀ op ∈ done, op.state = .completed) :
    AppliedAsNamed fuel os sectorSize 0 (queue.pending.map (·.body)) t.entries disk ↔
      MeetsNumbers (t.entries.map (·.index)) (queue.pending.map (·.body)) := by
  obtain ⟨raw,bears,entries⟩ := BearsMbr.of_snapshot snapshot primary unprotected
  have each : ∀ op ∈ queue.pending.map (·.body), op.sectorSize = sectorSize := by
    intro op member
    obtain ⟨queued,among,rfl⟩ := List.mem_map.mp member
    exact sizes queued among
  rw [entries]
  exact snapshot_iff bears each (applyAll_ran ran finished history succeeded)

section Sample

def primaryAt (startLba : UInt64) : PartitionEntry := { startLba,sectorCount := 1024,mbrType := 0x07 }

def threePrimaries : MbrPartitionTable :=
  { diskSizeBytes := 16777216,sectorSize := 512,entries := [primaryAt 2048,primaryAt 4096,primaryAt 8192] }

def threeDisk : Disk := { totalBytes := 16777216,byte := fun i => threePrimaries.mbrSector.getD i 0 }

def deletesOf (indices : List Int) : OperationQueue :=
  { pending := indices.map (fun i =>
      { body := .delete { params := { partitionIndex := i,wipeFirstSectors := false } } }) }

theorem entries_threeDisk : primaryEntries 512 threePrimaries.mbrSector =
    [rewritten 512 0 (primaryAt 2048),rewritten 512 1 (primaryAt 4096),rewritten 512 2 (primaryAt 8192)] := by
  have each : ∀ e ∈ threePrimaries.primaries, Occupies e := by
    intro e member
    have among : e = primaryAt 2048 ∨ e = primaryAt 4096 ∨ e = primaryAt 8192 := by
      simpa [primaries,threePrimaries,primaryAt] using member
    rcases among with rfl | rfl | rfl <;> (rw [Occupies]; decide)
  rw [primaryEntries_mbrSector _ _ (by decide) each]
  rfl

theorem bears_threeDisk : BearsMbr threeDisk 512 threePrimaries.mbrSector := by
  have plain : ∀ e ∈ primaryEntries 512 threePrimaries.mbrSector,
      e.isExtended = false ∧ e.mbrType ≠ MbrTypes.GPT_Protective := by
    rw [entries_threeDisk]
    decide
  have boot : readBE16 threePrimaries.mbrSector 0 = 0 := readBE16_mbrSector threePrimaries
  refine ⟨⟨?_,threePrimaries.mbrSector_signed,?_⟩,fun e member => (plain e member).1,?_⟩
  · have whole := window_getD threePrimaries.mbrSector 0
    rwa [length_mbrSector] at whole
  · rw [boot]
    decide
  · rintro ⟨e,member,type⟩
    exact absurd type (plain e member).2

/-- Two deletions succeed on a disk with three partitions, whatever the first one takes. -/
theorem two_deletes {disk : Disk} {raw : List UInt8} (bears : BearsMbr disk 512 raw)
    (room : 512 ≤ disk.totalBytes.toNat) (three : (primaryEntries 512 raw).length = 3) (a : Int) (b : Nat)
    (first : (findIndex (primaryEntries 512 raw) a).isSome) (low : b < 2) :
    ∃ queue' disk' done,
      (deletesOf [a,b]).applyAll 0 (fun _ => .working) (fun _ => false) disk = some (.ok (),queue',disk') ∧
        queue'.pending = [] ∧ queue'.history = (deletesOf [a,b]).history ++ done ∧
        ∀ op ∈ done, op.state = .completed := by
  have width : (512 : UInt32).toNat = 512 := rfl
  let one : DeletePartitionOp := { params := { partitionIndex := a,wipeFirstSectors := false } }
  let two : DeletePartitionOp := { params := { partitionIndex := b,wipeFirstSectors := false } }
  obtain ⟨one',middle,run,size⟩ := bears.deletes (by omega) (by omega) (by omega) one rfl rfl rfl first 0
  have done : (DiskOperation.delete one).execute 0 .working disk = some (.ok (),.delete one',middle) := by
    rw [DiskOperation.execute,run]
    rfl
  obtain ⟨pos,raw',after,advanced⟩ := bears.step rfl done
  have left : (primaryEntries 512 raw').length = 2 := by
    obtain ⟨bound,_⟩ := findIndex_some advanced.found
    have count := congrArg List.length advanced.seen
    rw [three] at bound
    simpa [DiskOperation.edit,List.length_eraseIdx,bound,three] using count
  have second : (findIndex (primaryEntries 512 raw') b).isSome := by
    have at_b : (primaryEntries 512 raw')[b]? = some (primaryEntries 512 raw')[b] :=
      List.getElem?_eq_getElem (by omega)
    rw [findIndex,List.findIdx?_isSome,List.any_eq_true]
    exact ⟨_,List.mem_of_getElem? at_b,by simpa using advanced.numbered b _ at_b⟩
  rw [← size] at room
  obtain ⟨two',disk',run',_⟩ := after.deletes (by omega) (by omega) (by omega) two rfl rfl rfl second 0
  have done' : (DiskOperation.delete two).execute 0 .working middle = some (.ok (),.delete two',disk') := by
    rw [DiskOperation.execute,run']
    rfl
  let completed : List Operation :=
    [{ body := .delete one',state := .completed },{ body := .delete two',state := .completed }]
  refine ⟨{ pending := [],history := completed,lastRunSuccess := true },disk',completed,?_,rfl,rfl,?_⟩
  · simp only [OperationQueue.applyAll,OperationQueue.applyLoop,deletesOf,List.map_cons,List.map_nil]
    simp only [one,two] at done done'
    simp [done,done',completed]
  · intro op member
    have among : op = { body := .delete one',state := .completed } ∨
        op = { body := .delete two',state := .completed } := by simpa [completed] using member
    rcases among with rfl | rfl <;> rfl

def threeSnapshot : MbrPartitionTable :=
  scanned { diskSizeBytes := threeDisk.totalBytes,sectorSize := 512 } threePrimaries.mbrSector []

theorem entries_threeSnapshot : threeSnapshot.entries = primaryEntries 512 threePrimaries.mbrSector :=
  entries_scanned _ _

theorem snapshot_threeDisk :
    OperationUtils.readPartitionTable 0 .working threeDisk 512 = some (.ok (.mbr threeSnapshot)) :=
  bears_threeDisk.readable (by decide) (by decide) (by decide) 0

theorem primary_threeSnapshot : (∀ e ∈ threeSnapshot.entries, e.isExtended = false) ∧
    threeSnapshot.hasGptProtective = false ∧ threeSnapshot.entries.map (·.index) = [0,1,2] := by
  rw [hasGptProtective,entries_threeSnapshot,entries_threeDisk]
  decide

/-- Deleted from the last one on, partitions keep the numbers of the snapshot. -/
theorem applyAll_named_sample : ∃ queue' disk',
    (deletesOf [2,1]).applyAll 0 (fun _ => .working) (fun _ => false) threeDisk = some (.ok (),queue',disk') ∧
      AppliedAsNamed 0 (fun _ => .working) 512 0 ((deletesOf [2,1]).pending.map (·.body)) threeSnapshot.entries
        threeDisk := by
  obtain ⟨primary,plain,indices⟩ := primary_threeSnapshot
  obtain ⟨queue',disk',done,ran,finished,history,succeeded⟩ := two_deletes bears_threeDisk (by decide)
    (by rw [entries_threeDisk]; rfl) 2 1 (by rw [entries_threeDisk]; decide) (by decide)
  refine ⟨queue',disk',ran,(applyAll_named_iff 0 0 .working (fun _ => .working) (fun _ => false) threeDisk disk' 512
    threeSnapshot (deletesOf [2,1]) queue' (.ok ()) done snapshot_threeDisk primary (by simp [plain])
    (by simp [deletesOf,DiskOperation.sectorSize,SECTOR_SIZE_512]) ran finished history succeeded).mpr ?_⟩
  rw [indices]
  refine ⟨fun k low high => ?_,trivial⟩
  have either : k = 0 ∨ k = 1 := by
    simp only [DiskOperation.partitionIndex] at high
    omega
  rcases either with rfl | rfl <;> decide

/-- Deleting the partitions in slots 0 and 1, in this order, deletes those in slots 0 and 2. -/
theorem second_delete_misses :
    ¬ ∀ (fuel steps : Nat) (reading : Win32) (os : Nat → Win32) (cancelRequested : Nat → Bool) (disk disk' : Disk)
      (sectorSize : UInt32) (t : MbrPartitionTable) (queue queue' : OperationQueue) (result : Result Unit)
      (done : List Operation),
      OperationUtils.readPartitionTable steps reading disk sectorSize = some (.ok (.mbr t)) →
      (∀ e ∈ t.entries, e.isExtended = false) → (t.hasGptProtective = true → NoGpt disk sectorSize) →
      (∀ op ∈ queue.pending, op.body.sectorSize = sectorSize) →
      (∀ op ∈ queue.pending, ∃ e ∈ t.entries, e.index = op.body.partitionIndex) →
      queue.applyAll fuel os cancelRequested disk = some (result,queue',disk') → queue'.pending = [] →
      queue'.history = queue.history ++ done → (∀ op ∈ done, op.state = .completed) →
        AppliedAsNamed fuel os sectorSize 0 (queue.pending.map (·.body)) t.entries disk := by
  intro always
  obtain ⟨primary,plain,indices⟩ := primary_threeSnapshot
  obtain ⟨queue',disk',done,ran,finished,history,succeeded⟩ := two_deletes bears_threeDisk (by decide)
    (by rw [entries_threeDisk]; rfl) 0 1 (by rw [entries_threeDisk]; decide) (by decide)
  have sizes : ∀ op ∈ (deletesOf [0,1]).pending, op.body.sectorSize = 512 := by
    simp [deletesOf,DiskOperation.sectorSize,SECTOR_SIZE_512]
  have named : ∀ op ∈ (deletesOf [0,1]).pending, ∃ e ∈ threeSnapshot.entries, e.index = op.body.partitionIndex := by
    rw [entries_threeSnapshot,entries_threeDisk]
    simp [deletesOf,DiskOperation.partitionIndex,rewritten]
  have applied := always 0 0 .working (fun _ => .working) (fun _ => false) threeDisk disk' 512 threeSnapshot
    (deletesOf [0,1]) queue' (.ok ()) done snapshot_threeDisk primary (by simp [plain]) sizes named ran finished
    history succeeded
  have each : ∀ op ∈ (deletesOf [0,1]).pending.map (·.body), op.sectorSize = 512 := by
    simp [deletesOf,DiskOperation.sectorSize,SECTOR_SIZE_512]
  rw [entries_threeSnapshot,snapshot_iff bears_threeDisk each (applyAll_ran ran finished history succeeded),
    ← entries_threeSnapshot,indices] at applied
  have gone : (0 : Int) ∈ [1,2] := applied.1 0 (by decide) (by decide)
  revert gone
  decide

end Sample

end SetecWizard.Core
