import SetecWizard.Operations.Rereading

/-! How an operation that succeeded went, and how its undo did: a table was read, changed
and written. Nothing else of the operations is needed to argue about them.
-/
namespace SetecWizard.Core
open SetecWizard.Library

variable {fuel : Nat} {os : Win32} {disk disk' : Disk}

/-- A table was read from a disk, changed, and written over what the disk had become. -/
structure Replaced (fuel : Nat) (os : Win32) (sectorSize : UInt32) (change : PartitionTable → Mutation PartitionTable)
    (disk middle disk' : Disk) (table table' : PartitionTable) : Prop where
  read : OperationUtils.readPartitionTable fuel os disk sectorSize = some (.ok table)
  changed : change table = (.ok (),table')
  written : OperationUtils.writePartitionTable os middle sectorSize table' = (.ok (),disk')

theorem CreatePartitionOp.execute_ok {op op' : CreatePartitionOp} {random : Bytes 16}
    {format : Disk → Mutation Disk} (plain : op.params.formatAfter = false)
    (run : op.execute fuel os random format disk = some (.ok (),op',disk')) :
    ∃ table table', Replaced fuel os op.params.sectorSize
        (fun table => table.addPartition (partParams op.params table.type) random) disk disk disk' table table' ∧
      op' = { op with createdIndex := op.indexCreated table' } := by
  unfold execute at run
  split at run
  next => cases run
  next => simp at run
  next table read =>
    split at run
    next => simp at run
    next table' changed =>
      split at run
      next => simp at run
      next after written =>
        simp only [plain,Bool.false_eq_true,if_false,Option.some.injEq,Prod.mk.injEq] at run
        obtain ⟨_,index,same⟩ := run
        rw [same] at written
        exact ⟨table,table',⟨read,changed,written⟩,index.symm⟩

theorem CreatePartitionOp.undo_ok {op op' : CreatePartitionOp}
    (run : op.undo fuel os disk = some (.ok (),op',disk')) :
    ∃ table table', Replaced fuel os op.params.sectorSize (·.deletePartition op.createdIndex) disk disk disk'
      table table' := by
  unfold undo at run
  split at run
  next => simp at run
  next =>
    split at run
    next => cases run
    next => simp at run
    next table read =>
      split at run
      next => simp at run
      next table' changed =>
        split at run
        next => simp at run
        next after written =>
          simp only [Option.some.injEq,Prod.mk.injEq] at run
          rw [run.2.2] at written
          exact ⟨table,table',⟨read,changed,written⟩⟩

section Changes

variable {table' : PartitionTable}

theorem PartitionTable.add_mbr_ok {t : MbrPartitionTable} {params : PartitionParams} {random : Bytes 16}
    (changed : (PartitionTable.mbr t).addPartition params random = (.ok (),table')) :
    t.addChecks params = .ok () ∧ table' = .mbr { t with entries := t.entries ++ [t.newEntry params] } := by
  simp only [addPartition,MbrPartitionTable.addPartition] at changed
  cases checks : t.addChecks params with
  | error e => simp [checks] at changed
  | ok _ =>
    simp only [checks] at changed
    exact ⟨rfl,(Prod.mk.inj changed).2.symm⟩

theorem PartitionTable.delete_mbr_ok {t : MbrPartitionTable} {index : Int}
    (changed : (PartitionTable.mbr t).deletePartition index = (.ok (),table')) :
    ∃ pos target, findIndex t.entries index = some pos ∧ t.entries[pos]? = some target ∧ table' =
      .mbr { t with entries := MbrPartitionTable.reindex (MbrPartitionTable.withoutEntry t.entries pos target) } := by
  simp only [deletePartition,MbrPartitionTable.deletePartition] at changed
  cases found : findIndex t.entries index with
  | none => simp [found] at changed
  | some pos =>
    obtain ⟨bound,_⟩ := findIndex_some found
    have target : t.entries[pos]? = some t.entries[pos] := List.getElem?_eq_getElem bound
    simp only [found,target,Option.getD_some] at changed
    exact ⟨pos,_,rfl,target,(Prod.mk.inj changed).2.symm⟩

theorem PartitionTable.resize_mbr_ok {t : MbrPartitionTable} {index : Int} {newStart newSize : UInt64}
    (changed : (PartitionTable.mbr t).resizePartition index newStart newSize = (.ok (),table')) :
    ∃ pos, findIndex t.entries index = some pos ∧ t.resizeChecks index newStart newSize = .ok () ∧
      table' = .mbr { t with entries := t.entries.modify pos (·.movedTo newStart newSize) } := by
  simp only [resizePartition,MbrPartitionTable.resizePartition] at changed
  cases found : findIndex t.entries index with
  | none => simp [found] at changed
  | some pos =>
    cases checks : t.resizeChecks index newStart newSize with
    | error e => simp [found,checks] at changed
    | ok _ =>
      simp only [found,checks] at changed
      exact ⟨pos,rfl,rfl,(Prod.mk.inj changed).2.symm⟩

theorem PartitionTable.add_gpt_ok {t : GptPartitionTable} {params : PartitionParams} {random : Bytes 16}
    (changed : (PartitionTable.gpt t).addPartition params random = (.ok (),table')) :
    ∃ slot, params.sectorCount ≠ 0 ∧ t.withLastUsable.addChecks params = .ok () ∧
      t.withLastUsable.freeSlot = some slot ∧ table' = .gpt { t.withLastUsable with
        entries := t.withLastUsable.entries ++ [t.withLastUsable.newEntry params random slot] } := by
  simp only [addPartition,GptPartitionTable.addPartition] at changed
  split at changed
  next => simp at changed
  next positive =>
    cases checks : t.withLastUsable.addChecks params with
    | error e => simp [checks] at changed
    | ok _ =>
      cases free : t.withLastUsable.freeSlot with
      | none => simp [checks,free] at changed
      | some slot =>
        simp only [checks,free] at changed
        exact ⟨slot,positive,rfl,rfl,(Prod.mk.inj changed).2.symm⟩

theorem PartitionTable.delete_gpt_ok {t : GptPartitionTable} {index : Int}
    (changed : (PartitionTable.gpt t).deletePartition index = (.ok (),table')) :
    ∃ pos, findIndex t.entries index = some pos ∧ table' = .gpt { t with entries := t.entries.eraseIdx pos } := by
  simp only [deletePartition,GptPartitionTable.deletePartition] at changed
  cases found : findIndex t.entries index with
  | none => simp [found] at changed
  | some pos =>
    simp only [found] at changed
    exact ⟨pos,rfl,(Prod.mk.inj changed).2.symm⟩

theorem PartitionTable.resize_gpt_ok {t : GptPartitionTable} {index : Int} {newStart newSize : UInt64}
    (changed : (PartitionTable.gpt t).resizePartition index newStart newSize = (.ok (),table')) :
    ∃ pos, findIndex t.entries index = some pos ∧ t.resizeChecks index newStart newSize = .ok () ∧
      table' = .gpt { t with entries := t.entries.modify pos (·.movedTo newStart newSize) } := by
  simp only [resizePartition,GptPartitionTable.resizePartition] at changed
  cases found : findIndex t.entries index with
  | none => simp [found] at changed
  | some pos =>
    cases checks : t.resizeChecks index newStart newSize with
    | error e => simp [found,checks] at changed
    | ok _ =>
      simp only [found,checks] at changed
      exact ⟨pos,rfl,rfl,(Prod.mk.inj changed).2.symm⟩

end Changes

/-- The entry an operation saves. -/
structure Saved (table : PartitionTable) (index : Int) (before : Option PartitionEntry)
    (after : Option PartitionEntry) (saved : PartitionEntry) : Prop where
  found : saveEntry table index before = some saved
  kept : after = some saved

theorem saveEntry_found {table : PartitionTable} {index : Int} {pos : Nat}
    (found : findIndex table.partitions index = some pos) (before : Option PartitionEntry) :
    saveEntry table index before = table.partitions[pos]? := by
  obtain ⟨bound,matched,first⟩ := List.findIdx?_eq_some_iff_getElem.mp found
  have search : table.partitions.find? (·.index == index) = some table.partitions[pos] :=
    List.find?_eq_some_iff_getElem.mpr ⟨matched,pos,bound,rfl,fun j before => by simpa using first j before⟩
  rw [saveEntry,search,Option.some_or,List.getElem?_eq_getElem bound]

theorem DeletePartitionOp.execute_ok {op op' : DeletePartitionOp}
    (run : op.execute fuel os disk = some (.ok (),op',disk')) :
    ∃ table table' saved, Replaced fuel os op.params.sectorSize (·.deletePartition op.params.partitionIndex)
        disk (wipe os disk op.params saved) disk' table table' ∧
      Saved table op.params.partitionIndex op.savedEntry op'.savedEntry saved ∧ op'.params = op.params := by
  unfold execute at run
  split at run
  next => simp at run
  next =>
    split at run
    next => cases run
    next => simp at run
    next table read =>
      split at run
      next => simp at run
      next saved found =>
        simp only at run
        split at run
        next => simp at run
        next table' changed =>
          simp only [Option.some.injEq,Prod.mk.injEq] at run
          obtain ⟨result,rfl,final⟩ := run
          exact ⟨table,table',saved,⟨read,changed,Prod.ext result final⟩,⟨found,rfl⟩,rfl⟩

theorem DeletePartitionOp.undo_ok {op : DeletePartitionOp} {random : Bytes 16} {saved : PartitionEntry}
    (kept : op.savedEntry = some saved) (run : op.undo fuel os random disk = some (.ok (),disk')) :
    ∃ table table', Replaced fuel os op.params.sectorSize (·.addPartition (undoParams saved) random)
      disk disk disk' table table' := by
  unfold undo at run
  simp only [kept] at run
  split at run
  next => cases run
  next => simp at run
  next table read =>
    split at run
    next => simp at run
    next table' changed => exact ⟨table,table',⟨read,changed,Option.some.inj run⟩⟩

theorem ResizePartitionOp.execute_ok {op op' : ResizePartitionOp}
    (run : op.execute fuel os disk = some (.ok (),op',disk')) :
    ∃ table table' saved, Replaced fuel os op.params.sectorSize
        (·.resizePartition op.params.partitionIndex op.params.newStartLba op.params.newSectorCount)
        disk disk disk' table table' ∧
      Saved table op.params.partitionIndex op.savedEntry op'.savedEntry saved ∧ op'.params = op.params := by
  unfold execute at run
  split at run
  next => simp at run
  next =>
    split at run
    next => cases run
    next => simp at run
    next table read =>
      split at run
      next => simp at run
      next saved found =>
        simp only at run
        split at run
        next => simp at run
        next =>
          split at run
          next => simp at run
          next table' changed =>
            simp only [Option.some.injEq,Prod.mk.injEq] at run
            obtain ⟨result,rfl,final⟩ := run
            exact ⟨table,table',saved,⟨read,changed,Prod.ext result final⟩,⟨found,rfl⟩,rfl⟩

theorem ResizePartitionOp.undo_ok {op : ResizePartitionOp} {saved : PartitionEntry}
    (kept : op.savedEntry = some saved) (run : op.undo fuel os disk = some (.ok (),disk')) :
    ∃ table table', Replaced fuel os op.params.sectorSize
      (·.resizePartition op.params.partitionIndex saved.startLba saved.sectorCount)
      disk disk disk' table table' := by
  unfold undo at run
  simp only [kept] at run
  split at run
  next => cases run
  next => simp at run
  next table read =>
    split at run
    next => simp at run
    next table' changed => exact ⟨table,table',⟨read,changed,Option.some.inj run⟩⟩

theorem SetFlagsOp.execute_ok {op op' : SetFlagsOp} (run : op.execute fuel os disk = some (.ok (),op',disk')) :
    ∃ table table' saved, Replaced fuel os op.params.sectorSize (changeFlags op.params) disk disk disk'
        table table' ∧
      Saved table op.params.partitionIndex op.savedEntry op'.savedEntry saved ∧ op'.params = op.params := by
  unfold execute at run
  split at run
  next => cases run
  next => simp at run
  next table read =>
    split at run
    next => simp at run
    next saved found =>
      simp only at run
      split at run
      next => simp at run
      next table' changed =>
        simp only [Option.some.injEq,Prod.mk.injEq] at run
        obtain ⟨result,rfl,final⟩ := run
        exact ⟨table,table',saved,⟨read,changed,Prod.ext result final⟩,⟨found,rfl⟩,rfl⟩

theorem SetFlagsOp.undo_ok {op : SetFlagsOp} {saved : PartitionEntry} (kept : op.savedEntry = some saved)
    (run : op.undo fuel os disk = some (.ok (),disk')) :
    ∃ table table' again, Replaced fuel os op.params.sectorSize (changeFlags (undoParams op.params saved))
        disk disk disk' table table' ∧
      saveEntry table op.params.partitionIndex none = some again := by
  unfold undo at run
  simp only [kept] at run
  obtain ⟨⟨result,after,final⟩,executed,same⟩ := Option.map_eq_some_iff.mp run
  obtain ⟨rfl,rfl⟩ := Prod.mk.inj same
  obtain ⟨table,table',again,replaced,⟨found,_⟩,_⟩ := execute_ok executed
  exact ⟨table,table',again,replaced,found⟩

end SetecWizard.Core
