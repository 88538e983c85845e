import SetecWizard.Operations.PrimaryDisk

/-! One queued operation on a disk with primary partitions. An operation that succeeds has
read the table, changed the entry it found under its index, and written the table
back, which puts the entries into the first slots and so numbers them by position.
-/
namespace SetecWizard.Core
open SetecWizard.Library MbrPartitionTable

namespace DiskOperation

/-- The change an operation makes to the table it has read. -/
def call : DiskOperation → MbrCall
  | .delete op => .delete op.params.partitionIndex
  | .resize op => .resize op.params.partitionIndex op.params.newStartLba op.params.newSectorCount

/-- The entries after the operation has met its partition at a position. -/
def edit (op : DiskOperation) (pos : Nat) (entries : List PartitionEntry) : List PartitionEntry :=
  match op with
  | .delete _ => entries.eraseIdx pos
  | .resize op => entries.modify pos (·.movedTo op.params.newStartLba op.params.newSectorCount)

end DiskOperation

/-- What is left of a table of primary partitions after an operation changed it. -/
structure Edited (op : DiskOperation) (t t' : MbrPartitionTable) (pos : Nat) : Prop where
  found : findIndex t.entries op.partitionIndex = some pos
  fits : ∀ e ∈ t'.entries, FitsSlot e
  seen : t'.entries.map PartitionEntry.seen = (op.edit pos t.entries).map PartitionEntry.seen
  few : t'.entries.length ≤ t.entries.length
  types : ∀ e ∈ t'.entries, ∃ old ∈ t.entries, e.mbrType = old.mbrType

theorem edited_delete {op : DeletePartitionOp} {t : MbrPartitionTable} (fits : ∀ e ∈ t.entries, FitsSlot e)
    {pos : Nat} {target : PartitionEntry} (found : findIndex t.entries op.params.partitionIndex = some pos)
    (at_pos : t.entries[pos]? = some target) :
    Edited (.delete op) t { t with entries := reindex (withoutEntry t.entries pos target) } pos := by
  have plain := (fits target (List.mem_of_getElem? at_pos)).plain
  have kept : withoutEntry t.entries pos target = t.entries.eraseIdx pos := by
    rw [withoutEntry,plain]
    rfl
  refine ⟨found,?_,?_,?_,?_⟩
  · intro e member
    obtain ⟨old,among,i,rfl⟩ := mem_after_delete member
    obtain ⟨primary,plain,type,low,short,occupies⟩ := fits old among
    exact ⟨primary,plain,type,low,short,occupies⟩
  · rw [kept]
    exact map_reindex PartitionEntry.seen (fun _ _ => rfl) _
  · rw [reindex_length]
    exact (withoutEntry_sublist _ _ _).length_le
  · intro e member
    obtain ⟨old,among,i,rfl⟩ := mem_after_delete member
    exact ⟨old,among,rfl⟩

theorem edited_resize {op : ResizePartitionOp} {t : MbrPartitionTable} (fits : ∀ e ∈ t.entries, FitsSlot e)
    {pos : Nat} (found : findIndex t.entries op.params.partitionIndex = some pos)
    (accepted : t.resizeChecks op.params.partitionIndex op.params.newStartLba op.params.newSectorCount = .ok ()) :
    Edited (.resize op) t
      { t with entries := t.entries.modify pos (·.movedTo op.params.newStartLba op.params.newSectorCount) }
      pos := by
  obtain ⟨positive,_,⟨low,short⟩,_⟩ := (resizeChecks_ok _ _ _ _).mp accepted
  refine ⟨found,?_,rfl,?_,?_⟩
  · intro e member
    rcases mem_after_resize member with old | ⟨old,at_pos,rfl⟩
    · exact fits e old
    · exact (fits old (List.mem_of_getElem? at_pos)).moved positive low short
  · rw [List.length_modify]
  · intro e member
    rcases mem_after_resize member with old | ⟨old,at_pos,rfl⟩
    · exact ⟨e,old,rfl⟩
    · exact ⟨old,List.mem_of_getElem? at_pos,rfl⟩

theorem edited {op : DiskOperation} {t : MbrPartitionTable} (fits : ∀ e ∈ t.entries, FitsSlot e)
    (accepted : t.Accepts op.call) : ∃ pos, Edited op t (op.call.step t) pos := by
  have effect := step_effect t op.call
  generalize op.call.step t = t' at effect ⊢
  cases op with
  | delete op =>
    cases effect with
    | refused _ failed => exact absurd accepted failed
    | deleted _ pos target found at_pos => exact ⟨pos,edited_delete fits found at_pos⟩
  | resize op =>
    cases effect with
    | refused _ failed => exact absurd accepted failed
    | resized _ _ _ pos found checks => exact ⟨pos,edited_resize fits found checks⟩

section Execute

variable {fuel : Nat} {os : Win32} {disk disk' : Disk}

theorem wipe_wiped (entries : List PartitionEntry) (params : DeletePartitionOp.Params) (saved : PartitionEntry)
    (member : saved ∈ entries) :
    Wiped disk params.sectorSize entries (DeletePartitionOp.wipe os disk params saved) := by
  unfold DeletePartitionOp.wipe
  split
  · simp only
    rcases writeSectors_byte .readWrite
      saved.startLba _ _ with same | ⟨m,zeros⟩
    · rw [same]
      exact .untouched
    · rw [zeros,List.take_replicate]
      exact .zeroed saved member _
  · exact .untouched

theorem saveEntry_present {t : MbrPartitionTable} {index : Int} (before : Option PartitionEntry)
    (present : (findIndex t.entries index).isSome) :
    ∃ saved ∈ t.entries, saveEntry (.mbr t) index before = some saved := by
  obtain ⟨pos,at_index⟩ := Option.isSome_iff_exists.mp present
  obtain ⟨bound,same⟩ := findIndex_some at_index
  have hit : (t.entries.find? (·.index == index)).isSome :=
    List.find?_isSome.mpr ⟨_,List.getElem_mem bound,by simpa using same⟩
  obtain ⟨e,search⟩ := Option.isSome_iff_exists.mp hit
  refine ⟨e,List.mem_of_find?_eq_some search,?_⟩
  rw [saveEntry,PartitionTable.partitions,search]
  rfl

/-- How an operation that succeeded went: it read a table, and an MBR it changed and wrote. -/
inductive Executed (fuel : Nat) (os : Win32) (op : DiskOperation) (disk disk' : Disk) : PartitionTable → Prop
  | mbr (t : MbrPartitionTable) (middle : Disk) (accepted : t.Accepts op.call)
      (wiped : Wiped disk op.sectorSize t.entries middle)
      (written : OperationUtils.writePartitionTable os middle op.sectorSize (.mbr (op.call.step t)) =
        (.ok (),disk')) : Executed fuel os op disk disk' (.mbr t)
  | other (table : PartitionTable) (kind : table.type ≠ .mbr) : Executed fuel os op disk disk' table

theorem delete_executed {op op' : DeletePartitionOp} (run : op.execute fuel os disk = some (.ok (),op',disk')) :
    ∃ table, OperationUtils.readPartitionTable fuel os disk op.params.sectorSize = some (.ok table) ∧
      Executed fuel os (.delete op) disk disk' table := by
  unfold DeletePartitionOp.execute at run
  split at run
  next => simp at run
  next =>
    split at run
    next => cases run
    next => simp at run
    next table read =>
      refine ⟨table,read,?_⟩
      split at run
      next => simp at run
      next saved found =>
        cases table with
        | gpt t => exact .other _ (by simp [PartitionTable.type])
        | apm t => exact .other _ (by simp [PartitionTable.type])
        | mbr t =>
          simp only at run
          split at run
          next => simp at run
          next changed outcome =>
            have step : (t.deletePartition op.params.partitionIndex).1 = .ok () ∧
                changed = .mbr (MbrCall.step t (.delete op.params.partitionIndex)) := by
              obtain ⟨result,after⟩ := Prod.ext_iff.mp outcome
              exact ⟨result,after.symm⟩
            obtain ⟨accepted,rfl⟩ := step
            have present := (apply_ok t (.delete op.params.partitionIndex)).mp accepted
            obtain ⟨e,member,first⟩ := saveEntry_present op.savedEntry present
            rw [first] at found
            cases found
            simp only [Option.some.injEq,Prod.mk.injEq] at run
            obtain ⟨result,_,final⟩ := run
            exact .mbr t _ present (wipe_wiped t.entries op.params _ member) (Prod.ext result final)

theorem resize_executed {op op' : ResizePartitionOp} (run : op.execute fuel os disk = some (.ok (),op',disk')) :
    ∃ table, OperationUtils.readPartitionTable fuel os disk op.params.sectorSize = some (.ok table) ∧
      Executed fuel os (.resize op) disk disk' table := by
  unfold ResizePartitionOp.execute at run
  split at run
  next => simp at run
  next =>
    split at run
    next => cases run
    next => simp at run
    next table read =>
      refine ⟨table,read,?_⟩
      split at run
      next => simp at run
      next saved found =>
        cases table with
        | gpt t => exact .other _ (by simp [PartitionTable.type])
        | apm t => exact .other _ (by simp [PartitionTable.type])
        | mbr t =>
          simp only at run
          split at run
          next => simp at run
          next =>
            split at run
            next => simp at run
            next changed outcome =>
              have step : (t.resizePartition op.params.partitionIndex op.params.newStartLba
                    op.params.newSectorCount).1 = .ok () ∧
                  changed = .mbr (MbrCall.step t (.resize op.params.partitionIndex op.params.newStartLba
                    op.params.newSectorCount)) := by
                obtain ⟨result,after⟩ := Prod.ext_iff.mp outcome
                exact ⟨result,after.symm⟩
              obtain ⟨accepted,rfl⟩ := step
              have present := (apply_ok t (.resize op.params.partitionIndex op.params.newStartLba
                op.params.newSectorCount)).mp accepted
              simp only [Option.some.injEq,Prod.mk.injEq] at run
              obtain ⟨result,_,final⟩ := run
              exact .mbr t _ present .untouched (Prod.ext result final)

theorem executed {op op' : DiskOperation} (run : op.execute fuel os disk = some (.ok (),op',disk')) :
    ∃ table, OperationUtils.readPartitionTable fuel os disk op.sectorSize = some (.ok table) ∧
      Executed fuel os op disk disk' table := by
  cases op with
  | delete op =>
    obtain ⟨⟨result,after,final⟩,done,same⟩ := Option.map_eq_some_iff.mp run
    cases same
    exact delete_executed done
  | resize op =>
    obtain ⟨⟨result,after,final⟩,done,same⟩ := Option.map_eq_some_iff.mp run
    cases same
    exact resize_executed done

end Execute

section Step

variable {os : Win32} {disk middle disk' : Disk} {sectorSize : UInt32} {raw : List UInt8}

theorem ebrImages_of_plain {t : MbrPartitionTable} (fits : ∀ e ∈ t.entries, FitsSlot e) : t.ebrImages = [] := by
  have none : t.findExtended = none :=
    List.find?_eq_none.mpr (fun e member => by simp [(fits e member).plain])
  rw [ebrImages,none]

theorem length_buffer_of_plain {t : MbrPartitionTable} (fits : ∀ e ∈ t.entries, FitsSlot e)
    (bound : 512 ≤ sectorSize.toNat) : (t.buffer sectorSize).length = sectorSize.toNat := by
  have length := t.length_mbrSector
  rw [buffer,ebrImages_of_plain fits,List.append_nil]
  generalize t.mbrSector = sector at length
  have spec := padded_spec sectorSize sector (by omega) (by omega)
  have single : (sector.length + sectorSize.toNat - 1) / sectorSize.toNat = 1 :=
    Nat.div_eq_of_lt_le (by omega) (by omega)
  have whole := spec.length
  rw [single,Nat.one_mul] at whole
  exact whole

theorem BearsMbr.rewritten (bears : BearsMbr disk sectorSize raw) (bound : 512 ≤ sectorSize.toNat)
    {op : DiskOperation} {t t' : MbrPartitionTable} {pos : Nat} (boot : t'.bootCode = t.bootCode)
    (table : t = MbrPartitionTable.scanned { diskSizeBytes := disk.totalBytes,sectorSize } raw [])
    (change : Edited op t t' pos) (wiped : Wiped disk sectorSize t.entries middle)
    (written : OperationUtils.writePartitionTable os middle sectorSize (.mbr t') = (.ok (),disk')) :
    BearsMbr disk' sectorSize t'.mbrSector ∧
      primaryEntries sectorSize t'.mbrSector = t'.entries.mapIdx (MbrPartitionTable.rewritten sectorSize) := by
  have entries : t.entries = primaryEntries sectorSize raw := by
    rw [table]
    exact entries_scanned _ _
  have fits := fits_primaryEntries bears.primary
  have all : t'.primaries = t'.entries :=
    List.filter_eq_self.mpr (fun e member => by simp [(change.fits e member).primary])
  have few : t'.entries.length ≤ 4 := by
    refine change.few.trans ?_
    rw [entries]
    exact length_primaryEntries_le _ _
  have slots := primaryEntries_mbrSector t' sectorSize (by rw [all]; exact few)
    (by rw [all]; exact fun e member => (change.fits e member).occupies)
  rw [all] at slots
  have signed := t'.mbrSector_signed
  have map : readBE16 t'.mbrSector 0 = readBE16 raw 0 := by
    rw [readBE16_mbrSector,boot,table]
    exact readBE16_scanned _ bears.size []
  have width := length_buffer_of_plain change.fits bound
  obtain ⟨whole,_,first⟩ := mbr_written (by omega)
    (by rw [ebrImages_of_plain change.fits]; exact Nat.two_pow_pos 62) written
  generalize t'.mbrSector = raw' at *
  generalize t'.buffer sectorSize = block at *
  refine ⟨⟨⟨first,signed,by rw [map]; exact bears.noMap⟩,?_,?_⟩,slots⟩
  · intro e member
    rw [slots] at member
    obtain ⟨i,inside,rfl⟩ := List.mem_mapIdx.mp member
    exact (change.fits _ (List.getElem_mem inside)).type
  · rintro ⟨e,member,type⟩
    rw [slots] at member
    obtain ⟨i,inside,rfl⟩ := List.mem_mapIdx.mp member
    obtain ⟨old,among,same⟩ := change.types _ (List.getElem_mem inside)
    rw [entries] at among wiped
    have unread := bears.noGpt ⟨old,among,same.symm.trans type⟩
    have between := unread.kept (by omega) wiped.size
      (wiped.header (fun e member => (fits e member).low))
    have second : ∀ j, sectorSize.toNat ≤ j → j < sectorSize.toNat + sectorSize.toNat →
        (middle.patched 0 block).byte j = middle.byte j :=
      fun j low _ => patch_apart middle.byte 0 block j (.inr (by omega))
    have size : (middle.patched 0 block).totalBytes = middle.totalBytes := rfl
    rw [whole]
    exact between.kept (by omega) size (.inr second)

/-- What an operation does to the entries: the one under its index is taken out or moved, and
all are numbered anew. -/
structure Advanced (op : DiskOperation) (entries entries' : List PartitionEntry) (pos : Nat) : Prop where
  found : findIndex entries op.partitionIndex = some pos
  seen : entries'.map PartitionEntry.seen = (op.edit pos entries).map PartitionEntry.seen
  numbered : ∀ (i : Nat) (e : PartitionEntry), entries'[i]? = some e → e.index = (i : Int)

theorem BearsMbr.step (bears : BearsMbr disk sectorSize raw) {fuel : Nat} {op op' : DiskOperation}
    (size : op.sectorSize = sectorSize) (run : op.execute fuel os disk = some (.ok (),op',disk')) :
    ∃ pos raw', BearsMbr disk' sectorSize raw' ∧
      Advanced op (primaryEntries sectorSize raw) (primaryEntries sectorSize raw') pos := by
  obtain ⟨table,read,went⟩ := executed run
  rw [size] at read
  obtain ⟨bound,same⟩ := bears.read read
  cases went with
  | other _ kind =>
    rw [same] at kind
    exact absurd rfl kind
  | mbr t middle accepted wiped written =>
    have scanned := PartitionTable.mbr.inj same
    have entries : t.entries = primaryEntries sectorSize raw := by
      rw [scanned]
      exact entries_scanned _ _
    have fits : ∀ e ∈ t.entries, FitsSlot e := by
      rw [entries]
      exact fits_primaryEntries bears.primary
    obtain ⟨pos,change⟩ := edited fits accepted
    have boot := effect_bootCode (step_effect t op.call)
    rw [size] at wiped written
    generalize op.call.step t = t' at *
    obtain ⟨after,slots⟩ := bears.rewritten bound boot scanned change wiped written
    refine ⟨pos,_,after,?_⟩
    rw [slots,← entries]
    refine ⟨change.found,?_,?_⟩
    · rw [← change.seen]
      apply List.ext_getElem?
      intro i
      rw [List.getElem?_map,List.getElem?_mapIdx,List.getElem?_map]
      cases at_i : t'.entries[i]? with
      | none => rfl
      | some e => exact congrArg some ((change.fits e (List.mem_of_getElem? at_i)).rewritten_seen sectorSize i)
    · intro i e at_i
      rw [List.getElem?_mapIdx] at at_i
      obtain ⟨old,_,rfl⟩ := Option.map_eq_some_iff.mp at_i
      rfl

theorem BearsMbr.deletes (bears : BearsMbr disk sectorSize raw) (bound : 512 ≤ sectorSize.toNat)
    (moderate : sectorSize.toNat < 2 ^ 31) (room : sectorSize.toNat ≤ disk.totalBytes.toNat)
    (op : DeletePartitionOp) (size : op.params.sectorSize = sectorSize) (unmounted : op.params.driveLetter = 0)
    (kept : op.params.wipeFirstSectors = false)
    (present : (findIndex (primaryEntries sectorSize raw) op.params.partitionIndex).isSome) (fuel : Nat) :
    ∃ op' disk', op.execute fuel .working disk = some (.ok (),op',disk') ∧
      disk'.totalBytes = disk.totalBytes := by
  have read := bears.readable bound moderate room fuel
  generalize table : MbrPartitionTable.scanned { diskSizeBytes := disk.totalBytes,sectorSize } raw [] = t at read
  have entries : t.entries = primaryEntries sectorSize raw := by
    rw [← table]
    exact entries_scanned _ _
  rw [← entries] at present
  have fits : ∀ e ∈ t.entries, FitsSlot e := by
    rw [entries]
    exact fits_primaryEntries bears.primary
  obtain ⟨saved,_,found⟩ := saveEntry_present op.savedEntry present
  have deleted : (PartitionTable.mbr t).deletePartition op.params.partitionIndex =
      (.ok (),.mbr (MbrCall.step t (.delete op.params.partitionIndex))) :=
    Prod.ext ((apply_ok t (.delete op.params.partitionIndex)).mpr present) rfl
  have accepted : t.Accepts (DiskOperation.delete op).call := present
  obtain ⟨pos,change⟩ := edited fits accepted
  have fits' : ∀ e ∈ (MbrCall.step t (.delete op.params.partitionIndex)).entries, FitsSlot e := change.fits
  generalize MbrCall.step t (.delete op.params.partitionIndex) = t' at deleted fits'
  have width := length_buffer_of_plain fits' bound
  have written : OperationUtils.writePartitionTable .working disk sectorSize (.mbr t') =
      (.ok (),disk.patched 0 (t'.buffer sectorSize)) :=
    mbr_write_working t' disk (by omega) (by omega) (by omega)
  generalize t'.buffer sectorSize = block at written
  refine ⟨{ op with savedEntry := some saved },disk.patched 0 block,?_,disk.patched_totalBytes 0 block⟩
  unfold DeletePartitionOp.execute
  simp only [unmounted,OperationUtils.lockIfMounted,ne_eq,not_true,if_false,size,read,found,deleted,
    DeletePartitionOp.wipe,kept]
  rw [written]

end Step

end SetecWizard.Core
