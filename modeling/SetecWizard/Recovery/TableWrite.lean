import SetecWizard.Operations.CreateUndo
import SetecWizard.Operations.Overlay
import SetecWizard.Recovery.WholeReads

/-! A recovered partition put into the table of its disk. The serialized table goes to the
first sectors as it is, and takes with it what lies behind the buffer when it does not
fill the last of them. The EBRs and the second copy of a GPT follow the first sectors
in the buffer, wherever on the disk they belong.
-/
namespace SetecWizard.Core
open SetecWizard.Library

/-- All that a table says of a partition, its number apart. -/
def PartitionEntry.told (e : PartitionEntry) :
    (UInt64 × UInt64 × UInt8 × Bool × Bool × Bool) × (Guid × Guid × UInt64 × List UInt8) :=
  (e.shown,e.gptFields)

def GptPartitionTable.InArray (header : List UInt8) (sectorSize : UInt32) (lba : Nat) : Prop :=
  let first := (readLE64 header 72).toNat
  first ≤ lba ∧ lba * sectorSize.toNat <
    first * sectorSize.toNat + (readLE32 header 80 * readLE32 header 84).toNat

/-- The sectors of a disk that hold its table: the MBR and the EBRs of its chain, or the
protective MBR, the two headers and the two entry arrays. -/
def PartitionTable.Metadata (disk : Disk) (sectorSize : UInt32) : PartitionTable → Nat → Prop
  | .mbr t,lba => lba = 0 ∨ ∃ chain, ChainOf disk sectorSize (containerOf t.primaries) chain ∧
      ∃ ebr ∈ chain, ebr.lba.toNat = lba
  | .gpt _,lba =>
    let primary := disk.sector sectorSize.toNat 1
    let backup := disk.sector sectorSize.toNat (readLE64 primary 32).toNat
    lba = 0 ∨ lba = 1 ∨ GptPartitionTable.InArray primary sectorSize lba ∨ lba = (readLE64 primary 32).toNat ∨
      GptPartitionTable.Readable backup ∧ GptPartitionTable.InArray backup sectorSize lba
  | .apm _,_ => False

namespace PartitionRecovery

def tableBytes (random : Bytes 16) (partition : RecoveredPartition) (table : PartitionTable) : List UInt8 :=
  (table.addPartition (params partition table.type) random).2.serialize.toOption.getD []

/-- The disk is parsed as a table of the same kind, with the partitions there were and one
more in the place of the recovered one. -/
def Restored (disk' : Disk) (sectorSize : UInt32) (partition : RecoveredPartition) (table : PartitionTable) :
    Prop :=
  ∃ fuel after added others, parsedTable fuel .working disk' sectorSize = some (.ok after) ∧
    after.type = table.type ∧ after.partitions.Perm (added :: others) ∧
    added.startLba = partition.startLba ∧ added.sectorCount = partition.sectorCount ∧
    (others.map PartitionEntry.told).Perm (table.partitions.map PartitionEntry.told)

/-- The write reads no more than its buffer and changes no sector but those of the table,
and the table is the one before with the recovered partition. -/
structure TableOnly (disk disk' : Disk) (sectorSize : UInt32) (random : Bytes 16) (partition : RecoveredPartition)
    (table : PartitionTable) : Prop where
  reads : (OperationUtils.sectorsToWrite sectorSize (tableBytes random partition table) *
    sectorSize.toUInt64).toNat ≤ (tableBytes random partition table).length
  changes : ∀ lba, ¬ table.Metadata disk sectorSize lba →
    disk'.sector sectorSize.toNat lba = disk.sector sectorSize.toNat lba
  restored : Restored disk' sectorSize partition table

def Spared (disk : Disk) (sectorSize : UInt32) (random : Bytes 16) (partition : RecoveredPartition)
    (table : PartitionTable) : Prop :=
  ∀ lba, (lba + 1) * sectorSize.toNat ≤ (tableBytes random partition table).length →
    ¬ table.Metadata disk sectorSize lba → disk.sector sectorSize.toNat lba =
      slice (tableBytes random partition table) (lba * sectorSize.toNat) sectorSize.toNat

/-- What keeps a recovery to the table. -/
def Harmless (disk : Disk) (sectorSize : UInt32) (random : Bytes 16) (partition : RecoveredPartition)
    (table : PartitionTable) : Prop :=
  match table with
  | .mbr t => sectorSize.toNat ∣ 512 + t.logicals.length * 512 ∧ Spared disk sectorSize random partition (.mbr t) ∧
      ∃ chain, ChainOf (disk.patched 512 t.ebrImages) sectorSize (containerOf t.primaries) chain ∧
        ((chainLogicals sectorSize 0 chain).map PartitionEntry.shown).Perm (t.logicals.map PartitionEntry.shown)
  | .gpt t => Spared disk sectorSize random partition (.gpt t) ∧ ∀ e ∈ t.entries, renamed e.gptName = e.gptName
  | .apm _ => True

section Written

variable {os : Win32} {disk disk' : Disk} {sectorSize : UInt32}

theorem changes_iff {bytes : List UInt8} {count : Nat}
    (length : bytes.length = count * sectorSize.toNat) (table : Nat → Prop) :
    (∀ lba, ¬ table lba → (disk.patched 0 bytes).sector sectorSize.toNat lba = disk.sector sectorSize.toNat lba) ↔
      ∀ lba, (lba + 1) * sectorSize.toNat ≤ bytes.length → ¬ table lba →
        disk.sector sectorSize.toNat lba = slice bytes (lba * sectorSize.toNat) sectorSize.toNat := by
  have under (lba : Nat) (inside : (lba + 1) * sectorSize.toNat ≤ bytes.length) :
      (disk.patched 0 bytes).sector sectorSize.toNat lba = slice bytes (lba * sectorSize.toNat) sectorSize.toNat := by
    rw [Nat.succ_mul] at inside
    have whole := window_patch_inside disk.byte 0 bytes (lba * sectorSize.toNat) sectorSize.toNat inside
    rwa [Nat.zero_add] at whole
  have behind (lba : Nat) (outside : ¬ (lba + 1) * sectorSize.toNat ≤ bytes.length) :
      (disk.patched 0 bytes).sector sectorSize.toNat lba = disk.sector sectorSize.toNat lba := by
    have beyond : count ≤ lba := by
      refine Nat.le_of_not_lt (fun below => outside ?_)
      rw [length]
      exact Nat.mul_le_mul_right _ below
    have low := Nat.mul_le_mul_right sectorSize.toNat beyond
    refine window_congr _ _ _ _ (fun i from_lba _ => ?_)
    rw [Disk.patched_byte]
    exact patch_apart _ _ _ i (.inr (by omega))
  constructor
  · intro kept lba inside none
    rw [← under lba inside,kept lba none]
  · intro spared lba none
    by_cases inside : (lba + 1) * sectorSize.toNat ≤ bytes.length
    · rw [under lba inside,spared lba inside none]
    · exact behind lba inside

theorem reads_iff (positive : 0 < sectorSize.toNat) {bytes : List UInt8} (short : bytes.length < 2 ^ 63) :
    (OperationUtils.sectorsToWrite sectorSize bytes * sectorSize.toUInt64).toNat ≤ bytes.length ↔
      sectorSize.toNat ∣ bytes.length := by
  have spec := padded_spec sectorSize bytes positive short
  have above := Nat.lt_div_mul_add (a := bytes.length + sectorSize.toNat - 1) positive
  rw [spec.bytes]
  constructor
  · intro within
    exact ⟨(bytes.length + sectorSize.toNat - 1) / sectorSize.toNat,by rw [Nat.mul_comm]; omega⟩
  · rintro ⟨count,length⟩
    rw [Nat.mul_comm] at length
    have whole := (padded_whole sectorSize bytes count length positive short).2.sectors
    rw [spec.sectors] at whole
    rw [whole,length]

theorem written_whole (memory : Nat → UInt8) {mode : DiskAccessMode} (positive : 0 < sectorSize.toNat)
    {bytes : List UInt8} (nonempty : bytes ≠ []) (short : bytes.length < 2 ^ 63)
    (whole : sectorSize.toNat ∣ bytes.length)
    (written : RawDiskHandle.writeSectors os disk mode 0 (taken memory sectorSize bytes)
      (OperationUtils.sectorsToWrite sectorSize bytes) sectorSize = (.ok (),disk')) :
    disk' = disk.patched 0 bytes ∧ bytes.length ≤ disk.totalBytes.toNat := by
  obtain ⟨count,length⟩ := whole
  rw [Nat.mul_comm] at length
  have spec := (padded_whole sectorSize bytes count length positive short).2
  have filled : 0 < bytes.length := List.length_pos_of_ne_nil nonempty
  have some_sector : OperationUtils.sectorsToWrite sectorSize bytes ≠ 0 := by
    intro zero
    have none := spec.sectors
    rw [zero] at none
    change 0 = count at none
    rw [← none,Nat.zero_mul] at length
    omega
  have origin : ((0 : UInt64) * sectorSize.toUInt64).toNat = 0 := by
    rw [UInt64.zero_mul]
    rfl
  have exactly : taken memory sectorSize bytes = bytes := by
    rw [taken,spec.bytes,length,Nat.sub_self]
    exact List.append_nil _
  obtain ⟨room,same⟩ := writeSectors_ok some_sector written
  rw [origin,spec.bytes,← length,exactly,List.take_length] at same
  rw [origin,spec.bytes,← length] at room
  exact ⟨same,room⟩

end Written

theorem recover_ok {fuel : Nat} {os : Win32} {memory : Nat → UInt8} {random : Bytes 16} {disk disk' : Disk}
    {self : PartitionRecovery} {partition : RecoveredPartition} {sectorSize : UInt32} {table : PartitionTable}
    (scanned : self.geometry = { totalBytes := disk.totalBytes,bytesPerSector := sectorSize })
    (parsed : parsedTable fuel os disk sectorSize = some (.ok table))
    (recovered : recover fuel os memory random disk self partition = some (.ok (),disk')) :
    ∃ table', table.addPartition (params partition table.type) random = (.ok (),table') ∧
      table'.serialize = .ok (tableBytes random partition table) ∧
      RawDiskHandle.writeSectors os disk self.mode 0
        (taken memory sectorSize (tableBytes random partition table))
        (OperationUtils.sectorsToWrite sectorSize (tableBytes random partition table)) sectorSize = (.ok (),disk') := by
  unfold recover at recovered
  rw [parsedTable] at parsed
  split at recovered
  next => simp at recovered
  next =>
    simp only [scanned,parsed] at recovered
    split at recovered
    next => simp at recovered
    next table' added =>
      split at recovered
      next => simp at recovered
      next bytes serialized =>
        have same : tableBytes random partition table = bytes := by
          rw [tableBytes,added,serialized]
          rfl
        rw [same]
        exact ⟨table',added,serialized,Option.some.inj recovered⟩

section Mbr

variable {disk disk' : Disk} {sectorSize : UInt32} {chain : List Ebr} {t : MbrPartitionTable}
  {partition : RecoveredPartition}

theorem mbrType_plain (fsType : FilesystemType) : MbrTypes.isExtendedType (mbrType fsType) = false := by
  cases fsType <;> rfl

theorem mbrType_unprotective (fsType : FilesystemType) : mbrType fsType ≠ MbrTypes.GPT_Protective := by
  cases fsType <;> decide

/-- Without a container there are no logical partitions to write. -/
theorem length_images (held : MbrAt disk sectorSize chain t) : t.ebrImages.length = t.logicals.length * 512 := by
  have chained := held.chainOf
  have logical := held.primaries_logicals.2
  unfold MbrPartitionTable.ebrImages
  rw [MbrPartitionTable.findExtended_eq]
  rw [containerOf] at chained
  cases search : t.primaries.find? (·.isExtended) with
  | none =>
    rw [search] at chained
    cases chained
    simp [logical,chainLogicals]
  | some ext => exact MbrPartitionTable.length_ebrSectors ext.startLba t.logicals

theorem perm_cancel {α : Type} {a b : α} {common first second : List α}
    (whole : (common ++ a :: first).Perm (b :: (common ++ second))) (apart : a ∉ second) : first.Perm second := by
  have tail := (List.perm_append_left_iff common).mp (whole.trans List.perm_middle.symm)
  have same : a = b := by
    rcases List.mem_cons.mp (tail.mem_iff.mp List.mem_cons_self) with same | other
    · exact same
    · exact absurd other apart
  rw [same] at tail
  exact tail.cons_inv

theorem told_of_shown {first second : List PartitionEntry} (same : (first.map PartitionEntry.shown).Perm
    (second.map PartitionEntry.shown)) (blank : ∀ e ∈ first, e.gptFields = (.zero 16,.zero 16,0,[]))
    (blank' : ∀ e ∈ second, e.gptFields = (.zero 16,.zero 16,0,[])) :
    (first.map PartitionEntry.told).Perm (second.map PartitionEntry.told) := by
  have form (entries : List PartitionEntry) (each : ∀ e ∈ entries, e.gptFields = (.zero 16,.zero 16,0,[])) :
      entries.map PartitionEntry.told = (entries.map PartitionEntry.shown).map
        (fun shown => (shown,((.zero 16 : Guid),(.zero 16 : Guid),(0 : UInt64),([] : List UInt8)))) := by
    rw [List.map_map]
    exact List.map_congr_left (fun e member => by rw [PartitionEntry.told,each e member]; rfl)
  rw [form first blank,form second blank']
  exact same.map _

theorem restored_mbr_iff (held : MbrAt disk sectorSize chain t)
    (alone : t.hasGptProtective = true → ¬ GptBehind disk sectorSize) {new : PartitionEntry}
    (fits : MbrPartitionTable.Slottable new) (few : t.primaries.length < MBR_MAX_PRIMARY_PARTITIONS)
    (plain : new.isExtended = false) (type : new.mbrType ≠ MbrTypes.GPT_Protective)
    (start : new.startLba = partition.startLba) (count : new.sectorCount = partition.sectorCount)
    (laid : Overwrote disk sectorSize { t with entries := t.entries ++ [new] } disk') :
    Restored disk' sectorSize partition (.mbr t) ↔
      ∃ chain', ChainOf disk' sectorSize (containerOf t.primaries) chain' ∧
        ((chainLogicals sectorSize 0 chain').map PartitionEntry.shown).Perm (t.logicals.map PartitionEntry.shown) := by
  obtain ⟨_,primaries,_⟩ := held.rewritable.appended fits few
  have positive := laid.positive
  have place : containerOf (t.primaries ++ [new]) = containerOf t.primaries := by
    rw [containerOf,List.find?_append,List.find?_singleton,plain]
    simp [containerOf]
  have shown {chain' : List Ebr} {v : MbrPartitionTable} (again : MbrAt disk' sectorSize chain' v) :
      v.entries.map PartitionEntry.shown = t.primaries.map PartitionEntry.shown ++
        new.shown :: (chainLogicals sectorSize 0 chain').map PartitionEntry.shown := by
    have renumbered := types_chainLogicals sectorSize (t.primaries ++ [new]).length 0 chain'
    rw [laid.reread_entries again,primaries,List.map_append,List.map_append,renumbered,List.map_singleton,
      List.append_assoc,List.singleton_append]
  have before : t.entries.map PartitionEntry.shown =
      t.primaries.map PartitionEntry.shown ++ t.logicals.map PartitionEntry.shown := by
    rw [held.split,List.map_append]
  constructor
  · rintro ⟨fuel,after,added,others,parsed,kind,perm,_,_,same⟩
    cases after with
    | gpt g => simp [PartitionTable.type] at kind
    | apm a => simp [PartitionTable.type] at kind
    | mbr v =>
      obtain ⟨chain',again,_⟩ := MbrAt.of_read ((tableOf_mbr positive laid.moderate).mp parsed)
      have chained := (laid.reread again).2.2
      rw [primaries,place] at chained
      refine ⟨chain',chained,?_⟩
      have kept := same.map Prod.fst
      rw [List.map_map,List.map_map] at kept
      replace kept : (others.map PartitionEntry.shown).Perm (t.entries.map PartitionEntry.shown) := kept
      have whole := (perm.map PartitionEntry.shown).trans (kept.cons added.shown)
      rw [PartitionTable.partitions,shown again,before] at whole
      refine perm_cancel whole (fun member => ?_)
      obtain ⟨logical,among,view⟩ := List.mem_map.mp member
      have logicals := (List.mem_filter.mp among).2
      simp only [PartitionEntry.shown,Prod.mk.injEq] at view
      rw [view.2.2.2.2.2,fits.primary] at logicals
      cases logicals
  · rintro ⟨chain',chained,same⟩
    have apart : ¬ (GptBehind disk' sectorSize ∧ Protects disk' sectorSize (t.primaries ++ [new])) := by
      rintro ⟨behind,protects⟩
      refine alone ?_ (laid.gptBehind behind)
      have entry : ∃ e ∈ t.entries, e.mbrType = MbrTypes.GPT_Protective := by
        rcases protects with ⟨e,member,kind⟩ | ⟨other,again,e,member,kind⟩
        · rcases List.mem_append.mp member with old | last
          · exact ⟨e,(List.filter_sublist).subset old,kind⟩
          · rw [List.mem_singleton.mp last] at kind
            exact absurd kind type
        · rw [place] at again
          rw [again.unique chained] at member
          obtain ⟨logical,among,view⟩ := List.mem_map.mp (same.mem_iff.mp (List.mem_map_of_mem member))
          simp only [PartitionEntry.shown,Prod.mk.injEq] at view
          exact ⟨logical,(List.filter_sublist).subset among,view.2.2.1.trans kind⟩
      obtain ⟨e,member,kind⟩ := entry
      rw [MbrPartitionTable.hasGptProtective,List.any_eq_true]
      exact ⟨e,member,by rw [kind]; rfl⟩
    rw [← place,← primaries] at chained
    rw [← primaries] at apart
    obtain ⟨v,again,read⟩ := laid.reads chained apart
    have entries := shown again
    rw [List.map_eq_append_iff] at entries
    obtain ⟨front,back,split,shownFront,shownBack⟩ := entries
    obtain ⟨added,logicals,rfl,shownAdded,shownLogicals⟩ := List.map_eq_cons_iff.mp shownBack
    have moved : v.entries.Perm (added :: (front ++ logicals)) := by
      rw [split]
      exact List.perm_middle
    simp only [PartitionEntry.shown,Prod.mk.injEq] at shownAdded
    refine ⟨_,_,added,front ++ logicals,(tableOf_mbr positive laid.moderate).mpr read,rfl,moved,
      shownAdded.1.trans start,shownAdded.2.1.trans count,?_⟩
    refine told_of_shown ?_ (fun e member => again.blank e (moved.mem_iff.mpr (List.mem_cons_of_mem _ member)))
      held.blank
    rw [List.map_append,shownFront,shownLogicals,PartitionTable.partitions,before]
    exact same.append_left _

theorem chain_images {t' : MbrPartitionTable} (long : 512 ≤ sectorSize.toNat) (moderate : sectorSize.toNat ≤ 2 ^ 31)
    {images : List UInt8} {place : Option (UInt64 × UInt64)} (addressable : Addressable place) {chain : List Ebr} :
    ChainOf (disk.patched 0 (t'.mbrSector ++ images)) sectorSize place chain ↔
      ChainOf (disk.patched 512 images) sectorSize place chain := by
  have sector := t'.length_mbrSector
  have reach : OutOfReach sectorSize 512 place := fun start count found =>
    (outOfReach_sector sectorSize place start count found).imp_right (long.trans ·)
  have total : (disk.patched 0 (t'.mbrSector ++ images)).totalBytes = (disk.patched 512 images).totalBytes := rfl
  refine ChainOf.kept_iff (by omega) moderate total addressable reach (fun i behind => ?_)
  rw [Disk.patched_byte,Disk.patched_byte,patch,patch,if_pos (Nat.zero_le _),if_pos behind,Nat.sub_zero,
    List.getElem?_append_right (by omega),sector]

theorem chain_beyond (held : MbrAt disk sectorSize chain t)
    (beyond : ChainBeyond sectorSize (512 + t.ebrImages.length) (containerOf t.primaries) chain) :
    ∃ chain', ChainOf (disk.patched 512 t.ebrImages) sectorSize (containerOf t.primaries) chain' ∧
      ((chainLogicals sectorSize 0 chain').map PartitionEntry.shown).Perm (t.logicals.map PartitionEntry.shown) := by
  have above (i : Nat) (from_length : 512 + t.ebrImages.length ≤ i) :
      (disk.patched 512 t.ebrImages).byte i = disk.byte i := by
    rw [Disk.patched_byte]
    exact patch_apart _ _ _ i (.inr from_length)
  have size : (disk.patched 512 t.ebrImages).totalBytes = disk.totalBytes := by rw [Disk.patched_totalBytes]
  have renumbered := types_chainLogicals sectorSize (primaryEntries sectorSize (window disk.byte 0 512)).length 0 chain
  refine ⟨chain,held.chainOf.kept_beyond held.positive held.moderate size held.rewritable.addressable beyond above,?_⟩
  rw [held.primaries_logicals.2,renumbered]

theorem mbr_iff {fuel : Nat} {os : Win32} (full : os.ReadsInFull) {memory : Nat → UInt8} {random : Bytes 16}
    {self : PartitionRecovery} (long : 512 ≤ sectorSize.toNat) (moderate : sectorSize.toNat ≤ 2 ^ 31)
    (scanned : self.geometry = { totalBytes := disk.totalBytes,bytesPerSector := sectorSize })
    (parsed : parsedTable fuel os disk sectorSize = some (.ok (.mbr t)))
    (recovered : recover fuel os memory random disk self partition = some (.ok (),disk')) :
    TableOnly disk disk' sectorSize random partition (.mbr t) ↔ Harmless disk sectorSize random partition (.mbr t) := by
  have positive : 0 < sectorSize.toNat := by omega
  obtain ⟨table',added,serialized,written⟩ := recover_ok scanned parsed recovered
  rw [parsedTable,readFunc_full full] at parsed
  obtain ⟨chain,held,alone⟩ := MbrAt.of_read ((tableOf_mbr positive moderate).mp parsed)
  replace added : (PartitionTable.mbr t).addPartition (params partition .mbr) random = (.ok (),table') := added
  obtain ⟨accepted,rfl⟩ := PartitionTable.add_mbr_ok added
  obtain ⟨fits,few⟩ := MbrPartitionTable.slottable_newEntry held.tame accepted
  obtain ⟨rewritable,primaries,logicals⟩ := held.rewritable.appended fits few
  have plain : (t.newEntry (params partition .mbr)).isExtended = false := mbrType_plain partition.fsType
  have type : (t.newEntry (params partition .mbr)).mbrType ≠ MbrTypes.GPT_Protective :=
    mbrType_unprotective partition.fsType
  have range : (t.newEntry (params partition .mbr)).startLba = partition.startLba ∧
      (t.newEntry (params partition .mbr)).sectorCount = partition.sectorCount := ⟨rfl,rfl⟩
  generalize t.newEntry (params partition .mbr) = new at *
  have place : containerOf (t.primaries ++ [new]) = containerOf t.primaries := by
    rw [containerOf,List.find?_append,List.find?_singleton,plain]
    simp [containerOf]
  have images : MbrPartitionTable.ebrImages { t with entries := t.entries ++ [new] } = t.ebrImages :=
    MbrPartitionTable.ebrImages_of_parts (by rw [primaries,place]) (by rw [logicals])
  rw [PartitionTable.serialize,MbrPartitionTable.serialize_eq,images,Except.ok.injEq] at serialized
  have length : (tableBytes random partition (.mbr t)).length = 512 + t.logicals.length * 512 := by
    rw [← serialized,List.length_append,MbrPartitionTable.length_mbrSector,length_images held]
  have short := rewritable.short
  have most : MAX_LOGICAL_PARTITIONS = 256 := rfl
  rw [logicals] at short
  have nonempty : tableBytes random partition (.mbr t) ≠ [] := by
    intro none
    rw [none,List.length_nil] at length
    omega
  -- A buffer of whole sectors is what the operations would have written.
  have laid (whole : sectorSize.toNat ∣ (tableBytes random partition (.mbr t)).length) :
      disk' = disk.patched 0 (tableBytes random partition (.mbr t)) ∧
        Overwrote disk sectorSize { t with entries := t.entries ++ [new] } disk' := by
    obtain ⟨same,room⟩ := written_whole memory positive nonempty (by omega) whole written
    obtain ⟨count,sectors⟩ := whole
    rw [Nat.mul_comm] at sectors
    have buffer : MbrPartitionTable.buffer { t with entries := t.entries ++ [new] } sectorSize =
        tableBytes random partition (.mbr t) := by
      rw [MbrPartitionTable.buffer,images,serialized]
      exact (padded_whole sectorSize _ count sectors positive (by omega)).1
    refine ⟨same,⟨rewritable,long,moderate,by rw [buffer]; exact same,by rw [buffer]; exact room,?_⟩⟩
    have front := window_patch_inside disk.byte 0 (tableBytes random partition (.mbr t)) 0 512 (by omega)
    have first := MbrPartitionTable.length_mbrSector { t with entries := t.entries ++ [new] }
    rw [same,Disk.patched_byte]
    rw [Nat.add_zero] at front
    rw [front,← serialized,slice_append_left _ _ _ _ (by omega)]
    rw [← first]
    exact slice_all _
  have chains (whole : sectorSize.toNat ∣ (tableBytes random partition (.mbr t)).length) (chain' : List Ebr) :
      ChainOf disk' sectorSize (containerOf t.primaries) chain' ↔
        ChainOf (disk.patched 512 t.ebrImages) sectorSize (containerOf t.primaries) chain' := by
    rw [(laid whole).1,← serialized]
    exact chain_images long moderate held.rewritable.addressable
  have sectors (whole : sectorSize.toNat ∣ (tableBytes random partition (.mbr t)).length) :
      (∀ lba, ¬ (PartitionTable.mbr t).Metadata disk sectorSize lba →
        disk'.sector sectorSize.toNat lba = disk.sector sectorSize.toNat lba) ↔
          Spared disk sectorSize random partition (.mbr t) := by
    rw [(laid whole).1]
    obtain ⟨count,size⟩ := whole
    rw [Nat.mul_comm] at size
    exact changes_iff size _
  constructor
  · rintro ⟨reads,changes,restored⟩
    have whole := (reads_iff positive (by omega)).mp reads
    have kept := (restored_mbr_iff held alone fits few plain type range.1 range.2 (laid whole).2).mp restored
    simp only [chains whole] at kept
    rw [length] at whole
    exact ⟨whole,(sectors (by rw [length]; exact whole)).mp changes,kept⟩
  · rintro ⟨whole,spared,kept⟩
    rw [← length] at whole
    refine ⟨(reads_iff positive (by omega)).mpr whole,(sectors whole).mpr spared,?_⟩
    simp only [← chains whole] at kept
    exact (restored_mbr_iff held alone fits few plain type range.1 range.2 (laid whole).2).mpr kept

end Mbr

section Gpt

variable {middle disk disk' : Disk} {sectorSize : UInt32} {t : GptPartitionTable} {partition : RecoveredPartition}

theorem parsed_whole (laid : t.Overwrote middle sectorSize disk')
    (placed : window disk'.byte (2 * sectorSize.toNat) t.paddedEntries.length = t.paddedEntries)
    (room : 2 * sectorSize.toNat + t.paddedEntries.length ≤ middle.totalBytes.toNat) :
    ∃ g, GptPartitionTable.parse { diskSizeBytes := disk'.totalBytes,sectorSize }
        (readFunc .working disk' sectorSize) = .ok g ∧
      g.entries.Perm (t.entries.map (fun pe => GptPartitionTable.recorded sectorSize pe.index.toNat pe)) := by
  have positive := laid.positive
  have long : 92 ≤ t.sectorSize.toNat := by
    have whole := laid.whole
    omega
  have width := sectorSize.toNat_lt
  have one : (1 : UInt32).toNat = 1 := rfl
  have two : (2 : UInt64).toNat = 2 := rfl
  have sector := laid.anchored.sector
  have exactly := readFunc_exact disk' positive laid.moderate
  obtain ⟨_,cut⟩ := laid.reparse
  rw [readFunc_cut positive] at cut
  obtain ⟨g,parsed⟩ := (GptPartitionTable.parse_cut exactly).mp ⟨_,cut⟩
  obtain ⟨_,headerData,entryData,_,header,_,entries,same⟩ := GptPartitionTable.parse_eq parsed
  -- The header is the one that was written, and so tells where the array is.
  have second : sectorSize.toUInt64.toNat = 1 * sectorSize.toNat := by rw [UInt32.toNat_toUInt64,Nat.one_mul]
  have there : disk'.reach sectorSize.toNat sectorSize.toNat = sectorSize.toNat := by
    have space := laid.room
    rw [Disk.reach,laid.size]
    omega
  have read := readFunc_sector disk' laid.moderate sectorSize.toUInt64 positive (Nat.le_refl _)
  rw [start_sector positive second,UInt32.toNat_toUInt64,there,laid.header,readFunc_cut positive,exactly.cut,
    header,Except.ok.injEq] at read
  have describes := GptPartitionTable.primaryHeader_describes long
  have addresses := GptPartitionTable.primaryHeader_addresses long
  have third : ((2 : UInt64) * sectorSize.toUInt64).toNat = 2 * sectorSize.toNat := by
    rw [UInt64.toNat_mul,UInt32.toNat_toUInt64,two,Nat.mod_eq_of_lt (by omega)]
  have rounded := laid.recordable.rounded
  have enough := laid.recordable.arraySectors (by rw [sector]; exact positive)
  obtain ⟨length,parts⟩ := laid.recordable.paddedEntries_eq (by rw [sector]; exact positive)
  have counted : ((t.entryArrayBytes + sectorSize - 1) / sectorSize).toNat * sectorSize.toNat =
      t.paddedEntries.length := by
    rw [sector] at rounded
    rw [length,← enough.2,sector,UInt32.toNat_div,UInt32.toNat_sub,UInt32.toNat_add,one]
    congr 2
    omega
  have all : disk'.reach (2 * sectorSize.toNat) t.paddedEntries.length = t.paddedEntries.length := by
    rw [Disk.reach,laid.size]
    omega
  rw [read,addresses.entries,describes.entryCount,describes.entrySize,← GptPartitionTable.entryArrayBytes,
    readFunc_counted disk' positive,start_sector positive third,third,counted,all,placed,Except.ok.injEq] at entries
  refine ⟨g,parsed,?_⟩
  rw [same,← entries,parts]
  refine GptPartitionTable.perm_parseEntries_padded laid.recordable.toArrayed laid.recordable.typed ?_ ?_ _
  · rw [read]
    exact describes.entryCount
  · rw [read]
    exact describes.entrySize

theorem told_recorded {e : PartitionEntry} (blank : GptPartitionTable.Blank e) (i : Nat) :
    (GptPartitionTable.recorded sectorSize i e).told =
      ((e.startLba,e.sectorCount,0,false,false,false),(e.typeGuid,e.uniqueGuid,e.gptAttributes,renamed e.gptName)) ∧
      e.told = ((e.startLba,e.sectorCount,0,false,false,false),(e.typeGuid,e.uniqueGuid,e.gptAttributes,e.gptName)) := by
  obtain ⟨type,active,kind,logical⟩ := blank
  refine ⟨rfl,?_⟩
  simp only [PartitionEntry.told,PartitionEntry.shown,PartitionEntry.gptFields,type,active,kind,logical]

/-- A GPT comes back but for names that do not survive being recorded. -/
theorem restored_gpt_iff {before : GptPartitionTable} {new : PartitionEntry}
    (blank : ∀ e ∈ before.entries, GptPartitionTable.Blank e) (entries : t.entries = before.entries ++ [new])
    (start : new.startLba = partition.startLba) (count : new.sectorCount = partition.sectorCount)
    (laid : t.Overwrote middle sectorSize disk')
    (placed : window disk'.byte (2 * sectorSize.toNat) t.paddedEntries.length = t.paddedEntries)
    (room : 2 * sectorSize.toNat + t.paddedEntries.length ≤ middle.totalBytes.toNat) :
    Restored disk' sectorSize partition (.gpt before) ↔ ∀ e ∈ before.entries, renamed e.gptName = e.gptName := by
  obtain ⟨g,parsed,perm⟩ := parsed_whole laid placed room
  have positive := laid.positive
  constructor
  · rintro ⟨fuel,after,added,others,found,kind,split,_,_,same⟩ e member
    cases after with
    | mbr v => simp [PartitionTable.type] at kind
    | apm a => simp [PartitionTable.type] at kind
    | gpt g' =>
      have again := (tableOf_gpt positive laid.moderate found).2
      rw [parsed,Except.ok.injEq] at again
      subst again
      obtain ⟨other,among,view⟩ := List.mem_map.mp (same.mem_iff.mpr (List.mem_map_of_mem member))
      obtain ⟨pe,_,record⟩ := List.mem_map.mp (perm.mem_iff.mp (split.mem_iff.mpr (List.mem_cons_of_mem _ among)))
      have name : e.gptName = renamed pe.gptName := by
        rw [← record] at view
        exact (congrArg (fun told => told.2.2.2.2) view).symm
      rw [name,renamed_renamed]
  · intro named
    have exactly := readFunc_exact disk' positive laid.moderate
    obtain ⟨v,held,protective⟩ := laid.protective
    obtain ⟨sector0,first,long,noMap,signed⟩ := held.detect
    have table := held.parse
    rw [readFunc_cut positive] at first table
    rw [exactly.cut] at first
    rw [MbrPartitionTable.parse_cut] at table
    have found : parsedTable 1 .working disk' sectorSize = some (.ok (.gpt g)) :=
      PartitionTable.parse_of_gpt first long noMap signed table protective parsed
    rw [entries,List.map_append,List.map_singleton] at perm
    refine ⟨1,_,_,_,found,rfl,perm.trans (List.perm_append_singleton _ _),start,count,?_⟩
    rw [List.map_map]
    refine List.Perm.of_eq (List.map_congr_left (fun e member => ?_))
    obtain ⟨after,here⟩ := @told_recorded sectorSize e (blank e member) e.index.toNat
    rw [Function.comp_apply,after,here,named e member]

theorem gpt_iff {fuel : Nat} {os : Win32} (full : os.ReadsInFull) {memory : Nat → UInt8} {random : Bytes 16}
    {self : PartitionRecovery} {before : GptPartitionTable} (long : 512 ≤ sectorSize.toNat)
    (moderate : sectorSize.toNat ≤ 2 ^ 31)
    (scanned : self.geometry = { totalBytes := disk.totalBytes,bytesPerSector := sectorSize })
    (parsed : parsedTable fuel os disk sectorSize = some (.ok (.gpt before)))
    (within : ((PartitionTable.gpt before).addPartition (params partition .gpt) random).2.InBuffers)
    (recovered : recover fuel os memory random disk self partition = some (.ok (),disk')) :
    TableOnly disk disk' sectorSize random partition (.gpt before) ↔
      Harmless disk sectorSize random partition (.gpt before) := by
  have positive : 0 < sectorSize.toNat := by omega
  obtain ⟨table',added,serialized,written⟩ := recover_ok scanned parsed recovered
  replace added : (PartitionTable.gpt before).addPartition (params partition .gpt) random = (.ok (),table') := added
  rw [added] at within
  rw [parsedTable,readFunc_full full] at parsed
  obtain ⟨legible,found⟩ := tableOf_gpt positive moderate parsed
  obtain ⟨sector0,first,whole,noMap,_⟩ := legible.detect
  rw [readFunc_cut positive,(readFunc_exact disk positive moderate).cut] at first
  obtain ⟨slot,nonzero,accepted,free,rfl⟩ := PartitionTable.add_gpt_ok added
  rw [GptPartitionTable.withLastUsable_entries] at serialized within
  rw [GptPartitionTable.withLastUsable_freeSlot] at free
  have effect := GptPartitionTable.Effect.added (params partition .gpt) random slot nonzero accepted free
  have range : (before.withLastUsable.newEntry (params partition .gpt) random slot).startLba = partition.startLba ∧
      (before.withLastUsable.newEntry (params partition .gpt) random slot).sectorCount = partition.sectorCount :=
    ⟨rfl,rfl⟩
  generalize before.withLastUsable.newEntry (params partition .gpt) random slot = new at *
  have entries : ({ before.withLastUsable with entries := before.entries ++ [new] } : GptPartitionTable).entries =
      before.entries ++ [new] := rfl
  generalize ({ before.withLastUsable with entries := before.entries ++ [new] } : GptPartitionTable) = t' at *
  have anchored := GptPartitionTable.anchored_of_sector first whole noMap found
  have anchored' := anchored.kept effect
  have ready := GptPartitionTable.Recordable.of_added anchored (GptPartitionTable.parse_shape found).1
    (GptPartitionTable.typed_of_parse found) effect within
  replace serialized : t'.serialize = .ok (tableBytes random partition (.gpt before)) := serialized
  obtain ⟨⟨count,length⟩,room,array⟩ := ready.image_sectors (by rw [anchored'.sector]; exact long) serialized
  obtain ⟨_,short,_⟩ := ready.image (by rw [anchored'.sector]; exact long) serialized
  rw [anchored'.sector] at length room array
  have fills : sectorSize.toNat ∣ (tableBytes random partition (.gpt before)).length :=
    ⟨count,by rw [length,Nat.mul_comm]⟩
  have nonempty : tableBytes random partition (.gpt before) ≠ [] := by
    intro none
    rw [none,List.length_nil] at room
    omega
  obtain ⟨same,space⟩ := written_whole memory positive nonempty short fills written
  have laid := GptPartitionTable.Overwrote.of_patched anchored' ready long moderate serialized [] (by
    rw [List.append_nil]
    exact space)
  rw [List.append_nil,← same] at laid
  have placed : window disk'.byte (2 * sectorSize.toNat) t'.paddedEntries.length = t'.paddedEntries := by
    have inside := window_patch_inside disk.byte 0 (tableBytes random partition (.gpt before))
      (2 * sectorSize.toNat) t'.paddedEntries.length room
    rw [Nat.zero_add] at inside
    rw [same,Disk.patched_byte,inside,array]
  have names := restored_gpt_iff (GptPartitionTable.blank_of_parse found) entries range.1 range.2 laid placed (by omega)
  have sectors : (∀ lba, ¬ (PartitionTable.gpt before).Metadata disk sectorSize lba →
      disk'.sector sectorSize.toNat lba = disk.sector sectorSize.toNat lba) ↔
        Spared disk sectorSize random partition (.gpt before) := by
    rw [same]
    exact changes_iff length _
  constructor
  · rintro ⟨_,changes,restored⟩
    exact ⟨sectors.mp changes,names.mp restored⟩
  · rintro ⟨spared,named⟩
    exact ⟨(reads_iff positive short).mpr fills,sectors.mpr spared,names.mpr named⟩

end Gpt

/-- A recovery keeps to the table exactly when the buffer of an MBR fills its sectors, the
sectors under the buffer that are not the table's hold its bytes already, the chain of an
MBR lists the same logical partitions once the EBRs are laid behind the MBR, and every
name of a GPT survives being recorded. -/
theorem recover_iff {fuel : Nat} {os : Win32} (full : os.ReadsInFull) {memory : Nat → UInt8} {random : Bytes 16}
    {disk disk' : Disk} {self : PartitionRecovery} {partition : RecoveredPartition} {sectorSize : UInt32}
    {table : PartitionTable} (size : sectorSize = 512 ∨ sectorSize = 4096)
    (scanned : self.geometry = { totalBytes := disk.totalBytes,bytesPerSector := sectorSize })
    (parsed : parsedTable fuel os disk sectorSize = some (.ok table))
    (within : (table.addPartition (params partition table.type) random).2.InBuffers)
    (recovered : recover fuel os memory random disk self partition = some (.ok (),disk')) :
    TableOnly disk disk' sectorSize random partition table ↔ Harmless disk sectorSize random partition table := by
  have bounds : 512 ≤ sectorSize.toNat ∧ sectorSize.toNat ≤ 2 ^ 31 := by
    rcases size with rfl | rfl <;> decide
  cases table with
  | mbr t => exact mbr_iff full bounds.1 bounds.2 scanned parsed recovered
  | gpt t => exact gpt_iff full bounds.1 bounds.2 scanned parsed within recovered
  | apm t =>
    obtain ⟨_,added,_⟩ := recover_ok scanned parsed recovered
    simp [PartitionTable.addPartition] at added

section Sample
open MbrPartitionTable

def scannedDisk (disk : Disk) : PartitionRecovery :=
  { geometry := { totalBytes := disk.totalBytes,bytesPerSector := 512 } }

def foundFar : RecoveredPartition := { startLba := 1000,sectorCount := 100,fsType := .ntfs }

theorem recover_runs {disk : Disk} {chain : List Ebr} {t : MbrPartitionTable} {partition : RecoveredPartition}
    (held : MbrAt disk 512 chain t) (noGpt : ¬ GptBehind disk 512) (room : 2 ^ 18 + 512 ≤ disk.totalBytes.toNat)
    (accepted : t.addChecks (params partition .mbr) = .ok ()) (memory : Nat → UInt8) (random : Bytes 16) :
    parsedTable (chain.length + 1) .working disk 512 = some (.ok (.mbr t)) ∧
      ∃ disk', recover (chain.length + 1) .working memory random disk (scannedDisk disk) partition =
        some (.ok (),disk') := by
  have width : (512 : UInt32).toNat = 512 := rfl
  have most : MAX_LOGICAL_PARTITIONS = 256 := rfl
  have found := (tableOf_mbr (by decide) (by decide)).mpr (held.read (fun _ => noGpt))
  refine ⟨found,?_⟩
  obtain ⟨fits,few⟩ := slottable_newEntry held.tame accepted
  obtain ⟨rewritable,_,_⟩ := held.rewritable.appended fits few
  have added : (PartitionTable.mbr t).addPartition (params partition .mbr) random =
      (.ok (),.mbr { t with entries := t.entries ++ [t.newEntry (params partition .mbr)] }) := by
    simp only [PartitionTable.addPartition,MbrPartitionTable.addPartition,accepted]
    rfl
  generalize ({ t with entries := t.entries ++ [t.newEntry (params partition .mbr)] } : MbrPartitionTable) = t' at *
  have nonzero : partition.sectorCount ≠ 0 := ((addChecks_ok t _).mp accepted).1
  -- The images are as long as sectors are, so that nothing is read behind the buffer.
  have length : (t'.mbrSector ++ t'.ebrImages).length = 512 * (1 + t'.ebrImages.length / 512) := by
    have images : t'.ebrImages.length % 512 = 0 := by
      unfold ebrImages
      split
      next => rfl
      next ext _ => rw [length_ebrSectors,Nat.mul_mod_left]
    rw [List.length_append,length_mbrSector]
    omega
  have small := t'.length_ebrImages_le
  have short := rewritable.short
  obtain ⟨filled,spec⟩ := padded_whole 512 (t'.mbrSector ++ t'.ebrImages) _ (by rw [length,width,Nat.mul_comm])
    (by rw [width]; omega) (by omega)
  have exactly : taken memory 512 (t'.mbrSector ++ t'.ebrImages) = t'.mbrSector ++ t'.ebrImages := by
    rw [taken,spec.bytes,← spec.length,filled,Nat.sub_self]
    exact List.append_nil _
  have nonempty : t'.mbrSector ++ t'.ebrImages ≠ [] := by
    intro none
    rw [none,List.length_nil] at length
    omega
  have written := writeSectors_padded disk (by rw [width]; omega) nonempty (by rw [filled]; omega) (by rw [filled]; omega)
  rw [filled] at written
  refine ⟨disk.patched 0 (t'.mbrSector ++ t'.ebrImages),?_⟩
  rw [parsedTable] at found
  simp only [recover,if_neg nonzero,scannedDisk,found,PartitionTable.type,added,PartitionTable.serialize,
    serialize_eq,exactly,written]

theorem tableBytes_mbr {t : MbrPartitionTable} {partition : RecoveredPartition}
    (accepted : t.addChecks (params partition .mbr) = .ok ()) (random : Bytes 16) :
    tableBytes random partition (.mbr t) =
      mbrSector { t with entries := t.entries ++ [t.newEntry (params partition .mbr)] } ++
        ebrImages { t with entries := t.entries ++ [t.newEntry (params partition .mbr)] } := by
  rw [tableBytes,PartitionTable.addPartition,MbrPartitionTable.addPartition,PartitionTable.type,accepted]
  exact congrArg (fun outcome => outcome.toOption.getD []) (serialize_eq _)

/-- The EBR of the one logical partition is written to the sector behind the MBR too. -/
theorem recovery_writes_ebr : ∃ table disk', parsedTable 2 .working farDisk 512 = some (.ok table) ∧
    recover 2 .working (fun _ => 0) (.zero 16) farDisk (scannedDisk farDisk) foundFar = some (.ok (),disk') ∧
    ¬ TableOnly farDisk disk' 512 (.zero 16) foundFar table := by
  obtain ⟨noGpt,t,held,entries⟩ := farDisk_held
  obtain ⟨size,sector⟩ := held.geometry
  have accepted : t.addChecks (params foundFar .mbr) = .ok () := by
    rw [@CreatePartitionOp.addChecks_congr t (tableOf [rewritten 512 0 farContainer,ebrRewritten 512 8 1 farLogical])
      size sector entries]
    decide
  obtain ⟨parsed,disk',recovered⟩ := recover_runs held noGpt (room_of_size farDisk_size) accepted (fun _ => 0)
    (.zero 16)
  refine ⟨.mbr t,disk',parsed,recovered,fun only => ?_⟩
  obtain ⟨_,spared,_⟩ := (mbr_iff Win32.working_readsInFull (by decide) (by decide) rfl parsed recovered).mp only
  have bytes : tableBytes (.zero 16) foundFar (.mbr t) = mbrSector { t with entries := t.entries ++
      [t.newEntry (params foundFar .mbr)] } ++ ebrSector 8 (ebrRewritten 512 8 1 farLogical) none := by
    have written : ebrImages { t with entries := t.entries ++ [t.newEntry (params foundFar .mbr)] } =
        ebrSector 8 (ebrRewritten 512 8 1 farLogical) none := by
      rw [ebrImages,findExtended,MbrPartitionTable.logicals,entries]
      exact List.append_nil _
    rw [tableBytes_mbr accepted,written]
  have first := length_mbrSector { t with entries := t.entries ++ [t.newEntry (params foundFar .mbr)] }
  have second := length_ebrSector 8 (ebrRewritten 512 8 1 farLogical) none
  have width : (512 : UInt32).toNat = 512 := rfl
  have elsewhere : ¬ (PartitionTable.mbr t).Metadata farDisk 512 1 := by
    rintro (none | ⟨chain,chained,ebr,member,here⟩)
    · cases none
    · rw [held.chainOf.unique chained |>.symm,List.mem_singleton] at member
      rw [member] at here
      cases here
  have same := spared 1 (by rw [bytes,List.length_append,first,second,width]) elsewhere
  have behind := slice_append_right (mbrSector { t with entries := t.entries ++ [t.newEntry (params foundFar .mbr)] })
    (ebrSector 8 (ebrRewritten 512 8 1 farLogical) none) 0 512
  have whole := slice_all (ebrSector 8 (ebrRewritten 512 8 1 farLogical) none)
  rw [second] at whole
  rw [first,Nat.add_zero,whole] at behind
  rw [bytes,width,Nat.one_mul,behind] at same
  have blank : farDisk.sector 512 1 = window blankDisk.byte 512 512 := by
    refine window_congr _ _ _ _ (fun i from_sector inside => ?_)
    have buffer : ((tableOf [farContainer]).buffer 512).length = 512 := by decide +kernel
    rw [farDisk,bearing,Disk.patched_byte,patch_apart _ _ _ i (.inr (by omega))]
    exact farBase_wiped i (by omega)
  have signed := ebrSector_signed 8 (ebrRewritten 512 8 1 farLogical) none
  rw [blank] at same
  rw [← same] at signed
  revert signed
  decide +kernel

theorem recovery_of_first : ∃ table disk', parsedTable 1 .working CreatePartitionOp.emptyDisk 512 = some (.ok table) ∧
    recover 1 .working (fun _ => 0) (.zero 16) CreatePartitionOp.emptyDisk (scannedDisk CreatePartitionOp.emptyDisk)
      foundFar = some (.ok (),disk') ∧
    TableOnly CreatePartitionOp.emptyDisk disk' 512 (.zero 16) foundFar table := by
  have rewritable : Rewritable (tableOf []) := ⟨fun e member => absurd member (by simp [tableOf,primaries]),
    by decide,by decide,by decide⟩
  obtain ⟨noGpt,t,held,entries⟩ := held_bearing rewritable rfl (rfl : blankDisk.totalBytes = 1048576) rfl .absent
  obtain ⟨size,sector⟩ := held.geometry
  replace entries : t.entries = [] := entries
  have logicals : t.logicals = [] := by
    rw [MbrPartitionTable.logicals,entries]
    rfl
  have accepted : t.addChecks (params foundFar .mbr) = .ok () := by
    rw [@CreatePartitionOp.addChecks_congr t (tableOf []) size sector entries]
    decide
  obtain ⟨parsed,disk',recovered⟩ := recover_runs held noGpt
    (room_of_size (bearing_size [] (rfl : blankDisk.totalBytes = 1048576))) accepted (fun _ => 0) (.zero 16)
  refine ⟨.mbr t,disk',parsed,recovered,?_⟩
  refine (recover_iff Win32.working_readsInFull (.inl rfl) rfl parsed trivial recovered).mpr ?_
  refine ⟨by rw [logicals]; exact ⟨1,rfl⟩,fun lba inside elsewhere => ?_,[],?_,by rw [logicals]; exact .refl _⟩
  · have bytes : (tableBytes (.zero 16) foundFar (.mbr t)).length = 512 := by
      have none : ebrImages { t with entries := t.entries ++ [t.newEntry (params foundFar .mbr)] } = [] := by
        apply ebrImages_nil
        rw [MbrPartitionTable.logicals,entries]
        rfl
      rw [tableBytes_mbr accepted,none,List.append_nil,length_mbrSector]
    have width : (512 : UInt32).toNat = 512 := rfl
    rw [bytes,width] at inside
    exact absurd (.inl (by omega)) elsewhere
  · rw [primaries,entries]
    exact .absent

end Sample

end PartitionRecovery
end SetecWizard.Core
