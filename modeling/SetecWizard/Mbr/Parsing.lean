import SetecWizard.Mbr.Chain

/-! What a successful parse says about the disk: a signed sector 0, the entries of
its occupied slots in slot order, and after them the logical partitions of the
chain that the first extended slot points at.
-/
namespace SetecWizard.Core
open SetecWizard.Library

def primaryEntries (sectorSize : UInt32) (raw : List UInt8) : List PartitionEntry :=
  (occupiedSlots raw).map (primaryEntry sectorSize raw)

/-- The chain of the disk: none without an extended slot. -/
inductive DiskChain (sectorSize : UInt32) (readFunc : DiskReadCallback) (raw : List UInt8) :
    List Ebr → Prop
  | absent (search : (primaryEntries sectorSize raw).find? (·.isExtended) = none) :
      DiskChain sectorSize readFunc raw []
  | walked (ext : PartitionEntry) (chain : List Ebr)
      (search : (primaryEntries sectorSize raw).find? (·.isExtended) = some ext)
      (walk : EbrChain sectorSize readFunc ext.startLba ext.sectorCount MAX_LOGICAL_PARTITIONS
        ext.startLba chain) : DiskChain sectorSize readFunc raw chain

theorem DiskChain.unique {sectorSize : UInt32} {readFunc : DiskReadCallback} {raw : List UInt8}
    {first second : List Ebr} (one : DiskChain sectorSize readFunc raw first)
    (two : DiskChain sectorSize readFunc raw second) : first = second := by
  cases one with
  | absent search =>
    cases two with
    | absent => rfl
    | walked ext chain search' => simp [search] at search'
  | walked ext chain search walk =>
    cases two with
    | absent search' => simp [search] at search'
    | walked ext' chain' search' walk' =>
      rw [search] at search'
      cases search'
      exact walk.unique walk'

namespace MbrPartitionTable

def scanned (self : MbrPartitionTable) (raw : List UInt8) (chain : List Ebr) : MbrPartitionTable :=
  { diskSizeBytes := self.diskSizeBytes
    sectorSize := self.sectorSize
    bootCode := .copy raw 0 446
    diskSignature := readLE32 raw 440
    reserved := readLE16 raw 444
    entries := primaryEntries self.sectorSize raw
      ++ chainLogicals self.sectorSize (occupiedSlots raw).length chain }

theorem entries_scanned (self : MbrPartitionTable) (raw : List UInt8) :
    (self.scanned raw []).entries = primaryEntries self.sectorSize raw := by
  simp [scanned,chainLogicals]

structure Scan (old : MbrPartitionTable) (readFunc : DiskReadCallback) (raw : List UInt8)
    (chain : List Ebr) (t : MbrPartitionTable) : Prop where
  sector : readFunc 0 MBR_SIZE = .ok raw
  whole : MBR_SIZE.toNat ≤ raw.length
  signed : readLE16 raw 510 = MBR_SIGNATURE
  onDisk : DiskChain old.sectorSize readFunc raw chain
  table : t = old.scanned raw chain

theorem parse_scan {fuel : Nat} {self t : MbrPartitionTable} {readFunc : DiskReadCallback}
    (parsed : parse fuel self readFunc = some (.ok t)) :
    ∃ raw chain, Scan self readFunc raw chain t := by
  unfold parse at parsed
  cases sector : readFunc 0 MBR_SIZE with
  | error e => simp [sector] at parsed
  | ok raw =>
    simp only [sector] at parsed
    split at parsed
    next => simp at parsed
    next whole =>
      split at parsed
      next => simp at parsed
      next signed =>
        have signed : readLE16 raw 510 = MBR_SIGNATURE := not_not.mp signed
        have primaries : (occupiedSlots raw).map (primaryEntry self.sectorSize raw) =
          primaryEntries self.sectorSize raw := rfl
        rw [primaries] at parsed
        cases search : (primaryEntries self.sectorSize raw).find? (·.isExtended) with
        | none =>
          simp only [search,Option.some.injEq,Except.ok.injEq] at parsed
          refine ⟨raw,[],sector,Nat.le_of_not_lt whole,signed,.absent search,?_⟩
          rw [← parsed]
          simp [scanned,chainLogicals]
        | some ext =>
          simp only [search] at parsed
          obtain ⟨⟨outcome,entries⟩,walked,same⟩ := Option.map_eq_some_iff.mp parsed
          obtain ⟨chain,onDisk,pushed⟩ := ebrLoop_chain walked (Nat.zero_le _)
          refine ⟨raw,chain,sector,Nat.le_of_not_lt whole,signed,.walked ext chain search onDisk,?_⟩
          · have length : (primaryEntries self.sectorSize raw).length = (occupiedSlots raw).length := by
              simp [primaryEntries]
            simp only [length] at pushed
            simp only [Except.ok.injEq] at same
            rw [← same,pushed,scanned]

/-- Without an extended slot there is nothing to walk. -/
theorem parse_of_no_container (self : MbrPartitionTable) {readFunc : DiskReadCallback} {raw : List UInt8}
    (sector : readFunc 0 MBR_SIZE = .ok raw) (whole : MBR_SIZE.toNat ≤ raw.length)
    (signed : readLE16 raw 510 = MBR_SIGNATURE)
    (search : (primaryEntries self.sectorSize raw).find? (·.isExtended) = none) (fuel : Nat) :
    parse fuel self readFunc = some (.ok (self.scanned raw [])) := by
  have primaries : (occupiedSlots raw).map (primaryEntry self.sectorSize raw) =
    primaryEntries self.sectorSize raw := rfl
  unfold parse
  simp only [sector,if_neg (Nat.not_lt.mpr whole),if_neg (not_not.mpr signed),primaries,search]
  simp [scanned,chainLogicals]

theorem parse_of_chain (self : MbrPartitionTable) {readFunc : DiskReadCallback} {raw : List UInt8}
    {chain : List Ebr} (sector : readFunc 0 MBR_SIZE = .ok raw) (whole : MBR_SIZE.toNat ≤ raw.length)
    (signed : readLE16 raw 510 = MBR_SIGNATURE) (onDisk : DiskChain self.sectorSize readFunc raw chain)
    {fuel : Nat} (enough : chain.length < fuel) :
    parse fuel self readFunc = some (.ok (self.scanned raw chain)) := by
  cases onDisk with
  | absent search => exact parse_of_no_container self sector whole signed search fuel
  | walked ext chain search walk =>
    have primaries : (occupiedSlots raw).map (primaryEntry self.sectorSize raw) =
      primaryEntries self.sectorSize raw := rfl
    unfold parse
    simp only [sector,if_neg (Nat.not_lt.mpr whole),if_neg (not_not.mpr signed),primaries,search]
    obtain ⟨outcome,run⟩ := ebrLoop_complete walk enough
      ⟨ext.startLba,0,primaryEntries self.sectorSize raw⟩ rfl rfl
    have length : (primaryEntries self.sectorSize raw).length = (occupiedSlots raw).length := by
      simp [primaryEntries]
    simp only [length] at run
    simp only [walkExtendedChain,run,Option.map_some,scanned]

theorem mem_primaryEntries {sectorSize : UInt32} {raw : List UInt8} {e : PartitionEntry}
    (member : e ∈ primaryEntries sectorSize raw) :
    ∃ i ∈ occupiedSlots raw, e = primaryEntry sectorSize raw i := by
  obtain ⟨i,occupied,rfl⟩ := List.mem_map.mp member
  exact ⟨i,occupied,rfl⟩

theorem tame_primaryEntry (sectorSize : UInt32) (raw : List UInt8) (i : Nat) :
    Tame (primaryEntry sectorSize raw i) := by
  have start := (readLE32 raw (MBR_PARTITION_ENTRY_OFFSET + i * MBR_PARTITION_ENTRY_SIZE + 8)).toNat_lt
  have count := (readLE32 raw (MBR_PARTITION_ENTRY_OFFSET + i * MBR_PARTITION_ENTRY_SIZE + 12)).toNat_lt
  refine ⟨Int.natCast_nonneg i,?_,?_⟩
  · simp only [primaryEntry,UInt32.toNat_toUInt64]
    omega
  · simpa only [primaryEntry,UInt32.toNat_toUInt64] using count

theorem tame_logical (sectorSize : UInt32) (ebr : Ebr) (i : Nat) (low : ebr.lba.toNat < 2 ^ 33) :
    Tame (ebr.logical sectorSize i) := by
  have start := (readLE32 ebr.data (MBR_PARTITION_ENTRY_OFFSET + 8)).toNat_lt
  have count := (readLE32 ebr.data (MBR_PARTITION_ENTRY_OFFSET + 12)).toNat_lt
  refine ⟨Int.natCast_nonneg i,?_,?_⟩
  · simp only [Ebr.logical,UInt64.toNat_add,UInt32.toNat_toUInt64]
    rw [Nat.mod_eq_of_lt (by omega)]
    omega
  · simpa only [Ebr.logical,UInt32.toNat_toUInt64] using count

namespace Scan

variable {self t : MbrPartitionTable} {readFunc : DiskReadCallback} {raw : List UInt8} {chain : List Ebr}

theorem mem_entries (scan : Scan self readFunc raw chain t) {e : PartitionEntry}
    (member : e ∈ t.entries) :
    (∃ i ∈ occupiedSlots raw, e = primaryEntry self.sectorSize raw i) ∨
      ∃ ebr ∈ chain, ∃ i, e = ebr.logical self.sectorSize i := by
  rw [scan.table] at member
  rcases List.mem_append.mp member with primary | logical
  · exact .inl (mem_primaryEntries primary)
  · obtain ⟨ebr,among,i,same⟩ := mem_chainLogicals logical
    exact .inr ⟨ebr,among,_,same⟩

theorem lba_bound (scan : Scan self readFunc raw chain t) : ∀ ebr ∈ chain, ebr.lba.toNat < 2 ^ 33 := by
  cases scan.onDisk with
  | absent => simp
  | walked ext chain search walk =>
    obtain ⟨i,_,same⟩ := mem_primaryEntries (List.mem_of_find?_eq_some search)
    have start : ext.startLba.toNat < 2 ^ 32 := by
      rw [same]
      simpa only [primaryEntry,UInt32.toNat_toUInt64] using UInt32.toNat_lt _
    exact walk.lba_bound start (by omega)

theorem tame (scan : Scan self readFunc raw chain t) : ∀ e ∈ t.entries, Tame e := by
  intro e member
  rcases scan.mem_entries member with ⟨i,_,rfl⟩ | ⟨ebr,among,i,rfl⟩
  · exact tame_primaryEntry _ _ _
  · exact tame_logical _ _ _ (scan.lba_bound ebr among)

/-- Logical partitions are only found through a container. -/
theorem container (scan : Scan self readFunc raw chain t) {e : PartitionEntry}
    (member : e ∈ t.entries) (logical : e.isLogical = true) : t.findExtended.isSome := by
  rcases scan.mem_entries member with ⟨i,_,rfl⟩ | ⟨ebr,among,i,rfl⟩
  · simp [primaryEntry] at logical
  · cases scan.onDisk with
    | absent => simp at among
    | walked ext chain search walk =>
      have primary := List.mem_of_find?_eq_some search
      obtain ⟨i,_,same⟩ := mem_primaryEntries primary
      have extended : ext.isExtended = true := by simpa using List.find?_some search
      have notLogical : ext.isLogical = false := by rw [same]; rfl
      rw [findExtended,List.find?_isSome]
      refine ⟨ext,?_,by simp [extended,notLogical]⟩
      rw [scan.table]
      exact List.mem_append_left _ primary

end Scan

theorem parse_tame {fuel : Nat} {self t : MbrPartitionTable} {readFunc : DiskReadCallback}
    (parsed : parse fuel self readFunc = some (.ok t)) : ∀ e ∈ t.entries, Tame e := by
  obtain ⟨raw,chain,scan⟩ := parse_scan parsed
  exact scan.tame

end MbrPartitionTable
end SetecWizard.Core
