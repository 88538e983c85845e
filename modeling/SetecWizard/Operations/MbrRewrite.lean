import SetecWizard.Operations.PrimaryDisk
import SetecWizard.Operations.Rereading

/-! An MBR table written to a disk and read again. The primaries come back in order,
numbered by their slots. The logical partitions are those of the chain that the disk
holds from the container on, whatever the table had; the EBRs of the buffer count only
where they run over that chain.
-/
namespace SetecWizard.Core
open SetecWizard.Library MbrPartitionTable

/-- What a table says of a partition, its number apart. -/
def PartitionEntry.shown (e : PartitionEntry) : UInt64 × UInt64 × UInt8 × Bool × Bool × Bool :=
  (e.startLba,e.sectorCount,e.mbrType,e.isActive,e.isExtended,e.isLogical)

def containerOf (entries : List PartitionEntry) : Option (UInt64 × UInt64) :=
  (entries.find? (·.isExtended)).map (fun ext => (ext.startLba,ext.sectorCount))

/-- The chain of the disk from a container's place on. -/
inductive ChainOf (disk : Disk) (sectorSize : UInt32) : Option (UInt64 × UInt64) → List Ebr → Prop
  | absent : ChainOf disk sectorSize none []
  | walked (start size : UInt64) (chain : List Ebr)
      (walk : EbrChain sectorSize (OperationUtils.readFunc .working disk sectorSize) start size
        MAX_LOGICAL_PARTITIONS start chain) : ChainOf disk sectorSize (some (start,size)) chain

theorem diskChain_iff {disk : Disk} {sectorSize : UInt32} {raw : List UInt8} {chain : List Ebr} :
    DiskChain sectorSize (OperationUtils.readFunc .working disk sectorSize) raw chain ↔
      ChainOf disk sectorSize (containerOf (primaryEntries sectorSize raw)) chain := by
  rw [containerOf]
  constructor
  · intro chained
    cases chained with
    | absent search =>
      rw [search]
      exact .absent
    | walked ext chain search walk =>
      rw [search]
      exact .walked _ _ _ walk
  · intro chained
    cases search : (primaryEntries sectorSize raw).find? (·.isExtended) with
    | none =>
      rw [search] at chained
      cases chained
      exact .absent search
    | some ext =>
      rw [search] at chained
      cases chained with
      | walked _ _ _ walk => exact .walked ext chain search walk

theorem ChainOf.unique {disk : Disk} {sectorSize : UInt32} {place : Option (UInt64 × UInt64)}
    {first second : List Ebr} (one : ChainOf disk sectorSize place first)
    (two : ChainOf disk sectorSize place second) : first = second := by
  cases one with
  | absent => cases two; rfl
  | walked start size chain walk =>
    cases two with
    | walked _ _ _ walk' => exact walk.unique walk'

namespace EbrChain

variable {sectorSize : UInt32} {readFunc : DiskReadCallback} {extStart extSize : UInt64}

theorem next_bound (startBound : extStart.toNat < 2 ^ 32) {ebr : Ebr} {next : UInt64}
    (linked : ebr.next extStart = some next) : next.toNat < 2 ^ 33 := by
  unfold Ebr.next at linked
  simp only at linked
  split at linked
  · cases linked
    have word := (readLE32 ebr.data (MBR_PARTITION_ENTRY_OFFSET + MBR_PARTITION_ENTRY_SIZE + 8)).toNat_lt
    rw [UInt64.toNat_add,UInt32.toNat_toUInt64,Nat.mod_eq_of_lt (by omega)]
    omega
  · cases linked

theorem congr (startBound : extStart.toNat < 2 ^ 32) {other : DiskReadCallback} {room : Nat} {lba : UInt64}
    {chain : List Ebr} (walked : EbrChain sectorSize readFunc extStart extSize room lba chain)
    (same : ∀ place : UInt64, place.toNat < 2 ^ 33 → (place = lba ∨ ∃ ebr ∈ chain, ebr.next extStart = some place) →
      ebrAt sectorSize readFunc extStart extSize place = ebrAt sectorSize other extStart extSize place)
    (bound : lba.toNat < 2 ^ 33) : EbrChain sectorSize other extStart extSize room lba chain := by
  have first := same lba bound (.inl rfl)
  induction walked with
  | full lba => exact .full lba
  | gone room lba absent =>
    rw [first] at absent
    exact .gone room lba absent
  | last room lba ebr found ended =>
    rw [first] at found
    exact .last room lba ebr found ended
  | link room lba ebr next rest found linked tail ih =>
    rw [first] at found
    have below := next_bound startBound linked
    have later : ∀ place : UInt64, place.toNat < 2 ^ 33 →
        (place = next ∨ ∃ ebr ∈ rest, ebr.next extStart = some place) →
        ebrAt sectorSize readFunc extStart extSize place = ebrAt sectorSize other extStart extSize place := by
      rintro place low (rfl | ⟨other,among,names⟩)
      · exact same place low (.inr ⟨ebr,List.mem_cons_self ..,linked⟩)
      · exact same place low (.inr ⟨other,List.mem_cons_of_mem _ among,names⟩)
    exact .link room lba ebr next rest found linked (ih later below (later next below (.inl rfl)))

theorem used_le {room : Nat} {lba : UInt64} {chain : List Ebr}
    (walked : EbrChain sectorSize readFunc extStart extSize room lba chain) :
    (chain.filter (fun ebr => ebr.Used)).length ≤ room := by
  induction walked with
  | full lba => exact Nat.le_refl _
  | gone room lba absent => exact Nat.zero_le _
  | last room lba ebr found ended =>
    have one : ([ebr].filter (fun ebr => ebr.Used)).length ≤ 1 := List.length_filter_le _ _
    omega
  | link room lba ebr next rest found linked tail ih =>
    by_cases used : ebr.Used
    · rw [if_pos used] at ih
      simp only [List.filter_cons,used,decide_true,if_true,List.length_cons]
      omega
    · rw [if_neg used] at ih
      simpa [List.filter_cons,used] using ih

end EbrChain

section Kept

variable {disk disk' : Disk} {sectorSize : UInt32}

/-- Bytes below some length are not where the chain of a container is looked for. A
container at sector 0 has no chain. -/
def OutOfReach (sectorSize : UInt32) (length : Nat) (place : Option (UInt64 × UInt64)) : Prop :=
  ∀ start size, place = some (start,size) → start = 0 ∨ length ≤ start.toNat * sectorSize.toNat

/-- The place of a container that an MBR can name. -/
def Addressable (place : Option (UInt64 × UInt64)) : Prop :=
  ∀ start size, place = some (start,size) → start.toNat < 2 ^ 32

theorem sector_offset (moderate : sectorSize.toNat ≤ 2 ^ 31) {lba : UInt64} (bound : lba.toNat < 2 ^ 33) :
    (lba * sectorSize.toUInt64).toNat = lba.toNat * sectorSize.toNat := by
  rw [UInt64.toNat_mul,UInt32.toNat_toUInt64,Nat.mod_eq_of_lt]
  calc lba.toNat * sectorSize.toNat ≤ lba.toNat * 2 ^ 31 := Nat.mul_le_mul_left _ moderate
    _ < 2 ^ 33 * 2 ^ 31 := Nat.mul_lt_mul_of_pos_right bound (by norm_num)
    _ = 2 ^ 64 := by norm_num

theorem ebrAt_kept (positive : 0 < sectorSize.toNat) (moderate : sectorSize.toNat ≤ 2 ^ 31)
    (size : disk'.totalBytes = disk.totalBytes) {extStart extSize : UInt64} {length : Nat}
    (same : ∀ i, length ≤ i → disk'.byte i = disk.byte i) {lba : UInt64} (bound : lba.toNat < 2 ^ 33)
    (behind : lba < extStart ∨ lba = 0 ∨ length ≤ lba.toNat * sectorSize.toNat) :
    ebrAt sectorSize (OperationUtils.readFunc .working disk sectorSize) extStart extSize lba =
      ebrAt sectorSize (OperationUtils.readFunc .working disk' sectorSize) extStart extSize lba := by
  unfold ebrAt
  split
  next => rfl
  next inside =>
    rw [not_or,not_or] at inside
    obtain ⟨nonzero,above,_⟩ := inside
    have reached : length ≤ lba.toNat * sectorSize.toNat :=
      (behind.resolve_left above).resolve_left nonzero
    have byte := sector_offset moderate bound
    have start := start_sector positive byte
    have low : length ≤ (lba * sectorSize.toUInt64 / sectorSize.toUInt64 * sectorSize.toUInt64).toNat := by
      rw [start,byte]
      exact reached
    rw [readFunc_congr disk disk' size.symm (fun i from_length => (same i from_length).symm) low MBR_SIZE]

theorem chain_of_origin {readFunc : DiskReadCallback} {extSize : UInt64} {room : Nat} {chain : List Ebr}
    (walked : EbrChain sectorSize readFunc 0 extSize room 0 chain) : chain = [] := by
  cases walked with
  | full => rfl
  | gone => rfl
  | last _ _ _ found => exact absurd rfl (ebrAt_nonzero found)
  | link _ _ _ _ _ found => exact absurd rfl (ebrAt_nonzero found)

/-- Where the walk along a chain looks for EBRs, the container's start and what the links
name, no byte lies below some length. -/
def ChainBeyond (sectorSize : UInt32) (length : Nat) (place : Option (UInt64 × UInt64)) (chain : List Ebr) : Prop :=
  ∀ start size, place = some (start,size) → ∀ lba, (lba = start ∨ ∃ ebr ∈ chain, ebr.next start = some lba) →
    lba < start ∨ lba = 0 ∨ length ≤ lba.toNat * sectorSize.toNat

theorem ChainOf.kept_beyond (positive : 0 < sectorSize.toNat) (moderate : sectorSize.toNat ≤ 2 ^ 31)
    (size : disk'.totalBytes = disk.totalBytes) {place : Option (UInt64 × UInt64)} {length : Nat}
    (addressable : Addressable place) {chain : List Ebr} (beyond : ChainBeyond sectorSize length place chain)
    (same : ∀ i, length ≤ i → disk'.byte i = disk.byte i) (chained : ChainOf disk sectorSize place chain) :
    ChainOf disk' sectorSize place chain := by
  cases chained with
  | absent => exact .absent
  | walked start extSize _ walk =>
    have bound := addressable start extSize rfl
    refine .walked _ _ _ (walk.congr bound (fun lba below looked => ?_) (by omega))
    exact ebrAt_kept positive moderate size same below (beyond start extSize rfl lba looked)

theorem ChainOf.kept (positive : 0 < sectorSize.toNat) (moderate : sectorSize.toNat ≤ 2 ^ 31)
    (size : disk'.totalBytes = disk.totalBytes) {place : Option (UInt64 × UInt64)} {length : Nat}
    (addressable : Addressable place) (reach : OutOfReach sectorSize length place)
    (same : ∀ i, length ≤ i → disk'.byte i = disk.byte i) {chain : List Ebr}
    (chained : ChainOf disk sectorSize place chain) : ChainOf disk' sectorSize place chain := by
  by_cases origin : ∃ extSize, place = some (0,extSize)
  · obtain ⟨extSize,rfl⟩ := origin
    cases chained with
    | walked _ _ _ walk =>
      rw [chain_of_origin walk]
      exact .walked _ _ _ (.gone _ _ (by simp [ebrAt]))
  · refine chained.kept_beyond positive moderate size addressable (fun start extSize found lba _ => ?_) same
    rcases reach start extSize found with zero | clear
    · rw [zero] at found
      exact absurd ⟨extSize,found⟩ origin
    · rcases UInt64.lt_or_le lba start with below | above
      · exact .inl below
      · exact .inr (.inr (clear.trans (Nat.mul_le_mul_right _ (UInt64.le_iff_toNat_le.mp above))))

theorem ChainOf.kept_iff (positive : 0 < sectorSize.toNat) (moderate : sectorSize.toNat ≤ 2 ^ 31)
    (size : disk'.totalBytes = disk.totalBytes) {place : Option (UInt64 × UInt64)} {length : Nat}
    (addressable : Addressable place) (reach : OutOfReach sectorSize length place)
    (same : ∀ i, length ≤ i → disk'.byte i = disk.byte i) {chain : List Ebr} :
    ChainOf disk' sectorSize place chain ↔ ChainOf disk sectorSize place chain :=
  ⟨ChainOf.kept positive moderate size.symm addressable reach (fun i from_length => (same i from_length).symm),
    ChainOf.kept positive moderate size addressable reach same⟩

end Kept

namespace MbrPartitionTable

/-- A primary entry that a slot of the MBR holds as it is. -/
structure Slottable (e : PartitionEntry) : Prop where
  primary : e.isLogical = false
  kind : e.isExtended = MbrTypes.isExtendedType e.mbrType
  low : e.startLba.toNat < 2 ^ 32
  short : e.sectorCount.toNat < 2 ^ 32
  occupies : Occupies e

theorem Slottable.shown_rewritten {e : PartitionEntry} (fits : Slottable e) (sectorSize : UInt32) (i : Nat) :
    (rewritten sectorSize i e).shown = e.shown := by
  simp only [PartitionEntry.shown,rewritten,word_kept fits.low,word_kept fits.short,fits.primary,fits.kind]

theorem slottable_primaryEntry {sectorSize : UInt32} {raw : List UInt8} {i : Nat}
    (occupied : i ∈ occupiedSlots raw) : Slottable (primaryEntry sectorSize raw i) := by
  refine ⟨rfl,rfl,?_,?_,occupies_primaryEntry occupied⟩
  · simpa only [primaryEntry,UInt32.toNat_toUInt64] using UInt32.toNat_lt _
  · simpa only [primaryEntry,UInt32.toNat_toUInt64] using UInt32.toNat_lt _

/-- A table that can be written without losing a primary. -/
structure Rewritable (t : MbrPartitionTable) : Prop where
  slots : ∀ e ∈ t.primaries, Slottable e
  few : t.primaries.length ≤ MBR_MAX_PRIMARY_PARTITIONS
  short : t.logicals.length ≤ MAX_LOGICAL_PARTITIONS
  noMap : readBE16 t.bootCode.data 0 ≠ APM_DDM_SIGNATURE

theorem findExtended_eq (t : MbrPartitionTable) : t.findExtended = t.primaries.find? (·.isExtended) := by
  rw [findExtended,primaries,List.find?_filter]
  congr 1
  funext e
  cases e.isLogical <;> cases e.isExtended <;> rfl

end MbrPartitionTable

theorem map_determined {α β γ : Type} {f : α → β} {g : α → γ} {first second : List α}
    (same : first.map f = second.map f) (fine : ∀ a ∈ first, ∀ b ∈ second, f a = f b → g a = g b) :
    first.map g = second.map g := by
  induction first generalizing second with
  | nil =>
    rw [List.map_nil,eq_comm,List.map_eq_nil_iff] at same
    rw [same]
  | cons a rest ih =>
    cases second with
    | nil => simp at same
    | cons b rest' =>
      obtain ⟨head,tail⟩ := List.cons.inj same
      rw [List.map_cons,List.map_cons,fine a List.mem_cons_self b List.mem_cons_self head]
      exact congrArg _ (ih tail (fun x among y there =>
        fine x (List.mem_cons_of_mem _ among) y (List.mem_cons_of_mem _ there)))

/-- What tells where the first container is. -/
def PartitionEntry.anchor (e : PartitionEntry) : UInt64 × UInt64 × UInt8 × Bool :=
  (e.startLba,e.sectorCount,e.mbrType,e.isExtended)

theorem PartitionEntry.anchor_of_shown {a b : PartitionEntry} (same : a.shown = b.shown) : a.anchor = b.anchor := by
  simp only [shown,Prod.mk.injEq] at same
  obtain ⟨start,count,type,_,kind,_⟩ := same
  simp only [anchor,start,count,type,kind]

theorem containerOf_anchor {first second : List PartitionEntry}
    (same : first.map PartitionEntry.anchor = second.map PartitionEntry.anchor) :
    containerOf first = containerOf second := by
  induction first generalizing second with
  | nil =>
    rw [List.map_nil,eq_comm,List.map_eq_nil_iff] at same
    rw [same]
  | cons e rest ih =>
    cases second with
    | nil => simp at same
    | cons e' rest' =>
      obtain ⟨head,tail⟩ := List.cons.inj same
      simp only [PartitionEntry.anchor,Prod.mk.injEq] at head
      obtain ⟨start,count,_,kind⟩ := head
      have later := ih tail
      unfold containerOf at later ⊢
      rw [List.find?_cons,List.find?_cons,kind]
      cases e'.isExtended with
      | true => simp [start,count]
      | false => exact later

theorem containerOf_congr {first second : List PartitionEntry}
    (same : first.map PartitionEntry.shown = second.map PartitionEntry.shown) :
    containerOf first = containerOf second :=
  containerOf_anchor (map_determined same fun _ _ _ _ => PartitionEntry.anchor_of_shown)

theorem shown_mapIdx_rewritten (sectorSize : UInt32) {entries : List PartitionEntry}
    (each : ∀ e ∈ entries, Slottable e) :
    (entries.mapIdx (rewritten sectorSize)).map PartitionEntry.shown = entries.map PartitionEntry.shown := by
  apply List.ext_getElem?
  intro i
  rw [List.getElem?_map,List.getElem?_mapIdx,List.getElem?_map]
  cases at_i : entries[i]? with
  | none => rfl
  | some e =>
    have fits := each e (List.mem_of_getElem? at_i)
    exact congrArg some (fits.shown_rewritten sectorSize i)

section FromDisk

variable {disk : Disk} {sectorSize : UInt32} {chain : List Ebr} {t : MbrPartitionTable}

namespace MbrAt

theorem entries (held : MbrAt disk sectorSize chain t) :
    t.entries = primaryEntries sectorSize (window disk.byte 0 512) ++
      chainLogicals sectorSize (primaryEntries sectorSize (window disk.byte 0 512)).length chain := by
  have count : (primaryEntries sectorSize (window disk.byte 0 512)).length =
      (occupiedSlots (window disk.byte 0 512)).length := by rw [primaryEntries,List.length_map]
  rw [held.table,count]
  rfl

theorem primaries_logicals (held : MbrAt disk sectorSize chain t) :
    t.primaries = primaryEntries sectorSize (window disk.byte 0 512) ∧
      t.logicals = chainLogicals sectorSize (primaryEntries sectorSize (window disk.byte 0 512)).length chain := by
  have primary : ∀ e ∈ primaryEntries sectorSize (window disk.byte 0 512), e.isLogical = false := by
    intro e member
    obtain ⟨i,_,rfl⟩ := mem_primaryEntries member
    rfl
  have logical : ∀ e ∈ chainLogicals sectorSize
      (primaryEntries sectorSize (window disk.byte 0 512)).length chain, e.isLogical = true := by
    intro e member
    obtain ⟨ebr,_,i,rfl⟩ := mem_chainLogicals member
    rfl
  rw [MbrPartitionTable.primaries,MbrPartitionTable.logicals,held.entries,List.filter_append,List.filter_append]
  constructor
  · rw [List.filter_eq_self.mpr (fun e member => by simp [primary e member]),
      List.filter_eq_nil_iff.mpr (fun e member => by simp [logical e member]),List.append_nil]
  · rw [List.filter_eq_nil_iff.mpr (fun e member => by simp [primary e member]),
      List.filter_eq_self.mpr (fun e member => by simp [logical e member]),List.nil_append]

theorem split (held : MbrAt disk sectorSize chain t) : t.entries = t.primaries ++ t.logicals := by
  obtain ⟨primary,logical⟩ := held.primaries_logicals
  rw [primary,logical]
  exact held.entries

theorem rewritable (held : MbrAt disk sectorSize chain t) : Rewritable t := by
  obtain ⟨primary,logical⟩ := held.primaries_logicals
  refine ⟨?_,?_,?_,?_⟩
  · intro e member
    rw [primary] at member
    obtain ⟨i,occupied,same⟩ := mem_primaryEntries member
    rw [same]
    exact slottable_primaryEntry occupied
  · rw [primary]
    exact length_primaryEntries_le _ _
  · rw [logical,length_chainLogicals]
    cases held.onDisk with
    | absent => exact Nat.zero_le _
    | walked _ _ _ walk => exact walk.used_le
  · have map := held.noMap
    have size := length_window disk.byte 0 512
    rw [held.table]
    generalize window disk.byte 0 512 = raw at map size ⊢
    rw [readBE16_scanned _ size]
    exact map

theorem chainOf (held : MbrAt disk sectorSize chain t) : ChainOf disk sectorSize (containerOf t.primaries) chain := by
  rw [held.primaries_logicals.1]
  exact diskChain_iff.mp held.onDisk

theorem geometry (held : MbrAt disk sectorSize chain t) :
    t.diskSizeBytes = disk.totalBytes ∧ t.sectorSize = sectorSize := by
  rw [held.table]
  exact ⟨rfl,rfl⟩

theorem tame (held : MbrAt disk sectorSize chain t) : ∀ e ∈ t.entries, Tame e := by
  have size : MBR_SIZE.toNat = 512 := rfl
  exact Scan.tame ⟨held.sector,by rw [length_window,size],held.signed,held.onDisk,held.table⟩

end MbrAt

theorem MbrPartitionTable.Rewritable.addressable (rewritable : Rewritable t) : Addressable (containerOf t.primaries) := by
  intro start size place
  obtain ⟨ext,search,same⟩ := Option.map_eq_some_iff.mp place
  cases same
  exact (rewritable.slots ext (List.mem_of_find?_eq_some search)).low

end FromDisk

namespace MbrPartitionTable

theorem ebrSector_blank (extStartLba : UInt64) (e : PartitionEntry) (next : Option PartitionEntry) :
    slice (ebrSector extStartLba e next) 0 446 = List.replicate 446 0 := by
  have base : MBR_PARTITION_ENTRY_OFFSET = 446 := rfl
  have size : MBR_PARTITION_ENTRY_SIZE = 16 := rfl
  rw [← slice_replicate (0 : UInt8) MBR_SIZE.toNat 0 446 (by decide),ebrSector_eq]
  refine slice_overwrite_apart (ebrFields_layout extStartLba e next).fit length_blank ?_
  cases next <;> simp [ebrFields,Outside,base,size]

theorem length_ebrSectors (extStartLba : UInt64) (entries : List PartitionEntry) :
    (ebrSectors extStartLba entries).length = entries.length * 512 := by
  induction entries with
  | nil => rfl
  | cons e rest ih =>
    rw [ebrSectors,List.length_append,length_ebrSector,ih,List.length_cons]
    omega

theorem getElem?_ebrSectors (extStartLba : UInt64) (entries : List PartitionEntry) (q : Nat) {o : Nat}
    (front : o < 446) (inside : q < entries.length) :
    (ebrSectors extStartLba entries)[q * 512 + o]? = some 0 := by
  induction entries generalizing q with
  | nil => simp at inside
  | cons e rest ih =>
    have length := length_ebrSector extStartLba e rest.head?
    rw [ebrSectors]
    cases q with
    | zero =>
      have blank := congrArg (fun bytes => bytes[o]?) (ebrSector_blank extStartLba e rest.head?)
      simp only [getElem?_slice,if_pos front,Nat.zero_add,List.getElem?_replicate] at blank
      rw [Nat.zero_mul,Nat.zero_add,List.getElem?_append_left (by omega)]
      exact blank
    | succ q =>
      rw [List.getElem?_append_right (by omega),length]
      have index : (q + 1) * 512 + o - 512 = q * 512 + o := by omega
      rw [index]
      exact ih q (Nat.lt_of_succ_lt_succ inside)

variable (t : MbrPartitionTable)

theorem ebrImages_blank {q o : Nat} (front : o < 446) (inside : q * 512 + o < t.ebrImages.length) :
    t.ebrImages[q * 512 + o]? = some 0 := by
  unfold ebrImages at inside ⊢
  cases search : t.findExtended with
  | none => simp [search] at inside
  | some ext =>
    simp only [search,length_ebrSectors] at inside ⊢
    exact getElem?_ebrSectors _ _ q front (by omega)

theorem length_ebrImages_le : t.ebrImages.length ≤ t.logicals.length * 512 := by
  unfold ebrImages
  cases t.findExtended with
  | none => exact Nat.zero_le _
  | some ext => exact Nat.le_of_eq (length_ebrSectors _ _)

theorem ebrImages_nil (none : t.logicals = []) : t.ebrImages = [] := by
  have length := t.length_ebrImages_le
  rw [none] at length
  exact List.eq_nil_of_length_eq_zero (Nat.le_zero.mp length)

variable {t} {sectorSize : UInt32}

theorem Rewritable.length_ebrImages (rewritable : Rewritable t) : t.ebrImages.length ≤ 2 ^ 17 := by
  have most : MAX_LOGICAL_PARTITIONS = 256 := rfl
  have length := t.length_ebrImages_le
  have short := rewritable.short
  omega

theorem Rewritable.length_buffer (rewritable : Rewritable t) (positive : 0 < sectorSize.toNat) :
    ∃ count, (t.buffer sectorSize).length = count * sectorSize.toNat ∧
      512 + t.ebrImages.length ≤ (t.buffer sectorSize).length := by
  have short := rewritable.length_ebrImages
  have length : (t.mbrSector ++ t.ebrImages).length = 512 + t.ebrImages.length := by
    rw [List.length_append,length_mbrSector]
  have spec := padded_spec sectorSize (t.mbrSector ++ t.ebrImages) positive (by omega)
  refine ⟨_,spec.length,?_⟩
  rw [MbrPartitionTable.buffer,OperationUtils.padded,List.length_append,length]
  omega

theorem length_buffer_le (t : MbrPartitionTable) (positive : 0 < sectorSize.toNat)
    (short : t.logicals.length ≤ MAX_LOGICAL_PARTITIONS) :
    (t.buffer sectorSize).length ≤ 512 + t.logicals.length * 512 + sectorSize.toNat := by
  have most : MAX_LOGICAL_PARTITIONS = 256 := rfl
  have images := t.length_ebrImages_le
  have length : (t.mbrSector ++ t.ebrImages).length = 512 + t.ebrImages.length := by
    rw [List.length_append,length_mbrSector]
  have whole := (padded_spec sectorSize (t.mbrSector ++ t.ebrImages) positive (by omega)).length
  have below := Nat.div_mul_le_self ((t.mbrSector ++ t.ebrImages).length + sectorSize.toNat - 1) sectorSize.toNat
  rw [← whole] at below
  rw [MbrPartitionTable.buffer]
  omega

theorem length_buffer_plain (t : MbrPartitionTable) (none : t.ebrImages = []) (bound : 512 ≤ sectorSize.toNat) :
    (t.buffer sectorSize).length = sectorSize.toNat := by
  have length := t.length_mbrSector
  rw [MbrPartitionTable.buffer,none,List.append_nil]
  generalize t.mbrSector = sector at length
  have spec := padded_spec sectorSize sector (by omega) (by omega)
  have single : (sector.length + sectorSize.toNat - 1) / sectorSize.toNat = 1 :=
    Nat.div_eq_of_lt_le (by omega) (by omega)
  have whole := spec.length
  rw [single,Nat.one_mul] at whole
  exact whole

theorem buffer_blank {i : Nat} (behind : 512 ≤ i) (front : i % 512 < 446)
    (inside : i < (t.buffer sectorSize).length) : (t.buffer sectorSize)[i]? = some 0 := by
  have sector := t.length_mbrSector
  have index : (i - 512) / 512 * 512 + i % 512 = i - 512 := by omega
  rw [MbrPartitionTable.buffer,OperationUtils.padded,List.append_assoc] at inside ⊢
  rw [List.getElem?_append_right (by omega),sector]
  rcases Nat.lt_or_ge (i - 512) t.ebrImages.length with image | padding
  · rw [List.getElem?_append_left image,← index]
    exact t.ebrImages_blank front (by rw [index]; exact image)
  · rw [List.getElem?_append_right padding,List.getElem?_replicate,if_pos]
    rw [List.length_append,List.length_append,List.length_replicate] at inside
    omega

end MbrPartitionTable

/-- A table that can be written was written over a disk. -/
structure Overwrote (middle : Disk) (sectorSize : UInt32) (t : MbrPartitionTable) (disk' : Disk) : Prop where
  rewritable : Rewritable t
  long : 512 ≤ sectorSize.toNat
  moderate : sectorSize.toNat ≤ 2 ^ 31
  disk : disk' = middle.patched 0 (t.buffer sectorSize)
  room : (t.buffer sectorSize).length ≤ middle.totalBytes.toNat
  first : window disk'.byte 0 512 = t.mbrSector

namespace Overwrote

variable {middle disk' : Disk} {sectorSize : UInt32} {t v : MbrPartitionTable} {chain : List Ebr}

theorem of_write {os : Win32} (rewritable : Rewritable t) (long : 512 ≤ sectorSize.toNat)
    (moderate : sectorSize.toNat ≤ 2 ^ 31)
    (written : OperationUtils.writePartitionTable os middle sectorSize (.mbr t) = (.ok (),disk')) :
    Overwrote middle sectorSize t disk' := by
  have short := rewritable.length_ebrImages
  obtain ⟨same,room,first⟩ := mbr_written (by omega) (by omega) written
  exact ⟨rewritable,long,moderate,same,room,first⟩

theorem of_room (rewritable : Rewritable t) (long : 512 ≤ sectorSize.toNat) (moderate : sectorSize.toNat ≤ 2 ^ 31)
    (room : 2 ^ 18 + sectorSize.toNat ≤ middle.totalBytes.toNat) :
    OperationUtils.writePartitionTable .working middle sectorSize (.mbr t) =
        (.ok (),middle.patched 0 (t.buffer sectorSize)) ∧
      Overwrote middle sectorSize t (middle.patched 0 (t.buffer sectorSize)) := by
  have most : MAX_LOGICAL_PARTITIONS = 256 := rfl
  have short := rewritable.short
  have length := length_buffer_le t (by omega : 0 < sectorSize.toNat) short
  have written : OperationUtils.writePartitionTable .working middle sectorSize (.mbr t) =
      (.ok (),middle.patched 0 (t.buffer sectorSize)) :=
    mbr_write_working t middle (by omega) (by omega) (by omega)
  exact ⟨written,of_write rewritable long moderate written⟩

variable (laid : Overwrote middle sectorSize t disk')
include laid

theorem positive : 0 < sectorSize.toNat := by
  have long := laid.long
  omega

theorem size : disk'.totalBytes = middle.totalBytes := by
  rw [laid.disk]
  exact Disk.patched_totalBytes _ _ _

theorem above (i : Nat) (beyond : (t.buffer sectorSize).length ≤ i) : disk'.byte i = middle.byte i := by
  rw [laid.disk,Disk.patched_byte]
  exact patch_apart _ _ _ i (.inr (by omega))

theorem inside {i : Nat} {b : UInt8} (found : (t.buffer sectorSize)[i]? = some b) : disk'.byte i = b := by
  rw [laid.disk,Disk.patched_byte,patch,if_pos (Nat.zero_le _),Nat.sub_zero,found,Option.getD_some]

theorem spans : ∃ count, 1 ≤ count ∧ (t.buffer sectorSize).length = count * sectorSize.toNat := by
  obtain ⟨count,length,some_bytes⟩ := laid.rewritable.length_buffer laid.positive
  refine ⟨count,Nat.pos_of_ne_zero (fun none => ?_),length⟩
  rw [none,Nat.zero_mul] at length
  omega

theorem legible : Legible disk' sectorSize := by
  have room := laid.room
  obtain ⟨_,_,some_bytes⟩ := laid.rewritable.length_buffer laid.positive
  refine ⟨laid.long,laid.moderate,by rw [laid.size]; omega,?_,?_⟩
  · rw [laid.first]
    exact t.mbrSector_signed
  · rw [laid.first,t.readBE16_mbrSector]
    exact laid.rewritable.noMap

theorem primaryEntries_first : primaryEntries sectorSize (window disk'.byte 0 512) =
    t.primaries.mapIdx (MbrPartitionTable.rewritten sectorSize) := by
  rw [laid.first]
  exact primaryEntries_mbrSector t sectorSize laid.rewritable.few
    (fun e member => (laid.rewritable.slots e member).occupies)

theorem containerOf_first : containerOf (primaryEntries sectorSize (window disk'.byte 0 512)) =
    containerOf t.primaries := by
  rw [laid.primaryEntries_first]
  exact containerOf_congr (shown_mapIdx_rewritten sectorSize laid.rewritable.slots)

theorem mbrAt (chained : ChainOf disk' sectorSize (containerOf t.primaries) chain) :
    ∃ v, MbrAt disk' sectorSize chain v := by
  rw [← laid.containerOf_first] at chained
  exact ⟨_,laid.legible,diskChain_iff.mpr chained,rfl⟩

theorem reread (held : MbrAt disk' sectorSize chain v) :
    v.primaries = t.primaries.mapIdx (MbrPartitionTable.rewritten sectorSize) ∧
      v.logicals = chainLogicals sectorSize t.primaries.length chain ∧
      ChainOf disk' sectorSize (containerOf t.primaries) chain := by
  obtain ⟨primary,logical⟩ := held.primaries_logicals
  have chained := diskChain_iff.mp held.onDisk
  rw [laid.containerOf_first] at chained
  rw [laid.primaryEntries_first] at primary logical
  rw [List.length_mapIdx] at logical
  exact ⟨primary,logical,chained⟩

theorem reread_shown (held : MbrAt disk' sectorSize chain v) :
    v.primaries.map PartitionEntry.shown = t.primaries.map PartitionEntry.shown := by
  rw [(laid.reread held).1]
  exact shown_mapIdx_rewritten sectorSize laid.rewritable.slots

theorem chain_iff {place : Option (UInt64 × UInt64)} (addressable : Addressable place)
    (reach : OutOfReach sectorSize (t.buffer sectorSize).length place) :
    ChainOf disk' sectorSize place chain ↔ ChainOf middle sectorSize place chain :=
  ChainOf.kept_iff laid.positive laid.moderate laid.size addressable reach laid.above

theorem single (found : GptBehind disk' sectorSize) : (t.buffer sectorSize).length = sectorSize.toNat := by
  obtain ⟨count,one,length⟩ := laid.spans
  have long := laid.long
  have room := laid.room
  have total := laid.size
  rcases Nat.lt_or_ge 1 count with several | single
  · have beyond : 2 * sectorSize.toNat ≤ count * sectorSize.toNat := Nat.mul_le_mul_right _ several
    have readable := (gptBehind_iff laid.positive laid.moderate).mp found
    have blank : ∀ i, 512 ≤ i → i % 512 < 446 → i < 2 * sectorSize.toNat → disk'.byte i = 0 :=
      fun i behind front below => laid.inside (buffer_blank behind front (by omega))
    have whole : disk'.reach sectorSize.toNat sectorSize.toNat = sectorSize.toNat := by
      rw [Disk.reach,total]
      omega
    rw [whole] at readable
    have byte : ∀ i < sectorSize.toNat, (window disk'.byte sectorSize.toNat sectorSize.toNat).getD i 0 =
        disk'.byte (sectorSize.toNat + i) := fun i below => getD_window _ _ _ _ below
    rcases Nat.lt_or_ge (sectorSize.toNat % 512) 446 with front | slots
    · have zero := blank sectorSize.toNat long front (by omega)
      exact absurd ((byte 0 (by omega)).trans zero) readable.first_byte
    · have wide := readable.wide
      have field : ∀ j < 4, (window disk'.byte sectorSize.toNat sectorSize.toNat).getD (84 + j) 0 = 0 := by
        intro j below
        rw [byte _ (by omega)]
        exact blank _ (by omega) (by omega) (by omega)
      have word : readLE32 (window disk'.byte sectorSize.toNat sectorSize.toNat) 84 = 0 := by
        have bytes := field 0 (by decide)
        simp only [readLE32,field 1 (by decide),field 2 (by decide),field 3 (by decide),Nat.add_zero] at bytes ⊢
        rw [bytes]
        decide
      rw [word] at wide
      exact absurd wide (by decide)
  · have whole : count = 1 := by omega
    rw [length,whole,Nat.one_mul]

theorem gptBehind_single (length : (t.buffer sectorSize).length = sectorSize.toNat) :
    GptBehind disk' sectorSize ↔ GptBehind middle sectorSize :=
  ⟨gptBehind_kept laid.positive laid.moderate laid.size (.inr fun i low _ => laid.above i (by omega)),
    gptBehind_kept laid.positive laid.moderate laid.size.symm (.inr fun i low _ => (laid.above i (by omega)).symm)⟩

theorem gptBehind (found : GptBehind disk' sectorSize) : GptBehind middle sectorSize :=
  (laid.gptBehind_single (laid.single found)).mp found

theorem gptBehind_plain (none : t.ebrImages = []) : GptBehind disk' sectorSize ↔ GptBehind middle sectorSize :=
  laid.gptBehind_single (length_buffer_plain t none laid.long)

end Overwrote

def Protects (disk : Disk) (sectorSize : UInt32) (primaries : List PartitionEntry) : Prop :=
  (∃ e ∈ primaries, e.mbrType = MbrTypes.GPT_Protective) ∨
    ∃ chain, ChainOf disk sectorSize (containerOf primaries) chain ∧
      ∃ e ∈ chainLogicals sectorSize 0 chain, e.mbrType = MbrTypes.GPT_Protective

theorem types_chainLogicals (sectorSize : UInt32) (first second : Nat) (chain : List Ebr) :
    (chainLogicals sectorSize first chain).map PartitionEntry.shown =
      (chainLogicals sectorSize second chain).map PartitionEntry.shown := by
  induction chain generalizing first second with
  | nil => rfl
  | cons ebr rest ih =>
    rw [chainLogicals_cons,chainLogicals_cons]
    split
    · rw [List.map_cons,List.map_cons,ih (first + 1) (second + 1)]
      rfl
    · exact ih first second

end SetecWizard.Core
