import SetecWizard.Operations.MbrRewrite

/-! Tables that were edited between two visits to the disk. A table that is read back is
numbered by position, whatever numbers it was written with, so that an index means the
same entry in both only if it was that entry's position.
-/
namespace SetecWizard.Core
open SetecWizard.Library MbrPartitionTable

/-- What only a GPT says of a partition. -/
def PartitionEntry.gptFields (e : PartitionEntry) : Guid × Guid × UInt64 × List UInt8 :=
  (e.typeGuid,e.uniqueGuid,e.gptAttributes,e.gptName)

/-- Every entry bears its position as its number. -/
def Numbered (entries : List PartitionEntry) : Prop :=
  ∀ (i : Nat) (e : PartitionEntry), entries[i]? = some e → e.index = (i : Int)

theorem Numbered.position {entries : List PartitionEntry} (numbered : Numbered entries) {index : Int} {pos : Nat}
    (found : findIndex entries index = some pos) : index = (pos : Int) := by
  obtain ⟨bound,same⟩ := findIndex_some found
  rw [← same]
  exact numbered pos _ (List.getElem?_eq_getElem bound)

theorem Numbered.found {entries : List PartitionEntry} (numbered : Numbered entries) {i : Nat}
    (bound : i < entries.length) : findIndex entries (i : Int) = some i := by
  refine List.findIdx?_eq_some_iff_getElem.mpr ⟨bound,?_,fun j before => ?_⟩
  · simpa using numbered i _ (List.getElem?_eq_getElem bound)
  · have other := numbered j _ (List.getElem?_eq_getElem (Nat.lt_trans before bound))
    rw [other]
    simp only [beq_iff_eq]
    omega

theorem Numbered.front {first second : List PartitionEntry} (numbered : Numbered (first ++ second)) :
    Numbered first := by
  intro i e at_i
  refine numbered i e ?_
  rw [List.getElem?_append_left (List.getElem?_eq_some_iff.mp at_i).1]
  exact at_i

theorem Overwrote.numbered {middle disk' : Disk} {sectorSize : UInt32} {t v : MbrPartitionTable} {chain : List Ebr}
    (laid : Overwrote middle sectorSize t disk') (held : MbrAt disk' sectorSize chain v) : Numbered v.entries := by
  obtain ⟨primary,logical,_⟩ := laid.reread held
  rw [held.split,primary,logical]
  intro i e at_i
  rcases Nat.lt_or_ge i t.primaries.length with front | back
  · rw [List.getElem?_append_left (by rw [List.length_mapIdx]; exact front),List.getElem?_mapIdx] at at_i
    obtain ⟨old,_,rfl⟩ := Option.map_eq_some_iff.mp at_i
    rfl
  · rw [List.getElem?_append_right (by rw [List.length_mapIdx]; exact back),List.length_mapIdx,chainLogicals,
      List.getElem?_mapIdx] at at_i
    obtain ⟨ebr,_,rfl⟩ := Option.map_eq_some_iff.mp at_i
    simp only [Ebr.logical]
    omega

namespace MbrPartitionTable

theorem shown_primaries (t : MbrPartitionTable) : t.primaries.map PartitionEntry.shown =
    (t.entries.map PartitionEntry.shown).filter (fun shown => !shown.2.2.2.2.2) := by
  rw [List.filter_map]
  rfl

theorem shown_logicals (t : MbrPartitionTable) : t.logicals.map PartitionEntry.shown =
    (t.entries.map PartitionEntry.shown).filter (fun shown => shown.2.2.2.2.2) := by
  rw [List.filter_map]
  rfl

theorem Slottable.of_shown {e old : PartitionEntry} (same : e.shown = old.shown) (fits : Slottable old) :
    Slottable e := by
  simp only [PartitionEntry.shown,Prod.mk.injEq] at same
  obtain ⟨start,count,type,_,kind,logical⟩ := same
  refine ⟨logical.trans fits.primary,?_,by rw [start]; exact fits.low,by rw [count]; exact fits.short,?_⟩
  · rw [kind,type]
    exact fits.kind
  · rw [Occupies,type,start,count]
    exact fits.occupies

theorem Rewritable.sublist {t t' : MbrPartitionTable} (rewritable : Rewritable t)
    (sub : (t'.entries.map PartitionEntry.shown).Sublist (t.entries.map PartitionEntry.shown))
    (boot : t'.bootCode = t.bootCode) : Rewritable t' := by
  have primary := sub.filter (fun shown => !shown.2.2.2.2.2)
  have logical := sub.filter (fun shown => shown.2.2.2.2.2)
  rw [← shown_primaries,← shown_primaries] at primary
  rw [← shown_logicals,← shown_logicals] at logical
  refine ⟨?_,?_,?_,by rw [boot]; exact rewritable.noMap⟩
  · intro e member
    obtain ⟨old,among,same⟩ := List.mem_map.mp (primary.subset (List.mem_map_of_mem member))
    exact (rewritable.slots old among).of_shown same.symm
  · have length := primary.length_le
    rw [List.length_map,List.length_map] at length
    exact length.trans rewritable.few
  · have length := logical.length_le
    rw [List.length_map,List.length_map] at length
    exact length.trans rewritable.short

theorem Rewritable.deleted {t : MbrPartitionTable} (rewritable : Rewritable t) (pos : Nat) (target : PartitionEntry) :
    Rewritable { t with entries := reindex (withoutEntry t.entries pos target) } := by
  refine rewritable.sublist ?_ rfl
  rw [map_reindex PartitionEntry.shown (fun _ _ => rfl)]
  exact (withoutEntry_sublist _ _ _).map _

theorem Rewritable.appended {t : MbrPartitionTable} (rewritable : Rewritable t) {e : PartitionEntry}
    (fits : Slottable e) (few : t.primaries.length < MBR_MAX_PRIMARY_PARTITIONS) :
    Rewritable { t with entries := t.entries ++ [e] } ∧
      primaries { t with entries := t.entries ++ [e] } = t.primaries ++ [e] ∧
      logicals { t with entries := t.entries ++ [e] } = t.logicals := by
  have primary : primaries { t with entries := t.entries ++ [e] } = t.primaries ++ [e] := by
    rw [primaries,List.filter_append,List.filter_singleton,fits.primary]
    rfl
  have logical : logicals { t with entries := t.entries ++ [e] } = t.logicals := by
    rw [logicals,List.filter_append,List.filter_singleton,fits.primary]
    exact List.append_nil _
  refine ⟨⟨?_,?_,?_,rewritable.noMap⟩,primary,logical⟩
  · rw [primary]
    intro other member
    rcases List.mem_append.mp member with old | last
    · exact rewritable.slots other old
    · rw [List.mem_singleton.mp last]
      exact fits
  · rw [primary,List.length_append]
    exact few
  · rw [logical]
    exact rewritable.short

theorem logical_deleted {v : MbrPartitionTable} (split : v.entries = v.primaries ++ v.logicals) {pos : Nat}
    {target : PartitionEntry} (found : v.entries[pos]? = some target) (behind : v.primaries.length ≤ pos) :
    (primaries { v with entries := reindex (withoutEntry v.entries pos target) }).map PartitionEntry.shown =
      v.primaries.map PartitionEntry.shown := by
  have logical : target.isLogical = true := by
    rw [split,List.getElem?_append_right behind] at found
    exact (List.mem_filter.mp (List.mem_of_getElem? found)).2
  have none : (v.logicals.eraseIdx (pos - v.primaries.length)).filter (fun e => !e.isLogical) = [] := by
    refine List.filter_eq_nil_iff.mpr (fun e member => ?_)
    have kind := (List.mem_filter.mp ((List.eraseIdx_sublist _ _).subset member)).2
    simp [kind]
  have all : v.primaries.filter (fun e => !e.isLogical) = v.primaries := by
    rw [primaries,List.filter_filter]
    simp only [Bool.and_self]
  have kept : (v.entries.eraseIdx pos).filter (fun e => !e.isLogical) = v.primaries := by
    rw [split,List.eraseIdx_append_of_length_le behind,List.filter_append,none,all,List.append_nil]
  rw [shown_primaries,map_reindex PartitionEntry.shown (fun _ _ => rfl),withoutEntry,logical,Bool.not_true,
    Bool.and_false,if_neg Bool.false_ne_true,List.filter_map]
  exact congrArg (List.map PartitionEntry.shown) kept

theorem slottable_newEntry {t : MbrPartitionTable} {params : PartitionParams} (tame : ∀ e ∈ t.entries, Tame e)
    (accepted : t.addChecks params = .ok ()) :
    Slottable (t.newEntry params) ∧ t.primaries.length < MBR_MAX_PRIMARY_PARTITIONS := by
  have primary : params.isLogical = false := by
    cases logical : params.isLogical with
    | false => rfl
    | true => exact absurd accepted (logical_add_rejected t params tame logical)
  obtain ⟨positive,room,_,_,low,short⟩ := (addChecks_ok t params).mp accepted
  have lowBound : params.startLba.toNat ≤ 4294967295 := UInt64.le_iff_toNat_le.mp low
  have shortBound : params.sectorCount.toNat ≤ 4294967295 := UInt64.le_iff_toNat_le.mp short
  refine ⟨⟨primary,rfl,?_,?_,?_⟩,?_⟩
  · simp only [newEntry]
    omega
  · simp only [newEntry]
    omega
  · rintro ⟨_,_,zero⟩
    have none : params.sectorCount.toNat % 2 ^ 32 = 0 := by
      have word := congrArg UInt32.toNat zero
      rwa [UInt64.toNat_toUInt32] at word
    rw [Nat.mod_eq_of_lt (by omega)] at none
    exact positive (UInt64.toNat_inj.mp none)
  · rw [roomFor,primary] at room
    simp only [Bool.false_eq_true,if_false] at room
    split at room
    next => simp at room
    next few => exact Nat.lt_of_not_le few

end MbrPartitionTable

theorem outOfReach_sector (sectorSize : UInt32) (place : Option (UInt64 × UInt64)) :
    OutOfReach sectorSize sectorSize.toNat place := by
  intro start size _
  by_cases origin : start = 0
  · exact .inl origin
  · right
    have positive : start.toNat ≠ 0 := fun zero => origin (UInt64.toNat_inj.mp zero)
    exact Nat.le_mul_of_pos_left _ (Nat.pos_of_ne_zero positive)

section Protection

variable {disk disk' : Disk} {sectorSize : UInt32}

theorem protects_anchor {first second : List PartitionEntry}
    (same : first.map PartitionEntry.anchor = second.map PartitionEntry.anchor) :
    Protects disk sectorSize first ↔ Protects disk sectorSize second := by
  have types : first.map PartitionEntry.mbrType = second.map PartitionEntry.mbrType :=
    map_determined same (fun a _ b _ anchor => (Prod.mk.inj (Prod.mk.inj (Prod.mk.inj anchor).2).2).1)
  have listed (entries : List PartitionEntry) : (∃ e ∈ entries, e.mbrType = MbrTypes.GPT_Protective) ↔
      MbrTypes.GPT_Protective ∈ entries.map PartitionEntry.mbrType := by
    rw [List.mem_map]
  rw [Protects,Protects,listed,listed,types,containerOf_anchor same]

theorem protects_congr {first second : List PartitionEntry}
    (same : first.map PartitionEntry.shown = second.map PartitionEntry.shown) :
    Protects disk sectorSize first ↔ Protects disk sectorSize second :=
  protects_anchor (map_determined same fun _ _ _ _ => PartitionEntry.anchor_of_shown)

theorem MbrAt.protects_iff {chain : List Ebr} {t : MbrPartitionTable} (held : MbrAt disk sectorSize chain t) :
    t.hasGptProtective = true ↔ Protects disk sectorSize t.primaries := by
  have chained := held.chainOf
  obtain ⟨_,logical⟩ := held.primaries_logicals
  have types : (∃ e ∈ t.logicals, e.mbrType = MbrTypes.GPT_Protective) ↔
      ∃ e ∈ chainLogicals sectorSize 0 chain, e.mbrType = MbrTypes.GPT_Protective := by
    have same := types_chainLogicals sectorSize
      (primaryEntries sectorSize (window disk.byte 0 512)).length 0 chain
    rw [← logical] at same
    have third := congrArg (List.map (fun shown : UInt64 × UInt64 × UInt8 × Bool × Bool × Bool => shown.2.2.1)) same
    rw [List.map_map,List.map_map] at third
    constructor
    · rintro ⟨e,member,type⟩
      have listed : e.mbrType ∈ (chainLogicals sectorSize 0 chain).map PartitionEntry.mbrType := by
        rw [show (chainLogicals sectorSize 0 chain).map PartitionEntry.mbrType = t.logicals.map PartitionEntry.mbrType
          from third.symm]
        exact List.mem_map_of_mem member
      obtain ⟨other,among,again⟩ := List.mem_map.mp listed
      exact ⟨other,among,again.trans type⟩
    · rintro ⟨e,member,type⟩
      have listed : e.mbrType ∈ t.logicals.map PartitionEntry.mbrType := by
        rw [show t.logicals.map PartitionEntry.mbrType = (chainLogicals sectorSize 0 chain).map PartitionEntry.mbrType
          from third]
        exact List.mem_map_of_mem member
      obtain ⟨other,among,again⟩ := List.mem_map.mp listed
      exact ⟨other,among,again.trans type⟩
  rw [hasGptProtective,held.split,List.any_append,Bool.or_eq_true,List.any_eq_true,List.any_eq_true]
  simp only [beq_iff_eq]
  rw [types,Protects]
  refine or_congr Iff.rfl ⟨fun found => ⟨chain,chained,found⟩,?_⟩
  rintro ⟨other,again,found⟩
  rw [chained.unique again]
  exact found

variable {middle : Disk} {t : MbrPartitionTable} (laid : Overwrote middle sectorSize t disk')
include laid

theorem Overwrote.protects_iff {chain : List Ebr} {v : MbrPartitionTable} (held : MbrAt disk' sectorSize chain v) :
    v.hasGptProtective = true ↔ Protects disk' sectorSize t.primaries := by
  rw [held.protects_iff]
  exact protects_congr (laid.reread_shown held)

theorem Overwrote.protects_kept {primaries : List PartitionEntry} (addressable : Addressable (containerOf primaries))
    (reach : OutOfReach sectorSize (t.buffer sectorSize).length (containerOf primaries)) :
    Protects disk' sectorSize primaries ↔ Protects middle sectorSize primaries := by
  rw [Protects,Protects]
  simp only [laid.chain_iff addressable reach]

/-- With no logical partitions a table is written to the first sector alone, and every
container keeps its chain. -/
theorem Overwrote.chain_plain (none : t.logicals = []) {place : Option (UInt64 × UInt64)} {chain : List Ebr}
    (addressable : Addressable place) :
    ChainOf disk' sectorSize place chain ↔ ChainOf middle sectorSize place chain := by
  refine laid.chain_iff addressable ?_
  rw [length_buffer_plain t (ebrImages_nil t none) laid.long]
  exact outOfReach_sector sectorSize place

theorem Overwrote.protects_plain (none : t.logicals = []) {primaries : List PartitionEntry}
    (addressable : Addressable (containerOf primaries)) :
    (GptBehind disk' sectorSize ∧ Protects disk' sectorSize primaries) ↔
      (GptBehind middle sectorSize ∧ Protects middle sectorSize primaries) := by
  rw [laid.gptBehind_plain (ebrImages_nil t none),Protects,Protects]
  simp only [laid.chain_plain none addressable]

theorem Overwrote.primary_at {chain : List Ebr} {v : MbrPartitionTable} (held : MbrAt disk' sectorSize chain v) :
    v.primaries.length = t.primaries.length ∧
      ∀ (i : Nat) (e : PartitionEntry), t.primaries[i]? = some e →
        ∃ e', v.entries[i]? = some e' ∧ e'.shown = e.shown := by
  have shown := laid.reread_shown held
  have length := congrArg List.length shown
  rw [List.length_map,List.length_map] at length
  refine ⟨length,fun i e at_i => ?_⟩
  have bound := (List.getElem?_eq_some_iff.mp at_i).1
  have same := congrArg (fun entries => entries[i]?) shown
  simp only [List.getElem?_map,at_i,Option.map_some] at same
  obtain ⟨e',at_i',view⟩ := Option.map_eq_some_iff.mp same
  refine ⟨e',?_,view⟩
  rw [held.split,List.getElem?_append_left (by omega)]
  exact at_i'

theorem Overwrote.read_again {fuel : Nat} {table' : PartitionTable}
    (read : OperationUtils.readPartitionTable fuel .working disk' sectorSize = some (.ok table')) :
    ∃ chain v, MbrAt disk' sectorSize chain v ∧
      (table' = .mbr v ∧ ¬ (GptBehind disk' sectorSize ∧ Protects disk' sectorSize t.primaries) ∨
        ∃ g, table' = .gpt g ∧ (GptBehind disk' sectorSize ∧ Protects disk' sectorSize t.primaries) ∧
          GptPartitionTable.parse { diskSizeBytes := disk'.totalBytes,sectorSize }
            (OperationUtils.readFunc .working disk' sectorSize) = .ok g) := by
  rcases read_kind read with ⟨_,other⟩ | ⟨chain,v,held,⟨same,alone⟩ | ⟨g,same,protective,parsed⟩⟩
  · exact absurd laid.legible other
  · refine ⟨chain,v,held,.inl ⟨same,?_⟩⟩
    rintro ⟨behind,protects⟩
    exact alone ((laid.protects_iff held).mpr protects) behind
  · exact ⟨chain,v,held,.inr ⟨g,same,⟨⟨g,parsed⟩,(laid.protects_iff held).mp protective⟩,parsed⟩⟩

/-- Unless it is taken for a GPT's, the disk is read as the MBR that was written. -/
theorem Overwrote.reads {chain : List Ebr} (chained : ChainOf disk' sectorSize (containerOf t.primaries) chain)
    (alone : ¬ (GptBehind disk' sectorSize ∧ Protects disk' sectorSize t.primaries)) :
    ∃ v, MbrAt disk' sectorSize chain v ∧
      OperationUtils.readPartitionTable (chain.length + 1) .working disk' sectorSize = some (.ok (.mbr v)) := by
  obtain ⟨v,held⟩ := laid.mbrAt chained
  exact ⟨v,held,held.read (fun protective behind => alone ⟨behind,(laid.protects_iff held).mp protective⟩)⟩

end Protection

section Again

variable {disk disk' : Disk} {sectorSize : UInt32} {chain : List Ebr} {t v : MbrPartitionTable}

theorem MbrAt.same_shown (held : MbrAt disk sectorSize chain t) (again : MbrAt disk' sectorSize chain v)
    (primary : v.primaries.map PartitionEntry.shown = t.primaries.map PartitionEntry.shown) :
    v.entries.map PartitionEntry.shown = t.entries.map PartitionEntry.shown := by
  rw [held.split,again.split,List.map_append,List.map_append,primary,held.primaries_logicals.2,
    again.primaries_logicals.2]
  exact congrArg _ (types_chainLogicals _ _ _ _)

theorem MbrAt.blank (held : MbrAt disk sectorSize chain t) :
    ∀ e ∈ t.entries, e.gptFields = (.zero 16,.zero 16,0,[]) := by
  intro e member
  rw [held.entries] at member
  rcases List.mem_append.mp member with primary | logical
  · obtain ⟨i,_,rfl⟩ := mem_primaryEntries primary
    rfl
  · obtain ⟨ebr,_,i,rfl⟩ := mem_chainLogicals logical
    rfl

end Again

/-- A table with the same primaries, written where the chain is as it was, is read as the
table before. -/
theorem ReadsSame.of_overwrote {β : Type} {view : PartitionEntry → β}
    (blind : ∀ a b : PartitionEntry, a.shown = b.shown → a.gptFields = b.gptFields → view a = view b)
    {disk middle disk' : Disk} {sectorSize : UInt32} {chain : List Ebr} {t u : MbrPartitionTable}
    (held : MbrAt disk sectorSize chain t) (laid : Overwrote middle sectorSize u disk')
    (same : u.primaries.map PartitionEntry.shown = t.primaries.map PartitionEntry.shown)
    (chained : ChainOf disk' sectorSize (containerOf t.primaries) chain)
    (alone : ¬ (GptBehind disk' sectorSize ∧ Protects disk' sectorSize t.primaries)) :
    ReadsSame view disk' sectorSize (.mbr t) := by
  rw [← containerOf_congr same] at chained
  rw [← protects_congr same] at alone
  obtain ⟨v,again,read⟩ := laid.reads chained alone
  have entries := held.same_shown again ((laid.reread_shown again).trans same)
  refine ⟨_,_,read,rfl,?_⟩
  have views := map_determined entries (fun a among b there shown =>
    blind a b shown (by rw [again.blank a among,held.blank b there]))
  simp only [PartitionTable.partitions,views,List.Perm.refl]

section Sample

def farContainer : PartitionEntry :=
  { startLba := 8,sectorCount := 40,mbrType := MbrTypes.Extended,isExtended := true }

def farLogical : PartitionEntry := { startLba := 9,sectorCount := 20,mbrType := 0x07,isLogical := true }

def blankDisk : Disk := { totalBytes := 1048576,byte := fun _ => 0 }

def farBase : Disk := blankDisk.patched 4096 (ebrSector 8 farLogical none)

def tableOf (entries : List PartitionEntry) : MbrPartitionTable :=
  { diskSizeBytes := 1048576,sectorSize := 512,entries }

/-- An MBR on a disk that was otherwise blank, or had an EBR at LBA 8. -/
def bearing (base : Disk) (entries : List PartitionEntry) : Disk := base.patched 0 ((tableOf entries).buffer 512)

theorem farBase_wiped (i : Nat) (front : i < 4096) : farBase.byte i = 0 := by
  rw [farBase,Disk.patched_byte]
  exact patch_apart _ _ _ i (.inl front)

theorem noGpt_of_wiped {disk : Disk} (wiped : disk.byte 512 = 0) : ¬ GptBehind disk 512 := by
  have width : (512 : UInt32).toNat = 512 := rfl
  have bytes : GPT_HEADER_SIZE.toNat = 92 := rfl
  intro found
  have readable := (gptBehind_iff (by decide) (by decide)).mp found
  have byte := readable.first_byte
  have long := readable.long
  rw [length_window] at long
  rw [getD_window _ _ _ _ (by omega),Nat.add_zero,width,wiped] at byte
  exact byte rfl

theorem chain_single {start size : UInt64} (nonzero : start ≠ 0) (filled : start < start + size)
    (low : start.toNat * 512 + 512 ≤ 1048576) :
    ChainOf (blankDisk.patched (start.toNat * 512) (ebrSector start farLogical none)) 512 (some (start,size))
      [⟨start,ebrSector start farLogical none⟩] := by
  have width : (512 : UInt32).toNat = 512 := rfl
  have some_bytes : MBR_SIZE.toNat = 512 := rfl
  have total : blankDisk.totalBytes.toNat = 1048576 := rfl
  have length := length_ebrSector start farLogical none
  have signed := ebrSector_signed start farLogical none
  have ended := ebr_next start start farLogical none start
  have byte := @sector_offset 512 (by decide) start (by omega)
  have at_lba := start_sector (by decide) byte
  have read := readFunc_sector (blankDisk.patched (start.toNat * 512) (ebrSector start farLogical none))
    (by decide : (512 : UInt32).toNat ≤ 2 ^ 31) (start * (512 : UInt32).toUInt64) (by decide : 0 < MBR_SIZE.toNat)
    (by decide)
  have whole := window_patch_whole blankDisk.byte (start.toNat * 512) length
  have reach : (blankDisk.patched (start.toNat * 512) (ebrSector start farLogical none)).reach (start.toNat * 512)
      MBR_SIZE.toNat = 512 := by
    rw [Disk.reach,Disk.patched_totalBytes,total,some_bytes]
    omega
  rw [at_lba,byte,width,reach,Disk.patched_byte,whole] at read
  exact .walked start size _ (.last 255 start _
    (ebrAt_of_read nonzero ⟨UInt64.le_refl _,filled⟩ read length signed) ended)

theorem chain_farBase : ChainOf farBase 512 (some (8,40)) [⟨8,ebrSector 8 farLogical none⟩] :=
  @chain_single 8 40 (by decide) (by decide) (by decide)

theorem room_of_size {disk : Disk} (size : disk.totalBytes = 1048576) :
    2 ^ 18 + (512 : UInt32).toNat ≤ disk.totalBytes.toNat := by
  have width : (512 : UInt32).toNat = 512 := rfl
  have total : (1048576 : UInt64).toNat = 1048576 := rfl
  rw [size,width,total]
  decide

theorem bearing_size {base : Disk} (entries : List PartitionEntry) (size : base.totalBytes = 1048576) :
    (bearing base entries).totalBytes = 1048576 := by
  rw [bearing,Disk.patched_totalBytes,size]

theorem held_bearing {base : Disk} {entries : List PartitionEntry} (rewritable : Rewritable (tableOf entries))
    (none : (tableOf entries).logicals = []) (size : base.totalBytes = 1048576) (wiped : base.byte 512 = 0)
    {chain : List Ebr} (chained : ChainOf base 512 (containerOf (tableOf entries).primaries) chain) :
    ¬ GptBehind (bearing base entries) 512 ∧ ∃ t, MbrAt (bearing base entries) 512 chain t ∧ t.entries =
      (tableOf entries).primaries.mapIdx (rewritten 512) ++
        chainLogicals 512 (tableOf entries).primaries.length chain := by
  have laid : Overwrote base 512 (tableOf entries) (bearing base entries) :=
    (Overwrote.of_room rewritable (by decide) (by decide) (room_of_size size)).2
  obtain ⟨t,held⟩ := laid.mbrAt ((laid.chain_plain none rewritable.addressable).mpr chained)
  obtain ⟨primary,logical,_⟩ := laid.reread held
  refine ⟨fun found => noGpt_of_wiped wiped (laid.gptBehind found),t,held,?_⟩
  rw [held.split,primary,logical]

def farDisk : Disk := bearing farBase [farContainer]

theorem farDisk_size : farDisk.totalBytes = 1048576 := by
  rw [farDisk]
  exact bearing_size [farContainer] rfl

theorem farDisk_held : ¬ GptBehind farDisk 512 ∧ ∃ t, MbrAt farDisk 512 [⟨8,ebrSector 8 farLogical none⟩] t ∧
    t.entries = [rewritten 512 0 farContainer,ebrRewritten 512 8 1 farLogical] := by
  have rewritable : Rewritable (tableOf [farContainer]) := by
    refine ⟨fun e member => ?_,by decide,by decide,by decide⟩
    rw [List.mem_singleton.mp member]
    exact ⟨rfl,rfl,by decide,by decide,by rw [Occupies]; decide⟩
  obtain ⟨noGpt,t,held,entries⟩ := held_bearing rewritable rfl rfl (farBase_wiped 512 (by decide)) chain_farBase
  have used := (ebr_used 8 8 farLogical none).mpr (by decide)
  have logical := ebr_logical 8 8 farLogical none 512 1
  refine ⟨noGpt,t,held,?_⟩
  have one : (tableOf [farContainer]).primaries.length = 1 := rfl
  rw [entries,chainLogicals_cons,if_pos used,one,logical]
  rfl

end Sample

end SetecWizard.Core
