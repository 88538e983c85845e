import SetecWizard.Operations.MbrEdits

/-! Two tables written one after the other. The second is made from what is read back
after the first, and the chain that is found in the end is the one that the EBRs in
front of it leave. Only where they run over it can it be another than before.
-/
namespace SetecWizard.Core
open SetecWizard.Library MbrPartitionTable

namespace MbrPartitionTable

def laidOver (t : MbrPartitionTable) (disk : Disk) (sectorSize : UInt32) : Disk :=
  disk.patched 0 (t.buffer sectorSize)

theorem ebrSector_congr (extStartLba : UInt64) {e e' : PartitionEntry} {next next' : Option PartitionEntry}
    (same : e.shown = e'.shown) (follows : next.map PartitionEntry.shown = next'.map PartitionEntry.shown) :
    ebrSector extStartLba e next = ebrSector extStartLba e' next' := by
  simp only [PartitionEntry.shown,Prod.mk.injEq] at same
  obtain ⟨_,count,type,active,_⟩ := same
  have first : logicalSlot e = logicalSlot e' := by
    simp only [logicalSlot,statusByte,count,type,active]
  cases next with
  | none =>
    cases next' with
    | none => simp only [ebrSector,first]
    | some n' => simp at follows
  | some n =>
    cases next' with
    | none => simp at follows
    | some n' =>
      simp only [Option.map_some,Option.some.injEq,PartitionEntry.shown,Prod.mk.injEq] at follows
      have second : linkSlot extStartLba n = linkSlot extStartLba n' := by
        simp only [linkSlot,follows.1,follows.2.1]
      simp only [ebrSector,first,second]

theorem ebrSectors_congr (extStartLba : UInt64) {first second : List PartitionEntry}
    (same : first.map PartitionEntry.shown = second.map PartitionEntry.shown) :
    ebrSectors extStartLba first = ebrSectors extStartLba second := by
  induction first generalizing second with
  | nil =>
    rw [List.map_nil,eq_comm,List.map_eq_nil_iff] at same
    rw [same]
  | cons e rest ih =>
    cases second with
    | nil => simp at same
    | cons e' rest' =>
      obtain ⟨head,tail⟩ := List.cons.inj same
      have follows := congrArg List.head? tail
      rw [List.head?_map,List.head?_map] at follows
      rw [ebrSectors,ebrSectors,ebrSector_congr extStartLba head follows,ih tail]

theorem ebrImages_of_parts {t t' : MbrPartitionTable} (place : containerOf t.primaries = containerOf t'.primaries)
    (logical : t.logicals.map PartitionEntry.shown = t'.logicals.map PartitionEntry.shown) :
    t.ebrImages = t'.ebrImages := by
  rw [containerOf,containerOf,← findExtended_eq,← findExtended_eq] at place
  unfold ebrImages
  cases search : t.findExtended with
  | none =>
    rw [search,Option.map_none,eq_comm,Option.map_eq_none_iff] at place
    rw [place]
  | some ext =>
    rw [search,Option.map_some,eq_comm,Option.map_eq_some_iff] at place
    obtain ⟨ext',search',range⟩ := place
    rw [search']
    simp only
    rw [ebrSectors_congr _ logical,(Prod.mk.inj range).1]

theorem ebrImages_congr {t t' : MbrPartitionTable}
    (same : t.entries.map PartitionEntry.shown = t'.entries.map PartitionEntry.shown) :
    t.ebrImages = t'.ebrImages := by
  have primary := t.shown_primaries
  have logical := t.shown_logicals
  rw [same,← shown_primaries] at primary
  rw [same,← shown_logicals] at logical
  exact ebrImages_of_parts (containerOf_congr primary) logical

variable {t t' : MbrPartitionTable} {sectorSize : UInt32}

theorem buffer_congr (images : t.ebrImages = t'.ebrImages) {i : Nat} (beyond : 512 ≤ i) :
    (t.buffer sectorSize)[i]? = (t'.buffer sectorSize)[i]? := by
  have one := t.length_mbrSector
  have two := t'.length_mbrSector
  rw [buffer,buffer,OperationUtils.padded,OperationUtils.padded,OperationUtils.sectorsToWrite,
    OperationUtils.sectorsToWrite,List.length_append,List.length_append,one,two,images,List.append_assoc,
    List.append_assoc]
  rw [List.getElem?_append_right (by rw [one]; exact beyond),one]
  rw [@List.getElem?_append_right _ t'.mbrSector _ i (by rw [two]; exact beyond),two]

theorem laidOver_congr (images : t.ebrImages = t'.ebrImages) {disk other : Disk}
    (same : ∀ i, 512 ≤ i → disk.byte i = other.byte i) {i : Nat} (beyond : 512 ≤ i) :
    (t.laidOver disk sectorSize).byte i = (t'.laidOver other sectorSize).byte i := by
  rw [laidOver,laidOver,Disk.patched_byte,Disk.patched_byte,patch,patch,if_pos (Nat.zero_le _),
    if_pos (Nat.zero_le _),Nat.sub_zero,buffer_congr images beyond,same i beyond]

theorem chain_laidOver (long : 512 ≤ sectorSize.toNat) (moderate : sectorSize.toNat ≤ 2 ^ 31)
    (images : t.ebrImages = t'.ebrImages) {disk other : Disk} (size : disk.totalBytes = other.totalBytes)
    (same : ∀ i, 512 ≤ i → disk.byte i = other.byte i) {place : Option (UInt64 × UInt64)}
    (addressable : Addressable place) {chain : List Ebr} :
    ChainOf (t.laidOver disk sectorSize) sectorSize place chain ↔
      ChainOf (t'.laidOver other sectorSize) sectorSize place chain := by
  have total : (t.laidOver disk sectorSize).totalBytes = (t'.laidOver other sectorSize).totalBytes := by
    rw [laidOver,laidOver,Disk.patched_totalBytes,Disk.patched_totalBytes,size]
  have reach : OutOfReach sectorSize 512 place := fun start count found =>
    (outOfReach_sector sectorSize place start count found).imp_right (long.trans ·)
  have bytes : ∀ i, 512 ≤ i → (t.laidOver disk sectorSize).byte i = (t'.laidOver other sectorSize).byte i :=
    fun i beyond => laidOver_congr images same beyond
  exact ChainOf.kept_iff (by omega) moderate total addressable reach bytes

end MbrPartitionTable

/-- What holds of the chain of a place once a table, and then what is made of the table
that is read back, have gone over the first sectors of a disk. -/
def ChainAfter (disk : Disk) (sectorSize : UInt32) (t : MbrPartitionTable)
    (remake : List PartitionEntry → List PartitionEntry) (place : Option (UInt64 × UInt64))
    (holds : List PartitionEntry → Prop) : Prop :=
  ∃ first second, ChainOf (t.laidOver disk sectorSize) sectorSize (containerOf t.primaries) first ∧
    ChainOf (laidOver { t with
      entries := remake (t.primaries ++ chainLogicals sectorSize t.primaries.length first) }
        (t.laidOver disk sectorSize) sectorSize) sectorSize place second ∧
    holds (chainLogicals sectorSize 0 second)

theorem chainAfter_of_beyond {disk : Disk} {sectorSize : UInt32} {t : MbrPartitionTable}
    {remake : List PartitionEntry → List PartitionEntry} {place : Option (UInt64 × UInt64)}
    {holds : List PartitionEntry → Prop} (long : 512 ≤ sectorSize.toNat) (moderate : sectorSize.toNat ≤ 2 ^ 31)
    (written : Addressable (containerOf t.primaries)) (addressable : Addressable place) {first second : List Ebr}
    (one : ChainOf disk sectorSize (containerOf t.primaries) first) (two : ChainOf disk sectorSize place second)
    {length : Nat} (room : (t.buffer sectorSize).length ≤ length)
    (room' : (buffer { t with
      entries := remake (t.primaries ++ chainLogicals sectorSize t.primaries.length first) } sectorSize).length ≤ length)
    (beyond : ChainBeyond sectorSize length (containerOf t.primaries) first)
    (beyond' : ChainBeyond sectorSize length place second) (kept : holds (chainLogicals sectorSize 0 second)) :
    ChainAfter disk sectorSize t remake place holds := by
  have positive : 0 < sectorSize.toNat := by omega
  have behind (u : MbrPartitionTable) (other : Disk) (fits : (u.buffer sectorSize).length ≤ length) (i : Nat)
      (from_length : length ≤ i) : (u.laidOver other sectorSize).byte i = other.byte i := by
    rw [laidOver,Disk.patched_byte]
    exact patch_apart _ _ _ i (.inr (by omega))
  have size (u : MbrPartitionTable) (other : Disk) : (u.laidOver other sectorSize).totalBytes = other.totalBytes := by
    rw [laidOver,Disk.patched_totalBytes]
  have over_it (u : MbrPartitionTable) (other : Disk) (fits : (u.buffer sectorSize).length ≤ length)
      {at_place : Option (UInt64 × UInt64)} {chain : List Ebr} (known : Addressable at_place)
      (clear : ChainBeyond sectorSize length at_place chain) (chained : ChainOf other sectorSize at_place chain) :
      ChainOf (u.laidOver other sectorSize) sectorSize at_place chain :=
    chained.kept_beyond positive moderate (size u other) known clear (behind u other fits)
  exact ⟨first,second,over_it t disk room written beyond one,
    over_it _ _ room' addressable beyond' (over_it t disk room addressable beyond' two),kept⟩

/-- The disk is taken for a GPT's after a table was written: sector 1 keeps a GPT header
and the table has an entry that points to it. -/
def TakenForGpt (disk : Disk) (sectorSize : UInt32) (t : MbrPartitionTable) : Prop :=
  (t.buffer sectorSize).length = sectorSize.toNat ∧ GptBehind disk sectorSize ∧
    Protects disk sectorSize t.primaries

section Twice

variable {disk disk' disk'' : Disk} {sectorSize : UInt32} {t u u' : MbrPartitionTable} {chain : List Ebr}
    {place : Option (UInt64 × UInt64)}

theorem Overwrote.protects_single (laid : Overwrote disk sectorSize t disk')
    (length : (t.buffer sectorSize).length = sectorSize.toNat) {primaries : List PartitionEntry}
    (addressable : Addressable (containerOf primaries)) :
    Protects disk' sectorSize primaries ↔ Protects disk sectorSize primaries := by
  refine laid.protects_kept addressable ?_
  rw [length]
  exact outOfReach_sector sectorSize _

theorem Overwrote.taken_iff (laid : Overwrote disk sectorSize t disk') :
    (GptBehind disk' sectorSize ∧ Protects disk' sectorSize t.primaries) ↔ TakenForGpt disk sectorSize t := by
  have addressable := laid.rewritable.addressable
  constructor
  · rintro ⟨behind,protects⟩
    have length := laid.single behind
    exact ⟨length,laid.gptBehind behind,(laid.protects_single length addressable).mp protects⟩
  · rintro ⟨length,behind,protects⟩
    exact ⟨(laid.gptBehind_single length).mpr behind,(laid.protects_single length addressable).mpr protects⟩

theorem Overwrote.apart (laid : Overwrote disk sectorSize t disk') {primaries : List PartitionEntry}
    (addressable : Addressable (containerOf primaries))
    (apart : ¬ (GptBehind disk sectorSize ∧ Protects disk sectorSize primaries)) :
    ¬ (GptBehind disk' sectorSize ∧ Protects disk' sectorSize primaries) := by
  rintro ⟨behind,protects⟩
  exact apart ⟨laid.gptBehind behind,(laid.protects_single (laid.single behind) addressable).mp protects⟩

theorem Overwrote.reread_entries (laid : Overwrote disk sectorSize t disk') (held : MbrAt disk' sectorSize chain u) :
    u.entries.map PartitionEntry.shown =
      (t.primaries ++ chainLogicals sectorSize t.primaries.length chain).map PartitionEntry.shown := by
  rw [held.split,List.map_append,List.map_append,laid.reread_shown held,(laid.reread held).2.1]

variable {remake : List PartitionEntry → List PartitionEntry} {holds : List PartitionEntry → Prop}

theorem chainAfter_iff (laid : Overwrote disk sectorSize t disk') (held : MbrAt disk' sectorSize chain u)
    (over' : Overwrote disk' sectorSize u' disk'') (addressable : Addressable place)
    (images : u'.ebrImages = MbrPartitionTable.ebrImages { t with
      entries := remake (t.primaries ++ chainLogicals sectorSize t.primaries.length chain) }) :
    (∃ second, ChainOf disk'' sectorSize place second ∧ holds (chainLogicals sectorSize 0 second)) ↔
      ChainAfter disk sectorSize t remake place holds := by
  have chained := (laid.reread held).2.2
  have first : disk' = t.laidOver disk sectorSize := laid.disk
  have final : disk'' = u'.laidOver disk' sectorSize := over'.disk
  have same (second : List Ebr) : ChainOf (u'.laidOver disk' sectorSize) sectorSize place second ↔
      ChainOf (laidOver { t with
        entries := remake (t.primaries ++ chainLogicals sectorSize t.primaries.length chain) } disk' sectorSize)
          sectorSize place second :=
    chain_laidOver over'.long over'.moderate images rfl (fun _ _ => rfl) addressable
  rw [← final] at same
  rw [ChainAfter,← first]
  constructor
  · rintro ⟨second,found,kept⟩
    exact ⟨chain,second,chained,(same second).mp found,kept⟩
  · rintro ⟨chain',second,again,found,kept⟩
    rw [again.unique chained] at found
    exact ⟨second,(same second).mpr found,kept⟩

theorem readsEqual_iff {β : Type} {view : PartitionEntry → β}
    (blind : ∀ a b : PartitionEntry, a.shown = b.shown → view a = view b) {before : List Ebr}
    (held : MbrAt disk sectorSize before t) (over' : Overwrote disk' sectorSize u' disk'')
    (same : u'.primaries.map PartitionEntry.shown = t.primaries.map PartitionEntry.shown)
    (apart : ¬ (GptBehind disk'' sectorSize ∧ Protects disk'' sectorSize t.primaries)) :
    ReadsEqual view disk'' sectorSize (.mbr t) ↔
      ∃ second, ChainOf disk'' sectorSize (containerOf t.primaries) second ∧
        (chainLogicals sectorSize 0 second).map view = t.logicals.map view := by
  have views {first second : List PartitionEntry}
      (shown : first.map PartitionEntry.shown = second.map PartitionEntry.shown) :
      first.map view = second.map view := map_determined shown (fun a _ b _ => blind a b)
  have entries {second : List Ebr} {w : MbrPartitionTable} (last : MbrAt disk'' sectorSize second w) :
      w.entries.map view = t.primaries.map view ++ (chainLogicals sectorSize 0 second).map view := by
    obtain ⟨_,logical,_⟩ := over'.reread last
    have primary := views ((over'.reread_shown last).trans same)
    have renumbered := views (types_chainLogicals sectorSize u'.primaries.length 0 second)
    rw [last.split,List.map_append,primary,logical,renumbered]
  constructor
  · intro equal
    obtain ⟨second,w,last,listed⟩ := equal.mbr
    rw [entries last,held.split,List.map_append] at listed
    refine ⟨second,?_,List.append_cancel_left listed⟩
    rw [← containerOf_congr same]
    exact (over'.reread last).2.2
  · rintro ⟨second,chained,listed⟩
    rw [← containerOf_congr same] at chained
    rw [← protects_congr same] at apart
    obtain ⟨w,last,read⟩ := over'.reads chained apart
    refine ⟨_,_,read,rfl,?_⟩
    rw [PartitionTable.partitions,PartitionTable.partitions,entries last,held.split,List.map_append,listed]

end Twice

end SetecWizard.Core
