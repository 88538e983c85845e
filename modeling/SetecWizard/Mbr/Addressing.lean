import SetecWizard.Format.Sector
import SetecWizard.Mbr.Layout
import SetecWizard.Operations.MbrDisk

/-! The CHS addresses in the slots of an MBR against the sectors they stand for. They are
computed when a partition is added and kept when it is resized. Only the start is
compared with the last sector that has an address.
-/
namespace SetecWizard.Core
open SetecWizard.Library

theorem high_bits (n : Nat) : n >>> 2 &&& 0xC0 = n / 256 % 4 * 64 := by
  have form : n / 256 % 4 * 64 = (n >>> 8 &&& 3) <<< 6 := by
    rw [Nat.shiftRight_eq_div_pow,Nat.shiftLeft_eq,Nat.and_two_pow_sub_one_eq_mod _ 2]
  rw [form]
  apply Nat.eq_of_testBit_eq
  intro i
  have mask : (0xC0 : Nat) = 3 <<< 6 := rfl
  rw [mask,Nat.testBit_and,Nat.testBit_shiftRight,Nat.testBit_shiftLeft,Nat.testBit_shiftLeft,Nat.testBit_and,
    Nat.testBit_shiftRight]
  by_cases low : i ≥ 6
  · have place : 8 + (i - 6) = 2 + i := by omega
    simp [low,place]
  · simp [low]

theorem packed_bits : ∀ q < 4, ∀ s < 64,
    (UInt32.ofNat s &&& 0x3F ||| UInt32.ofNat (q * 64)).toUInt8 &&& 0x3F = UInt8.ofNat s ∧
      (((UInt32.ofNat s &&& 0x3F ||| UInt32.ofNat (q * 64)).toUInt8 &&& 0xC0).toUInt32 <<< 2).toNat = q * 256 := by
  decide

theorem decodeCHS_encodeCHS (chs : CHSAddress) (six : chs.sector.toNat < 64) :
    decodeCHS (encodeCHS chs) 0 =
      ⟨UInt32.ofNat (chs.cylinder.toNat % 1024),chs.head,chs.sector⟩ := by
  have bound := chs.cylinder.toNat_lt
  have high : (chs.cylinder >>> 2) &&& (0xC0 : UInt32) = UInt32.ofNat (chs.cylinder.toNat / 256 % 4 * 64) := by
    apply UInt32.toNat_inj.mp
    rw [UInt32.toNat_and,UInt32.toNat_shiftRight,UInt32.toNat_ofNat']
    have bits := high_bits chs.cylinder.toNat
    have small : chs.cylinder.toNat / 256 % 4 * 64 < 2 ^ 32 := by omega
    rw [Nat.mod_eq_of_lt small,← bits]
    rfl
  have low : (chs.cylinder &&& (0xFF : UInt32)).toUInt8.toUInt32.toNat = chs.cylinder.toNat % 256 := by
    have mask : (0xFF : UInt32).toNat = 2 ^ 8 - 1 := rfl
    rw [UInt8.toNat_toUInt32,UInt32.toNat_toUInt8,UInt32.toNat_and,mask,Nat.and_two_pow_sub_one_eq_mod]
    omega
  have sector : UInt32.ofNat chs.sector.toNat = chs.sector.toUInt32 := by
    apply UInt32.toNat_inj.mp
    rw [UInt32.toNat_ofNat',UInt8.toNat_toUInt32,Nat.mod_eq_of_lt (by omega)]
  obtain ⟨six_bits,two_bits⟩ := packed_bits (chs.cylinder.toNat / 256 % 4) (Nat.mod_lt _ (by decide)) chs.sector.toNat six
  rw [sector,← high] at six_bits two_bits
  simp only [decodeCHS,encodeCHS,List.getD_cons_zero,List.getD_cons_succ,CHSAddress.mk.injEq,true_and]
  refine ⟨?_,?_⟩
  · apply UInt32.toNat_inj.mp
    rw [UInt32.toNat_or,low,two_bits,UInt32.toNat_ofNat']
    have joined := Nat.shiftLeft_add_eq_or_of_lt (Nat.mod_lt chs.cylinder.toNat (by decide : 0 < 2 ^ 8))
      (chs.cylinder.toNat / 256 % 4)
    rw [Nat.shiftLeft_eq] at joined
    rw [Nat.or_comm,← joined]
    omega
  · rw [six_bits]
    exact UInt8.ofNat_toNat

/-- An address that has a track and a sector of its own. -/
structure CHSAddress.Regular (chs : CHSAddress) : Prop where
  head : chs.head.toNat < 255
  first : 1 ≤ chs.sector.toNat
  last : chs.sector.toNat ≤ 63

def CHSAddress.place (chs : CHSAddress) : Nat :=
  chs.cylinder.toNat * 16065 + chs.head.toNat * 63 + (chs.sector.toNat - 1)

namespace CHSAddress.Regular

variable {chs : CHSAddress}

theorem chsToLba (regular : chs.Regular) : DiskGeometry.chsToLba chs ⟨255,63⟩ = .ok (UInt64.ofNat chs.place) := by
  have cylinder := chs.cylinder.toNat_lt
  have head := regular.head
  have first := regular.first
  have last := regular.last
  have nonzero : chs.sector ≠ 0 := by
    rintro zero
    rw [zero] at first
    cases first
  have heads : (255 : UInt32).toUInt64.toNat = 255 := rfl
  have sectors : (63 : UInt32).toUInt64.toNat = 63 := rfl
  have one : (1 : UInt64).toNat = 1 := rfl
  have plain : ¬ ((255 : UInt32) = 0 ∨ (63 : UInt32) = 0) := by decide
  rw [DiskGeometry.chsToLba,if_neg plain,if_neg nonzero,Except.ok.injEq]
  apply UInt64.toNat_inj.mp
  have below : (1 : UInt64) ≤ chs.sector.toUInt64 := by
    rw [UInt64.le_iff_toNat_le,UInt8.toNat_toUInt64,one]
    exact first
  simp only [UInt64.toNat_add,UInt64.toNat_mul,UInt32.toNat_toUInt64,UInt8.toNat_toUInt64,heads,sectors,
    UInt64.toNat_sub_of_le _ _ below,UInt64.toNat_ofNat',CHSAddress.place,one]
  omega

theorem encoded (regular : chs.Regular) : (decodeCHS (encodeCHS chs) 0).Regular ∧
    (decodeCHS (encodeCHS chs) 0).place = chs.place % 16450560 := by
  have head := regular.head
  have first := regular.first
  have last := regular.last
  rw [decodeCHS_encodeCHS chs (by omega)]
  refine ⟨⟨head,first,last⟩,?_⟩
  simp only [CHSAddress.place,UInt32.toNat_ofNat']
  omega

theorem sentinel_iff (regular : chs.Regular) :
    encodeCHS chs = encodeCHSOverflow ↔ chs.place % 16450560 = 16450559 := by
  have last : (decodeCHS encodeCHSOverflow 0).place = 16450559 := by decide
  constructor
  · intro sentinel
    rw [← regular.encoded.2,sentinel,last]
  · intro kept
    obtain ⟨⟨headBound,first,sectorBound⟩,place⟩ := regular.encoded
    rw [kept] at place
    have bytes := encodeCHS_decodeCHS (encodeCHS chs) 0
    have low : (decodeCHS (encodeCHS chs) 0).cylinder.toNat < 1024 := by
      rw [decodeCHS_encodeCHS chs (by have := regular.last; omega),UInt32.toNat_ofNat']
      omega
    generalize decodeCHS (encodeCHS chs) 0 = kept at *
    obtain ⟨cylinder,head,sector⟩ := kept
    simp only [CHSAddress.place] at place headBound first sectorBound low
    have all : cylinder = 1023 ∧ head = 254 ∧ sector = 63 := by
      refine ⟨UInt32.toNat_inj.mp ?_,UInt8.toNat_inj.mp ?_,UInt8.toNat_inj.mp ?_⟩
      · change cylinder.toNat = 1023
        omega
      · change head.toNat = 254
        omega
      · change sector.toNat = 63
        omega
    obtain ⟨rfl,rfl,rfl⟩ := all
    exact bytes.symm

end CHSAddress.Regular

theorem lbaToChs_place {lba : UInt64} (low : lba.toNat < 2 ^ 34) :
    ∃ chs, DiskGeometry.lbaToChs lba ⟨255,63⟩ = .ok chs ∧ chs.Regular ∧ chs.place = lba.toNat := by
  have plain : ¬ ((255 : UInt32) = 0 ∨ (63 : UInt32) = 0) := by decide
  have track : ((255 : UInt32).toUInt64 * (63 : UInt32).toUInt64).toNat = 16065 := rfl
  have sectors : (63 : UInt32).toUInt64.toNat = 63 := rfl
  have one : (1 : UInt64).toNat = 1 := rfl
  have cylinder : (lba / ((255 : UInt32).toUInt64 * (63 : UInt32).toUInt64)).toUInt32.toNat = lba.toNat / 16065 := by
    rw [UInt64.toNat_toUInt32,UInt64.toNat_div,track]
    omega
  have head : (lba % ((255 : UInt32).toUInt64 * (63 : UInt32).toUInt64) / (63 : UInt32).toUInt64).toUInt8.toNat =
      lba.toNat % 16065 / 63 := by
    rw [UInt64.toNat_toUInt8,UInt64.toNat_div,UInt64.toNat_mod,track,sectors]
    omega
  have sector : (lba % ((255 : UInt32).toUInt64 * (63 : UInt32).toUInt64) % (63 : UInt32).toUInt64 + 1).toUInt8.toNat =
      lba.toNat % 16065 % 63 + 1 := by
    rw [UInt64.toNat_toUInt8,UInt64.toNat_add,UInt64.toNat_mod,UInt64.toNat_mod,track,sectors,one]
    omega
  refine ⟨_,by rw [DiskGeometry.lbaToChs,if_neg plain],⟨?_,?_,?_⟩,?_⟩
  · simp only [head]
    omega
  · simp only [sector]
    omega
  · simp only [sector]
    omega
  · simp only [CHSAddress.place,cylinder,head,sector]
    omega

namespace MbrPartitionTable

/-- The address at `off` is that of the sector, or the sentinel for one that has none. -/
def ChsAgrees (image : List UInt8) (off : Nat) (lba : UInt64) : Prop :=
  DiskGeometry.chsToLba (decodeCHS image off) ⟨255,63⟩ = .ok lba ∨
    CHS_LIMIT < lba ∧ slice image off 3 = encodeCHSOverflow

def SlotAgrees (slot : List UInt8) : Prop :=
  ChsAgrees slot 1 (readLE32 slot 8).toUInt64 ∧
    ChsAgrees slot 5 ((readLE32 slot 8).toUInt64 + (readLE32 slot 12).toUInt64 - 1)

/-- The slots that are written for primary partitions all agree. -/
def SlotsAgree (t : MbrPartitionTable) : Prop :=
  ∀ image, t.serialize = .ok image → ∀ i < MBR_MAX_PRIMARY_PARTITIONS, i < t.primaries.length →
    SlotAgrees (slotBytes image i)

/-- A new partition ends where sectors have addresses, or where the last of them is met
again; one that is moved keeps the range it was given addresses for. Neither matters
for a start that has no address. -/
def KeepsAddresses (t : MbrPartitionTable) : MbrCall → Prop
  | .add params => t.addChecks params = .ok () → CHS_LIMIT < params.startLba ∨
      params.startLba + params.sectorCount - 1 ≤ CHS_LIMIT ∨
      (params.startLba + params.sectorCount - 1) % (CHS_LIMIT + 1) = CHS_LIMIT
  | .delete _ => True
  | .resize index newStart newSize => ∀ pos e, findIndex t.entries index = some pos → t.entries[pos]? = some e →
      t.resizeChecks index newStart newSize = .ok () → CHS_LIMIT < newStart ∨
        DiskGeometry.chsToLba e.chsStart ⟨255,63⟩ = .ok newStart ∧
        ∃ last, DiskGeometry.chsToLba e.chsEnd ⟨255,63⟩ = .ok last ∧
          last % (CHS_LIMIT + 1) = min (newStart + newSize - 1) CHS_LIMIT

/-- The addresses an entry was given when it was added. -/
structure Addressed (e : PartitionEntry) : Prop where
  start : e.chsStart.Regular
  stop : e.chsEnd.Regular
  short : e.chsStart.place < 16450560

def EntryAgrees (e : PartitionEntry) : Prop :=
  CHS_LIMIT.toNat < e.startLba.toNat ∨ e.chsStart.place = e.startLba.toNat ∧
    e.chsEnd.place % 16450560 = min (e.startLba.toNat + e.sectorCount.toNat - 1) CHS_LIMIT.toNat

/-- Three bytes of an address agree when what they keep of it is the sector, or the last
one that has an address. -/
theorem chsAgrees_encoded {chs : CHSAddress} (regular : chs.Regular) {slot : List UInt8} {off : Nat}
    (field : slice slot off 3 = encodeCHS chs) (lba : UInt64) :
    ChsAgrees slot off lba ↔ chs.place % 16450560 = min lba.toNat CHS_LIMIT.toNat := by
  have limit : CHS_LIMIT.toNat = 16450559 := rfl
  have bytes := decodeCHS_slice slot off 3 0 (by decide)
  rw [field,Nat.add_zero] at bytes
  obtain ⟨kept,place⟩ := regular.encoded
  have whole : (UInt64.ofNat (chs.place % 16450560)).toNat = chs.place % 16450560 := by
    rw [UInt64.toNat_ofNat']
    omega
  rw [ChsAgrees,field,regular.sentinel_iff,← bytes,kept.chsToLba,place,Except.ok.injEq,← UInt64.toNat_inj,whole,
    UInt64.lt_iff_toNat_lt,limit]
  omega

theorem last_toNat {start count : UInt64} (filled : 1 ≤ count.toNat) (short : count.toNat ≤ 2 ^ 32 - 1)
    (low : start.toNat ≤ 2 ^ 32 - 1) : (start + count - 1).toNat = start.toNat + count.toNat - 1 := by
  have one : (1 : UInt64).toNat = 1 := rfl
  have sum : (start + count).toNat = start.toNat + count.toNat := by
    rw [UInt64.toNat_add,Nat.mod_eq_of_lt (by omega)]
  have below : (1 : UInt64) ≤ start + count := by
    rw [UInt64.le_iff_toNat_le,sum,one]
    omega
  rw [UInt64.toNat_sub_of_le _ _ below,sum,one]

theorem slotAgrees_iff {e : PartitionEntry} (addressed : Addressed e) (filled : e.sectorCount ≠ 0)
    (short : e.sectorCount.toNat ≤ 2 ^ 32 - 1) (low : e.startLba.toNat ≤ 2 ^ 32 - 1) :
    SlotAgrees (primarySlot e) ↔ EntryAgrees e := by
  have limit : CHS_LIMIT.toNat = 16450559 := rfl
  have some_sector : 1 ≤ e.sectorCount.toNat := by
    have nonzero : e.sectorCount.toNat ≠ 0 := fun zero => filled (UInt64.toNat_inj.mp zero)
    omega
  obtain ⟨a,b,c,first⟩ := chsBytes_three e e.chsStart
  obtain ⟨d,f,g,second⟩ := chsBytes_three e e.chsEnd
  have word (n : UInt64) (fits : n.toNat ≤ 2 ^ 32 - 1) : n.toUInt32.toUInt64 = n := by
    apply UInt64.toNat_inj.mp
    rw [UInt32.toNat_toUInt64,UInt64.toNat_toUInt32,Nat.mod_eq_of_lt (by omega)]
  have start : (readLE32 (primarySlot e) 8).toUInt64 = e.startLba := by
    rw [readLE32_of_slice (v := e.startLba.toUInt32) (by simp [primarySlot,first,second,slice,le32]),word _ low]
  have count : (readLE32 (primarySlot e) 12).toUInt64 = e.sectorCount := by
    rw [readLE32_of_slice (v := e.sectorCount.toUInt32) (by simp [primarySlot,first,second,slice,le32]),word _ short]
  have last := last_toNat some_sector short low
  have first_field : slice (primarySlot e) 1 3 = chsBytes e e.chsStart := by
    simp [primarySlot,first,second,slice]
  have last_field : slice (primarySlot e) 5 3 = chsBytes e e.chsEnd := by
    simp [primarySlot,first,second,slice]
  rw [SlotAgrees,start,count,EntryAgrees]
  by_cases far : CHS_LIMIT < e.startLba
  · have beyond : CHS_LIMIT < e.startLba + e.sectorCount - 1 := by
      rw [UInt64.lt_iff_toNat_lt] at far ⊢
      omega
    rw [chsBytes,if_pos far] at first_field last_field
    exact iff_of_true ⟨.inr ⟨far,first_field⟩,.inr ⟨beyond,last_field⟩⟩ (.inl (UInt64.lt_iff_toNat_lt.mp far))
  · rw [chsBytes,if_neg far] at first_field last_field
    rw [UInt64.lt_iff_toNat_lt] at far
    have near := addressed.short
    rw [chsAgrees_encoded addressed.start first_field,chsAgrees_encoded addressed.stop last_field,last,
      or_iff_right far]
    refine and_congr_left' ?_
    omega

section Run

variable {t t' : MbrPartitionTable}

/-- The table has the layout of one made from scratch, and its entries the addresses they
were added with. -/
structure Kept (t : MbrPartitionTable) : Prop where
  layout : t.Layout
  addressed : ∀ e ∈ t.entries, Addressed e

theorem slotsAgree_iff (kept : t.Kept) : t.SlotsAgree ↔ ∀ e ∈ t.entries, EntryAgrees e := by
  obtain ⟨layout,addressed⟩ := kept
  have primary : t.primaries = t.entries := layout.primaries_eq
  have few := layout.few
  have most : MBR_MAX_PRIMARY_PARTITIONS = 4 := rfl
  have slot (image : List UInt8) (serialized : t.serialize = .ok image) (i : Nat) (bound : i < t.entries.length) :
      SlotAgrees (slotBytes image i) ↔ EntryAgrees t.entries[i] := by
    have member := List.getElem_mem bound
    have bounds := layout.addressable _ member
    rw [serialize_eq,Except.ok.injEq] at serialized
    have length := t.length_mbrSector
    have base : MBR_PARTITION_ENTRY_OFFSET = 446 := rfl
    have size : MBR_PARTITION_ENTRY_SIZE = 16 := rfl
    have front : slotBytes image i = slotBytes t.mbrSector i := by
      rw [← serialized,slotBytes,slotBytes,base,size,slice_append_left _ _ _ _ (by omega)]
    rw [front,t.slotBytes_mbrSector i (by omega),primary,List.getElem?_eq_getElem bound,Option.elim_some]
    exact slotAgrees_iff (addressed _ member) (layout.filled member) bounds.1 bounds.2
  constructor
  · intro agree e member
    obtain ⟨i,bound,rfl⟩ := List.mem_iff_getElem.mp member
    have serialized := t.serialize_eq
    exact (slot _ serialized i bound).mp (agree _ serialized i (by omega) (by rw [primary]; exact bound))
  · intro agree image serialized i _ bound
    rw [primary] at bound
    exact (slot image serialized i bound).mpr (agree _ (List.getElem_mem bound))

theorem newEntry_addressed {params : PartitionParams} (accepted : t.addChecks params = .ok ()) :
    Addressed (t.newEntry params) ∧ (EntryAgrees (t.newEntry params) ↔ CHS_LIMIT < params.startLba ∨
      params.startLba + params.sectorCount - 1 ≤ CHS_LIMIT ∨
      (params.startLba + params.sectorCount - 1) % (CHS_LIMIT + 1) = CHS_LIMIT) := by
  obtain ⟨positive,_,_,onDisk,low,short⟩ := (addChecks_ok t params).mp accepted
  obtain ⟨nonempty,countBound,startBound,_⟩ := placed_bounds t positive onDisk low short
  have limit : CHS_LIMIT.toNat = 16450559 := rfl
  have cycle : (CHS_LIMIT + 1).toNat = 16450560 := rfl
  have last := last_toNat nonempty countBound startBound
  by_cases far : CHS_LIMIT < params.startLba
  · refine ⟨?_,iff_of_true (.inl (UInt64.lt_iff_toNat_lt.mp far)) (.inl far)⟩
    have regular : CHSAddress.Regular ⟨1023,254,63⟩ := ⟨by decide,by decide,by decide⟩
    have start : (t.newEntry params).chsStart = ⟨1023,254,63⟩ := if_pos far
    have stop : (t.newEntry params).chsEnd = ⟨1023,254,63⟩ := if_pos far
    exact ⟨by rw [start]; exact regular,by rw [stop]; exact regular,by rw [start]; decide⟩
  · have near := far
    rw [UInt64.lt_iff_toNat_lt] at near
    obtain ⟨first,found,regular,place⟩ := @lbaToChs_place params.startLba (by omega)
    obtain ⟨second,found',regular',place'⟩ := @lbaToChs_place
      (params.startLba + params.sectorCount - 1) (by omega)
    have start : (t.newEntry params).chsStart = first := by
      refine (if_neg far).trans ?_
      rw [found]
      rfl
    have stop : (t.newEntry params).chsEnd = second := by
      refine (if_neg far).trans ?_
      rw [found']
      rfl
    refine ⟨⟨by rw [start]; exact regular,by rw [stop]; exact regular',by rw [start,place]; omega⟩,?_⟩
    rw [EntryAgrees,start,stop,place,place',or_iff_right (show ¬ CHS_LIMIT < params.startLba from far)]
    change ¬ _ < params.startLba.toNat at near
    have own : (t.newEntry params).startLba = params.startLba := rfl
    have size : (t.newEntry params).sectorCount = params.sectorCount := rfl
    rw [own,size,UInt64.le_iff_toNat_le,← UInt64.toNat_inj,UInt64.toNat_mod,last,cycle]
    omega

theorem moved_agrees {e : PartitionEntry} (addressed : Addressed e) {newStart newSize : UInt64}
    (filled : 1 ≤ newSize.toNat) (short : newSize.toNat ≤ 2 ^ 32 - 1) (low : newStart.toNat ≤ 2 ^ 32 - 1) :
    EntryAgrees (e.movedTo newStart newSize) ↔ CHS_LIMIT < newStart ∨
      DiskGeometry.chsToLba e.chsStart ⟨255,63⟩ = .ok newStart ∧
      ∃ last, DiskGeometry.chsToLba e.chsEnd ⟨255,63⟩ = .ok last ∧
        last % (CHS_LIMIT + 1) = min (newStart + newSize - 1) CHS_LIMIT := by
  have limit : CHS_LIMIT.toNat = 16450559 := rfl
  have cycle : (CHS_LIMIT + 1).toNat = 16450560 := rfl
  have last := last_toNat filled short low
  have near := addressed.short
  have whole (chs : CHSAddress) : (UInt64.ofNat chs.place).toNat = chs.place := by
    have cylinder := chs.cylinder.toNat_lt
    have head := chs.head.toNat_lt
    have sector := chs.sector.toNat_lt
    rw [UInt64.toNat_ofNat',CHSAddress.place]
    omega
  have least (a b : UInt64) : (min a b).toNat = min a.toNat b.toNat := by
    change (if a ≤ b then a else b).toNat = if a.toNat ≤ b.toNat then a.toNat else b.toNat
    simp only [UInt64.le_iff_toNat_le]
    split <;> rfl
  rw [addressed.start.chsToLba,addressed.stop.chsToLba]
  simp only [Except.ok.injEq,exists_eq_left']
  simp only [← UInt64.toNat_inj,UInt64.toNat_mod,least,whole,last,cycle,UInt64.lt_iff_toNat_lt]
  exact Iff.rfl

theorem entryAgrees_reindexed (e : PartitionEntry) (i : Int) :
    (Addressed { e with index := i } ↔ Addressed e) ∧ (EntryAgrees { e with index := i } ↔ EntryAgrees e) :=
  ⟨⟨fun a => ⟨a.start,a.stop,a.short⟩,fun a => ⟨a.start,a.stop,a.short⟩⟩,Iff.rfl⟩

theorem kept_step (kept : t.Kept) (call : MbrCall) : (call.step t).Kept := by
  have effect := step_effect t call
  refine ⟨kept.layout.kept effect,?_⟩
  generalize call.step t = t' at effect ⊢
  intro e member
  cases effect with
  | refused => exact kept.addressed e member
  | added params accepted =>
    rcases List.mem_append.mp member with old | last
    · exact kept.addressed e old
    · rw [List.mem_singleton.mp last]
      exact (newEntry_addressed accepted).1
  | deleted index pos target found at_pos =>
    obtain ⟨old,among,i,rfl⟩ := mem_after_delete member
    exact (entryAgrees_reindexed old i).1.mpr (kept.addressed old among)
  | resized index newStart newSize pos found accepted =>
    rcases mem_after_resize member with old | ⟨old,at_pos,rfl⟩
    · exact kept.addressed e old
    · obtain ⟨start,stop,short⟩ := kept.addressed old (List.mem_of_getElem? at_pos)
      exact ⟨start,stop,short⟩

theorem agrees_step (kept : t.Kept) (agree : t.SlotsAgree) (call : MbrCall) :
    SlotsAgree (call.step t) ↔ t.KeepsAddresses call := by
  rw [slotsAgree_iff (kept_step kept call)]
  rw [slotsAgree_iff kept] at agree
  have effect := step_effect t call
  generalize call.step t = t' at effect ⊢
  cases effect with
  | refused call failed =>
    refine iff_of_true agree ?_
    cases call with
    | add params => exact fun accepted => absurd accepted failed
    | delete index => trivial
    | resize index newStart newSize =>
      intro pos e found _ accepted
      exact absurd ⟨Option.isSome_iff_exists.mpr ⟨pos,found⟩,accepted⟩ failed
  | added params accepted =>
    simp only [List.mem_append,List.mem_singleton,or_imp,forall_and,forall_eq]
    rw [(newEntry_addressed accepted).2,KeepsAddresses]
    exact ⟨fun all _ => all.2,fun own => ⟨agree,own accepted⟩⟩
  | deleted index pos target found at_pos =>
    refine iff_of_true (fun e member => ?_) trivial
    obtain ⟨old,among,i,rfl⟩ := mem_after_delete member
    exact (entryAgrees_reindexed old i).2.mpr (agree old among)
  | resized index newStart newSize pos found accepted =>
    obtain ⟨positive,onDisk,⟨low,short⟩,_⟩ := (resizeChecks_ok t index newStart newSize).mp accepted
    obtain ⟨nonempty,countBound,startBound,_⟩ := placed_bounds t positive onDisk low short
    obtain ⟨bound,_⟩ := findIndex_some found
    have target : t.entries[pos]? = some t.entries[pos] := List.getElem?_eq_getElem bound
    have moved := moved_agrees (kept.addressed _ (List.mem_of_getElem? target)) nonempty countBound startBound
    constructor
    · intro all at_pos e found' target' _
      rw [found,Option.some.injEq] at found'
      subst found'
      rw [target,Option.some.injEq] at target'
      subst target'
      refine moved.mp (all _ (List.mem_of_getElem? (i := pos) ?_))
      rw [getElem?_moved,if_pos rfl,target]
      rfl
    · intro own e member
      rcases mem_after_resize member with old | ⟨old,at_pos,rfl⟩
      · exact agree e old
      · rw [target,Option.some.injEq] at at_pos
        subst at_pos
        exact moved.mpr (own pos _ found target accepted)

end Run

/-- The addresses of all slots agree throughout a run of a new table exactly when every
partition is added and moved where its addresses keep agreeing. -/
theorem chs_run_iff {diskSizeBytes : UInt64} {sectorSize : UInt32} {diskGuid : Guid} {random : Bytes 16}
    {t : MbrPartitionTable}
    (created : PartitionTable.createNew .mbr diskSizeBytes sectorSize diskGuid random = some (.mbr t))
    (calls : List MbrCall) :
    (∀ t' ∈ Run.trace MbrCall.step t calls, t'.SlotsAgree) ↔ Run.Guarded MbrCall.step KeepsAddresses t calls := by
  simp only [PartitionTable.createNew,Option.some.injEq,PartitionTable.mbr.injEq] at created
  have none : t.entries = [] := by rw [← created]
  have kept : t.Kept := ⟨Layout.empty t none,by simp [none]⟩
  have agree : t.SlotsAgree := (slotsAgree_iff kept).mpr (by simp [none])
  exact Run.invariant_iff_guarded MbrCall.step KeepsAddresses Kept SlotsAgree (fun _ call kept => kept_step kept call)
    (fun _ call kept agree => agrees_step kept agree call) t calls kept agree

section Sample

def freshTable : MbrPartitionTable := { diskSizeBytes := 16777216,sectorSize := 512 }

/-- One partition is added in front of the last address. -/
theorem chs_run_sample : SlotsAgree (MbrCall.step freshTable (.add { startLba := 64,sectorCount := 100 })) :=
  (@chs_run_iff 16777216 512 (.zero 16) (.zero 16) freshTable rfl [.add { startLba := 64,sectorCount := 100 }]).mpr
    ⟨fun _ => .inr (.inl (by decide)),trivial⟩ _ (Run.foldl_mem_trace _ _ _)

/-- A partition that is made larger keeps the address of its old end. -/
theorem resized_chs_stale : ¬ ∀ calls : List MbrCall, ∀ t' ∈ Run.trace MbrCall.step freshTable calls, t'.SlotsAgree := by
  intro always
  let added := MbrCall.step freshTable (.add { startLba := 64,sectorCount := 100 })
  have kept : added.Kept := kept_step ⟨Layout.empty freshTable rfl,by simp [freshTable]⟩ _
  have agree : added.SlotsAgree := always [.add { startLba := 64,sectorCount := 100 }] _ (Run.foldl_mem_trace _ _ _)
  have resized : SlotsAgree (MbrCall.step added (.resize 0 64 200)) :=
    always [.add { startLba := 64,sectorCount := 100 },.resize 0 64 200] _ (Run.foldl_mem_trace _ _ _)
  have addresses := (agrees_step kept agree _).mp resized 0 added.entries[0] (by decide) (by decide) (by decide)
  have stop : DiskGeometry.chsToLba added.entries[0].chsEnd ⟨255,63⟩ = .ok 163 := by decide
  rcases addresses with far | ⟨_,last,found,same⟩
  · revert far
    decide
  · rw [stop,Except.ok.injEq] at found
    subst found
    revert same
    decide

end Sample

end MbrPartitionTable
end SetecWizard.Core
