import SetecWizard.Operations.ResizeUndo
import SetecWizard.Recovery.TableWrite

/-! The logical partitions of an edited table, written and read back. The EBRs of the buffer
lie one after the other behind the MBR. The reader walks from the container on and meets
them only where its way leads through the first sectors.
-/
namespace SetecWizard.Core
open SetecWizard.Library

namespace MbrPartitionTable

/-- What the walk along a chain reads once the table is written: the table's own EBRs, in
order behind the MBR, and behind them what the disk holds. The MBR is never asked for. -/
def ebrRead (t : MbrPartitionTable) (disk : Disk) (sectorSize : UInt32) (extStartLba : UInt64) : DiskReadCallback :=
  fun offset size =>
    match t.logicals.drop (offset.toNat / 512 - 1) with
    | [] => OperationUtils.readFunc .working disk sectorSize offset size
    | e :: rest => .ok (ebrSector extStartLba e rest.head?)

/-- The chain that the walk finds so. -/
def WrittenChain (disk : Disk) (sectorSize : UInt32) (t : MbrPartitionTable) (chain : List Ebr) : Prop :=
  match containerOf t.primaries with
  | none => chain = []
  | some (start,size) =>
    EbrChain sectorSize (t.ebrRead disk sectorSize start) start size MAX_LOGICAL_PARTITIONS start chain

theorem slice_ebrSectors (extStartLba : UInt64) {entries : List PartitionEntry} {q : Nat} {e : PartitionEntry}
    {rest : List PartitionEntry} (found : entries.drop q = e :: rest) :
    slice (ebrSectors extStartLba entries) (q * 512) 512 = ebrSector extStartLba e rest.head? := by
  induction entries generalizing q with
  | nil => simp at found
  | cons first others ih =>
    have length := length_ebrSector extStartLba first others.head?
    rw [ebrSectors]
    cases q with
    | zero =>
      obtain ⟨rfl,rfl⟩ := List.cons.inj found
      have whole := slice_all (ebrSector extStartLba first others.head?)
      rw [length] at whole
      rw [Nat.zero_mul,slice_append_left _ _ _ _ (by omega),whole]
    | succ q =>
      have behind := slice_append_right (ebrSector extStartLba first others.head?) (ebrSectors extStartLba others)
        (q * 512) 512
      rw [length] at behind
      rw [Nat.succ_mul,Nat.add_comm,behind]
      exact ih found

theorem slice_buffer {t : MbrPartitionTable} {sectorSize : UInt32} {ext : PartitionEntry}
    (container : t.findExtended = some ext) {q : Nat} {e : PartitionEntry} {rest : List PartitionEntry}
    (turn : t.logicals.drop q = e :: rest) :
    slice (t.buffer sectorSize) (512 + q * 512) 512 = ebrSector ext.startLba e rest.head? := by
  have sector := t.length_mbrSector
  have images : t.ebrImages = ebrSectors ext.startLba t.logicals := by
    rw [ebrImages,container]
  have length := length_ebrSectors ext.startLba t.logicals
  have inside := congrArg List.length turn
  rw [List.length_drop,List.length_cons] at inside
  have behind := slice_append_right t.mbrSector t.ebrImages (q * 512) 512
  rw [sector,images,slice_ebrSectors ext.startLba turn] at behind
  rw [buffer,OperationUtils.padded,images,slice_append_left _ _ _ _ (by rw [List.length_append]; omega)]
  exact behind

theorem Rewritable.edited {disk : Disk} {sectorSize : UInt32} {chain : List Ebr} {t t' : MbrPartitionTable}
    {call : MbrCall} (held : MbrAt disk sectorSize chain t) (edited : call.apply t = (.ok (),t')) : Rewritable t' := by
  have accepted := (apply_ok t call).mp (congrArg Prod.fst edited)
  have effect := step_effect t call
  rw [MbrCall.step,edited] at effect
  cases effect with
  | refused _ failed => exact absurd accepted failed
  | added params checks =>
    obtain ⟨fits,few⟩ := slottable_newEntry held.tame checks
    exact (held.rewritable.appended fits few).1
  | deleted index pos e => exact held.rewritable.deleted pos e
  | resized index newStart newSize pos found checks => exact held.rewritable.resized held.split checks pos

end MbrPartitionTable

section Written
open MbrPartitionTable

variable {disk disk' : Disk} {sectorSize : UInt32} {t : MbrPartitionTable}

theorem MbrAt.metadata_iff {chain : List Ebr} (held : MbrAt disk sectorSize chain t) (lba : Nat) :
    (PartitionTable.mbr t).Metadata disk sectorSize lba ↔ lba = 0 ∨ ∃ ebr ∈ chain, ebr.lba.toNat = lba := by
  rw [PartitionTable.Metadata]
  refine or_congr Iff.rfl ⟨?_,fun found => ⟨chain,held.chainOf,found⟩⟩
  rintro ⟨other,again,found⟩
  rw [held.chainOf.unique again]
  exact found

variable (laid : Overwrote disk sectorSize t disk')
include laid

theorem Overwrote.buffer_covers {lba : Nat} (behind : 512 + t.ebrImages.length ≤ lba * sectorSize.toNat) :
    (t.buffer sectorSize).length ≤ lba * sectorSize.toNat := by
  have positive := laid.positive
  have short := laid.rewritable.length_ebrImages
  have length : (t.mbrSector ++ t.ebrImages).length = 512 + t.ebrImages.length := by
    rw [List.length_append,length_mbrSector]
  have whole := (padded_spec sectorSize (t.mbrSector ++ t.ebrImages) positive (by omega)).length
  rw [buffer,whole,length]
  refine Nat.mul_le_mul_right _ (Nat.le_of_lt_succ ((Nat.div_lt_iff_lt_mul positive).mpr ?_))
  rw [Nat.succ_mul]
  omega

theorem Overwrote.ebr_read (aligned : 512 ∣ sectorSize.toNat) {ext : PartitionEntry}
    (container : t.findExtended = some ext) {lba : UInt64} (nonzero : lba ≠ 0) (bound : lba.toNat < 2 ^ 33) :
    OperationUtils.readFunc .working disk' sectorSize (lba * sectorSize.toUInt64) MBR_SIZE =
      t.ebrRead disk sectorSize ext.startLba (lba * sectorSize.toUInt64) MBR_SIZE := by
  have size : MBR_SIZE.toNat = 512 := rfl
  have byte := sector_offset laid.moderate bound
  have start := start_sector laid.positive byte
  have first : lba.toNat ≠ 0 := fun zero => nonzero (UInt64.toNat_inj.mp zero)
  have images : t.ebrImages = ebrSectors ext.startLba t.logicals := by
    rw [ebrImages,container]
  have length := length_ebrSectors ext.startLba t.logicals
  have long := laid.long
  -- The place is that of the image with this number, if there are so many.
  obtain ⟨q,place⟩ : ∃ q, lba.toNat * sectorSize.toNat = 512 + q * 512 := by
    obtain ⟨blocks,width⟩ := aligned
    have some_block : 1 ≤ lba.toNat * blocks := Nat.mul_pos (by omega) (by omega)
    refine ⟨lba.toNat * blocks - 1,?_⟩
    rw [width,Nat.mul_left_comm]
    omega
  have number : (lba * sectorSize.toUInt64).toNat / 512 - 1 = q := by
    rw [byte,place]
    omega
  rw [ebrRead,number]
  cases turn : t.logicals.drop q with
  | nil =>
    have few := List.drop_eq_nil_iff.mp turn
    refine readFunc_congr disk' disk laid.size laid.above ?_ MBR_SIZE
    rw [start,byte]
    exact laid.buffer_covers (by rw [images,length,place]; omega)
  | cons e rest =>
    have inside := congrArg List.length turn
    rw [List.length_drop,List.length_cons] at inside
    obtain ⟨_,_,filled⟩ := laid.rewritable.length_buffer laid.positive
    have room := laid.room
    rw [images,length] at filled
    have read := readFunc_sector disk' laid.moderate (lba * sectorSize.toUInt64) (by decide : 0 < MBR_SIZE.toNat) long
    have reach : disk'.reach (lba.toNat * sectorSize.toNat) MBR_SIZE.toNat = 512 := by
      rw [Disk.reach,laid.size,size]
      omega
    have whole := window_patch_inside disk.byte 0 (t.buffer sectorSize) (512 + q * 512) 512 (by omega)
    rw [Nat.zero_add,slice_buffer container turn] at whole
    rw [read,start,byte,reach,place,laid.disk,Disk.patched_byte]
    exact congrArg Except.ok whole

theorem Overwrote.chain_written (aligned : 512 ∣ sectorSize.toNat) {chain : List Ebr} :
    ChainOf disk' sectorSize (containerOf t.primaries) chain ↔ WrittenChain disk sectorSize t chain := by
  rw [WrittenChain]
  cases search : t.findExtended with
  | none =>
    have place : containerOf t.primaries = none := by
      rw [containerOf,← findExtended_eq,search]
      rfl
    rw [place]
    constructor
    · intro chained
      cases chained
      rfl
    · rintro rfl
      exact .absent
  | some ext =>
    have place : containerOf t.primaries = some (ext.startLba,ext.sectorCount) := by
      rw [containerOf,← findExtended_eq,search]
      rfl
    have bound := laid.rewritable.addressable _ _ place
    have same (lba : UInt64) (below : lba.toNat < 2 ^ 33) :
        ebrAt sectorSize (OperationUtils.readFunc .working disk' sectorSize) ext.startLba ext.sectorCount lba =
          ebrAt sectorSize (t.ebrRead disk sectorSize ext.startLba) ext.startLba ext.sectorCount lba := by
      unfold ebrAt
      split
      next => rfl
      next inside =>
        rw [not_or] at inside
        rw [laid.ebr_read aligned search inside.1 below]
    rw [place]
    constructor
    · intro chained
      cases chained with
      | walked _ _ _ walk => exact walk.congr bound (fun lba below _ => same lba below) (by omega)
    · intro walk
      exact .walked _ _ _ (walk.congr bound (fun lba below _ => (same lba below).symm) (by omega))

/-- A walk that stays clear of the buffer finds what it found before. -/
theorem Overwrote.writtenChain_of_beyond (aligned : 512 ∣ sectorSize.toNat) {chain : List Ebr}
    (chained : ChainOf disk sectorSize (containerOf t.primaries) chain)
    (beyond : ChainBeyond sectorSize (t.buffer sectorSize).length (containerOf t.primaries) chain) :
    WrittenChain disk sectorSize t chain :=
  (laid.chain_written aligned).mp
    (chained.kept_beyond laid.positive laid.moderate laid.size laid.rewritable.addressable beyond laid.above)

end Written

/-- The disk is read with the logical partitions of the table that was written, and no sector
has changed but the MBR and those that hold EBRs, before or now. -/
def LogicalsKept (disk disk' : Disk) (sectorSize : UInt32) (t t' : MbrPartitionTable) : Prop :=
  ∃ fuel after, OperationUtils.readPartitionTable fuel .working disk' sectorSize = some (.ok (.mbr after)) ∧
    after.logicals.map PartitionEntry.shown = t'.logicals.map PartitionEntry.shown ∧
    ∀ lba, ¬ ((PartitionTable.mbr t).Metadata disk sectorSize lba ∨
      (PartitionTable.mbr after).Metadata disk' sectorSize lba) →
        disk'.sector sectorSize.toNat lba = disk.sector sectorSize.toNat lba

/-- What keeps the logical partitions of an edited table, on the disk before it is written:
the walk lists them, and under the buffer the sectors of no EBR hold its bytes already. -/
structure ChainReady (disk : Disk) (sectorSize : UInt32) (t t' : MbrPartitionTable) : Prop where
  alone : ¬ TakenForGpt disk sectorSize t'
  listed : ∃ chain, t'.WrittenChain disk sectorSize chain ∧
    (chainLogicals sectorSize 0 chain).map PartitionEntry.shown = t'.logicals.map PartitionEntry.shown ∧
    ∀ lba, (lba + 1) * sectorSize.toNat ≤ (t'.buffer sectorSize).length →
      ¬ ((PartitionTable.mbr t).Metadata disk sectorSize lba ∨ ∃ ebr ∈ chain, ebr.lba.toNat = lba) →
        disk.sector sectorSize.toNat lba = slice (t'.buffer sectorSize) (lba * sectorSize.toNat) sectorSize.toNat

/-- An edited table comes back with its logical partitions exactly when the walk that meets
its EBRs behind the MBR lists them and nothing else under the buffer changes. -/
theorem edit_kept_iff {fuel : Nat} {os : Win32} {disk disk' : Disk} {sectorSize : UInt32} {t t' : MbrPartitionTable}
    {call : MbrCall} (aligned : 512 ∣ sectorSize.toNat)
    (parsed : OperationUtils.readPartitionTable fuel .working disk sectorSize = some (.ok (.mbr t)))
    (edited : call.apply t = (.ok (),t'))
    (written : OperationUtils.writePartitionTable os disk sectorSize (.mbr t') = (.ok (),disk')) :
    LogicalsKept disk disk' sectorSize t t' ↔ ChainReady disk sectorSize t t' := by
  obtain ⟨_,held,_⟩ := MbrAt.of_read parsed
  have laid := Overwrote.of_write (MbrPartitionTable.Rewritable.edited held edited) held.long held.moderate written
  obtain ⟨count,_,length⟩ := laid.spans
  have shown {chain : List Ebr} {after : MbrPartitionTable} (again : MbrAt disk' sectorSize chain after) :
      after.logicals.map PartitionEntry.shown = (chainLogicals sectorSize 0 chain).map PartitionEntry.shown := by
    rw [(laid.reread again).2.1]
    exact types_chainLogicals _ _ _ _
  have frame {chain : List Ebr} {after : MbrPartitionTable} (again : MbrAt disk' sectorSize chain after) (lba : Nat) :
      (PartitionTable.mbr t).Metadata disk sectorSize lba ∨ (PartitionTable.mbr after).Metadata disk' sectorSize lba ↔
        (PartitionTable.mbr t).Metadata disk sectorSize lba ∨ ∃ ebr ∈ chain, ebr.lba.toNat = lba := by
    rw [again.metadata_iff]
    refine ⟨?_,Or.imp_right .inr⟩
    rintro (before | origin | now)
    · exact .inl before
    · exact .inl (.inl origin)
    · exact .inr now
  have sectors := @PartitionRecovery.changes_iff disk sectorSize _ _ length
  rw [← laid.disk] at sectors
  constructor
  · rintro ⟨_,after,read,same,kept⟩
    obtain ⟨chain,again,single⟩ := MbrAt.of_read read
    have chained := (laid.chain_written aligned).mp (laid.reread again).2.2
    rw [shown again] at same
    simp only [frame again] at kept
    refine ⟨fun taken => ?_,chain,chained,same,(sectors _).mp kept⟩
    obtain ⟨behind,protects⟩ := laid.taken_iff.mpr taken
    exact single ((laid.protects_iff again).mpr protects) behind
  · rintro ⟨alone,chain,chained,same,spared⟩
    rw [← laid.taken_iff] at alone
    obtain ⟨after,again,read⟩ := laid.reads ((laid.chain_written aligned).mpr chained) alone
    refine ⟨_,after,read,(shown again).trans same,?_⟩
    simp only [frame again]
    exact (sectors _).mpr spared

section Sample
open MbrPartitionTable

/-- The table without the logical partition goes to the first sector alone, and its EBR
stays where it is. -/
theorem deleted_logical_stays : ∃ t t' disk',
    OperationUtils.readPartitionTable 2 .working farDisk 512 = some (.ok (.mbr t)) ∧
      (MbrCall.delete 1).apply t = (.ok (),t') ∧
      OperationUtils.writePartitionTable .working farDisk 512 (.mbr t') = (.ok (),disk') ∧
      ¬ LogicalsKept farDisk disk' 512 t t' := by
  obtain ⟨noGpt,t,held,entries⟩ := farDisk_held
  have found : findIndex t.entries 1 = some 1 := by
    rw [entries]
    rfl
  have edited : ∃ t', (MbrCall.delete 1).apply t = (.ok (),t') ∧ t'.logicals = [] ∧
      containerOf t'.primaries = containerOf t.primaries := by
    refine ⟨{ t with entries := reindex (withoutEntry t.entries 1 (t.entries[1]?.getD {})) },?_,?_,?_⟩
    · simp only [MbrCall.apply,deletePartition,found]
    · rw [MbrPartitionTable.logicals,entries]
      rfl
    · rw [primaries,primaries,entries]
      rfl
  obtain ⟨t',edited,gone,place⟩ := edited
  have rewritable := Rewritable.edited held edited
  obtain ⟨written,laid⟩ := Overwrote.of_room rewritable (by decide) (by decide) (room_of_size farDisk_size)
  refine ⟨t,t',_,held.read (fun _ => noGpt),edited,written,?_⟩
  rintro ⟨_,after,read,same,_⟩
  obtain ⟨chain,again,_⟩ := MbrAt.of_read read
  have chained := (laid.chain_plain gone rewritable.addressable).mp (laid.reread again).2.2
  rw [place] at chained
  have used := (ebr_used 8 8 farLogical none).mpr (by decide)
  rw [(laid.reread again).2.1,chained.unique held.chainOf,gone,chainLogicals_cons,if_pos used] at same
  cases same

def nearContainer : PartitionEntry :=
  { startLba := 1,sectorCount := 40,mbrType := MbrTypes.Extended,isExtended := true }

/-- The one EBR of this disk lies where the buffer has it. -/
def nearDisk : Disk := bearing (blankDisk.patched 512 (ebrSector 1 farLogical none)) [nearContainer]

theorem added_beside : ∃ t t' disk',
    OperationUtils.readPartitionTable 2 .working nearDisk 512 = some (.ok (.mbr t)) ∧
      (MbrCall.add { startLba := 1000,sectorCount := 100 }).apply t = (.ok (),t') ∧
      OperationUtils.writePartitionTable .working nearDisk 512 (.mbr t') = (.ok (),disk') ∧
      t'.logicals.length = 1 ∧ LogicalsKept nearDisk disk' 512 t t' := by
  have fits : Rewritable (tableOf [nearContainer]) := by
    refine ⟨fun e member => ?_,by decide,by decide,by decide⟩
    rw [List.mem_singleton.mp member]
    exact ⟨rfl,rfl,by decide,by decide,by rw [Occupies]; decide⟩
  have wiped : (blankDisk.patched 512 (ebrSector 1 farLogical none)).byte 512 = 0 := by
    rw [Disk.patched_byte]
    rfl
  have chained : ChainOf (blankDisk.patched 512 (ebrSector 1 farLogical none)) 512 (some (1,40))
      [⟨1,ebrSector 1 farLogical none⟩] := @chain_single 1 40 (by decide) (by decide) (by decide)
  obtain ⟨noGpt,t,held,entries⟩ := held_bearing fits rfl rfl wiped chained
  have used := (ebr_used 1 1 farLogical none).mpr (by decide)
  have logical := ebr_logical 1 1 farLogical none 512 1
  replace entries : t.entries = [rewritten 512 0 nearContainer,ebrRewritten 512 1 1 farLogical] := by
    have one : (tableOf [nearContainer]).primaries.length = 1 := rfl
    rw [entries,chainLogicals_cons,if_pos used,one,logical]
    rfl
  obtain ⟨size,sector⟩ := held.geometry
  have accepted : t.addChecks { startLba := 1000,sectorCount := 100 } = .ok () := by
    rw [@CreatePartitionOp.addChecks_congr t (tableOf [rewritten 512 0 nearContainer,ebrRewritten 512 1 1 farLogical])
      size sector entries]
    decide
  have edited : (MbrCall.add { startLba := 1000,sectorCount := 100 }).apply t =
      (.ok (),{ t with entries := t.entries ++ [t.newEntry { startLba := 1000,sectorCount := 100 }] }) := by
    simp only [MbrCall.apply,addPartition,accepted]
  have rewritable := Rewritable.edited held edited
  obtain ⟨written,laid⟩ := Overwrote.of_room rewritable (by decide) (by decide)
    (room_of_size (bearing_size [nearContainer] (rfl : (blankDisk.patched 512 _).totalBytes = 1048576)))
  have logicals : MbrPartitionTable.logicals { t with
      entries := t.entries ++ [t.newEntry { startLba := 1000,sectorCount := 100 }] } =
        [ebrRewritten 512 1 1 farLogical] := by
    rw [MbrPartitionTable.logicals,entries]
    rfl
  have place : containerOf (MbrPartitionTable.primaries { t with
      entries := t.entries ++ [t.newEntry { startLba := 1000,sectorCount := 100 }] }) = some (1,40) := by
    rw [primaries,entries]
    rfl
  have read := held.read (fun _ => noGpt)
  refine ⟨t,_,_,read,edited,written,by rw [logicals]; rfl,?_⟩
  refine (edit_kept_iff ⟨1,rfl⟩ read edited written).mpr ⟨fun taken => noGpt taken.2.1,
    [⟨1,ebrSector 1 (ebrRewritten 512 1 1 farLogical) none⟩],?_,?_,?_⟩
  · have first : ebrRead { t with entries := t.entries ++ [t.newEntry { startLba := 1000,sectorCount := 100 }] }
        nearDisk 512 1 (1 * (512 : UInt32).toUInt64) MBR_SIZE =
          .ok (ebrSector 1 (ebrRewritten 512 1 1 farLogical) none) := by
      rw [ebrRead,logicals]
      rfl
    rw [WrittenChain,place]
    exact .last 255 1 _ (ebrAt_of_read (by decide) (by decide) first (length_ebrSector _ _ _) (ebrSector_signed _ _ _))
      (ebr_next 1 1 _ none 1)
  · have again := (ebr_used 1 1 (ebrRewritten 512 1 1 farLogical) none).mpr (by decide)
    rw [logicals,chainLogicals_cons,if_pos again,ebr_logical]
    rfl
  · intro lba inside elsewhere
    have width : (512 : UInt32).toNat = 512 := rfl
    have images := length_ebrImages_le { t with
      entries := t.entries ++ [t.newEntry { startLba := 1000,sectorCount := 100 }] }
    rw [logicals,List.length_singleton] at images
    have covers := @Overwrote.buffer_covers _ _ _ _ laid 2 (by omega)
    rw [width] at inside covers
    rw [held.metadata_iff] at elsewhere
    have low : lba = 0 ∨ lba = 1 := by omega
    rcases low with rfl | rfl
    · exact absurd (.inl (.inl rfl)) elsewhere
    · exact absurd (.inl (.inr ⟨_,List.mem_singleton.mpr rfl,rfl⟩)) elsewhere

end Sample
end SetecWizard.Core
