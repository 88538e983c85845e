import SetecWizard.Mbr.Chain
import SetecWizard.Library.Walk

/-! When the walk along the EBR chain ends. Its counter advances only on an EBR
that holds a logical partition, so the depth limit says nothing of a circle of
empty EBRs.
-/
namespace SetecWizard.Core
open SetecWizard.Library

section Links

variable (sectorSize : UInt32) (readFunc : DiskReadCallback) (extStart extSize : UInt64)

def ebrLink (lba : UInt64) : Option UInt64 :=
  (ebrAt sectorSize readFunc extStart extSize lba).bind (·.next extStart)

/-- The EBR at an address holds a logical partition, which the loop counts. -/
def EbrCounted (lba : UInt64) : Prop :=
  ∃ ebr, ebrAt sectorSize readFunc extStart extSize lba = some ebr ∧ ebr.Used

end Links

variable {sectorSize : UInt32} {readFunc : DiskReadCallback} {extStart extSize : UInt64}

theorem ebrLink_found {lba : UInt64} {ebr : Ebr}
    (found : ebrAt sectorSize readFunc extStart extSize lba = some ebr) :
    ebrLink sectorSize readFunc extStart extSize lba = ebr.next extStart := by
  simp [ebrLink,found]

theorem ebrCounted_found {lba : UInt64} {ebr : Ebr}
    (found : ebrAt sectorSize readFunc extStart extSize lba = some ebr) :
    EbrCounted sectorSize readFunc extStart extSize lba ↔ ebr.Used := by
  simp [EbrCounted,found]

theorem EbrChain.halts {room : Nat} {lba : UInt64} {chain : List Ebr}
    (walked : EbrChain sectorSize readFunc extStart extSize room lba chain) :
    Walk.Halts (ebrLink sectorSize readFunc extStart extSize)
      (EbrCounted sectorSize readFunc extStart extSize) room lba := by
  induction walked with
  | full lba => exact .spent lba
  | gone room lba absent => exact .stuck room lba (by simp [ebrLink,absent])
  | last room lba ebr found ended => exact .stuck room lba ((ebrLink_found found).trans ended)
  | link room lba ebr next rest found linked tail ih =>
    have link := (ebrLink_found found).trans linked
    by_cases used : ebr.Used
    · rw [if_pos used] at ih
      exact .paid room lba next link ((ebrCounted_found found).mpr used) ih
    · rw [if_neg used] at ih
      exact .free room lba next ⟨link,fun counted => used ((ebrCounted_found found).mp counted)⟩ ih

/-- An EBR links to the next one only when it is there. -/
theorem ebr_of_link {lba next : UInt64} (link : ebrLink sectorSize readFunc extStart extSize lba = some next) :
    ∃ ebr, ebrAt sectorSize readFunc extStart extSize lba = some ebr ∧ ebr.next extStart = some next :=
  Option.bind_eq_some_iff.mp link

theorem EbrChain.of_halts {room : Nat} {lba : UInt64}
    (halts : Walk.Halts (ebrLink sectorSize readFunc extStart extSize)
      (EbrCounted sectorSize readFunc extStart extSize) room lba) :
    ∃ chain, EbrChain sectorSize readFunc extStart extSize room lba chain := by
  induction halts with
  | spent lba => exact ⟨[],.full lba⟩
  | stuck room lba ended =>
    cases found : ebrAt sectorSize readFunc extStart extSize lba with
    | none => exact ⟨[],.gone room lba found⟩
    | some ebr => exact ⟨[ebr],.last room lba ebr found ((ebrLink_found found).symm.trans ended)⟩
  | free room lba next link rest ih =>
    obtain ⟨chain,tail⟩ := ih
    obtain ⟨ebr,found,linked⟩ := ebr_of_link link.1
    have unused : ¬ ebr.Used := fun used => link.2 ((ebrCounted_found found).mpr used)
    exact ⟨ebr :: chain,.link room lba ebr next chain found linked (by rwa [if_neg unused])⟩
  | paid room lba next link pays rest ih =>
    obtain ⟨chain,tail⟩ := ih
    obtain ⟨ebr,found,linked⟩ := ebr_of_link link
    have used : ebr.Used := (ebrCounted_found found).mp pays
    exact ⟨ebr :: chain,.link room lba ebr next chain found linked (by rwa [if_pos used])⟩

theorem walkExtendedChain_ends_iff_chain (sectorSize : UInt32) (readFunc : DiskReadCallback)
    (extStart extSize : UInt64) (entries : List PartitionEntry) :
    (∃ fuel, walkExtendedChain fuel sectorSize readFunc extStart extSize entries ≠ none) ↔
      ∃ chain, EbrChain sectorSize readFunc extStart extSize MAX_LOGICAL_PARTITIONS extStart chain := by
  constructor
  · rintro ⟨fuel,ended⟩
    obtain ⟨⟨outcome,pushed⟩,run⟩ := Option.ne_none_iff_exists'.mp ended
    obtain ⟨chain,walked,_⟩ := ebrLoop_chain run (Nat.zero_le _)
    exact ⟨chain,walked⟩
  · rintro ⟨chain,walked⟩
    obtain ⟨outcome,run⟩ :=
      ebrLoop_complete walked (Nat.lt_succ_self _) ⟨extStart,0,entries⟩ rfl (Nat.zero_add _)
    exact ⟨chain.length + 1,Option.ne_none_iff_exists'.mpr ⟨_,run⟩⟩

/-- Some EBR lies on a circle of links through empty EBRs, and the links from the
container's start lead to it before the loop has counted as many logical
partitions as it allows. -/
def MeetsEmptyCircle (sectorSize : UInt32) (readFunc : DiskReadCallback) (extStart extSize : UInt64) : Prop :=
  ∃ logicalCount lba, logicalCount < MAX_LOGICAL_PARTITIONS ∧
    Walk.Reaches (ebrLink sectorSize readFunc extStart extSize)
      (EbrCounted sectorSize readFunc extStart extSize) logicalCount extStart lba ∧
    Walk.Idle (ebrLink sectorSize readFunc extStart extSize)
      (EbrCounted sectorSize readFunc extStart extSize) lba

theorem walkExtendedChain_ends_iff (sectorSize : UInt32) (readFunc : DiskReadCallback)
    (extStart extSize : UInt64) (entries : List PartitionEntry) :
    (∃ fuel, walkExtendedChain fuel sectorSize readFunc extStart extSize entries ≠ none) ↔
      ¬ MeetsEmptyCircle sectorSize readFunc extStart extSize := by
  have finite : Finite UInt64 := Finite.of_injective UInt64.toFin (fun _ _ => UInt64.toFin_inj.mp)
  rw [walkExtendedChain_ends_iff_chain,MeetsEmptyCircle,← Walk.halts_iff]
  exact ⟨fun ⟨_,walked⟩ => walked.halts,EbrChain.of_halts⟩

/-- An EBR without a logical partition whose second slot links to the sector after
the container's start. -/
def emptyEbr : List UInt8 :=
  List.replicate 462 0 ++ [0,0,0,0,MbrTypes.Extended,0,0,0,1,0,0,0,0,0,0,0] ++ List.replicate 32 0
    ++ [0x55,0xAA]

def emptyEbrs : DiskReadCallback := fun _ _ => .ok emptyEbr

theorem ebrPass_emptyEbrs (entries : List PartitionEntry) (lba : UInt64) (inside : lba = 1 ∨ lba = 2) :
    ebrPass 512 emptyEbrs 1 40 ⟨lba,0,entries⟩ = .more ⟨2,0,entries⟩ := by
  have whole : ¬ emptyEbr.length < MBR_SIZE.toNat := by decide +kernel
  have signed : ¬ readLE16 emptyEbr 510 ≠ MBR_SIGNATURE := by decide +kernel
  have empty : pushLogical 512 emptyEbr ⟨lba,0,entries⟩ = ⟨lba,0,entries⟩ := by
    have unused : ¬ (Ebr.mk lba emptyEbr).Used := by
      have type0 : emptyEbr.getD (MBR_PARTITION_ENTRY_OFFSET + 4) 0 = MbrTypes.Empty := by decide
      exact fun used => used.1 type0
    rw [pushLogical_eq,if_neg unused]
  have linked : MbrTypes.isExtendedType (emptyEbr.getD (MBR_PARTITION_ENTRY_OFFSET + MBR_PARTITION_ENTRY_SIZE + 4) 0) ∧
      readLE32 emptyEbr (MBR_PARTITION_ENTRY_OFFSET + MBR_PARTITION_ENTRY_SIZE + 8) ≠ 0 := by decide +kernel
  have target : (1 : UInt64) + (readLE32 emptyEbr
      (MBR_PARTITION_ENTRY_OFFSET + MBR_PARTITION_ENTRY_SIZE + 8)).toUInt64 = 2 := by decide +kernel
  have here : ¬ (lba < 1 ∨ (1 : UInt64) + 40 ≤ lba) := by
    rcases inside with rfl | rfl <;> decide
  rw [ebrPass,if_neg here]
  simp only [emptyEbrs,if_neg whole,if_neg signed,empty,if_pos linked,target]

/-- The second EBR of the container links to itself. -/
theorem self_linked_ebr_never_left :
    ¬ ∀ sectorSize readFunc extStart extSize entries,
      ∃ fuel, walkExtendedChain fuel sectorSize readFunc extStart extSize entries ≠ none := by
  intro always
  obtain ⟨fuel,ended⟩ := always 512 emptyEbrs 1 40 []
  have never : ∀ fuel lba, lba = 1 ∨ lba = 2 → ebrLoop 512 emptyEbrs 1 40 fuel ⟨lba,0,[]⟩ = none := by
    intro fuel
    induction fuel with
    | zero => intro lba _; rfl
    | succ fuel ih =>
      intro lba inside
      have going : lba ≠ 0 ∧ 0 < MAX_LOGICAL_PARTITIONS := by
        rcases inside with rfl | rfl <;> decide
      rw [ebrLoop,if_pos going,ebrPass_emptyEbrs _ _ inside]
      exact ih 2 (.inr rfl)
  exact ended (never fuel 1 (.inl rfl))

end SetecWizard.Core
