import SetecWizard.Mbr.Mutators

/-! The chain of EBRs as the disk holds it, and the walk along it. The chain is a
relation between the disk and the EBRs met from an address on; it says nothing
of fuel or of the loop, and the walk returns the logical partitions of the chain.
-/
namespace SetecWizard.Core
open SetecWizard.Library

structure Ebr where
  lba : UInt64
  data : List UInt8

namespace Ebr

def Used (ebr : Ebr) : Prop :=
  ebr.data.getD (MBR_PARTITION_ENTRY_OFFSET + 4) 0 ≠ MbrTypes.Empty ∧
    0 < readLE32 ebr.data (MBR_PARTITION_ENTRY_OFFSET + 12)

instance (ebr : Ebr) : Decidable ebr.Used := inferInstanceAs (Decidable (_ ∧ _))

def logical (sectorSize : UInt32) (index : Nat) (ebr : Ebr) : PartitionEntry :=
  { index := index
    startLba := ebr.lba + (readLE32 ebr.data (MBR_PARTITION_ENTRY_OFFSET + 8)).toUInt64
    sectorCount := (readLE32 ebr.data (MBR_PARTITION_ENTRY_OFFSET + 12)).toUInt64
    sectorSize := sectorSize
    mbrType := ebr.data.getD (MBR_PARTITION_ENTRY_OFFSET + 4) 0
    isActive := ebr.data.getD MBR_PARTITION_ENTRY_OFFSET 0 == 0x80
    isExtended := false
    isLogical := true
    chsStart := decodeCHS ebr.data (MBR_PARTITION_ENTRY_OFFSET + 1)
    chsEnd := decodeCHS ebr.data (MBR_PARTITION_ENTRY_OFFSET + 5) }

/-- Where the second slot of an EBR points, if it is a link. -/
def next (extStart : UInt64) (ebr : Ebr) : Option UInt64 :=
  let entry1 := MBR_PARTITION_ENTRY_OFFSET + MBR_PARTITION_ENTRY_SIZE
  if MbrTypes.isExtendedType (ebr.data.getD (entry1 + 4) 0) ∧ readLE32 ebr.data (entry1 + 8) ≠ 0 then
    some (extStart + (readLE32 ebr.data (entry1 + 8)).toUInt64)
  else none

end Ebr

section Chain

variable (sectorSize : UInt32) (readFunc : DiskReadCallback) (extStart extSize : UInt64)

def ebrAt (lba : UInt64) : Option Ebr :=
  if lba = 0 ∨ lba < extStart ∨ extStart + extSize ≤ lba then none
  else
    match readFunc (lba * sectorSize.toUInt64) MBR_SIZE with
    | .error _ => none
    | .ok data =>
      if data.length < MBR_SIZE.toNat ∨ readLE16 data 510 ≠ MBR_SIGNATURE then none
      else some ⟨lba,data⟩

/-- The EBRs met from `lba` on, as long as there is room for used ones. -/
inductive EbrChain : Nat → UInt64 → List Ebr → Prop
  | full (lba : UInt64) : EbrChain 0 lba []
  | gone (room : Nat) (lba : UInt64) (absent : ebrAt sectorSize readFunc extStart extSize lba = none) :
      EbrChain (room + 1) lba []
  | last (room : Nat) (lba : UInt64) (ebr : Ebr)
      (found : ebrAt sectorSize readFunc extStart extSize lba = some ebr)
      (ended : ebr.next extStart = none) : EbrChain (room + 1) lba [ebr]
  | link (room : Nat) (lba : UInt64) (ebr : Ebr) (next : UInt64) (rest : List Ebr)
      (found : ebrAt sectorSize readFunc extStart extSize lba = some ebr)
      (linked : ebr.next extStart = some next)
      (tail : EbrChain (if ebr.Used then room else room + 1) next rest) :
      EbrChain (room + 1) lba (ebr :: rest)

end Chain

def chainLogicals (sectorSize : UInt32) (first : Nat) (chain : List Ebr) : List PartitionEntry :=
  (chain.filter (fun ebr => ebr.Used)).mapIdx (fun i ebr => ebr.logical sectorSize (first + i))

theorem chainLogicals_cons (sectorSize : UInt32) (first : Nat) (ebr : Ebr) (rest : List Ebr) :
    chainLogicals sectorSize first (ebr :: rest) =
      if ebr.Used then ebr.logical sectorSize first :: chainLogicals sectorSize (first + 1) rest
      else chainLogicals sectorSize first rest := by
  unfold chainLogicals
  by_cases used : ebr.Used
  · simp only [List.filter_cons,used,decide_true,if_true,List.mapIdx_cons,Nat.add_zero,Nat.add_assoc,
      Nat.add_comm 1]
  · simp [used]

theorem ebrAt_lba {sectorSize : UInt32} {readFunc : DiskReadCallback} {extStart extSize lba : UInt64}
    {ebr : Ebr} (found : ebrAt sectorSize readFunc extStart extSize lba = some ebr) : ebr.lba = lba := by
  unfold ebrAt at found
  split at found
  · cases found
  · split at found
    · cases found
    · split at found
      · cases found
      · cases found
        rfl

theorem ebrAt_nonzero {sectorSize : UInt32} {readFunc : DiskReadCallback} {extStart extSize lba : UInt64}
    {ebr : Ebr} (found : ebrAt sectorSize readFunc extStart extSize lba = some ebr) : lba ≠ 0 := by
  rintro rfl
  simp [ebrAt] at found

theorem ebrAt_of_read {sectorSize : UInt32} {readFunc : DiskReadCallback} {extStart extSize lba : UInt64}
    {data : List UInt8} (nonzero : lba ≠ 0) (inside : extStart ≤ lba ∧ lba < extStart + extSize)
    (read : readFunc (lba * sectorSize.toUInt64) MBR_SIZE = .ok data) (size : data.length = MBR_SIZE.toNat)
    (signed : readLE16 data 510 = MBR_SIGNATURE) :
    ebrAt sectorSize readFunc extStart extSize lba = some ⟨lba,data⟩ := by
  have placed : ¬ (lba = 0 ∨ lba < extStart ∨ extStart + extSize ≤ lba) := by
    rintro (zero | early | late)
    · exact nonzero zero
    · exact UInt64.not_lt.mpr inside.1 early
    · exact UInt64.not_le.mpr inside.2 late
  have whole : ¬ (data.length < MBR_SIZE.toNat ∨ readLE16 data 510 ≠ MBR_SIGNATURE) := by
    simp [size,signed]
  unfold ebrAt
  rw [if_neg placed,read]
  exact if_neg whole

theorem pushLogical_eq (sectorSize : UInt32) (data : List UInt8) (w : EbrWalk) :
    pushLogical sectorSize data w =
      if (Ebr.mk w.currentEbrLba data).Used then
        { w with
          logicalCount := w.logicalCount + 1
          entries := w.entries ++ [(Ebr.mk w.currentEbrLba data).logical sectorSize w.entries.length] }
      else w := rfl

theorem ebrPass_cases (sectorSize : UInt32) (readFunc : DiskReadCallback) (extStart extSize : UInt64)
    (w : EbrWalk) (nonzero : w.currentEbrLba ≠ 0) :
    (ebrAt sectorSize readFunc extStart extSize w.currentEbrLba = none ∧
      (ebrPass sectorSize readFunc extStart extSize w = .stop w ∨
        ∃ e, ebrPass sectorSize readFunc extStart extSize w = .fail e w)) ∨
    ∃ data, ebrAt sectorSize readFunc extStart extSize w.currentEbrLba = some ⟨w.currentEbrLba,data⟩ ∧
      ebrPass sectorSize readFunc extStart extSize w =
        match (Ebr.mk w.currentEbrLba data).next extStart with
        | some next => .more { pushLogical sectorSize data w with currentEbrLba := next }
        | none => .stop (pushLogical sectorSize data w) := by
  unfold ebrPass ebrAt
  by_cases outside : w.currentEbrLba < extStart ∨ extStart + extSize ≤ w.currentEbrLba
  · simp [outside]
  · rw [if_neg outside,if_neg (by simpa [nonzero] using outside)]
    cases read : readFunc (w.currentEbrLba * sectorSize.toUInt64) MBR_SIZE with
    | error e => simp
    | ok data =>
      by_cases short : data.length < MBR_SIZE.toNat
      · simp [short]
      · by_cases signed : readLE16 data 510 ≠ MBR_SIGNATURE
        · simp [short,signed]
        · right
          refine ⟨data,by simp [short,signed],?_⟩
          simp only [if_neg short,if_neg signed,Ebr.next]
          split <;> rfl

theorem ebrLoop_chain {sectorSize : UInt32} {readFunc : DiskReadCallback} {extStart extSize : UInt64}
    {fuel : Nat} {w : EbrWalk} {outcome : Result Unit} {entries : List PartitionEntry}
    (run : ebrLoop sectorSize readFunc extStart extSize fuel w = some (outcome,entries))
    (bound : w.logicalCount ≤ MAX_LOGICAL_PARTITIONS) :
    ∃ chain, EbrChain sectorSize readFunc extStart extSize
        (MAX_LOGICAL_PARTITIONS - w.logicalCount) w.currentEbrLba chain ∧
      entries = w.entries ++ chainLogicals sectorSize w.entries.length chain := by
  induction fuel generalizing w with
  | zero => cases run
  | succ fuel ih =>
    unfold ebrLoop at run
    split at run
    next going =>
      obtain ⟨nonzero,more⟩ := going
      obtain ⟨room,space⟩ : ∃ room, MAX_LOGICAL_PARTITIONS - w.logicalCount = room + 1 :=
        ⟨MAX_LOGICAL_PARTITIONS - w.logicalCount - 1,by omega⟩
      rw [space]
      rcases ebrPass_cases sectorSize readFunc extStart extSize w nonzero with
        ⟨absent,stopped | ⟨e,failed⟩⟩ | ⟨data,found,pass⟩
      · rw [stopped] at run
        cases run
        exact ⟨[],.gone room _ absent,by simp [chainLogicals]⟩
      · rw [failed] at run
        cases run
        exact ⟨[],.gone room _ absent,by simp [chainLogicals]⟩
      · cases linked : (Ebr.mk w.currentEbrLba data).next extStart with
        | none =>
          rw [linked] at pass
          simp only [pass] at run
          cases run
          refine ⟨[⟨_,data⟩],.last room _ _ found linked,?_⟩
          rw [pushLogical_eq,chainLogicals_cons]
          split <;> simp [chainLogicals]
        | some next =>
          rw [linked] at pass
          simp only [pass] at run
          rw [pushLogical_eq] at run
          split at run
          next used =>
            obtain ⟨rest,tail,same⟩ := ih run (by simp only; omega)
            refine ⟨⟨_,data⟩ :: rest,.link room _ _ next rest found linked ?_,?_⟩
            · rw [if_pos used]
              have left : MAX_LOGICAL_PARTITIONS - (w.logicalCount + 1) = room := by omega
              simpa only [left] using tail
            · rw [chainLogicals_cons,if_pos used,same]
              simp
          next unused =>
            obtain ⟨rest,tail,same⟩ := ih run bound
            refine ⟨⟨_,data⟩ :: rest,.link room _ _ next rest found linked ?_,?_⟩
            · rw [if_neg unused,← space]
              exact tail
            · rw [chainLogicals_cons,if_neg unused,same]
    next ended =>
      cases run
      refine ⟨[],?_,by simp [chainLogicals]⟩
      by_cases zero : w.currentEbrLba = 0
      · cases MAX_LOGICAL_PARTITIONS - w.logicalCount with
        | zero => exact .full _
        | succ room => exact .gone room _ (by simp [ebrAt,zero])
      · have reached : ¬ w.logicalCount < MAX_LOGICAL_PARTITIONS := fun below => ended ⟨zero,below⟩
        have none : MAX_LOGICAL_PARTITIONS - w.logicalCount = 0 := by omega
        rw [none]
        exact .full _

theorem ebrLoop_complete {sectorSize : UInt32} {readFunc : DiskReadCallback} {extStart extSize : UInt64}
    {room : Nat} {lba : UInt64} {chain : List Ebr}
    (walked : EbrChain sectorSize readFunc extStart extSize room lba chain)
    {fuel : Nat} (enough : chain.length < fuel) (w : EbrWalk) (here : w.currentEbrLba = lba)
    (space : w.logicalCount + room = MAX_LOGICAL_PARTITIONS) :
    ∃ outcome, ebrLoop sectorSize readFunc extStart extSize fuel w =
      some (outcome,w.entries ++ chainLogicals sectorSize w.entries.length chain) := by
  induction walked generalizing fuel w with
  | full lba =>
    obtain ⟨fuel,rfl⟩ : ∃ n, fuel = n + 1 := ⟨fuel - 1,by omega⟩
    have done : ¬ (w.currentEbrLba ≠ 0 ∧ w.logicalCount < MAX_LOGICAL_PARTITIONS) := by omega
    exact ⟨.ok (),by rw [ebrLoop,if_neg done]; simp [chainLogicals]⟩
  | gone room lba absent =>
    obtain ⟨fuel,rfl⟩ : ∃ n, fuel = n + 1 := ⟨fuel - 1,by omega⟩
    subst here
    by_cases zero : w.currentEbrLba = 0
    · exact ⟨.ok (),by rw [ebrLoop,if_neg (by simp [zero])]; simp [chainLogicals]⟩
    · rw [ebrLoop,if_pos ⟨zero,by omega⟩]
      rcases ebrPass_cases sectorSize readFunc extStart extSize w zero with
        ⟨_,stopped | ⟨e,failed⟩⟩ | ⟨data,found,_⟩
      · exact ⟨.ok (),by simp [stopped,chainLogicals]⟩
      · exact ⟨.error e,by simp [failed,chainLogicals]⟩
      · simp [absent] at found
  | last room lba ebr found ended =>
    obtain ⟨fuel,rfl⟩ : ∃ n, fuel = n + 1 := ⟨fuel - 1,by omega⟩
    subst here
    have nonzero : w.currentEbrLba ≠ 0 := ebrAt_nonzero found
    rw [ebrLoop,if_pos ⟨nonzero,by omega⟩]
    rcases ebrPass_cases sectorSize readFunc extStart extSize w nonzero with
      ⟨absent,_⟩ | ⟨data,again,pass⟩
    · simp [absent] at found
    · rw [again] at found
      cases found
      rw [ended] at pass
      refine ⟨.ok (),?_⟩
      simp only [pass,chainLogicals_cons]
      rw [pushLogical_eq]
      split <;> simp [chainLogicals]
  | link room lba ebr next rest found linked tail ih =>
    obtain ⟨fuel,rfl⟩ : ∃ n, fuel = n + 1 := ⟨fuel - 1,by omega⟩
    subst here
    have nonzero : w.currentEbrLba ≠ 0 := ebrAt_nonzero found
    have left : rest.length < fuel := by
      rw [List.length_cons] at enough
      omega
    rw [ebrLoop,if_pos ⟨nonzero,by omega⟩]
    rcases ebrPass_cases sectorSize readFunc extStart extSize w nonzero with
      ⟨absent,_⟩ | ⟨data,again,pass⟩
    · simp [absent] at found
    · rw [again] at found
      cases found
      rw [linked] at pass
      simp only [pass,chainLogicals_cons]
      rw [pushLogical_eq]
      by_cases used : (Ebr.mk w.currentEbrLba data).Used
      · rw [if_pos used] at ih
        rw [if_pos used,if_pos used]
        obtain ⟨outcome,run⟩ := ih left
          ⟨next,w.logicalCount + 1,
            w.entries ++ [(Ebr.mk w.currentEbrLba data).logical sectorSize w.entries.length]⟩ rfl
          (by simp only; omega)
        exact ⟨outcome,by rw [run]; simp⟩
      · rw [if_neg used] at ih
        rw [if_neg used,if_neg used]
        obtain ⟨outcome,run⟩ := ih left ⟨next,w.logicalCount,w.entries⟩ rfl space
        exact ⟨outcome,by rw [run]⟩

namespace EbrChain

variable {sectorSize : UInt32} {readFunc : DiskReadCallback} {extStart extSize : UInt64}

theorem unique {room : Nat} {lba : UInt64} {first second : List Ebr}
    (one : EbrChain sectorSize readFunc extStart extSize room lba first)
    (two : EbrChain sectorSize readFunc extStart extSize room lba second) : first = second := by
  induction one generalizing second with
  | full lba => cases two; rfl
  | gone room lba absent =>
    cases two with
    | gone => rfl
    | last _ _ ebr found => simp [absent] at found
    | link _ _ ebr next rest found => simp [absent] at found
  | last room lba ebr found ended =>
    cases two with
    | gone _ _ absent => simp [absent] at found
    | last _ _ other same => rw [found] at same; cases same; rfl
    | link _ _ other next rest same linked =>
      rw [found] at same
      cases same
      simp [ended] at linked
  | link room lba ebr next rest found linked tail ih =>
    cases two with
    | gone _ _ absent => simp [absent] at found
    | last _ _ other same ended =>
      rw [found] at same
      cases same
      simp [ended] at linked
    | link _ _ other next' rest' same linked' tail' =>
      rw [found] at same
      cases same
      rw [linked] at linked'
      cases linked'
      rw [ih tail']

theorem lba_bound (startBound : extStart.toNat < 2 ^ 32) {room : Nat} {lba : UInt64} {chain : List Ebr}
    (walked : EbrChain sectorSize readFunc extStart extSize room lba chain)
    (bound : lba.toNat < 2 ^ 33) : ∀ ebr ∈ chain, ebr.lba.toNat < 2 ^ 33 := by
  induction walked with
  | full => simp
  | gone => simp
  | last room lba ebr found ended =>
    intro other member
    rw [List.mem_singleton.mp member,ebrAt_lba found]
    exact bound
  | link room lba ebr next rest found linked tail ih =>
    intro other member
    rcases List.mem_cons.mp member with rfl | later
    · rw [ebrAt_lba found]
      exact bound
    · refine ih ?_ other later
      unfold Ebr.next at linked
      simp only at linked
      split at linked
      · cases linked
        have word := (readLE32 ebr.data (MBR_PARTITION_ENTRY_OFFSET + MBR_PARTITION_ENTRY_SIZE + 8)).toNat_lt
        rw [UInt64.toNat_add,UInt32.toNat_toUInt64,Nat.mod_eq_of_lt (by omega)]
        omega
      · cases linked

end EbrChain

theorem length_chainLogicals (sectorSize : UInt32) (first : Nat) (chain : List Ebr) :
    (chainLogicals sectorSize first chain).length = (chain.filter (fun ebr => ebr.Used)).length := by
  simp [chainLogicals]

theorem mem_chainLogicals {sectorSize : UInt32} {first : Nat} {chain : List Ebr} {e : PartitionEntry}
    (member : e ∈ chainLogicals sectorSize first chain) :
    ∃ ebr ∈ chain, ∃ i, e = ebr.logical sectorSize (first + i) := by
  obtain ⟨i,bound,rfl⟩ := List.mem_mapIdx.mp member
  exact ⟨_,(List.mem_filter.mp (List.getElem_mem bound)).1,i,rfl⟩

end SetecWizard.Core
