import SetecWizard.Recovery.MftScan
import Mathlib.Logic.Relation

/-! The walk over the attributes of a record of arbitrary bytes. No access leaves the record.
The offset rises as long as no length is so large that the 32-bit sum wraps around and
comes back into the record; a walk that comes back may go round for ever.
-/
namespace SetecWizard.Core.FileRecovery
open SetecWizard.Library

section Accesses

def runAccesses (bytes : List UInt8) (runOffset : Nat) : List (Nat × Nat) :=
  match bytes with
  | [] => []
  | runHeader :: rest =>
    let lenSize := (runHeader &&& 0x0F).toNat
    let offSize := ((runHeader >>> 4) &&& 0x0F).toNat
    if runHeader = 0 then [(runOffset,1)]
    else if lenSize = 0 ∨ 8 < lenSize ∨ 8 < offSize then [(runOffset,1)]
    else if rest.length < lenSize + offSize then [(runOffset,1)]
    else if offSize = 0 then
      [(runOffset,1),(runOffset + 1,lenSize)] ++ runAccesses (rest.drop lenSize) (runOffset + 1 + lenSize)
    else
      [(runOffset,1),(runOffset + 1,lenSize),(runOffset + 1 + lenSize,offSize),(runOffset + lenSize + offSize,1)] ++
        runAccesses (rest.drop (lenSize + offSize)) (runOffset + 1 + (lenSize + offSize))
termination_by bytes.length
decreasing_by
  · simp only [List.length_drop,List.length_cons]
    omega
  · simp only [List.length_drop,List.length_cons]
    omega

variable (recordData : List UInt8) (attrOffset : Nat)

def fileNameAccesses : List (Nat × Nat) :=
  if recordData.length < attrOffset + sizeofAttributeHeader + sizeofResidentAttr then []
  else
    let nameAttrOffset := attrOffset + (readLE16 recordData (attrOffset + 20)).toNat
    (attrOffset + sizeofAttributeHeader,sizeofResidentAttr) ::
      if recordData.length < nameAttrOffset + sizeofFileNameAttr then []
      else
        (nameAttrOffset,sizeofFileNameAttr) ::
          if recordData.getD (nameAttrOffset + 65) 0 = 2 then []
          else
            let nameStart := nameAttrOffset + sizeofFileNameAttr
            let fileNameLength := (recordData.getD (nameAttrOffset + 64) 0).toNat
            if recordData.length < nameStart + fileNameLength * 2 then []
            else (List.range fileNameLength).map (fun i => (nameStart + i * 2,2))

def dataAccesses : List (Nat × Nat) :=
  if recordData.getD (attrOffset + 8) 0 = 1 then
    if recordData.length < attrOffset + sizeofAttributeHeader + sizeofNonResidentAttr then []
    else
      let runOffset := attrOffset + (readLE16 recordData (attrOffset + 32)).toNat
      (attrOffset + sizeofAttributeHeader,sizeofNonResidentAttr) :: runAccesses (recordData.drop runOffset) runOffset
  else if recordData.length < attrOffset + sizeofAttributeHeader + sizeofResidentAttr then []
  else [(attrOffset + sizeofAttributeHeader,sizeofResidentAttr)]

def attributeAccesses : List (Nat × Nat) :=
  if recordData.length < attrOffset + sizeofAttributeHeader then []
  else
    (attrOffset,sizeofAttributeHeader) ::
      let length := readLE32 recordData (attrOffset + 4)
      let type := readLE32 recordData attrOffset
      if type = NTFS_ATTR_END ∨ length = 0 then []
      else if recordData.length < (UInt32.ofNat attrOffset + length).toNat then []
      else if type = NTFS_ATTR_FILE_NAME ∧ recordData.getD (attrOffset + 8) 0 = 0 then
        fileNameAccesses recordData attrOffset
      else if type = NTFS_ATTR_DATA then dataAccesses recordData attrOffset
      else []

/-- All accesses of a list lie inside a record. -/
def Inside (accesses : List (Nat × Nat)) : Prop := ∀ access ∈ accesses, access.1 + access.2 ≤ recordData.length

variable {recordData attrOffset}

theorem inside_nil : Inside recordData [] := fun _ member => absurd member List.not_mem_nil

theorem inside_cons {access : Nat × Nat} {accesses : List (Nat × Nat)} :
    Inside recordData (access :: accesses) ↔ access.1 + access.2 ≤ recordData.length ∧ Inside recordData accesses :=
  List.forall_mem_cons

/-- The loop over the runs, by induction on what is left of the list. -/
theorem runAccesses_inside {runOffset : Nat} (bytes : List UInt8) (ends : runOffset + bytes.length ≤ recordData.length) :
    Inside recordData (runAccesses bytes runOffset) := by
  induction bytes, runOffset using runAccesses.induct with
  | case1 runOffset =>
    rw [runAccesses]
    exact inside_nil
  | case2 runOffset rest =>
    rw [List.length_cons] at ends
    rw [runAccesses,if_pos rfl]
    exact inside_cons.mpr ⟨by dsimp only; omega,inside_nil⟩
  | case3 runOffset runHeader rest lenSize offSize some_ bad =>
    rw [List.length_cons] at ends
    rw [runAccesses,if_neg some_,if_pos bad]
    exact inside_cons.mpr ⟨by dsimp only; omega,inside_nil⟩
  | case4 runOffset runHeader rest lenSize offSize some_ sizes short =>
    rw [List.length_cons] at ends
    rw [runAccesses,if_neg some_,if_neg sizes,if_pos short]
    exact inside_cons.mpr ⟨by dsimp only; omega,inside_nil⟩
  | case5 runOffset runHeader rest lenSize offSize some_ sizes whole sparse ih =>
    rw [List.length_cons] at ends
    rw [runAccesses,if_neg some_,if_neg sizes,if_neg whole,if_pos sparse,List.cons_append,List.cons_append,
      List.nil_append,inside_cons,inside_cons]
    refine ⟨by dsimp only; omega,by dsimp only; omega,ih ?_⟩
    rw [List.length_drop]
    omega
  | case6 runOffset runHeader rest lenSize offSize some_ sizes whole stored ih =>
    rw [List.length_cons] at ends
    rw [runAccesses,if_neg some_,if_neg sizes,if_neg whole,if_neg stored]
    simp only [List.cons_append,List.nil_append,inside_cons]
    refine ⟨by omega,by omega,by omega,by omega,ih ?_⟩
    rw [List.length_drop]
    omega

theorem fileNameAccesses_inside : Inside recordData (fileNameAccesses recordData attrOffset) := by
  unfold fileNameAccesses
  split
  next => exact inside_nil
  next resident =>
    refine inside_cons.mpr ⟨by dsimp only; omega,?_⟩
    split
    next => exact inside_nil
    next value =>
      refine inside_cons.mpr ⟨by dsimp only; omega,?_⟩
      split
      next => exact inside_nil
      next =>
        simp only
        split
        next => exact inside_nil
        next name =>
          intro access member
          obtain ⟨i,index,rfl⟩ := List.mem_map.mp member
          have below := List.mem_range.mp index
          dsimp only
          omega

theorem dataAccesses_inside : Inside recordData (dataAccesses recordData attrOffset) := by
  unfold dataAccesses
  split
  next =>
    split
    next => exact inside_nil
    next whole =>
      refine inside_cons.mpr ⟨by dsimp only; omega,?_⟩
      by_cases beyond : attrOffset + (readLE16 recordData (attrOffset + 32)).toNat ≤ recordData.length
      · refine runAccesses_inside _ ?_
        rw [List.length_drop]
        omega
      · rw [List.drop_of_length_le (by omega),runAccesses]
        exact inside_nil
  next =>
    split
    next => exact inside_nil
    next whole => exact inside_cons.mpr ⟨by dsimp only; omega,inside_nil⟩

theorem attributeAccesses_inside : Inside recordData (attributeAccesses recordData attrOffset) := by
  unfold attributeAccesses
  split
  next => exact inside_nil
  next header =>
    refine inside_cons.mpr ⟨by dsimp only; omega,?_⟩
    simp only
    split
    next => exact inside_nil
    next =>
      split
      next => exact inside_nil
      next =>
        split
        next => exact fileNameAccesses_inside
        next =>
          split
          next => exact dataAccesses_inside
          next => exact inside_nil

end Accesses

section Walk

variable (recordData : List UInt8)

def nextAttribute (attrOffset : UInt32) : Option UInt32 :=
  if recordData.length < attrOffset.toNat + sizeofAttributeHeader then none
  else
    let length := readLE32 recordData (attrOffset.toNat + 4)
    if readLE32 recordData attrOffset.toNat = NTFS_ATTR_END ∨ length = 0 then none
    else if recordData.length < (attrOffset + length).toNat then none
    else some (attrOffset + length)

/-- The offsets that a walk comes to. -/
def Visited (first : UInt32) : UInt32 → Prop :=
  Relation.ReflTransGen (fun off next => nextAttribute recordData off = some next) first

/-- What is asked of a walk: it ends, each round goes on to a greater offset, and all that is
read lies in the record. -/
structure WalkSafe (recordCluster : UInt64) (first : UInt32) : Prop where
  ends : ∀ found, ∃ fuel result, walkAttributes recordData recordCluster fuel first found = some result
  rises : ∀ off, Visited recordData first off → ∀ next, nextAttribute recordData off = some next → off < next
  inside : ∀ off, Visited recordData first off → Inside recordData (attributeAccesses recordData off.toNat)

/-- An attribute that is not the last one, by its type and its length. -/
structure Continues (off : Nat) : Prop where
  header : off + sizeofAttributeHeader ≤ recordData.length
  type : readLE32 recordData off ≠ NTFS_ATTR_END
  length : readLE32 recordData (off + 4) ≠ 0

/-- The attributes of a record by their lengths as numbers, up to the first that does not fit. -/
inductive Chain (first : Nat) : Nat → Prop
  | first : Chain first first
  | next {off : Nat} (before : Chain first off) (this : Continues recordData off)
      (fits : off + (readLE32 recordData (off + 4)).toNat ≤ recordData.length) :
      Chain first (off + (readLE32 recordData (off + 4)).toNat)

/-- No attribute of the chain has a length that leads back into the record. -/
def NoWrap (first : Nat) : Prop :=
  ∀ off, Chain recordData first off → Continues recordData off →
    ¬ (2 ^ 32 ≤ off + (readLE32 recordData (off + 4)).toNat ∧
      off + (readLE32 recordData (off + 4)).toNat - 2 ^ 32 ≤ recordData.length)

variable {recordData} {recordCluster : UInt64} {first : UInt32}

theorem walkAttributes_round (fuel : Nat) (off : UInt32) (found : Found) :
    walkAttributes recordData recordCluster (fuel + 1) off found =
      match nextAttribute recordData off with
      | none => some found
      | some next =>
        walkAttributes recordData recordCluster fuel next (readAttribute recordData recordCluster off.toNat found) := by
  rw [walkAttributes,nextAttribute]
  simp only
  split
  next => rfl
  next =>
    split
    next => rfl
    next =>
      split
      next => rfl
      next => rfl

theorem nextAttribute_eq_some {off next : UInt32} : nextAttribute recordData off = some next ↔
    Continues recordData off.toNat ∧ next = off + readLE32 recordData (off.toNat + 4) ∧
      next.toNat ≤ recordData.length := by
  unfold nextAttribute
  simp only
  constructor
  · intro goesOn
    split at goesOn
    next => cases goesOn
    next header =>
      split at goesOn
      next => cases goesOn
      next inner =>
        split at goesOn
        next => cases goesOn
        next fits =>
          obtain rfl := Option.some.inj goesOn
          rw [not_or] at inner
          exact ⟨⟨Nat.le_of_not_lt header,inner.1,inner.2⟩,rfl,Nat.le_of_not_lt fits⟩
  · rintro ⟨⟨header,type,length⟩,rfl,fits⟩
    rw [if_neg (Nat.not_lt.mpr header),if_neg (not_or_intro type length),if_neg (Nat.not_lt.mpr fits)]

/-- The offset behind an attribute: the sum, unless it wraps around. -/
theorem next_toNat (off : UInt32) : (off + readLE32 recordData (off.toNat + 4)).toNat =
    if 2 ^ 32 ≤ off.toNat + (readLE32 recordData (off.toNat + 4)).toNat then
      off.toNat + (readLE32 recordData (off.toNat + 4)).toNat - 2 ^ 32
    else off.toNat + (readLE32 recordData (off.toNat + 4)).toNat := by
  have here := off.toNat_lt
  have length := (readLE32 recordData (off.toNat + 4)).toNat_lt
  rw [UInt32.toNat_add]
  split <;> omega

theorem length_positive {off : Nat} (this : Continues recordData off) : 0 < (readLE32 recordData (off + 4)).toNat :=
  Nat.pos_of_ne_zero (fun zero => this.length (UInt32.toNat_inj.mp zero))

/-- Along a chain without such a length the walk visits the chain. -/
theorem Visited.chain (noWrap : NoWrap recordData first.toNat) {off : UInt32} (visited : Visited recordData first off) :
    Chain recordData first.toNat off.toNat := by
  induction visited with
  | refl => exact .first
  | @tail off next _ link chain =>
    obtain ⟨this,rfl,fits⟩ := nextAttribute_eq_some.mp link
    rw [next_toNat] at fits ⊢
    split
    next wraps =>
      rw [if_pos wraps] at fits
      exact absurd ⟨wraps,fits⟩ (noWrap off.toNat chain this)
    next sum =>
      rw [if_neg sum] at fits
      exact .next chain this fits

theorem Chain.visited (short : recordData.length < 2 ^ 32) {off : Nat} (chain : Chain recordData first.toNat off) :
    ∃ at_ : UInt32, at_.toNat = off ∧ Visited recordData first at_ := by
  induction chain with
  | first => exact ⟨first,rfl,.refl⟩
  | @next off _ this fits ih =>
    obtain ⟨at_,rfl,visited⟩ := ih
    have sum := @next_toNat recordData at_
    rw [if_neg (by omega)] at sum
    exact ⟨_,sum,visited.tail (nextAttribute_eq_some.mpr ⟨this,rfl,by rw [sum]; exact fits⟩)⟩

theorem rises_of_noWrap (noWrap : NoWrap recordData first.toNat) {off next : UInt32}
    (visited : Visited recordData first off) (link : nextAttribute recordData off = some next) : off < next := by
  obtain ⟨this,rfl,fits⟩ := nextAttribute_eq_some.mp link
  have some_byte := length_positive this
  rw [UInt32.lt_iff_toNat_lt]
  rw [next_toNat] at fits ⊢
  split
  next wraps =>
    rw [if_pos wraps] at fits
    exact absurd ⟨wraps,fits⟩ (noWrap off.toNat (visited.chain noWrap) this)
  next => omega

/-- A walk whose offsets rise ends, by induction on what is left of the record. -/
theorem walk_ends (rises : ∀ off, Visited recordData first off → ∀ next, nextAttribute recordData off = some next →
    off < next) (left : Nat) {off : UInt32} (visited : Visited recordData first off)
    (bound : recordData.length < off.toNat + left) (found : Found) :
    ∃ fuel result, walkAttributes recordData recordCluster fuel off found = some result := by
  induction left generalizing off found with
  | zero =>
    refine ⟨1,found,?_⟩
    rw [walkAttributes_round]
    cases link : nextAttribute recordData off with
    | none => rfl
    | some next =>
      obtain ⟨⟨header,_,_⟩,_,_⟩ := nextAttribute_eq_some.mp link
      omega
  | succ left ih =>
    cases link : nextAttribute recordData off with
    | none =>
      refine ⟨1,found,?_⟩
      rw [walkAttributes_round,link]
    | some next =>
      have above := UInt32.lt_iff_toNat_lt.mp (rises off visited next link)
      obtain ⟨fuel,result,rest⟩ := ih (visited.tail link) (by omega)
        (readAttribute recordData recordCluster off.toNat found)
      refine ⟨fuel + 1,result,?_⟩
      rw [walkAttributes_round,link]
      exact rest

/-- The walk over a record of arbitrary bytes reads inside the record. It ends with rising
offsets exactly when no attribute has a length that leads back into the record. -/
theorem walkAttributes_safe_iff (recordData : List UInt8) (recordCluster : UInt64) (first : UInt32)
    (short : recordData.length ≤ 65536) :
    WalkSafe recordData recordCluster first ↔ NoWrap recordData first.toNat := by
  constructor
  · rintro ⟨_,rises,_⟩ off chain this ⟨wraps,back⟩
    obtain ⟨at_,rfl,visited⟩ := chain.visited (by omega)
    have sum := @next_toNat recordData at_
    rw [if_pos wraps] at sum
    have link : nextAttribute recordData at_ = some (at_ + readLE32 recordData (at_.toNat + 4)) :=
      nextAttribute_eq_some.mpr ⟨this,rfl,by rw [sum]; exact back⟩
    have above := UInt32.lt_iff_toNat_lt.mp (rises at_ visited _ link)
    have length := (readLE32 recordData (at_.toNat + 4)).toNat_lt
    omega
  · intro noWrap
    have rises : ∀ off, Visited recordData first off → ∀ next, nextAttribute recordData off = some next → off < next :=
      fun off visited next link => rises_of_noWrap noWrap visited link
    refine ⟨fun found => ?_,rises,fun off _ => attributeAccesses_inside⟩
    exact walk_ends rises (recordData.length + 1) .refl (by omega) found

end Walk

section Sample

/-- A record of a deleted file. The attribute at 64 leads back to the one at 48. -/
def roundRecord : List UInt8 :=
  overwrite (List.replicate 128 0)
    [(0,fileMagic),(20,le16 48),(48,le32 0x10),(52,le32 16),(64,le32 0x10),(68,le32 0xFFFFFFF0)]

theorem roundRecord_walk (recordCluster : UInt64) (fuel : Nat) (found : Found) :
    walkAttributes roundRecord recordCluster fuel 48 found = none ∧
      walkAttributes roundRecord recordCluster fuel 64 found = none := by
  have there : nextAttribute roundRecord 48 = some 64 := by decide +kernel
  have back : nextAttribute roundRecord 64 = some 48 := by decide +kernel
  induction fuel generalizing found with
  | zero => exact ⟨rfl,rfl⟩
  | succ fuel ih =>
    rw [walkAttributes_round,walkAttributes_round,there,back]
    exact ⟨(ih _).2,(ih _).1⟩

theorem attribute_walk_hangs : deletedFile roundRecord = true ∧ (readLE16 roundRecord 20).toUInt32 = 48 ∧
    ¬ ∃ recordCluster fuel result, walkAttributes roundRecord recordCluster fuel 48 {} = some result := by
  refine ⟨by decide +kernel,by decide,?_⟩
  rintro ⟨recordCluster,fuel,result,ended⟩
  rw [(roundRecord_walk recordCluster fuel {}).1] at ended
  cases ended

example : nextAttribute roundRecord 48 = some 64 := by decide +kernel

def straightRecord : List UInt8 :=
  overwrite (List.replicate 128 0) [(0,fileMagic),(20,le16 48),(48,le32 0x10),(52,le32 16),(64,le32 NTFS_ATTR_END)]

theorem straightRecord_chain {off : Nat} (chain : Chain straightRecord 48 off) : off = 48 ∨ off = 64 := by
  induction chain with
  | first => exact .inl rfl
  | @next off _ here _ ih =>
    rcases ih with rfl | rfl
    · exact .inr (by decide)
    · exact absurd here.type (by decide)

/-- The walk over a record with the end marker behind its one attribute. -/
theorem attribute_walk_sample : WalkSafe straightRecord 0 48 := by
  refine (walkAttributes_safe_iff _ 0 48 (by decide +kernel)).mpr fun off chain this wraps => ?_
  rcases straightRecord_chain chain with rfl | rfl
  · exact absurd wraps (by decide)
  · exact absurd this.type (by decide)

end Sample

end SetecWizard.Core.FileRecovery
