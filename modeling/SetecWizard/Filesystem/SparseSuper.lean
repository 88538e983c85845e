import SetecWizard.Core.FormatEngine

/-! The block groups that keep a copy of the superblock. The powers of a base are passed in
rising order, and the loop leaves before a product would wrap: what it has not found by
then is no power below 2 ^ 32.
-/
namespace SetecWizard.Core.FormatEngine

/-- A run of the loop over the powers of a base that ends with a result. Each product on
the way is the one of the natural numbers. -/
inductive PowerLoop (base groupNum : UInt32) : UInt32 → Bool → Prop
  | passed {val : UInt32} (beyond : groupNum < val) : PowerLoop base groupNum val false
  | found : PowerLoop base groupNum groupNum true
  | guarded {val : UInt32} (before : val < groupNum) (guard : 0xFFFFFFFF / base < val) :
      PowerLoop base groupNum val false
  | again {val : UInt32} {result : Bool} (before : val < groupNum) (guard : ¬ 0xFFFFFFFF / base < val)
      (exact_ : (val * base).toNat = val.toNat * base.toNat) (rest : PowerLoop base groupNum (val * base) result) :
      PowerLoop base groupNum val result

namespace PowerLoop

variable {base groupNum val : UInt32}

theorem guard_iff (base_pos : 0 < base.toNat) :
    0xFFFFFFFF / base < val ↔ 2 ^ 32 ≤ val.toNat * base.toNat := by
  have largest : (0xFFFFFFFF : UInt32).toNat = 2 ^ 32 - 1 := rfl
  rw [UInt32.lt_iff_toNat_lt,UInt32.toNat_div,largest,Nat.div_lt_iff_lt_mul base_pos]
  omega

theorem ends (larger : 2 ≤ base.toNat) {rounds : Nat} (enough : groupNum.toNat < val.toNat * 2 ^ rounds) :
    PowerLoop base groupNum val (isPowerOf base groupNum rounds val) := by
  induction rounds generalizing val with
  | zero =>
    apply passed
    rw [UInt32.lt_iff_toNat_lt]
    omega
  | succ rounds ih =>
    rw [isPowerOf]
    split
    next beyond => exact passed beyond
    next reached =>
      split
      next here =>
        subst here
        exact found
      next other =>
        have before : val < groupNum := by
          rw [UInt32.lt_iff_toNat_lt] at reached ⊢
          have different : val.toNat ≠ groupNum.toNat := fun same => other (UInt32.toNat_inj.mp same)
          omega
        split
        next guard => exact guarded before guard
        next guard =>
          have fits := guard
          rw [guard_iff (by omega),Nat.not_le] at fits
          have exact_ : (val * base).toNat = val.toNat * base.toNat := by
            rw [UInt32.toNat_mul,Nat.mod_eq_of_lt fits]
          apply again before guard exact_
          apply ih
          calc groupNum.toNat < val.toNat * 2 ^ (rounds + 1) := enough
            _ = val.toNat * 2 * 2 ^ rounds := by rw [Nat.pow_succ']; ring
            _ ≤ val.toNat * base.toNat * 2 ^ rounds :=
              Nat.mul_le_mul_right _ (Nat.mul_le_mul_left _ larger)
            _ = (val * base).toNat * 2 ^ rounds := by rw [exact_]

theorem result_iff {result : Bool} (larger : 2 ≤ base.toNat) (loop : PowerLoop base groupNum val result) :
    result = true ↔ ∃ k, groupNum.toNat = val.toNat * base.toNat ^ k := by
  have positive (k : Nat) : 1 ≤ base.toNat ^ k := Nat.one_le_pow _ _ (by omega)
  induction loop with
  | @passed val beyond =>
    rw [UInt32.lt_iff_toNat_lt] at beyond
    constructor
    · intro impossible
      cases impossible
    · rintro ⟨k,same⟩
      have least := Nat.mul_le_mul_left val.toNat (positive k)
      omega
  | found => exact ⟨fun _ => ⟨0,by rw [Nat.pow_zero,Nat.mul_one]⟩,fun _ => rfl⟩
  | @guarded val before guard =>
    rw [UInt32.lt_iff_toNat_lt] at before
    rw [guard_iff (by omega)] at guard
    have width := groupNum.toNat_lt
    constructor
    · intro impossible
      cases impossible
    · rintro ⟨k,same⟩
      cases k with
      | zero => rw [Nat.pow_zero] at same; omega
      | succ k =>
        have least := Nat.mul_le_mul_left (val.toNat * base.toNat) (positive k)
        rw [Nat.pow_succ',← Nat.mul_assoc] at same
        omega
  | @again val result before guard exact_ rest ih =>
    refine ih.trans ?_
    rw [exact_]
    rw [UInt32.lt_iff_toNat_lt] at before
    constructor
    · rintro ⟨k,same⟩
      exact ⟨k + 1,by rw [same,Nat.pow_succ',Nat.mul_assoc]⟩
    · rintro ⟨k,same⟩
      cases k with
      | zero => rw [Nat.pow_zero] at same; omega
      | succ k => exact ⟨k,by rw [same,Nat.pow_succ',Nat.mul_assoc]⟩

theorem whole (larger : 2 ≤ base.toNat) : PowerLoop base groupNum base (isPowerOf base groupNum 32 base) := by
  apply ends larger
  have width := groupNum.toNat_lt
  omega

end PowerLoop

theorem isPowerOf_iff {base groupNum : UInt32} (larger : 2 ≤ base.toNat) :
    isPowerOf base groupNum 32 base = true ↔ ∃ k, 0 < k ∧ groupNum.toNat = base.toNat ^ k := by
  rw [(PowerLoop.whole larger).result_iff larger]
  constructor
  · rintro ⟨k,same⟩
    exact ⟨k + 1,k.succ_pos,by rw [same,Nat.pow_succ']⟩
  · rintro ⟨k,positive,same⟩
    obtain ⟨j,rfl⟩ : ∃ j, k = j + 1 := ⟨k - 1,by omega⟩
    exact ⟨j,by rw [same,Nat.pow_succ']⟩

theorem hasSuperblockBackup_iff (groupNum : UInt32) :
    (∀ base ∈ ([3,5,7] : List UInt32), PowerLoop base groupNum base (isPowerOf base groupNum 32 base)) ∧
    (hasSuperblockBackup groupNum = true ↔ groupNum = 0 ∨ groupNum = 1 ∨
      ∃ base ∈ ([3,5,7] : List Nat), ∃ k, 0 < k ∧ groupNum.toNat = base ^ k) := by
  have larger : ∀ base ∈ ([3,5,7] : List UInt32), 2 ≤ base.toNat := by
    intro base member
    simp only [List.mem_cons,List.not_mem_nil,or_false] at member
    rcases member with rfl | rfl | rfl <;> decide
  refine ⟨fun base member => PowerLoop.whole (larger base member),?_⟩
  simp only [hasSuperblockBackup,Bool.or_eq_true,decide_eq_true_eq,List.any_eq_true,or_assoc]
  refine or_congr_right (or_congr_right ?_)
  constructor
  · rintro ⟨base,member,power⟩
    refine ⟨base.toNat,?_,(isPowerOf_iff (larger base member)).mp power⟩
    exact List.mem_map_of_mem (f := UInt32.toNat) member
  · rintro ⟨base,member,power⟩
    obtain ⟨word,inside,rfl⟩ : ∃ word ∈ ([3,5,7] : List UInt32), word.toNat = base :=
      List.mem_map.mp (show base ∈ ([3,5,7] : List UInt32).map UInt32.toNat from member)
    exact ⟨word,inside,(isPowerOf_iff (larger word inside)).mpr power⟩

end SetecWizard.Core.FormatEngine
