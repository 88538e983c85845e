import SetecWizard.Core.FileRecovery
import SetecWizard.Format.Integers
import Mathlib.Data.List.GetD

/-! The mapping pairs of an attribute, and what the scan makes of them. A pair has a length
and a distance from the run before, in as many bytes as its writer chose; a pair without a
distance stands for clusters that are not on the disk.
-/
namespace SetecWizard.Library

theorem ofLE_append (first second : List UInt8) :
    ofLE (first ++ second) = ofLE first + 256 ^ first.length * ofLE second := by
  induction first with
  | nil => simp [ofLE]
  | cons b rest ih =>
    rw [List.cons_append,ofLE,ih,ofLE,List.length_cons,pow_succ]
    ring

theorem ofLE_replicate_zero (n : Nat) : ofLE (List.replicate n 0) = 0 := by
  induction n with
  | zero => rfl
  | succ n ih => rw [List.replicate_succ,ofLE,ih]; rfl

theorem ofLE_replicate_ones (n : Nat) : ofLE (List.replicate n 0xFF) + 1 = 256 ^ n := by
  induction n with
  | zero => rfl
  | succ n ih =>
    have digit : (0xFF : UInt8).toNat = 255 := rfl
    rw [List.replicate_succ,ofLE,digit,pow_succ]
    omega

/-- The number that bytes stand for in two's complement. -/
def signedLE (bytes : List UInt8) : Int :=
  if bytes.getD (bytes.length - 1) 0 &&& 0x80 ≠ 0 then ofLE bytes - (256 ^ bytes.length : Nat) else ofLE bytes

end SetecWizard.Library

namespace SetecWizard.Core.FileRecovery
open SetecWizard.Library

structure MappingPair where
  lengthField : List UInt8
  offsetField : List UInt8
  lengthSize : 1 ≤ lengthField.length ∧ lengthField.length ≤ 8
  offsetSize : offsetField.length ≤ 8

namespace MappingPair

def bytes (pair : MappingPair) : List UInt8 :=
  .ofNat (pair.offsetField.length * 16 + pair.lengthField.length) :: (pair.lengthField ++ pair.offsetField)

def clusters (pair : MappingPair) : Nat := ofLE pair.lengthField

def delta (pair : MappingPair) : Int := signedLE pair.offsetField

end MappingPair

def runList (pairs : List MappingPair) : List UInt8 := pairs.flatMap MappingPair.bytes ++ [0]

/-- A run of the file: where its clusters are, unless it has none. -/
structure FileRun where
  cluster : Option Int
  count : Nat

/-- The runs that pairs stand for, from the cluster of the run before them on. -/
def runsFrom (prev : Int) : List MappingPair → List FileRun
  | [] => []
  | pair :: rest =>
    if pair.offsetField = [] then ⟨none,pair.clusters⟩ :: runsFrom prev rest
    else ⟨some (prev + pair.delta),pair.clusters⟩ :: runsFrom (prev + pair.delta) rest

def FileRun.stored (run : FileRun) : Option DataRun :=
  run.cluster.map (fun cluster => ⟨.ofInt cluster,.ofNat run.count⟩)

theorem header_fields : ∀ o < 9, ∀ l < 9,
    (UInt8.ofNat (o * 16 + l) &&& 0x0F).toNat = l ∧ ((UInt8.ofNat (o * 16 + l) >>> 4) &&& 0x0F).toNat = o := by
  decide

theorem ofInt_natCast (n : Nat) : UInt64.ofInt n = .ofNat n := by
  apply UInt64.toNat_inj.mp
  rw [UInt64.ofInt,UInt64.toNat_ofNat',UInt64.toNat_ofNat']
  omega

theorem ofInt_below (n : Nat) : UInt64.ofInt ((n : Int) - 2 ^ 64) = .ofNat n := by
  apply UInt64.toNat_inj.mp
  rw [UInt64.ofInt,UInt64.toNat_ofNat',UInt64.toNat_ofNat']
  omega

theorem signExtended_eq {field : List UInt8} (short : field.length ≤ 8) :
    signExtended field = .ofInt (signedLE field) := by
  have total : 256 ^ field.length * 256 ^ (8 - field.length) = 2 ^ 64 := by
    rw [← pow_add,Nat.add_sub_cancel' short]
    rfl
  have bound := ofLE_lt field
  have width : 256 ^ field.length ≤ 2 ^ 64 := by
    have enough := Nat.pow_le_pow_right (by decide : 0 < 256) short
    exact enough.trans (by decide)
  unfold signExtended signedLE
  split
  next negative =>
    have ones := ofLE_replicate_ones (8 - field.length)
    simp only [ofLE_append]
    have moved : (ofLE field : Int) - (256 ^ field.length : Nat) =
        ((ofLE field + 256 ^ field.length * ofLE (List.replicate (8 - field.length) 0xFF) : Nat) : Int) - 2 ^ 64 := by
      have product : 256 ^ field.length * ofLE (List.replicate (8 - field.length) 0xFF) + 256 ^ field.length = 2 ^ 64 := by
        rw [← Nat.mul_succ,Nat.succ_eq_add_one,ones,total]
      omega
    rw [moved,ofInt_below]
  next positive =>
    simp only [ofLE_append,ofLE_replicate_zero,Nat.mul_zero,Nat.add_zero]
    exact (ofInt_natCast _).symm

theorem parseRuns_runList (pairs : List MappingPair) (rest : List UInt8) (prev : Int) :
    parseRuns (runList pairs ++ rest) (.ofInt prev) = (runsFrom prev pairs).filterMap FileRun.stored := by
  induction pairs generalizing prev with
  | nil =>
    rw [runList,List.flatMap_nil,List.nil_append,List.singleton_append,parseRuns]
    rfl
  | cons pair pairs ih =>
    obtain ⟨lengthField,offsetField,⟨some_byte,lengthSize⟩,offsetSize⟩ := pair
    obtain ⟨low,high⟩ := header_fields offsetField.length (by omega) lengthField.length (by omega)
    have header : UInt8.ofNat (offsetField.length * 16 + lengthField.length) ≠ 0 := by
      intro zero
      rw [zero] at low
      have none : lengthField.length = 0 := low.symm
      omega
    have stored : runList (⟨lengthField,offsetField,⟨some_byte,lengthSize⟩,offsetSize⟩ :: pairs) ++ rest =
        UInt8.ofNat (offsetField.length * 16 + lengthField.length) ::
          (lengthField ++ (offsetField ++ (runList pairs ++ rest))) := by
      simp only [runList,List.flatMap_cons,MappingPair.bytes,List.cons_append,List.append_assoc]
    have long : ¬ (lengthField ++ (offsetField ++ (runList pairs ++ rest))).length <
        lengthField.length + offsetField.length := by
      simp only [List.length_append]
      omega
    have fits : ¬ (lengthField.length = 0 ∨ 8 < lengthField.length ∨ 8 < offsetField.length) := by omega
    rw [stored,parseRuns]
    simp only [low,high,if_neg header,if_neg fits,if_neg long,List.take_left]
    by_cases sparse : offsetField = []
    · subst sparse
      rw [if_pos List.length_nil,List.drop_left,List.nil_append,ih,runsFrom,if_pos rfl]
      rfl
    · have some_offset : ¬ offsetField.length = 0 := fun none => sparse (List.length_eq_zero_iff.mp none)
      have offset : slice (lengthField ++ (offsetField ++ (runList pairs ++ rest))) lengthField.length
          offsetField.length = offsetField := by
        rw [slice,List.drop_left,List.take_left]
      have after : (lengthField ++ (offsetField ++ (runList pairs ++ rest))).drop
          (lengthField.length + offsetField.length) = runList pairs ++ rest := by
        rw [← List.drop_drop,List.drop_left,List.drop_left]
      rw [if_neg some_offset,offset,after,signExtended_eq offsetSize,← UInt64.ofInt_add,ih,runsFrom,if_neg sparse]
      rfl

end SetecWizard.Core.FileRecovery
