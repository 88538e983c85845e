import SetecWizard.Maintenance.CardRestore
import SetecWizard.Format.Integers
import Mathlib.Data.Nat.ModEq

/-! The verdict of the counterfeit check when no request fails. Each probe must find its own
signature, so the probes have to be in different cells; on a card that wraps they are unless
two of the fourteen differ by a multiple of its capacity.
-/
namespace SetecWizard.Core.SdCardAnalyzer
open SetecWizard.Library

/-- The card is probed and no request fails. -/
structure Errorless (host : SdHost) (sizeBytes sectorSize : Nat) : Prop
    extends Probing host sizeBytes sectorSize where
  reopens : host.reopens = true
  signs : ∀ off, host.signFails off = false
  verifies : ∀ off, host.verifyFails off = false

/-- A reported capacity of a hundred sectors or more; a sector holds the signature's fields. -/
structure Reported (sizeBytes sectorSize : Nat) : Prop where
  header : 24 ≤ sectorSize
  hundred : 100 * sectorSize ≤ sizeBytes
  bound : sizeBytes < 2 ^ 64

def verdict (host : SdHost) (diskId : UInt64) (card : SdCard) : Option CounterfeitVerdict :=
  match (checkCounterfeit host diskId card).1 with
  | .ok result => some result.verdict
  | .error _ => none

def passes (host : SdHost) (card : SdCard) (sectorSize : Nat) (diskSerial : UInt64) (probe : Probe) : Bool :=
  probe.writeOk && probeOffset host card probe.offset sectorSize diskSerial

theorem verify_all (host : SdHost) (card : SdCard) (sectorSize : Nat) (diskSerial : UInt64)
    (probes : List Probe) (result : CounterfeitResult) :
    (probes.foldl (verify host card sectorSize diskSerial) result).failCount = 0
      ↔ result.failCount = 0 ∧ ∀ probe ∈ probes, passes host card sectorSize diskSerial probe = true := by
  induction probes generalizing result with
  | nil => simp
  | cons probe rest ih =>
    rw [List.foldl_cons,ih]
    by_cases good : passes host card sectorSize diskSerial probe = true
    · have same : verify host card sectorSize diskSerial result probe = result := if_pos good
      simp [same,good]
    · have more : (verify host card sectorSize diskSerial result probe).failCount = result.failCount + 1 :=
        congrArg CounterfeitResult.failCount (if_neg good)
      simp [more,good]

theorem judged_genuine (result : CounterfeitResult) :
    (judged result).verdict = .genuine ↔ result.failCount = 0 := by
  simp only [judged]
  generalize (if 0 < result.probeCount then (result.failCount : Rat) / result.probeCount * 100 else 0) = percent
  by_cases none_ : result.failCount = 0
  · simp [none_]
  · rw [if_neg none_]
    split <;> simp [none_]

theorem signature_injective {sectorSize : Nat} {diskSerial : UInt64} {a b : Nat} (aBound : a < 2 ^ 64)
    (bBound : b < 2 ^ 64) (same : signature sectorSize diskSerial a = signature sectorSize diskSerial b) :
    a = b := by
  have field (off : Nat) : slice (signature sectorSize diskSerial off) 8 8 = le64 (UInt64.ofNat off) := by
    simp only [signature,makeSignature,List.append_assoc]
    have middle := slice_middle signatureMagic (le64 (UInt64.ofNat off)) (le64 diskSerial
      ++ pattern (sectorSize - 24) (UInt64.ofNat off ^^^ (diskSerial <<< 13) ^^^ 0xDEADBEEFCAFEBABE))
    have eight : signatureMagic.length = 8 := rfl
    simpa only [List.append_assoc,length_le64,eight] using middle
  have first := field a
  rw [same] at first
  have number : UInt64.ofNat a = UInt64.ofNat b := by
    have left := readLE64_of_slice first
    have right := readLE64_of_slice (field b)
    exact left.symm.trans right
  have values := congrArg UInt64.toNat number
  rwa [UInt64.toNat_ofNat_of_lt' aBound,UInt64.toNat_ofNat_of_lt' bBound] at values

theorem probeOffsets_sorted (sizeBytes sectorSize : Nat) :
    (probeOffsets sizeBytes sectorSize).Pairwise (· < ·) := by
  unfold probeOffsets
  have sorted := List.pairwise_insertionSort (fun a b : Nat => a ≤ b)
    ((nearEndFracs ++ midFracs).filterMap (fracOffset sizeBytes sectorSize))
  have ordered := sorted.sublist (List.dedup_sublist _)
  exact (ordered.and (List.nodup_dedup _)).imp (fun both => lt_of_le_of_ne both.1 both.2)

theorem fracOffset_eq {sizeBytes sectorSize frac : Nat} (reported : Reported sizeBytes sectorSize)
    (member : frac ∈ nearEndFracs ++ midFracs) :
    fracOffset sizeBytes sectorSize frac = some (sizeBytes / sectorSize * frac / 1000 * sectorSize) := by
  have header := reported.header
  have positive : 0 < sectorSize := by omega
  have bounds : ∀ frac ∈ nearEndFracs ++ midFracs, 125 ≤ frac ∧ frac ≤ 990 := by decide
  obtain ⟨low,high⟩ := bounds frac member
  have hundred : 100 ≤ sizeBytes / sectorSize := (Nat.le_div_iff_mul_le positive).mpr reported.hundred
  have fits : sizeBytes / sectorSize * sectorSize ≤ sizeBytes := Nat.div_mul_le_self ..
  simp only [fracOffset,Nat.mul_div_cancel _ positive]
  generalize sizeBytes / sectorSize = total at hundred fits ⊢
  have inside : total * frac / 1000 + 1 ≤ total := by
    have scaled : total * frac ≤ total * 990 := Nat.mul_le_mul_left total high
    omega
  have nonzero : 0 < total * frac / 1000 := by
    have scaled : total * 125 ≤ total * frac := Nat.mul_le_mul_left total low
    omega
  have ends : (total * frac / 1000 + 1) * sectorSize ≤ total * sectorSize := Nat.mul_le_mul_right _ inside
  rw [Nat.add_mul,Nat.one_mul] at ends
  rw [if_pos ⟨Nat.mul_pos nonzero positive,by omega⟩]

theorem mem_probeOffsets {sizeBytes sectorSize : Nat} (reported : Reported sizeBytes sectorSize) (off : Nat) :
    off ∈ probeOffsets sizeBytes sectorSize ↔
      ∃ frac ∈ nearEndFracs ++ midFracs, off = sizeBytes / sectorSize * frac / 1000 * sectorSize := by
  unfold probeOffsets
  rw [List.mem_dedup,List.mem_insertionSort,List.mem_filterMap]
  constructor
  · rintro ⟨frac,member,equal⟩
    rw [fracOffset_eq reported member] at equal
    exact ⟨frac,member,(Option.some.inj equal).symm⟩
  · rintro ⟨frac,member,equal⟩
    exact ⟨frac,member,(fracOffset_eq reported member).trans (congrArg some equal.symm)⟩

theorem probeOffsets_bound {sizeBytes sectorSize off : Nat} (reported : Reported sizeBytes sectorSize)
    (member : off ∈ probeOffsets sizeBytes sectorSize) :
    off < 2 ^ 64 ∧ off / sectorSize * sectorSize = off := by
  obtain ⟨frac,among,equal⟩ := (mem_probeOffsets reported off).mp member
  have header := reported.header
  have bound := reported.bound
  have whole := fracOffset_eq reported among
  simp only [fracOffset] at whole
  split at whole
  next inside =>
    have last := Option.some.inj whole
    rw [last,← equal] at inside
    constructor
    · omega
    · rw [equal,Nat.mul_div_cancel _ (by omega)]
  next => cases whole

section

variable {host : SdHost} {sizeBytes sectorSize : Nat} {card : SdCard}

theorem passes_iff (errorless : Errorless host sizeBytes sectorSize) (reported : Reported sizeBytes sectorSize)
    (diskSerial : UInt64)
    (unsigned : ∀ off ∈ probeOffsets sizeBytes sectorSize,
      card.filler (off / sectorSize) ≠ signature sectorSize diskSerial off)
    {off : Nat} (member : off ∈ probeOffsets sizeBytes sectorSize) :
    probeOffset host (signAll host sectorSize diskSerial card (probeOffsets sizeBytes sectorSize)).1 off
        sectorSize diskSerial = true
      ↔ ∃ x, card.cell (off / sectorSize) = some x ∧
        ∀ other ∈ probeOffsets sizeBytes sectorSize, card.cell (other / sectorSize) = some x → other ≤ off := by
  obtain ⟨bound,aligned⟩ := probeOffsets_bound reported member
  simp only [probeOffset,aligned,errorless.verifies,Bool.not_false,Bool.true_and,beq_iff_eq]
  rw [SdCard.read,signAll_cell]
  cases mapped : card.cell (off / sectorSize) with
  | none =>
    simp only [signAll_filler]
    constructor
    · intro equal
      exact absurd equal.symm (unsigned off member)
    · rintro ⟨x,backed,_⟩
      cases backed
  | some x =>
    simp only [signAll_content,signedOver,errorless.signs,Bool.not_false,List.filter_true]
    have sorted : (touching sectorSize card x (probeOffsets sizeBytes sectorSize)).Pairwise (· < ·) :=
      (probeOffsets_sorted sizeBytes sectorSize).filter _
    have among : off ∈ touching sectorSize card x (probeOffsets sizeBytes sectorSize) :=
      List.mem_filter.mpr ⟨member,by simp [mapped]⟩
    rcases List.eq_nil_or_concat (touching sectorSize card x (probeOffsets sizeBytes sectorSize)) with
      none_ | ⟨before,last,ends⟩
    · rw [none_] at among
      cases among
    · rw [List.concat_eq_append] at ends
      have lastMember : last ∈ touching sectorSize card x (probeOffsets sizeBytes sectorSize) := by
        rw [ends]
        simp
      obtain ⟨lastAmong,lastMapped⟩ := List.mem_filter.mp lastMember
      have greatest : ∀ other ∈ touching sectorSize card x (probeOffsets sizeBytes sectorSize), other ≤ last := by
        intro other inside
        rw [ends] at inside sorted
        rcases List.mem_append.mp inside with earlier | final
        · exact Nat.le_of_lt ((List.pairwise_append.mp sorted).2.2 other earlier last (by simp))
        · exact Nat.le_of_eq (List.mem_singleton.mp final)
      rw [ends,List.getLast?_concat]
      constructor
      · intro equal
        have same : off = last := signature_injective bound (probeOffsets_bound reported lastAmong).1 equal
        refine ⟨x,rfl,?_⟩
        intro other inside backed
        rw [same]
        exact greatest other (List.mem_filter.mpr ⟨inside,by simp [backed]⟩)
      · rintro ⟨y,backed,highest⟩
        cases backed
        have above : last ≤ off := highest last lastAmong (by simpa using lastMapped)
        have same : off = last := Nat.le_antisymm (greatest off among) above
        rw [same]
        rfl

/-- Without failing requests a card is genuine if the probes are in cells of their own. -/
theorem verdict_genuine_iff (errorless : Errorless host sizeBytes sectorSize)
    (reported : Reported sizeBytes sectorSize) (diskId : UInt64)
    (unsigned : ∀ off ∈ probeOffsets sizeBytes sectorSize,
      card.filler (off / sectorSize) ≠ signature sectorSize (probedSerial diskId) off) :
    verdict host diskId card = some .genuine ↔
      ∀ off ∈ probeOffsets sizeBytes sectorSize, ∃ x, card.cell (off / sectorSize) = some x ∧
        ∀ other ∈ probeOffsets sizeBytes sectorSize, card.cell (other / sectorSize) = some x → other ≤ off := by
  obtain ⟨known,size,fresh,run⟩ := checkCounterfeit_probed diskId card errorless.toProbing
  have finished : (probed host diskId card sectorSize known).1
      = judged ((signAll host sectorSize (probedSerial diskId) card (probeOffsets sizeBytes sectorSize)).2.foldl
          (verify host (signAll host sectorSize (probedSerial diskId) card
            (probeOffsets sizeBytes sectorSize)).1 sectorSize (probedSerial diskId))
          { known with probeCount := (probeOffsets sizeBytes sectorSize).length,
                       verifiedCapacityBytes := sizeBytes }) := by
    simp only [probed,errorless.reopens,not_true_eq_false,if_false,size]
    rfl
  have entries := signAll_probes host sectorSize (probedSerial diskId) card (probeOffsets sizeBytes sectorSize)
  simp only [verdict,run,Option.some.injEq]
  rw [finished,judged_genuine,verify_all]
  simp only [fresh,true_and]
  constructor
  · intro all off member
    have listed : (off,!host.signFails off) ∈ (signAll host sectorSize (probedSerial diskId) card
        (probeOffsets sizeBytes sectorSize)).2.map (fun probe => (probe.offset,probe.writeOk)) := by
      rw [entries]
      exact List.mem_map_of_mem member
    obtain ⟨probe,among,equal⟩ := List.mem_map.mp listed
    obtain ⟨sameOffset,_⟩ := Prod.mk.inj equal
    have good := (Bool.and_eq_true_iff.mp (all probe among)).2
    rw [sameOffset] at good
    exact (passes_iff errorless reported _ unsigned member).mp good
  · intro each probe among
    have listed : (probe.offset,probe.writeOk) ∈ (probeOffsets sizeBytes sectorSize).map
        (fun off => (off,!host.signFails off)) := by
      rw [← entries]
      exact List.mem_map_of_mem (f := fun probe : Probe => (probe.offset,probe.writeOk)) among
    obtain ⟨off,member,equal⟩ := List.mem_map.mp listed
    obtain ⟨sameOffset,written⟩ := Prod.mk.inj equal
    rw [sameOffset] at member
    have good := (passes_iff errorless reported _ unsigned member).mpr (each probe.offset member)
    exact Bool.and_eq_true_iff.mpr ⟨by rw [← written,errorless.signs]; rfl,good⟩

end

/-- Addresses from the capacity on wrap to the beginning. -/
def wrapping (capacity : Nat) (content filler : Nat → List UInt8) : SdCard where
  cell := fun sector => some (sector % capacity)
  content := content
  filler := filler

def dropping (capacity : Nat) (content filler : Nat → List UInt8) : SdCard where
  cell := fun sector => if sector < capacity then some sector else none
  content := content
  filler := filler

/-- A card of a smaller capacity is never genuine, one of the reported capacity always is. -/
structure Detects (host : SdHost) (diskId : UInt64) (content filler : Nat → List UInt8)
    (totalSectors capacity : Nat) : Prop where
  wraps : verdict host diskId (wrapping capacity content filler) ≠ some .genuine
  drops : verdict host diskId (dropping capacity content filler) ≠ some .genuine
  honest : verdict host diskId (wrapping totalSectors content filler) = some .genuine ∧
    verdict host diskId (dropping totalSectors content filler) = some .genuine

section

variable {host : SdHost} {sizeBytes sectorSize : Nat}

def fracSector (sizeBytes sectorSize frac : Nat) : Nat := sizeBytes / sectorSize * frac / 1000

theorem fracSector_lt (reported : Reported sizeBytes sectorSize) {f g : Nat} (member : g ∈ nearEndFracs ++ midFracs)
    (other : f ∈ nearEndFracs ++ midFracs) (less : f < g) :
    fracSector sizeBytes sectorSize f < fracSector sizeBytes sectorSize g := by
  have header := reported.header
  have hundred : 100 ≤ sizeBytes / sectorSize :=
    (Nat.le_div_iff_mul_le (by omega)).mpr reported.hundred
  have apart : ∀ f ∈ nearEndFracs ++ midFracs, ∀ g ∈ nearEndFracs ++ midFracs, f < g → f + 10 ≤ g := by
    decide
  have step := apart f other g member less
  unfold fracSector
  generalize sizeBytes / sectorSize = total at hundred
  have scaled : total * (f + 10) ≤ total * g := Nat.mul_le_mul_left total step
  rw [Nat.mul_add] at scaled
  omega

theorem fracSector_le_iff (reported : Reported sizeBytes sectorSize) {f g : Nat}
    (member : g ∈ nearEndFracs ++ midFracs) (other : f ∈ nearEndFracs ++ midFracs) :
    fracSector sizeBytes sectorSize f * sectorSize ≤ fracSector sizeBytes sectorSize g * sectorSize ↔ f ≤ g := by
  have header := reported.header
  have positive : 0 < sectorSize := by omega
  rw [Nat.mul_le_mul_right_iff positive]
  constructor
  · intro le
    by_contra greater
    exact absurd (fracSector_lt reported other member (not_le.mp greater)) (not_lt.mpr le)
  · intro le
    rcases Nat.lt_or_eq_of_le le with less | equal
    · exact Nat.le_of_lt (fracSector_lt reported member other less)
    · exact Nat.le_of_eq (congrArg _ equal)

theorem verdict_fracs_iff (errorless : Errorless host sizeBytes sectorSize)
    (reported : Reported sizeBytes sectorSize) (diskId : UInt64) {card : SdCard}
    (unsigned : ∀ off ∈ probeOffsets sizeBytes sectorSize,
      card.filler (off / sectorSize) ≠ signature sectorSize (probedSerial diskId) off) :
    verdict host diskId card = some .genuine ↔
      ∀ f ∈ nearEndFracs ++ midFracs, ∃ x, card.cell (fracSector sizeBytes sectorSize f) = some x ∧
        ∀ g ∈ nearEndFracs ++ midFracs, card.cell (fracSector sizeBytes sectorSize g) = some x → g ≤ f := by
  have header := reported.header
  have sector (frac : Nat) : fracSector sizeBytes sectorSize frac * sectorSize / sectorSize
      = fracSector sizeBytes sectorSize frac := Nat.mul_div_cancel _ (by omega)
  have probe {frac : Nat} (member : frac ∈ nearEndFracs ++ midFracs) :
      fracSector sizeBytes sectorSize frac * sectorSize ∈ probeOffsets sizeBytes sectorSize :=
    (mem_probeOffsets reported _).mpr ⟨frac,member,rfl⟩
  rw [verdict_genuine_iff errorless reported diskId unsigned]
  constructor
  · intro all f member
    obtain ⟨x,backed,highest⟩ := all _ (probe member)
    rw [sector] at backed
    refine ⟨x,backed,?_⟩
    intro g among same
    have le := highest _ (probe among) (by rw [sector]; exact same)
    exact (fracSector_le_iff reported member among).mp le
  · intro all off member
    obtain ⟨f,among,rfl⟩ := (mem_probeOffsets reported off).mp member
    obtain ⟨x,backed,highest⟩ := all f among
    refine ⟨x,?_,?_⟩
    · rw [← backed]
      exact congrArg card.cell (sector f)
    · intro other inside same
      obtain ⟨g,within,rfl⟩ := (mem_probeOffsets reported other).mp inside
      have le := highest g within (by rw [← same]; exact congrArg card.cell (sector g).symm)
      exact (fracSector_le_iff reported among within).mpr le

theorem wrapping_genuine_iff (errorless : Errorless host sizeBytes sectorSize)
    (reported : Reported sizeBytes sectorSize) (diskId : UInt64) {content filler : Nat → List UInt8}
    (unsigned : ∀ off ∈ probeOffsets sizeBytes sectorSize,
      filler (off / sectorSize) ≠ signature sectorSize (probedSerial diskId) off) (capacity : Nat) :
    verdict host diskId (wrapping capacity content filler) = some .genuine ↔
      ∀ f ∈ nearEndFracs ++ midFracs, ∀ g ∈ nearEndFracs ++ midFracs, f < g →
        ¬ capacity ∣ fracSector sizeBytes sectorSize g - fracSector sizeBytes sectorSize f := by
  rw [verdict_fracs_iff errorless reported diskId unsigned]
  constructor
  · intro all f low g high less divides
    obtain ⟨x,backed,highest⟩ := all f low
    have below := Nat.le_of_lt (fracSector_lt reported high low less)
    have congruent := (Nat.modEq_iff_dvd' below).mpr divides
    have le := highest g high (backed ▸ congrArg some congruent.symm)
    omega
  · intro apart f low
    refine ⟨fracSector sizeBytes sectorSize f % capacity,rfl,?_⟩
    intro g high same
    by_contra greater
    have less : f < g := not_le.mp greater
    have below := Nat.le_of_lt (fracSector_lt reported high low less)
    have congruent : Nat.ModEq capacity (fracSector sizeBytes sectorSize f) (fracSector sizeBytes sectorSize g) :=
      (Option.some.inj same).symm
    exact apart f low g high less ((Nat.modEq_iff_dvd' below).mp congruent)

theorem dropping_genuine_iff (errorless : Errorless host sizeBytes sectorSize)
    (reported : Reported sizeBytes sectorSize) (diskId : UInt64) {content filler : Nat → List UInt8}
    (unsigned : ∀ off ∈ probeOffsets sizeBytes sectorSize,
      filler (off / sectorSize) ≠ signature sectorSize (probedSerial diskId) off) (capacity : Nat) :
    verdict host diskId (dropping capacity content filler) = some .genuine ↔
      fracSector sizeBytes sectorSize 990 < capacity := by
  rw [verdict_fracs_iff errorless reported diskId unsigned]
  have greatest : ∀ f ∈ nearEndFracs ++ midFracs, f ≤ 990 := by decide
  have top : 990 ∈ nearEndFracs ++ midFracs := by decide
  constructor
  · intro all
    obtain ⟨x,backed,_⟩ := all 990 top
    by_contra small
    simp [dropping,small] at backed
  · intro large f member
    have le : fracSector sizeBytes sectorSize f ≤ fracSector sizeBytes sectorSize 990 :=
      Nat.div_le_div_right (Nat.mul_le_mul_left _ (greatest f member))
    have inside : fracSector sizeBytes sectorSize f < capacity := by omega
    refine ⟨fracSector sizeBytes sectorSize f,if_pos inside,?_⟩
    intro g among same
    by_contra greater
    have less := fracSector_lt reported among member (not_le.mp greater)
    simp only [dropping] at same
    split at same
    next => exact absurd (Option.some.inj same) (Nat.ne_of_gt less)
    next => cases same

/-- Detection works exactly if two of the fourteen probes differ by a multiple of the real
capacity and the last of them lies behind it. -/
theorem checkCounterfeit_detects_iff (errorless : Errorless host sizeBytes sectorSize)
    (reported : Reported sizeBytes sectorSize) (diskId : UInt64) (content filler : Nat → List UInt8)
    (unsigned : ∀ off ∈ probeOffsets sizeBytes sectorSize,
      filler (off / sectorSize) ≠ signature sectorSize (probedSerial diskId) off) (capacity : Nat) :
    Detects host diskId content filler (sizeBytes / sectorSize) capacity ↔
      (∃ f ∈ nearEndFracs ++ midFracs, ∃ g ∈ nearEndFracs ++ midFracs, f < g ∧
        capacity ∣ fracSector sizeBytes sectorSize g - fracSector sizeBytes sectorSize f) ∧
      capacity ≤ fracSector sizeBytes sectorSize 990 := by
  have header := reported.header
  have hundred : 100 ≤ sizeBytes / sectorSize := (Nat.le_div_iff_mul_le (by omega)).mpr reported.hundred
  have wraps := @wrapping_genuine_iff host sizeBytes sectorSize errorless reported diskId content filler unsigned
  have drops := @dropping_genuine_iff host sizeBytes sectorSize errorless reported diskId content filler unsigned
  have last : fracSector sizeBytes sectorSize 990 < sizeBytes / sectorSize := by
    unfold fracSector
    omega
  have greatest : ∀ f ∈ nearEndFracs ++ midFracs, f ≤ 990 := by decide
  have honest : verdict host diskId (wrapping (sizeBytes / sectorSize) content filler) = some .genuine := by
    refine (wraps _).mpr ?_
    intro f low g high less divides
    have apart := fracSector_lt reported high low less
    have inside : fracSector sizeBytes sectorSize g ≤ fracSector sizeBytes sectorSize 990 :=
      Nat.div_le_div_right (Nat.mul_le_mul_left _ (greatest g high))
    have far := Nat.le_of_dvd (by omega) divides
    omega
  constructor
  · intro detects
    refine ⟨?_,not_lt.mp (fun behind => detects.drops ((drops capacity).mpr behind))⟩
    by_contra none_
    refine detects.wraps ((wraps capacity).mpr ?_)
    intro f low g high less divides
    exact none_ ⟨f,low,g,high,less,divides⟩
  · rintro ⟨⟨f,low,g,high,less,divides⟩,inside⟩
    refine ⟨?_,?_,honest,(drops _).mpr last⟩
    · intro genuine
      exact (wraps capacity).mp genuine f low g high less divides
    · intro genuine
      exact absurd ((drops capacity).mp genuine) (not_lt.mpr inside)

end

theorem signature_ne_nil (sectorSize : Nat) (diskSerial : UInt64) (off : Nat) :
    [] ≠ signature sectorSize diskSerial off := by
  simp [signature,makeSignature,signatureMagic]

theorem faultlessHost_errorless {sizeBytes sectorSize : Nat} (media : sizeBytes ≠ 0) (positive : 0 < sectorSize) :
    Errorless (faultlessHost sizeBytes sectorSize) sizeBytes sectorSize :=
  ⟨⟨⟨sectorSize,rfl,(if_pos positive).symm⟩,media,rfl,rfl⟩,rfl,fun _ => rfl,fun _ => rfl⟩

/-- A card of ten sectors that reports a hundred is found out. -/
theorem tenth_detected : Detects (faultlessHost 51200 512) 1 blankFake.content blankFake.filler 100 10 :=
  (checkCounterfeit_detects_iff (faultlessHost_errorless (by decide) (by decide))
    ⟨by decide,by decide,by decide⟩ 1 blankFake.content blankFake.filler
    (fun off _ => signature_ne_nil 512 (probedSerial 1) off) 10).mpr
    ⟨⟨125,by decide,625,by decide,by decide,by decide⟩,by decide⟩

/-- A card of 989 sectors that reports 1000 passes: no two probes are 989 sectors apart. -/
theorem nearly_genuine :
    989 ≤ 99 * 512000 / (100 * 512) ∧
    verdict (faultlessHost 512000 512) 1 (wrapping 989 blankFake.content blankFake.filler) = some .genuine ∧
    ¬ Detects (faultlessHost 512000 512) 1 blankFake.content blankFake.filler 1000 989 := by
  have genuine : verdict (faultlessHost 512000 512) 1 (wrapping 989 blankFake.content blankFake.filler)
      = some .genuine :=
    (wrapping_genuine_iff (faultlessHost_errorless (by decide) (by decide)) ⟨by decide,by decide,by decide⟩ 1
      (fun off _ => signature_ne_nil 512 (probedSerial 1) off) 989).mpr (by decide)
  exact ⟨by decide,genuine,fun detects => detects.wraps genuine⟩

end SetecWizard.Core.SdCardAnalyzer
