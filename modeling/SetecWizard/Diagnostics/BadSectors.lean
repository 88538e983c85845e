import SetecWizard.Core.SurfaceScan
import SetecWizard.Format.Integers
import SetecWizard.Imaging.Sectors
import Mathlib.Data.List.Basic
import Mathlib.Tactic.Ring

/-! Which sectors a surface scan lists. A fault shows in every transfer that touches the sector:
a read fails or is short, and what was written does not come back. A scan that writes notices
all of it; one that only reads takes a short read for a good one.
-/
namespace SetecWizard.Core.SurfaceScan

section Faults

variable {σ : Type} (device : SectorDevice σ) (inv : σ → Prop) (size : Nat) (faulty : Nat → Bool)

def Touches (lba count : Nat) : Prop := ∃ s, lba ≤ s ∧ s < lba + count ∧ faulty s = true

/-- A range of the disk that a single call can transfer. -/
structure Request (lba count : UInt64) : Prop where
  some_sector : 0 < count.toNat
  inside : lba.toNat + count.toNat ≤ size
  single : count.toNat * device.sectorSize.toNat < 2 ^ 32

/-- Reading a range fails or falls short exactly when it has a faulty sector, in every state the
disk can be in. -/
structure ReadFaults : Prop where
  chunk : 256 * device.sectorSize.toNat < 2 ^ 32
  healthy : ∀ state lba count, inv state → Request device size lba count → ¬ Touches faulty lba.toNat count.toNat →
    ∃ data, device.readSectors state lba count = .ok data ∧
      data.length = count.toNat * device.sectorSize.toNat
  broken : ∀ state lba count data, inv state → Request device size lba count → Touches faulty lba.toNat count.toNat →
    device.readSectors state lba count = .ok data → data.length < count.toNat * device.sectorSize.toNat

/-- What is written to a range comes back exactly when it has no faulty sector: otherwise the
write fails, or the read does, or falls short, or returns something else. -/
structure WriteFaults : Prop where
  chunk : 256 * device.sectorSize.toNat < 2 ^ 32
  keeps : ∀ state lba count data, inv state → inv (device.writeSectors state lba data count).2
  healthy : ∀ state lba count data, inv state → Request device size lba count →
    data.length = count.toNat * device.sectorSize.toNat → ¬ Touches faulty lba.toNat count.toNat →
    ∃ after, device.writeSectors state lba data count = (.ok (),after) ∧ device.readSectors after lba count = .ok data
  broken : ∀ state lba count data after back, inv state → Request device size lba count →
    data.length = count.toNat * device.sectorSize.toNat → Touches faulty lba.toNat count.toNat →
    device.writeSectors state lba data count = (.ok (),after) → device.readSectors after lba count = .ok back →
    back.take data.length ≠ data

/-- The faults as a mode of the scan can meet them. -/
def Faults : SurfaceScanMode → Prop
  | .readOnly => ReadFaults device inv size faulty
  | .writeVerify => WriteFaults device inv size faulty

/-- A disk whose reads show all faults is one on which nothing written to a faulty sector
comes back. -/
theorem ReadFaults.writeFaults {device : SectorDevice σ} {inv : σ → Prop} {size : Nat} {faulty : Nat → Bool}
    (faults : ReadFaults device inv size faulty)
    (keeps : ∀ state lba count data, inv state → inv (device.writeSectors state lba data count).2)
    (stores : ∀ state lba count data, inv state → Request device size lba count →
      data.length = count.toNat * device.sectorSize.toNat → ¬ Touches faulty lba.toNat count.toNat →
      ∃ after, device.writeSectors state lba data count = (.ok (),after) ∧
        device.readSectors after lba count = .ok data) : WriteFaults device inv size faulty where
  chunk := faults.chunk
  keeps := keeps
  healthy := stores
  broken state lba count data after back valid request length touches written read := by
    have stored := keeps state lba count data valid
    rw [written] at stored
    have short := faults.broken after lba count back stored request touches read
    intro same
    have lengths := congrArg List.length same
    rw [List.length_take] at lengths
    omega

/-- A read that fails. One that falls short does not. -/
def fails (state : σ) (lba count : Nat) : Bool :=
  match device.readSectors state (.ofNat lba) (.ofNat count) with
  | .error _ => true
  | .ok _ => false

/-- Whether a test of a range finds something. -/
def shows (mode : SurfaceScanMode) (state : σ) (lba count : Nat) : Bool :=
  match mode with
  | .readOnly => fails device state lba count
  | .writeVerify => (List.range' lba count).any faulty

end Faults

section Tests

variable {σ : Type} {device : SectorDevice σ} {inv : σ → Prop} {size : Nat} {faulty : Nat → Bool}
  {mode : SurfaceScanMode}

/-- The states of a scan. One that only reads leaves the disk alone. -/
def Kept (inv : σ → Prop) (mode : SurfaceScanMode) (initial state : σ) : Prop :=
  inv state ∧ (mode = .readOnly → state = initial)

theorem touches_any {lba count : Nat} : (List.range' lba count).any faulty = true ↔ Touches faulty lba count := by
  rw [List.any_eq_true]
  constructor
  · rintro ⟨s,member,bad⟩
    obtain ⟨low,high⟩ := List.mem_range'_1.mp member
    exact ⟨s,low,high,bad⟩
  · rintro ⟨s,low,high,bad⟩
    exact ⟨s,List.mem_range'_1.mpr ⟨low,high⟩,bad⟩

theorem length_checkerboard (n : Nat) : (checkerboard n).length = n := by
  rw [checkerboard,List.length_map,List.length_range]

theorem pattern_length {count : UInt64} (chunk : 256 * device.sectorSize.toNat < 2 ^ 32) (few : count.toNat ≤ 256) :
    (count.toUInt32 * device.sectorSize).toNat = count.toNat * device.sectorSize.toNat ∧
      ((writePattern device).take (count.toUInt32 * device.sectorSize).toNat).length =
        count.toNat * device.sectorSize.toNat := by
  have size : chunkSectors.toUInt32.toNat = 256 := rfl
  have most : count.toNat * device.sectorSize.toNat ≤ 256 * device.sectorSize.toNat := Nat.mul_le_mul_right _ few
  have short : count.toUInt32.toNat = count.toNat := by
    rw [UInt64.toNat_toUInt32]
    exact Nat.mod_eq_of_lt (by omega)
  have part : (count.toUInt32 * device.sectorSize).toNat = count.toNat * device.sectorSize.toNat := by
    rw [UInt32.toNat_mul,short]
    exact Nat.mod_eq_of_lt (by omega)
  have whole : (chunkSectors.toUInt32 * device.sectorSize).toNat = 256 * device.sectorSize.toNat := by
    rw [UInt32.toNat_mul,size]
    exact Nat.mod_eq_of_lt chunk
  refine ⟨part,?_⟩
  rw [List.length_take,writePattern,length_checkerboard,part,whole]
  omega

theorem writeVerify_good_iff (faults : WriteFaults device inv size faulty) {lba count : UInt64} (few : count.toNat ≤ 256)
    (request : Request device size lba count) {state : σ} (valid : inv state) :
    (writeVerify device lba count state).1 = .good ↔ ¬ Touches faulty lba.toNat count.toNat := by
  obtain ⟨part,length⟩ := @pattern_length σ device count faults.chunk few
  constructor
  · intro good touches
    unfold writeVerify at good
    simp only at good
    split at good
    next => cases good
    next after written =>
      split at good
      next => cases good
      next back read =>
        split at good
        next => cases good
        next same =>
          rw [not_or,not_not] at same
          apply faults.broken state lba count _ after back valid request length touches written read
          rw [length,← part]
          exact same.2
  · intro whole
    obtain ⟨after,written,read⟩ := faults.healthy state lba count _ valid request length whole
    simp only [writeVerify,written,read]
    rw [if_neg]
    rw [not_or,not_not]
    constructor
    · rw [length,part]
      exact Nat.lt_irrefl _
    · rw [List.take_take,Nat.min_self]

theorem readOnly_good_iff {lba count : UInt64} {state : σ} :
    readOnly device lba count state = .good ↔ fails device state lba.toNat count.toNat = false := by
  unfold readOnly fails
  rw [UInt64.ofNat_toNat,UInt64.ofNat_toNat]
  cases device.readSectors state lba count with
  | error e => simp
  | ok data => simp

theorem test_good_iff (faults : Faults device inv size faulty mode) {lba count : UInt64} (few : count.toNat ≤ 256)
    (request : Request device size lba count) {initial state : σ} (kept : Kept inv mode initial state) :
    (test device mode lba count state).1 = .good ↔ shows device faulty mode initial lba.toNat count.toNat = false := by
  cases mode with
  | readOnly =>
    rw [← kept.2 rfl]
    exact readOnly_good_iff
  | writeVerify =>
    rw [shows,← Bool.not_eq_true,touches_any]
    exact writeVerify_good_iff faults few request kept.1

theorem writeVerify_state (lba count : UInt64) (state : σ) :
    ∃ data, (writeVerify device lba count state).2 = (device.writeSectors state lba data count).2 := by
  refine ⟨(writePattern device).take (count.toUInt32 * device.sectorSize).toNat,?_⟩
  unfold writeVerify
  simp only
  split
  next after written => rw [written]
  next after written =>
    rw [written]
    split
    next => rfl
    next => split <;> rfl

theorem test_kept (faults : Faults device inv size faulty mode) {lba count : UInt64} {initial state : σ}
    (kept : Kept inv mode initial state) : Kept inv mode initial (test device mode lba count state).2 := by
  cases mode with
  | readOnly => exact kept
  | writeVerify =>
    obtain ⟨data,same⟩ := @writeVerify_state σ device lba count state
    refine ⟨?_,fun impossible => by cases impossible⟩
    rw [test,same]
    exact faults.keeps state lba count data kept.1

end Tests

section Scan

variable {σ : Type} {device : SectorDevice σ} {inv : σ → Prop} {size : Nat} {faulty : Nat → Bool}
  {mode : SurfaceScanMode} {initial : σ}

def lbas (results : SurfaceScanResults) : List Nat := results.badSectors.map (fun bad => bad.lba.toNat)

def Tallied (results : SurfaceScanResults) : Prop := results.badSectorCount = .ofNat results.badSectors.length

theorem record_lbas (results : SurfaceScanResults) (lba : UInt64) (finding : Finding) :
    lbas (record results (badSector lba finding)) = lbas results ++ (if finding = .good then [] else [lba.toNat]) := by
  cases finding <;> simp [lbas,record,badSector]

theorem record_tallied {results : SurfaceScanResults} (tallied : Tallied results) (found : Option BadSector) :
    Tallied (record results found) ∧ (record results found).totalSectorsTested = results.totalSectorsTested := by
  cases found with
  | none => exact ⟨tallied,rfl⟩
  | some bad =>
    refine ⟨?_,rfl⟩
    rw [Tallied] at tallied
    simp only [Tallied,record,tallied,List.length_append,List.length_singleton,UInt64.ofNat_add]
    rfl

/-- What a part of the scan adds to what was found before. -/
structure Adds (inv : σ → Prop) (mode : SurfaceScanMode) (initial : σ) (sectors : List Nat) (tested : UInt64)
    (before after : SurfaceScanResults × σ) : Prop where
  listed : lbas after.1 = lbas before.1 ++ sectors
  tallied : Tallied before.1 → Tallied after.1
  counted : after.1.totalSectorsTested = before.1.totalSectorsTested + tested
  kept : Kept inv mode initial before.2 → Kept inv mode initial after.2

theorem testSectors_adds (faults : Faults device inv size faulty mode) {currentLba : UInt64}
    (left : List Nat) (inside : ∀ s ∈ left, currentLba.toNat + s < size) (width : size < 2 ^ 64)
    (narrow : device.sectorSize.toNat < 2 ^ 32) (before : SurfaceScanResults × σ)
    (kept : Kept inv mode initial before.2) :
    Adds inv mode initial
      ((left.map (currentLba.toNat + ·)).filter (fun s => shows device faulty mode initial s 1)) 0
      before (testSectors device mode currentLba left before) := by
  induction left generalizing before with
  | nil =>
    refine ⟨(List.append_nil _).symm,id,?_,id⟩
    rw [testSectors,UInt64.add_zero]
  | cons s rest ih =>
    obtain ⟨results,state⟩ := before
    obtain ⟨here,there⟩ := List.forall_mem_cons.mp inside
    have one : (1 : UInt64).toNat = 1 := rfl
    have place : (currentLba + .ofNat s).toNat = currentLba.toNat + s := by
      rw [UInt64.toNat_add,UInt64.toNat_ofNat',Nat.mod_eq_of_lt (by omega : s < 2 ^ 64)]
      exact Nat.mod_eq_of_lt (by omega)
    have request : Request device size (currentLba + .ofNat s) 1 := by
      refine ⟨by decide,?_,?_⟩
      · rw [place,one]
        omega
      · rw [one,Nat.one_mul]
        exact narrow
    have good := test_good_iff faults (by decide) request kept
    rw [place,one] at good
    have later := ih there (record results (badSector (currentLba + .ofNat s)
      (test device mode (currentLba + .ofNat s) 1 state).1),(test device mode (currentLba + .ofNat s) 1 state).2)
      (test_kept faults kept)
    have step : testSectors device mode currentLba (s :: rest) (results,state) =
        testSectors device mode currentLba rest (record results (badSector (currentLba + .ofNat s)
          (test device mode (currentLba + .ofNat s) 1 state).1),
            (test device mode (currentLba + .ofNat s) 1 state).2) := rfl
    rw [step]
    refine ⟨?_,fun tallied => ?_,?_,fun same => later.kept (test_kept faults same)⟩
    · rw [later.listed,record_lbas,place,List.map_cons,List.filter_cons,List.append_assoc]
      congr 1
      cases shown : shows device faulty mode initial (currentLba.toNat + s) 1 with
      | false => rw [if_pos (good.mpr shown),if_neg Bool.false_ne_true,List.nil_append]
      | true =>
        rw [if_neg (fun fine => by rw [good.mp fine] at shown; cases shown),if_pos rfl]
        rfl
    · exact later.tallied (record_tallied tallied _).1
    · have untouched : (record results (badSector (currentLba + .ofNat s)
          (test device mode (currentLba + .ofNat s) 1 state).1)).totalSectorsTested = results.totalSectorsTested := by
        cases badSector (currentLba + .ofNat s) (test device mode (currentLba + .ofNat s) 1 state).1 <;> rfl
      rw [later.counted]
      exact congrArg (· + 0) untouched

/-- The chunk that a sector of a range falls into. -/
def chunkOf (start last s : Nat) : Nat × Nat :=
  let first := start + (s - start) / 256 * 256
  (first,min 256 (last - first))

/-- A sector is listed when neither its chunk nor the sector itself passes its test. -/
def listed (device : SectorDevice σ) (faulty : Nat → Bool) (mode : SurfaceScanMode) (initial : σ)
    (start last s : Nat) : Bool :=
  shows device faulty mode initial (chunkOf start last s).1 (chunkOf start last s).2 &&
    shows device faulty mode initial s 1

theorem chunkOf_eq {start last first s : Nat} (k : Nat) (place : first = start + k * 256) (from_first : first ≤ s)
    (short : s < first + 256) : chunkOf start last s = (first,min 256 (last - first)) := by
  have number : (s - start) / 256 = k := by omega
  rw [chunkOf,number,← place]

theorem scanChunk_adds (faults : Faults device inv size faulty mode) (width : size < 2 ^ 64)
    (chunk : 256 * device.sectorSize.toNat < 2 ^ 32) {currentLba thisChunk : UInt64} (some_left : 0 < thisChunk.toNat)
    (few : thisChunk.toNat ≤ 256) (inside : currentLba.toNat + thisChunk.toNat ≤ size)
    (before : SurfaceScanResults × σ) (kept : Kept inv mode initial before.2) :
    Adds inv mode initial
      ((List.range' currentLba.toNat thisChunk.toNat).filter (fun s =>
        shows device faulty mode initial currentLba.toNat thisChunk.toNat && shows device faulty mode initial s 1))
      thisChunk before (scanChunk device mode currentLba thisChunk before) := by
  obtain ⟨results,state⟩ := before
  have request : Request device size currentLba thisChunk :=
    ⟨some_left,inside,Nat.lt_of_le_of_lt (Nat.mul_le_mul_right _ few) chunk⟩
  have good := test_good_iff faults few request kept
  have sectors := testSectors_adds faults (List.range thisChunk.toNat)
    (fun s member => Nat.lt_of_lt_of_le (Nat.add_lt_add_left (List.mem_range.mp member) _) inside) width
    (by omega) (results,(test device mode currentLba thisChunk state).2) (test_kept faults kept)
  rw [← List.range'_eq_map_range] at sectors
  unfold scanChunk
  simp only
  cases shown : shows device faulty mode initial currentLba.toNat thisChunk.toNat with
  | false =>
    rw [if_pos (good.mpr shown)]
    refine ⟨?_,id,rfl,test_kept faults⟩
    simp only [Bool.false_and,List.filter_false,List.append_nil]
    rfl
  | true =>
    rw [if_neg (fun fine => by rw [good.mp fine] at shown; cases shown)]
    simp only [Bool.true_and]
    refine ⟨sectors.listed,sectors.tallied,?_,fun same => sectors.kept (test_kept faults same)⟩
    simp only [sectors.counted,UInt64.add_zero]

theorem scanLoop_adds (faults : Faults device inv size faulty mode) (width : size < 2 ^ 64)
    (chunk : 256 * device.sectorSize.toNat < 2 ^ 32) {canceled : UInt64 → Bool} (never : ∀ lba, canceled lba = false)
    {endLba : UInt64} (inside : endLba.toNat ≤ size) (start k : Nat) (currentLba : UInt64)
    (before : SurfaceScanResults × σ) (kept : Kept inv mode initial before.2)
    (place : currentLba.toNat < endLba.toNat → currentLba.toNat = start + k * 256) (within : currentLba.toNat ≤ endLba.toNat) :
    ∃ results, (scanLoop device mode canceled endLba currentLba before).1 = .ok results ∧
      Adds inv mode initial
        ((List.range' currentLba.toNat (endLba.toNat - currentLba.toNat)).filter
          (listed device faulty mode initial start endLba.toNat))
        (endLba - currentLba) before (results,(scanLoop device mode canceled endLba currentLba before).2) := by
  fun_induction scanLoop device mode canceled endLba currentLba before generalizing k with
  | case1 currentLba before done =>
    have reached : endLba = currentLba :=
      UInt64.le_antisymm (UInt64.not_lt.mp done) (UInt64.le_iff_toNat_le.mpr within)
    refine ⟨_,rfl,?_,id,?_,id⟩
    · rw [reached,Nat.sub_self]
      exact (List.append_nil _).symm
    · rw [reached,UInt64.sub_self,UInt64.add_zero]
  | case2 currentLba before _ canceled => rw [never] at canceled; cases canceled
  | case3 currentLba before more _ thisChunk ih =>
    obtain ⟨n,short,amount,next⟩ : ∃ n, n = min 256 (endLba.toNat - currentLba.toNat) ∧ thisChunk.toNat = n ∧
        (currentLba + thisChunk).toNat = currentLba.toNat + n := ⟨_,rfl,chunk_toNat (not_not.mp more)⟩
    have below := UInt64.lt_iff_toNat_lt.mp (not_not.mp more)
    have here := @scanChunk_adds σ device inv size faulty mode initial faults width chunk currentLba thisChunk
      (by omega) (by omega) (by omega) before kept
    obtain ⟨results,scanned,later⟩ := ih (k + 1) (here.kept kept) (fun again => by
      rw [next] at again ⊢
      rw [place below,Nat.add_mul,Nat.one_mul]
      omega) (by omega)
    refine ⟨results,scanned,?_,fun tallied => later.tallied (here.tallied tallied),?_,fun same => later.kept (here.kept same)⟩
    · have parts : endLba.toNat - currentLba.toNat = n + (endLba.toNat - (currentLba.toNat + n)) := by omega
      have chunkwise : (List.range' currentLba.toNat n).filter (listed device faulty mode initial start endLba.toNat) =
          (List.range' currentLba.toNat n).filter (fun s =>
            shows device faulty mode initial currentLba.toNat n && shows device faulty mode initial s 1) := by
        apply List.filter_congr
        intro s member
        obtain ⟨low,high⟩ := List.mem_range'_1.mp member
        rw [listed,chunkOf_eq k (place below) low (by omega),← short]
      have chunked := here.listed
      rw [amount] at chunked
      rw [later.listed,next,chunked,List.append_assoc,← chunkwise,← List.filter_append,parts]
      congr 2
      exact List.range'_append_1
    · rw [later.counted,here.counted,UInt64.add_assoc]
      congr 1
      apply UInt64.toNat_inj.mp
      have width := endLba.toNat_lt
      have last : (currentLba + thisChunk).toNat ≤ endLba.toNat := by omega
      rw [UInt64.toNat_add,UInt64.toNat_sub_of_le _ _ (UInt64.le_iff_toNat_le.mpr last),
        UInt64.toNat_sub_of_le _ _ (UInt64.le_iff_toNat_le.mpr (Nat.le_of_lt below)),next,amount]
      omega

/-- The sectors listed are the faulty ones of the range, in order, and all are counted. -/
def Isolates (faulty : Nat → Bool) (mode : SurfaceScanMode) (start count : Nat) (initial : σ)
    (outcome : Result SurfaceScanResults × σ) : Prop :=
  ∃ results, outcome.1 = .ok results ∧ lbas results = (List.range' start count).filter faulty ∧
    results.badSectorCount.toNat = results.badSectors.length ∧ results.totalSectorsTested.toNat = count ∧
    (mode = .readOnly → outcome.2 = initial)

theorem chunkOf_inside {start last s : Nat} (from_start : start ≤ s) (before : s < last) :
    start ≤ (chunkOf start last s).1 ∧ (chunkOf start last s).1 ≤ s ∧
      s < (chunkOf start last s).1 + (chunkOf start last s).2 ∧
      (chunkOf start last s).1 + (chunkOf start last s).2 ≤ last ∧ (chunkOf start last s).2 ≤ 256 := by
  simp only [chunkOf]
  omega

theorem listed_iff (faults : Faults device inv size faulty mode) (valid : inv initial) (width : size < 2 ^ 64)
    {start last s : Nat} (from_start : start ≤ s) (before : s < last) (inside : last ≤ size) :
    listed device faulty mode initial start last s = true ↔ faulty s = true ∧ (mode = .readOnly →
      fails device initial (chunkOf start last s).1 (chunkOf start last s).2 = true ∧
        fails device initial s 1 = true) := by
  rw [listed,Bool.and_eq_true]
  cases mode with
  | writeVerify =>
    obtain ⟨_,low,high,_⟩ := chunkOf_inside from_start before
    rw [shows,shows,touches_any,touches_any]
    constructor
    · rintro ⟨_,t,first,last,bad⟩
      obtain rfl : t = s := by omega
      exact ⟨bad,fun impossible => by cases impossible⟩
    · rintro ⟨bad,_⟩
      exact ⟨⟨s,low,high,bad⟩,s,Nat.le_refl _,Nat.lt_succ_self _,bad⟩
  | readOnly =>
    constructor
    · rintro ⟨chunk,sector⟩
      refine ⟨?_,fun _ => ⟨chunk,sector⟩⟩
      by_contra healthy
      have one : (1 : UInt64).toNat = 1 := rfl
      have place : (UInt64.ofNat s).toNat = s := by
        rw [UInt64.toNat_ofNat']
        exact Nat.mod_eq_of_lt (by omega)
      have request : Request device size (.ofNat s) 1 := by
        have chunk := faults.chunk
        exact ⟨by decide,by rw [place,one]; omega,by rw [one]; omega⟩
      have whole : ¬ Touches faulty (UInt64.ofNat s).toNat (1 : UInt64).toNat := by
        rintro ⟨t,first,last,bad⟩
        rw [place] at first last
        obtain rfl : t = s := by rw [one] at last; omega
        exact healthy bad
      obtain ⟨data,read,_⟩ := faults.healthy initial _ _ valid request whole
      have found : fails device initial s 1 = false := by
        unfold fails
        rw [show UInt64.ofNat 1 = 1 from rfl,read]
      rw [shows,found] at sector
      cases sector
    · exact fun both => both.2 rfl

theorem scanImpl_lists (faults : Faults device inv size faulty mode) (valid : inv initial) (width : size < 2 ^ 64)
    {canceled : UInt64 → Bool} (never : ∀ lba, canceled lba = false) {startLba sectorCount : UInt64}
    (some_sector : sectorCount ≠ 0) (inside : startLba.toNat + sectorCount.toNat ≤ size) :
    ∃ results, (scanImpl device mode canceled startLba sectorCount initial).1 = .ok results ∧
      lbas results = (List.range' startLba.toNat sectorCount.toNat).filter
        (listed device faulty mode initial startLba.toNat (startLba.toNat + sectorCount.toNat)) ∧
      results.badSectorCount.toNat = results.badSectors.length ∧
      results.totalSectorsTested.toNat = sectorCount.toNat ∧
      (mode = .readOnly → (scanImpl device mode canceled startLba sectorCount initial).2 = initial) := by
  have last : (startLba + sectorCount).toNat = startLba.toNat + sectorCount.toNat := by
    rw [UInt64.toNat_add]
    exact Nat.mod_eq_of_lt (by omega)
  have chunk : 256 * device.sectorSize.toNat < 2 ^ 32 := by
    cases mode with
    | readOnly => exact faults.chunk
    | writeVerify => exact faults.chunk
  have run : scanImpl device mode canceled startLba sectorCount initial =
      scanLoop device mode canceled (startLba + sectorCount) startLba ({},initial) := if_neg some_sector
  obtain ⟨results,scanned,adds⟩ := scanLoop_adds faults width chunk never (by rw [last]; exact inside) startLba.toNat 0
    startLba ({},initial) ⟨valid,fun _ => rfl⟩ (fun _ => (Nat.add_zero _).symm) (by omega)
  have whole : (startLba + sectorCount).toNat - startLba.toNat = sectorCount.toNat := by omega
  have all := adds.listed
  rw [whole,last] at all
  change lbas results = [] ++ _ at all
  rw [List.nil_append] at all
  have few : results.badSectors.length ≤ sectorCount.toNat := by
    have lengths := congrArg List.length all
    rw [lbas,List.length_map] at lengths
    rw [lengths]
    exact Nat.le_trans (List.length_filter_le _ _) (Nat.le_of_eq List.length_range')
  rw [run]
  refine ⟨results,scanned,all,?_,?_,(adds.kept ⟨valid,fun _ => rfl⟩).2⟩
  · rw [show results.badSectorCount = _ from adds.tallied rfl,UInt64.toNat_ofNat']
    exact Nat.mod_eq_of_lt (Nat.lt_of_le_of_lt few sectorCount.toNat_lt)
  · rw [show results.totalSectorsTested = 0 + (startLba + sectorCount - startLba) from adds.counted,
      UInt64.zero_add,UInt64.toNat_sub_of_le _ _ (UInt64.le_iff_toNat_le.mpr (by rw [last]; omega)),whole]

/-- A scan isolates the faults of a range exactly when it writes, or every fault makes the reads
of its sector and of its chunk fail, and not only fall short. -/
theorem scanImpl_isolates_iff (faults : Faults device inv size faulty mode) (valid : inv initial) (width : size < 2 ^ 64)
    {canceled : UInt64 → Bool} (never : ∀ lba, canceled lba = false) {startLba sectorCount : UInt64}
    (some_sector : sectorCount ≠ 0) (inside : startLba.toNat + sectorCount.toNat ≤ size) :
    Isolates faulty mode startLba.toNat sectorCount.toNat initial
        (scanImpl device mode canceled startLba sectorCount initial) ↔
      (mode = .readOnly → ∀ s, startLba.toNat ≤ s → s < startLba.toNat + sectorCount.toNat → faulty s = true →
        fails device initial (chunkOf startLba.toNat (startLba.toNat + sectorCount.toNat) s).1
            (chunkOf startLba.toNat (startLba.toNat + sectorCount.toNat) s).2 = true ∧
          fails device initial s 1 = true) := by
  obtain ⟨results,scanned,all,tallied,tested,kept⟩ :=
    scanImpl_lists faults valid width never some_sector inside
  have each (s : Nat) (member : s ∈ List.range' startLba.toNat sectorCount.toNat) :=
    listed_iff faults valid width (List.mem_range'_1.mp member).1 (List.mem_range'_1.mp member).2 inside
  constructor
  · rintro ⟨results',found,same,_⟩ reading s low high bad
    rw [scanned] at found
    cases found
    have member := List.mem_range'_1.mpr ⟨low,high⟩
    have shown : s ∈ lbas results := by
      rw [same]
      exact List.mem_filter.mpr ⟨member,bad⟩
    rw [all] at shown
    exact ((each s member).mp (List.mem_filter.mp shown).2).2 reading
  · intro seen
    refine ⟨results,scanned,?_,tallied,tested,kept⟩
    rw [all]
    apply List.filter_congr
    intro s member
    rw [Bool.eq_iff_iff,each s member]
    exact ⟨fun both => both.1,fun bad => ⟨bad,fun reading =>
      seen reading s (List.mem_range'_1.mp member).1 (List.mem_range'_1.mp member).2 bad⟩⟩

end Scan

section Handle

variable {os : Win32} {mode : DiskAccessMode} {sectorSize : UInt32} {size : Nat} {faulty : Nat → Bool}

/-- Calls of `ReadFile` that transfer a range when it has no faulty sector, and that fail or stop
early when it has one. -/
structure ReadFileFaults (os : Win32) (sectorSize : Nat) (faulty : Nat → Bool) : Prop where
  healthy : ∀ lba count, ¬ Touches faulty lba count →
    ∃ moved, os.readFile (lba * sectorSize) (count * sectorSize) = .ok moved ∧ count * sectorSize ≤ moved
  broken : ∀ lba count moved, Touches faulty lba count →
    os.readFile (lba * sectorSize) (count * sectorSize) = .ok moved → moved < count * sectorSize

theorem readSectors_request {disk : Disk} (fits : disk.totalBytes.toNat = size * sectorSize.toNat)
    {lba count : UInt64} (request : Request (RawDiskHandle.device os mode sectorSize) size lba count) :
    RawDiskHandle.readSectors os disk lba count sectorSize =
      match os.readFile (lba.toNat * sectorSize.toNat) (count.toNat * sectorSize.toNat) with
      | .error lastErr => .error (makeWin32Error .diskReadError "ReadFile failed on physical disk" lastErr)
      | .ok moved => .ok (Library.window disk.byte (lba.toNat * sectorSize.toNat)
          (min moved (count.toNat * sectorSize.toNat))) := by
  have single : count.toNat * sectorSize.toNat < 2 ^ 32 := request.single
  have reach : (lba.toNat + count.toNat) * sectorSize.toNat ≤ size * sectorSize.toNat :=
    Nat.mul_le_mul_right _ request.inside
  rw [Nat.add_mul,← fits] at reach
  have width := disk.totalBytes.toNat_lt
  have start : (lba * sectorSize.toUInt64).toNat = lba.toNat * sectorSize.toNat := by
    rw [UInt64.toNat_mul,UInt32.toNat_toUInt64]
    exact Nat.mod_eq_of_lt (by omega)
  have length : (count * sectorSize.toUInt64).toNat = count.toNat * sectorSize.toNat := by
    rw [UInt64.toNat_mul,UInt32.toNat_toUInt64]
    exact Nat.mod_eq_of_lt (by omega)
  have limit : MAXDWORD.toNat = 2 ^ 32 - 1 := rfl
  have some_sector : count ≠ 0 := by
    rintro rfl
    exact absurd request.some_sector (by decide)
  have allowed : ¬ MAXDWORD < count * sectorSize.toUInt64 := by
    rw [UInt64.lt_iff_toNat_lt,limit,length]
    omega
  rw [RawDiskHandle.readSectors,if_neg some_sector]
  simp only [if_neg allowed,start,length]
  cases os.readFile (lba.toNat * sectorSize.toNat) (count.toNat * sectorSize.toNat) with
  | error lastErr => rfl
  | ok moved =>
    simp only [RawDiskHandle.available]
    congr 2
    omega

theorem ReadFileFaults.readFaults (faults : ReadFileFaults os sectorSize.toNat faulty)
    (chunk : 256 * sectorSize.toNat < 2 ^ 32) :
    ReadFaults (RawDiskHandle.device os mode sectorSize) (fun disk => disk.totalBytes.toNat = size * sectorSize.toNat)
      size faulty where
  chunk := chunk
  healthy disk lba count fits request whole := by
    obtain ⟨moved,transferred,all⟩ := faults.healthy lba.toNat count.toNat whole
    refine ⟨_,(readSectors_request fits request).trans (by rw [transferred]),?_⟩
    rw [Library.length_window,Nat.min_eq_right all]
    rfl
  broken disk lba count data fits request touches read := by
    have same := (readSectors_request fits request).symm.trans read
    split at same
    next => cases same
    next moved transferred =>
      cases same
      have early := faults.broken lba.toNat count.toNat moved touches transferred
      rw [Library.length_window]
      exact Nat.lt_of_le_of_lt (Nat.min_le_left _ _) early

def badFifth (s : Nat) : Bool := s == 5

/-- Reading it fails, or stops in front of the bad sector. -/
def faultyOs (stops : Bool) : Win32 where
  readFile off length :=
    if off ≤ 5 * 512 ∧ 5 * 512 < off + length then (if stops then .ok (5 * 512 - off) else .error 23)
    else .ok length

theorem faultyOs_faults (stops : Bool) : ReadFileFaults (faultyOs stops) 512 badFifth where
  healthy lba count whole := by
    refine ⟨count * 512,if_neg ?_,Nat.le_refl _⟩
    rintro ⟨low,high⟩
    exact whole ⟨5,by omega,by omega,rfl⟩
  broken lba count moved touches read := by
    obtain ⟨s,low,high,bad⟩ := touches
    have fifth : s = 5 := beq_iff_eq.mp bad
    rw [show (faultyOs stops).readFile (lba * 512) (count * 512) = _ from if_pos ⟨by omega,by omega⟩] at read
    cases stops with
    | false => cases read
    | true =>
      cases read
      omega

def eightSectors : Disk := { totalBytes := 8 * 512,byte := fun _ => 0 }

theorem eightSectors_faults (stops : Bool) : Faults (RawDiskHandle.device (faultyOs stops) .readOnly 512)
    (fun disk => disk.totalBytes.toNat = 8 * UInt32.toNat 512) 8 badFifth .readOnly :=
  (faultyOs_faults stops).readFaults (by decide)

theorem eightSectors_marked (stops : Bool) : Faults (RawDiskHandle.device (faultyOs stops) .readWrite 512)
    (fun disk => disk.totalBytes.toNat = 8 * UInt32.toNat 512) 8 badFifth .writeVerify := by
  have reads := @ReadFileFaults.readFaults (faultyOs stops) .readWrite 512 8 badFifth (faultyOs_faults stops) (by decide)
  have size : UInt32.toNat 512 = 512 := rfl
  have bytes (n : UInt64) (low : n.toNat ≤ 8) : (n * UInt32.toUInt64 512).toNat = n.toNat * 512 := by
    rw [UInt64.toNat_mul,UInt32.toNat_toUInt64,size,Nat.mod_eq_of_lt (by omega)]
  refine reads.writeFaults (fun disk lba count data fits => ?_) (fun disk lba count data fits request length whole => ?_)
  · rw [RawDiskHandle.device,writeSectors_size]
    exact fits
  · have few : count.toNat * 512 < 2 ^ 32 := request.single
    have inside := request.inside
    have room : lba.toNat * 512 + count.toNat * 512 ≤ disk.totalBytes.toNat := by
      rw [fits,size,← Nat.add_mul]
      exact Nat.mul_le_mul_right _ inside
    have stored := writeSectors_working disk lba count data (bytes lba (Nat.le_of_add_right_le inside))
      (bytes count (Nat.le_of_add_left_le inside)) length few room
    obtain ⟨moved,transferred,all⟩ := (faultyOs_faults stops).healthy lba.toNat count.toNat whole
    have again : (disk.patched (lba.toNat * 512) data).totalBytes.toNat = 8 * UInt32.toNat 512 := fits
    refine ⟨disk.patched (lba.toNat * 512) data,stored,(readSectors_request again request).trans ?_⟩
    rw [size,transferred]
    simp only [Nat.min_eq_right all]
    exact congrArg Except.ok (Library.window_patch_whole _ _ length)

/-- The bad sector is listed when reading it fails, and by a scan that writes whenever the
sector does not keep what is written. -/
theorem failing_isolated : Isolates badFifth .readOnly 0 8 eightSectors
      (scanImpl (RawDiskHandle.device (faultyOs false) .readOnly 512) .readOnly (fun _ => false) 0 8 eightSectors) ∧
    Isolates badFifth .writeVerify 0 8 eightSectors
      (scanImpl (RawDiskHandle.device (faultyOs true) .readWrite 512) .writeVerify (fun _ => false) 0 8
        eightSectors) := by
  constructor
  · apply (scanImpl_isolates_iff (eightSectors_faults false) rfl (by decide) (fun _ => rfl) (by decide) (by decide)).mpr
    intro _ s _ _ bad
    obtain rfl : s = 5 := beq_iff_eq.mp bad
    exact ⟨rfl,rfl⟩
  · apply (scanImpl_isolates_iff (eightSectors_marked true) rfl (by decide) (fun _ => rfl) (by decide) (by decide)).mpr
    intro reading
    cases reading

/-- It is not listed when the read of the chunk stops in front of it. -/
theorem stopping_missed : Faults (RawDiskHandle.device (faultyOs true) .readOnly 512)
      (fun disk => disk.totalBytes.toNat = 8 * UInt32.toNat 512) 8 badFifth .readOnly ∧
    ¬ Isolates badFifth .readOnly 0 8 eightSectors
      (scanImpl (RawDiskHandle.device (faultyOs true) .readOnly 512) .readOnly (fun _ => false) 0 8 eightSectors) := by
  refine ⟨eightSectors_faults true,?_⟩
  rintro ⟨results,scanned,same,_⟩
  obtain ⟨results',scanned',all,_⟩ := @scanImpl_lists _ _ _ _ _ _ eightSectors (eightSectors_faults true) rfl (by decide)
    (fun _ => false) (fun _ => rfl) 0 8 (by decide) (by decide)
  rw [scanned] at scanned'
  cases scanned'
  have member : 5 ∈ lbas results := by
    rw [same]
    decide
  rw [all] at member
  have seen := (List.mem_filter.mp member).2
  cases seen

end Handle

end SetecWizard.Core.SurfaceScan
