import SetecWizard.Maintenance.CardProbes

/-! Which physical cells the counterfeit check leaves as they were. A copy is saved right
before the sector is signed, so on a card that maps several probes to one cell it may hold
a signature already; and without a second opening nothing is written back.
-/
namespace SetecWizard.Core.SdCardAnalyzer

/-- The disk is found, is not empty and can be written: the probes are made. -/
structure Probing (host : SdHost) (sizeBytes sectorSize : Nat) : Prop where
  info : ∃ diSectorSize, host.getDiskInfo = .ok (sizeBytes,diSectorSize) ∧
    sectorSize = if 0 < diSectorSize then diSectorSize else 512
  media : sizeBytes ≠ 0
  writable : host.isWriteProtected = false
  opens : host.opens = true

def probedSerial (diskId : UInt64) : UInt64 := diskId ^^^ 0xABCD1234EF567890

theorem checkCounterfeit_untouched {host : SdHost} (diskId : UInt64) (card : SdCard)
    (idle : ¬ ∃ sizeBytes sectorSize, Probing host sizeBytes sectorSize) :
    (checkCounterfeit host diskId card).2 = card := by
  unfold checkCounterfeit
  split
  next => rfl
  next sizeBytes diSectorSize info =>
    dsimp only
    split
    next => rfl
    next media =>
      split
      next => rfl
      next writable =>
        split
        next => rfl
        next opens =>
          exact absurd ⟨sizeBytes,_,⟨diSectorSize,info,rfl⟩,media,Bool.eq_false_of_not_eq_true writable,
            not_not.mp opens⟩ idle

theorem checkCounterfeit_probed {host : SdHost} {sizeBytes sectorSize : Nat} (diskId : UInt64) (card : SdCard)
    (probing : Probing host sizeBytes sectorSize) :
    ∃ known : CounterfeitResult, known.reportedCapacityBytes = sizeBytes ∧ known.failCount = 0 ∧
      checkCounterfeit host diskId card
        = (.ok (probed host diskId card sectorSize known).1,(probed host diskId card sectorSize known).2) := by
  obtain ⟨diSectorSize,info,size⟩ := probing.info
  have writable := probing.writable
  have opens := probing.opens
  cases identity : host.queryIdentity with
  | none =>
    refine ⟨{ reportedCapacityBytes := sizeBytes },rfl,rfl,?_⟩
    simp [checkCounterfeit,info,probing.media,identity,writable,opens,size]
  | some id =>
    refine ⟨identified { reportedCapacityBytes := sizeBytes } id,rfl,rfl,?_⟩
    simp [checkCounterfeit,info,probing.media,identity,writable,opens,size]

section

variable (host : SdHost) (diskId : UInt64) (card : SdCard)

def RestoreFails (x : Nat) : Prop :=
  ∃ sizeBytes sectorSize, Probing host sizeBytes sectorSize ∧ host.reopens = true ∧
    ∃ off ∈ touching sectorSize card x (probeOffsets sizeBytes sectorSize), host.restoreFails off = true

/-- Every physical cell whose restoring writes do not fail holds its original content. -/
def LeavesCard : Prop :=
  ∀ x, ¬ RestoreFails host card x → (checkCounterfeit host diskId card).2.content x = card.content x

/-- No signature is written to the cell by these probes, unless it held the last of them. -/
def Spared (sectorSize x : Nat) (probes : List Nat) : Prop :=
  ∀ off, (probes.filter (fun off => !host.signFails off)).getLast? = some off →
    card.content x = signature sectorSize (probedSerial diskId) off

/-- When the card opens again, the last probe of the cell has read it, and before a signature
reached it. When it does not, no signature reached it at all. -/
def Recoverable (sizeBytes sectorSize x : Nat) : Prop :=
  if host.reopens then
    ∀ before last, touching sectorSize card x (probeOffsets sizeBytes sectorSize) = before ++ [last] →
      if host.saveFails last then card.content x = List.replicate sectorSize 0
      else Spared host diskId card sectorSize x before
  else Spared host diskId card sectorSize x (touching sectorSize card x (probeOffsets sizeBytes sectorSize))

theorem signedOver_eq_iff (sectorSize x : Nat) (probes : List Nat) :
    signedOver host sectorSize (probedSerial diskId) card x probes = card.content x
      ↔ Spared host diskId card sectorSize x probes := by
  unfold signedOver Spared
  cases (probes.filter (fun off => !host.signFails off)).getLast? with
  | none => simp
  | some off =>
    simp only [Option.some.injEq,forall_eq']
    exact eq_comm

theorem probed_card (sectorSize : Nat) (known : CounterfeitResult) :
    (probed host diskId card sectorSize known).2
      = if host.reopens then
          (signAll host sectorSize (probedSerial diskId) card
            (probeOffsets known.reportedCapacityBytes sectorSize)).2.foldl (restore host sectorSize)
              (signAll host sectorSize (probedSerial diskId) card
                (probeOffsets known.reportedCapacityBytes sectorSize)).1
        else (signAll host sectorSize (probedSerial diskId) card
          (probeOffsets known.reportedCapacityBytes sectorSize)).1 := by
  unfold probed signAll probedSerial
  cases host.reopens <;> rfl

theorem probed_content_iff {sizeBytes sectorSize : Nat} (probing : Probing host sizeBytes sectorSize)
    (known : CounterfeitResult) (size : known.reportedCapacityBytes = sizeBytes) (x : Nat)
    (restores : ¬ RestoreFails host card x) :
    (probed host diskId card sectorSize known).2.content x = card.content x
      ↔ Recoverable host diskId card sizeBytes sectorSize x := by
  rw [probed_card,size,Recoverable]
  by_cases reopens : host.reopens = true
  · rw [if_pos reopens,if_pos reopens]
    have succeed : ∀ off ∈ touching sectorSize card x (probeOffsets sizeBytes sectorSize),
        host.restoreFails off = false := by
      intro off member
      apply Bool.eq_false_of_not_eq_true
      intro fails
      exact restores ⟨sizeBytes,sectorSize,probing,reopens,off,member,fails⟩
    have same := signAll_cell host sectorSize (probedSerial diskId) card (probeOffsets sizeBytes sectorSize)
    rcases List.eq_nil_or_concat (touching sectorSize card x (probeOffsets sizeBytes sectorSize)) with
      none_ | ⟨before,last,ends⟩
    · rw [restored_untouched host sectorSize (probedSerial diskId) card x _ _ same none_,signAll_content,none_]
      simp [signedOver]
    · rw [List.concat_eq_append] at ends
      rw [restored_touched host sectorSize (probedSerial diskId) card x _ _ same succeed before last ends]
      have unique (condition : List Nat → Nat → Prop) :
          (∀ first final, touching sectorSize card x (probeOffsets sizeBytes sectorSize) = first ++ [final] →
            condition first final) ↔ condition before last := by
        constructor
        · intro all
          exact all before last ends
        · intro holds first final split
          obtain ⟨front,back⟩ := List.append_inj' (ends.symm.trans split) rfl
          exact front ▸ List.singleton_inj.mp back ▸ holds
      rw [unique]
      unfold savedAfter
      split
      next => exact eq_comm
      next => exact signedOver_eq_iff ..
  · rw [if_neg reopens,if_neg reopens,signAll_content]
    exact signedOver_eq_iff ..

/-- The check leaves the card as it was exactly if every cell whose restoring writes do not
fail was recoverable. -/
theorem checkCounterfeit_leaves_iff :
    LeavesCard host diskId card ↔ ∀ sizeBytes sectorSize, Probing host sizeBytes sectorSize →
      ∀ x, ¬ RestoreFails host card x → Recoverable host diskId card sizeBytes sectorSize x := by
  constructor
  · intro leaves sizeBytes sectorSize probing x restores
    obtain ⟨known,size,_,run⟩ := checkCounterfeit_probed diskId card probing
    have kept := leaves x restores
    rw [run] at kept
    exact (probed_content_iff host diskId card probing known size x restores).mp kept
  · intro recoverable x restores
    by_cases some_ : ∃ sizeBytes sectorSize, Probing host sizeBytes sectorSize
    · obtain ⟨sizeBytes,sectorSize,probing⟩ := some_
      obtain ⟨known,size,_,run⟩ := checkCounterfeit_probed diskId card probing
      rw [run]
      exact (probed_content_iff host diskId card probing known size x restores).mpr
        (recoverable sizeBytes sectorSize probing x restores)
    · rw [checkCounterfeit_untouched diskId card some_]

end

/-- A card of ten sectors that reports a hundred, all of them blank. -/
def blankFake : SdCard where
  cell := fun sector => some (sector % 10)
  content := fun _ => List.replicate 512 0
  filler := fun _ => []

def faultlessHost (sizeBytes sectorSize : Nat) : SdHost where
  getDiskInfo := .ok (sizeBytes,sectorSize)

/-- Sectors 12 and 62 are the same cell: what is saved of the second probe, and written back,
is the signature of the first. No request fails. -/
theorem signature_restored :
    (checkCounterfeit (faultlessHost 51200 512) 1 blankFake).2.content 2
      = signature 512 (probedSerial 1) (12 * 512) ∧
    ¬ LeavesCard (faultlessHost 51200 512) 1 blankFake := by
  have probing : Probing (faultlessHost 51200 512) 51200 512 := ⟨⟨512,rfl,rfl⟩,by decide,rfl,rfl⟩
  have restores (x : Nat) : ¬ RestoreFails (faultlessHost 51200 512) blankFake x := by
    rintro ⟨_,_,_,_,_,_,fails⟩
    cases fails
  have written : (checkCounterfeit (faultlessHost 51200 512) 1 blankFake).2.content 2
      = signature 512 (probedSerial 1) (12 * 512) := by
    obtain ⟨known,size,_,run⟩ := checkCounterfeit_probed 1 blankFake probing
    have ends : touching 512 blankFake 2 (probeOffsets 51200 512) = [12 * 512] ++ [62 * 512] := by
      decide
    have same := signAll_cell (faultlessHost 51200 512) 512 (probedSerial 1) blankFake (probeOffsets 51200 512)
    rw [run,probed_card,size]
    exact restored_touched (faultlessHost 51200 512) 512 (probedSerial 1) blankFake 2 _ _ same
      (fun _ _ => rfl) [12 * 512] (62 * 512) ends
  refine ⟨written,?_⟩
  intro leaves
  have kept := leaves 2 (restores 2)
  rw [written] at kept
  have first := congrArg List.head? kept
  exact absurd first (by decide)

end SetecWizard.Core.SdCardAnalyzer
