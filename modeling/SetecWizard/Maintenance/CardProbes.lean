import SetecWizard.Core.SdCardAnalyzer

/-! What the phases of the counterfeit check leave in one physical cell: the signature of
the last probe written to it, and then the copy that the last probe of it has saved.
-/
namespace SetecWizard.Core.SdCardAnalyzer

section

variable (host : SdHost) (sectorSize : Nat) (diskSerial : UInt64) (card : SdCard)

/-- The probes of a physical cell, in the order they are made. -/
def touching (x : Nat) (offsets : List Nat) : List Nat :=
  offsets.filter (fun off => card.cell (off / sectorSize) = some x)

def signature (offset : Nat) : List UInt8 := makeSignature sectorSize (UInt64.ofNat offset) diskSerial

/-- What a cell holds after those of its probes whose write succeeds are signed. -/
def signedOver (x : Nat) (probes : List Nat) : List UInt8 :=
  match (probes.filter (fun off => !host.signFails off)).getLast? with
  | none => card.content x
  | some off => signature sectorSize diskSerial off

def savedAfter (x : Nat) (before : List Nat) (last : Nat) : List UInt8 :=
  if host.saveFails last then List.replicate sectorSize 0 else signedOver host sectorSize diskSerial card x before

def signAll (offsets : List Nat) : SdCard × List Probe :=
  offsets.foldl (saveAndSign host sectorSize diskSerial) (card,[])

theorem touching_concat (x : Nat) (offsets : List Nat) (off : Nat) :
    touching sectorSize card x (offsets ++ [off]) = touching sectorSize card x offsets
      ++ (if card.cell (off / sectorSize) = some x then [off] else []) := by
  simp [touching,List.filter_append,List.filter_singleton]

theorem write_cell (sector : Nat) (data : List UInt8) : (card.write sector data).cell = card.cell := by
  unfold SdCard.write
  split <;> rfl

theorem write_filler (sector : Nat) (data : List UInt8) : (card.write sector data).filler = card.filler := by
  unfold SdCard.write
  split <;> rfl

theorem write_content (sector x : Nat) (data : List UInt8) :
    (card.write sector data).content x = if card.cell sector = some x then data else card.content x := by
  unfold SdCard.write
  split
  next c backed =>
    by_cases same : c = x
    · rw [if_pos (same ▸ backed),same]
      exact Function.update_self ..
    · have other : card.cell sector ≠ some x := by
        rw [backed]
        exact fun equal => same (Option.some.inj equal)
      rw [if_neg other]
      exact Function.update_of_ne (Ne.symm same) ..
  next nothing => rw [if_neg (by rw [nothing]; simp)]

theorem signAll_concat (offsets : List Nat) (off : Nat) :
    signAll host sectorSize diskSerial card (offsets ++ [off])
      = saveAndSign host sectorSize diskSerial (signAll host sectorSize diskSerial card offsets) off := by
  simp [signAll]

theorem signAll_cell (offsets : List Nat) :
    (signAll host sectorSize diskSerial card offsets).1.cell = card.cell := by
  induction offsets using List.reverseRecOn with
  | nil => rfl
  | append_singleton offsets off ih =>
    rw [signAll_concat]
    simp only [saveAndSign]
    split
    next => exact ih
    next => rw [write_cell,ih]

theorem signAll_filler (offsets : List Nat) :
    (signAll host sectorSize diskSerial card offsets).1.filler = card.filler := by
  induction offsets using List.reverseRecOn with
  | nil => rfl
  | append_singleton offsets off ih =>
    rw [signAll_concat]
    simp only [saveAndSign]
    split
    next => exact ih
    next => rw [write_filler,ih]

theorem signAll_content (x : Nat) (offsets : List Nat) :
    (signAll host sectorSize diskSerial card offsets).1.content x
      = signedOver host sectorSize diskSerial card x (touching sectorSize card x offsets) := by
  induction offsets using List.reverseRecOn with
  | nil => rfl
  | append_singleton offsets off ih =>
    rw [signAll_concat,touching_concat]
    simp only [saveAndSign]
    by_cases fails : host.signFails off = true
    · rw [if_pos fails,ih]
      by_cases mapped : card.cell (off / sectorSize) = some x
      · simp [signedOver,mapped,fails,List.filter_append]
      · simp [mapped]
    · rw [if_neg fails,write_content,signAll_cell]
      by_cases mapped : card.cell (off / sectorSize) = some x
      · simp [signedOver,mapped,fails,List.filter_append,signature]
      · simp [mapped,ih]

theorem signAll_probes (offsets : List Nat) :
    (signAll host sectorSize diskSerial card offsets).2.map (fun probe => (probe.offset,probe.writeOk))
      = offsets.map (fun off => (off,!host.signFails off)) := by
  induction offsets using List.reverseRecOn with
  | nil => rfl
  | append_singleton offsets off ih =>
    rw [signAll_concat]
    simp only [saveAndSign,List.map_append,ih]
    rfl

theorem restore_cell (probes : List Probe) (signed : SdCard) :
    (probes.foldl (restore host sectorSize) signed).cell = signed.cell := by
  induction probes generalizing signed with
  | nil => rfl
  | cons probe rest ih =>
    rw [List.foldl_cons,ih]
    unfold restore
    split
    next => rfl
    next => exact write_cell ..

theorem restore_apart (x : Nat) (signed : SdCard) (probe : Probe)
    (elsewhere : signed.cell (probe.offset / sectorSize) ≠ some x) :
    (restore host sectorSize signed probe).content x = signed.content x := by
  unfold restore
  split
  next => rfl
  next => rw [write_content,if_neg elsewhere]

theorem restore_mapped (x : Nat) (signed : SdCard) (probe : Probe)
    (mapped : signed.cell (probe.offset / sectorSize) = some x)
    (succeeds : host.restoreFails probe.offset = false) :
    (restore host sectorSize signed probe).content x = probe.originalData := by
  unfold restore
  rw [if_neg (by simp [succeeds]),write_content,if_pos mapped]

/-- A cell that no probe maps to is never written. -/
theorem restored_untouched (x : Nat) (offsets : List Nat) (signed : SdCard) (same : signed.cell = card.cell)
    (untouched : touching sectorSize card x offsets = []) :
    ((signAll host sectorSize diskSerial card offsets).2.foldl (restore host sectorSize) signed).content x
      = signed.content x := by
  induction offsets using List.reverseRecOn with
  | nil => rfl
  | append_singleton offsets off ih =>
    rw [touching_concat] at untouched
    obtain ⟨earlier,last⟩ := List.append_eq_nil_iff.mp untouched
    have elsewhere : card.cell (off / sectorSize) ≠ some x := by
      intro mapped
      rw [if_pos mapped] at last
      cases last
    rw [signAll_concat]
    simp only [saveAndSign,List.foldl_append,List.foldl_cons,List.foldl_nil]
    rw [restore_apart _ _ _ _ _ (by rw [restore_cell,same]; exact elsewhere),ih earlier]

theorem restored_touched (x : Nat) (offsets : List Nat) (signed : SdCard) (same : signed.cell = card.cell)
    (restores : ∀ off ∈ touching sectorSize card x offsets, host.restoreFails off = false)
    (before : List Nat) (last : Nat) (ends : touching sectorSize card x offsets = before ++ [last]) :
    ((signAll host sectorSize diskSerial card offsets).2.foldl (restore host sectorSize) signed).content x
      = savedAfter host sectorSize diskSerial card x before last := by
  induction offsets using List.reverseRecOn with
  | nil => simp [touching] at ends
  | append_singleton offsets off ih =>
    rw [touching_concat] at ends restores
    rw [signAll_concat]
    simp only [saveAndSign,List.foldl_append,List.foldl_cons,List.foldl_nil]
    by_cases mapped : card.cell (off / sectorSize) = some x
    · rw [if_pos mapped] at ends restores
      obtain ⟨earlier,single⟩ := List.append_inj' ends rfl
      have now : off = last := List.singleton_inj.mp single
      have succeeds : host.restoreFails off = false := restores off (by simp)
      rw [restore_mapped _ _ _ _ _ (by rw [restore_cell,same]; exact mapped) succeeds,← now,← earlier]
      simp only [savedAfter,SdCard.read,signAll_cell,mapped,signAll_content]
    · rw [if_neg mapped,List.append_nil] at ends restores
      rw [restore_apart _ _ _ _ _ (by rw [restore_cell,same]; exact mapped),ih restores ends]

end

end SetecWizard.Core.SdCardAnalyzer
