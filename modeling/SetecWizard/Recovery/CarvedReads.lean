import SetecWizard.Recovery.CarvingScan
import SetecWizard.Recovery.CarvedFile

/-! The copy of a carved file over reads of which each may fail or fall short. A read that
delivers something is a step forward; one that delivers nothing is made again. The part
up to a footer is written whole, wherever the footer ends.
-/
namespace SetecWizard.Core.FileRecovery
open SetecWizard.Library

variable {sectorSize : UInt32} {read : SectorReads} {carvedLba maxSize : UInt64} {footer : List UInt8}

theorem copyCarved_reads (env : RecoveryEnv) (r : FileRecovery) (disk : Disk) (footer : List UInt8) (fuel n : Nat)
    (bytesWritten : UInt64) (out : List UInt8) :
    copyCarved env r disk carvedLba maxSize footer fuel bytesWritten out =
      copyReads r.sectorSize (fun _ lba count => RawDiskHandle.readSectors env.device disk lba count r.sectorSize)
        carvedLba maxSize footer fuel n bytesWritten out := by
  induction fuel generalizing n bytesWritten out with
  | zero => rfl
  | succ fuel ih =>
    rw [copyCarved,copyReads,carvedRead]
    split
    next => rfl
    next =>
      dsimp only
      split
      next => rfl
      next data _ =>
        split
        next => rfl
        next => exact ih (n + 1) _ _

/-- A read delivers a part of what it is asked for at most. -/
def Delivers (sectorSize : UInt32) (read : SectorReads) : Prop :=
  ∀ n lba count data, read n lba count = .ok data → data.length ≤ count.toNat * sectorSize.toNat

/-- The copy ends, with no more bytes than the size allows. -/
def CopiesWithin (sectorSize : UInt32) (read : SectorReads) (carvedLba maxSize : UInt64) (footer : List UInt8) : Prop :=
  ∃ fuel out, copyReads sectorSize read carvedLba maxSize footer fuel 0 0 [] = some out ∧ out.length ≤ maxSize.toNat

/-- The rounds that the copy comes to: the number of the next read, and what has been written. -/
inductive Comes (sectorSize : UInt32) (read : SectorReads) (carvedLba maxSize : UInt64) (footer : List UInt8) :
    Nat → UInt64 → Prop
  | start : Comes sectorSize read carvedLba maxSize footer 0 0
  | next {n : Nat} {bytesWritten : UInt64} {data : List UInt8}
      (here : Comes sectorSize read carvedLba maxSize footer n bytesWritten) (left : bytesWritten < maxSize)
      (delivered : carvedRead sectorSize read carvedLba maxSize n bytesWritten = .ok data)
      (missed : footerIn footer data = none) :
      Comes sectorSize read carvedLba maxSize footer (n + 1)
        (bytesWritten + .ofNat (min data.length (maxSize - bytesWritten).toNat))

/-- From some round on the reads deliver nothing for ever. -/
def Starved (sectorSize : UInt32) (read : SectorReads) (carvedLba maxSize : UInt64) (footer : List UInt8) : Prop :=
  ∃ n bytesWritten, Comes sectorSize read carvedLba maxSize footer n bytesWritten ∧ bytesWritten < maxSize ∧
    ∀ m, n ≤ m → carvedRead sectorSize read carvedLba maxSize m bytesWritten = .ok []

/-- Some round reads a footer that ends behind the size of the file. -/
def Overruns (sectorSize : UInt32) (read : SectorReads) (carvedLba maxSize : UInt64) (footer : List UInt8) : Prop :=
  ∃ n bytesWritten data i, Comes sectorSize read carvedLba maxSize footer n bytesWritten ∧ bytesWritten < maxSize ∧
    carvedRead sectorSize read carvedLba maxSize n bytesWritten = .ok data ∧ footerIn footer data = some i ∧
    maxSize.toNat < bytesWritten.toNat + (i + footer.length)

theorem footerIn_empty (footer : List UInt8) : footerIn footer [] = none := by
  rw [footerIn]
  split
  next => rfl
  next some_byte =>
    have positive := List.length_pos_iff.mpr some_byte
    have none_left : ([] : List UInt8).length + 1 - footer.length = 0 := by
      rw [List.length_nil]
      omega
    rw [none_left]
    rfl

section Rounds

variable {n fuel : Nat} {bytesWritten : UInt64} {data out result : List UInt8}

theorem written_next (left : bytesWritten < maxSize) (length : Nat) :
    (bytesWritten + .ofNat (min length (maxSize - bytesWritten).toNat)).toNat =
      bytesWritten.toNat + min length (maxSize.toNat - bytesWritten.toNat) := by
  have below := UInt64.lt_iff_toNat_lt.mp left
  have width := maxSize.toNat_lt
  rw [UInt64.toNat_sub_of_le _ _ (UInt64.le_of_lt left),UInt64.toNat_add,UInt64.toNat_ofNat']
  omega

theorem copyReads_failed {e : ErrorInfo} (left : bytesWritten < maxSize)
    (failed : carvedRead sectorSize read carvedLba maxSize n bytesWritten = .error e) :
    copyReads sectorSize read carvedLba maxSize footer (fuel + 1) n bytesWritten out = some out := by
  rw [copyReads,if_neg (not_not.mpr left),failed]

theorem copyReads_found {i : Nat} (left : bytesWritten < maxSize)
    (delivered : carvedRead sectorSize read carvedLba maxSize n bytesWritten = .ok data)
    (found : footerIn footer data = some i) :
    copyReads sectorSize read carvedLba maxSize footer (fuel + 1) n bytesWritten out =
      some (out ++ data.take (i + footer.length)) := by
  rw [copyReads,if_neg (not_not.mpr left),delivered]
  dsimp only
  rw [found]

theorem copyReads_missed (left : bytesWritten < maxSize)
    (delivered : carvedRead sectorSize read carvedLba maxSize n bytesWritten = .ok data)
    (missed : footerIn footer data = none) :
    copyReads sectorSize read carvedLba maxSize footer (fuel + 1) n bytesWritten out =
      copyReads sectorSize read carvedLba maxSize footer fuel (n + 1)
        (bytesWritten + .ofNat (min data.length (maxSize - bytesWritten).toNat))
        (out ++ data.take (min data.length (maxSize - bytesWritten).toNat)) := by
  rw [copyReads,if_neg (not_not.mpr left),delivered]
  dsimp only
  rw [missed]

/-- An empty read leaves all but its number as it was. -/
theorem empty_step (bytesWritten : UInt64) :
    bytesWritten + .ofNat (min ([] : List UInt8).length (maxSize - bytesWritten).toNat) = bytesWritten := by
  rw [List.length_nil,Nat.zero_min]
  exact UInt64.add_zero _

theorem copyReads_empty (left : bytesWritten < maxSize)
    (delivered : carvedRead sectorSize read carvedLba maxSize n bytesWritten = .ok []) :
    copyReads sectorSize read carvedLba maxSize footer (fuel + 1) n bytesWritten out =
      copyReads sectorSize read carvedLba maxSize footer fuel (n + 1) bytesWritten out := by
  rw [copyReads_missed left delivered (footerIn_empty footer),empty_step,List.take_nil,List.append_nil]

theorem passes {total : Nat} (ends : copyReads sectorSize read carvedLba maxSize footer total 0 0 [] = some result)
    (comes : Comes sectorSize read carvedLba maxSize footer n bytesWritten) :
    ∃ fuel out, copyReads sectorSize read carvedLba maxSize footer fuel n bytesWritten out = some result ∧
      out.length = bytesWritten.toNat := by
  induction comes with
  | start => exact ⟨total,[],ends,rfl⟩
  | @next n bytesWritten data here left delivered missed ih =>
    obtain ⟨fuel,out,ended,length⟩ := ih
    cases fuel with
    | zero => cases ended
    | succ fuel =>
      rw [copyReads_missed left delivered missed] at ended
      refine ⟨fuel,_,ended,?_⟩
      rw [written_next left,List.length_append,List.length_take,length,
        UInt64.toNat_sub_of_le _ _ (UInt64.le_of_lt left)]
      omega

theorem starved_never (left : bytesWritten < maxSize)
    (empty : ∀ m, n ≤ m → carvedRead sectorSize read carvedLba maxSize m bytesWritten = .ok []) (fuel : Nat) :
    copyReads sectorSize read carvedLba maxSize footer fuel n bytesWritten out = none := by
  induction fuel generalizing n with
  | zero => rfl
  | succ fuel ih =>
    rw [copyReads_empty left (empty n (Nat.le_refl _))]
    exact ih (fun m later => empty m (by omega))

theorem empty_rounds (left : bytesWritten < maxSize) (comes : Comes sectorSize read carvedLba maxSize footer n bytesWritten)
    (rounds : Nat) (empty : ∀ m, n ≤ m → m < n + rounds →
      carvedRead sectorSize read carvedLba maxSize m bytesWritten = .ok []) :
    Comes sectorSize read carvedLba maxSize footer (n + rounds) bytesWritten ∧
      ∀ fuel out, copyReads sectorSize read carvedLba maxSize footer (fuel + rounds) n bytesWritten out =
        copyReads sectorSize read carvedLba maxSize footer fuel (n + rounds) bytesWritten out := by
  induction rounds with
  | zero => exact ⟨comes,fun _ _ => rfl⟩
  | succ rounds ih =>
    obtain ⟨here,same⟩ := ih (fun m low high => empty m low (by omega))
    have delivered := empty (n + rounds) (by omega) (by omega)
    constructor
    · have next := here.next left delivered (footerIn_empty footer)
      rwa [empty_step] at next
    · intro fuel out
      have step := same (fuel + 1) out
      rw [Nat.add_right_comm] at step
      rw [← Nat.add_assoc,step,copyReads_empty left delivered,Nat.add_assoc]

end Rounds

/-- The measure is what the file lacks; the empty reads before a step forward come to an end. -/
theorem copies_from (fed : ¬ Starved sectorSize read carvedLba maxSize footer)
    (short : ¬ Overruns sectorSize read carvedLba maxSize footer) (lack : Nat) {n : Nat} {bytesWritten : UInt64}
    (comes : Comes sectorSize read carvedLba maxSize footer n bytesWritten) (within : bytesWritten.toNat ≤ maxSize.toNat)
    (lacks : maxSize.toNat - bytesWritten.toNat = lack) :
    ∃ fuel, ∀ out : List UInt8, out.length = bytesWritten.toNat →
      ∃ result, copyReads sectorSize read carvedLba maxSize footer fuel n bytesWritten out = some result ∧
        result.length ≤ maxSize.toNat := by
  induction lack using Nat.strongRecOn generalizing n bytesWritten with
  | ind lack ih =>
    by_cases left : bytesWritten < maxSize
    · have below := UInt64.lt_iff_toNat_lt.mp left
      -- The first read that is not empty.
      have some_read : ∃ rounds, carvedRead sectorSize read carvedLba maxSize (n + rounds) bytesWritten ≠ .ok [] := by
        by_contra none
        refine fed ⟨n,bytesWritten,comes,left,fun m later => ?_⟩
        by_contra other
        exact none ⟨m - n,by rwa [Nat.add_sub_cancel' later]⟩
      classical
      obtain ⟨here,same⟩ := empty_rounds left comes (Nat.find some_read) (fun m low high => by
        have before := Nat.find_min some_read (m := m - n) (by omega)
        rw [Nat.add_sub_cancel' low] at before
        exact not_not.mp before)
      have first := Nat.find_spec some_read
      generalize Nat.find some_read = rounds at here same first
      cases delivered : carvedRead sectorSize read carvedLba maxSize (n + rounds) bytesWritten with
      | error e =>
        refine ⟨1 + rounds,fun out length => ⟨out,?_,by omega⟩⟩
        rw [same,copyReads_failed left delivered]
      | ok data =>
        cases found : footerIn footer data with
        | some i =>
          refine ⟨1 + rounds,fun out length => ⟨_,by rw [same,copyReads_found left delivered found],?_⟩⟩
          rw [List.length_append,List.length_take,length]
          have ends : ¬ maxSize.toNat < bytesWritten.toNat + (i + footer.length) :=
            fun beyond => short ⟨_,_,data,i,here,left,delivered,found,beyond⟩
          omega
        | none =>
          have positive : 0 < data.length := by
            apply List.length_pos_iff.mpr
            rintro rfl
            exact first delivered
          have next := written_next left data.length
          obtain ⟨fuel,ended⟩ := ih _ (by rw [next]; omega) (here.next left delivered found) (by rw [next]; omega) rfl
          refine ⟨fuel + 1 + rounds,fun out length => ?_⟩
          rw [same,copyReads_missed left delivered found]
          apply ended
          rw [next,List.length_append,List.length_take,length,UInt64.toNat_sub_of_le _ _ (UInt64.le_of_lt left)]
          omega
    · refine ⟨1,fun out length => ⟨out,by rw [copyReads,if_pos left],by omega⟩⟩

theorem copiesWithin_iff : CopiesWithin sectorSize read carvedLba maxSize footer ↔
    ¬ Starved sectorSize read carvedLba maxSize footer ∧ ¬ Overruns sectorSize read carvedLba maxSize footer := by
  constructor
  · rintro ⟨total,result,ends,short⟩
    constructor
    · rintro ⟨n,bytesWritten,comes,left,empty⟩
      obtain ⟨fuel,out,ended,_⟩ := passes ends comes
      rw [starved_never left empty fuel] at ended
      cases ended
    · rintro ⟨n,bytesWritten,data,i,comes,left,delivered,found,beyond⟩
      obtain ⟨fuel,out,ended,length⟩ := passes ends comes
      cases fuel with
      | zero => cases ended
      | succ fuel =>
        rw [copyReads_found left delivered found] at ended
        have sum := congrArg List.length (Option.some.inj ended)
        have inside := (footerIn_some found).1
        rw [List.length_append,List.length_take,length,Nat.min_eq_left inside] at sum
        omega
  · rintro ⟨fed,short⟩
    obtain ⟨fuel,ended⟩ := copies_from fed short _ .start (Nat.zero_le _) rfl
    obtain ⟨result,copied,length⟩ := ended [] rfl
    exact ⟨fuel,result,copied,length⟩

/-- Reads at the end of a disk that succeed without a byte. -/
theorem empty_reads_forever : ¬ ∀ sectorSize read carvedLba maxSize footer, Delivers sectorSize read →
    CopiesWithin sectorSize read carvedLba maxSize footer := by
  intro all
  have never := (copiesWithin_iff.mp (all 512 (fun _ _ _ => .ok []) 0 (10 * mebibyte) [] (by
    intro n lba count data delivered
    rw [← Except.ok.inj delivered]
    exact Nat.zero_le _))).1
  exact never ⟨0,0,.start,by decide,fun _ _ => rfl⟩

end SetecWizard.Core.FileRecovery
