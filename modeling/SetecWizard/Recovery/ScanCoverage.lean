import SetecWizard.Core.PartitionScan
import SetecWizard.Imaging.Sectors
import SetecWizard.Library.Ascending

/-! The positions a partition scan probes. Either pass is a counting loop; the second one
leaves out what the first has been at, so that no position is probed twice.
-/
namespace SetecWizard.Core.PartitionRecovery
open SetecWizard.Library

variable {env : ScanEnv} {disk : Disk}

def positions (lbas : List Nat) : List UInt64 := lbas.map UInt64.ofNat

def ScanState.probeAll (env : ScanEnv) (disk : Disk) (lbas : List UInt64) (s : ScanState) : ScanState where
  probed := s.probed ++ lbas
  results := s.results ++ lbas.filterMap (candidateAt env disk)

theorem probeAll_nil (s : ScanState) : s.probeAll env disk [] = s := by
  rw [ScanState.probeAll,List.filterMap_nil,List.append_nil,List.append_nil]

theorem probeAll_probe (s : ScanState) (lba : UInt64) (lbas : List UInt64) :
    (s.probe env disk lba).probeAll env disk lbas = s.probeAll env disk (lba :: lbas) := by
  have first : (candidateAt env disk lba).toList ++ lbas.filterMap (candidateAt env disk) =
      (lba :: lbas).filterMap (candidateAt env disk) := by
    cases found : candidateAt env disk lba with
    | none => rw [List.filterMap_cons_none found]; rfl
    | some candidate => rw [List.filterMap_cons_some found]; rfl
  rw [ScanState.probeAll,ScanState.probeAll,ScanState.probe,List.append_assoc,List.append_assoc,first]
  rfl

theorem probeAll_probeAll (s : ScanState) (lbas more : List UInt64) :
    (s.probeAll env disk lbas).probeAll env disk more = s.probeAll env disk (lbas ++ more) := by
  simp only [ScanState.probeAll,List.append_assoc,List.filterMap_append]

section Loops

variable (never : ∀ n, env.canceled n = false)
include never

theorem scanSteps_all {step total : UInt64} (positive : 0 < step.toNat) (room : total.toNat + step.toNat ≤ 2 ^ 64)
    {fuel : Nat} {lba : UInt64} (s : ScanState) (enough : total.toNat - lba.toNat < fuel) :
    scanSteps env disk step total fuel lba s =
      some (.ok (),s.probeAll env disk (positions (strided lba.toNat step.toNat total.toNat))) := by
  induction fuel generalizing lba s with
  | zero => omega
  | succ fuel ih =>
    rw [scanSteps]
    by_cases below : lba < total
    · have less : lba.toNat < total.toNat := UInt64.lt_iff_toNat_lt.mp below
      have next : (lba + step).toNat = lba.toNat + step.toNat := by
        rw [UInt64.toNat_add]
        exact Nat.mod_eq_of_lt (by omega)
      have here : UInt64.ofNat lba.toNat = lba := UInt64.ofNat_toNat
      rw [if_neg (not_not_intro below),never,if_neg Bool.false_ne_true,ih _ (by omega),next,probeAll_probe,
        strided_next positive less,positions,positions,List.map_cons,here]
    · have ended : total.toNat ≤ lba.toNat := Nat.not_lt.mp (fun less => below (UInt64.lt_iff_toNat_lt.mpr less))
      rw [if_pos below,strided_end ended,positions,List.map_nil,probeAll_nil]

/-- The positions of the second pass that are not on the boundaries of the first. -/
def legacyOnly (sectorSize : UInt32) (lbas : List UInt64) : List UInt64 :=
  lbas.filter (fun lba => decide (lba * sectorSize.toUInt64 % DEFAULT_ALIGNMENT_BYTES ≠ 0))

theorem scanLegacy_all {total : UInt64} (room : total.toNat + 63 ≤ 2 ^ 64) {fuel : Nat} {lba : UInt64} (s : ScanState)
    (enough : total.toNat - lba.toNat < fuel) :
    scanLegacy env disk total fuel lba s =
      some (s.probeAll env disk (legacyOnly env.bytesPerSector (positions (strided lba.toNat 63 total.toNat)))) := by
  induction fuel generalizing lba s with
  | zero => omega
  | succ fuel ih =>
    have step : LEGACY_CHS_STEP.toNat = 63 := rfl
    rw [scanLegacy]
    by_cases below : lba < total
    · have less : lba.toNat < total.toNat := UInt64.lt_iff_toNat_lt.mp below
      have next : (lba + LEGACY_CHS_STEP).toNat = lba.toNat + 63 := by
        rw [UInt64.toNat_add,step]
        exact Nat.mod_eq_of_lt (by omega)
      have here : UInt64.ofNat lba.toNat = lba := UInt64.ofNat_toNat
      rw [if_neg (not_not_intro below),strided_next (by decide) less,positions,List.map_cons,here]
      split
      next covered =>
        rw [ih _ (by omega),next,legacyOnly,legacyOnly,List.filter_cons_of_neg (by simpa using covered),positions]
      next apart =>
        rw [never,if_neg Bool.false_ne_true,ih _ (by omega),next,probeAll_probe,legacyOnly,legacyOnly,
          List.filter_cons_of_pos (by simpa using apart),positions]
    · have ended : total.toNat ≤ lba.toNat := Nat.not_lt.mp (fun less => below (UInt64.lt_iff_toNat_lt.mpr less))
      rw [if_pos below,strided_end ended,positions,List.map_nil,legacyOnly,List.filter_nil,probeAll_nil]

end Loops

/-- The positions of a scan: all of them, or those on either kind of boundary. -/
def Due (mode : PartitionScanMode) (sectorSize : UInt32) (total lba : UInt64) : Prop :=
  lba < total ∧ (mode = .deep ∨ 2 ^ 20 ∣ lba.toNat * sectorSize.toNat ∨ 63 ∣ lba.toNat)

theorem mem_positions {lbas : List Nat} (small : ∀ x ∈ lbas, x < 2 ^ 64) {lba : UInt64} :
    lba ∈ positions lbas ↔ lba.toNat ∈ lbas := by
  rw [positions,List.mem_map]
  constructor
  · rintro ⟨x,member,rfl⟩
    rw [UInt64.toNat_ofNat_of_lt' (small x member)]
    exact member
  · intro member
    exact ⟨lba.toNat,member,UInt64.ofNat_toNat⟩

theorem nodup_positions {lbas : List Nat} (small : ∀ x ∈ lbas, x < 2 ^ 64) (apart : lbas.Nodup) :
    (positions lbas).Nodup := by
  refine List.Nodup.map_on ?_ apart
  intro x first y second same
  rw [← UInt64.toNat_ofNat_of_lt' (small x first),same,UInt64.toNat_ofNat_of_lt' (small y second)]

section Sizes

variable {sectorSize : UInt32} {total : UInt64}

/-- On a disk whose size is a signed number the positions in bytes do not wrap. -/
theorem bytes_of_position {lba : UInt64} (below : lba.toNat * sectorSize.toNat < 2 ^ 64) :
    lba * sectorSize.toUInt64 % DEFAULT_ALIGNMENT_BYTES = 0 ↔ 2 ^ 20 ∣ lba.toNat * sectorSize.toNat := by
  have unit : DEFAULT_ALIGNMENT_BYTES.toNat = 2 ^ 20 := rfl
  have zero : (0 : UInt64).toNat = 0 := rfl
  rw [← UInt64.toNat_inj,UInt64.toNat_mod,UInt64.toNat_mul,UInt32.toNat_toUInt64,Nat.mod_eq_of_lt below,unit,zero]
  exact (Nat.dvd_iff_mod_eq_zero).symm

theorem multiple_of_step (divides : sectorSize.toNat ∣ 2 ^ 20) {x : Nat} :
    (∃ k, x = 0 + k * (2 ^ 20 / sectorSize.toNat)) ↔ 2 ^ 20 ∣ x * sectorSize.toNat := by
  obtain ⟨step,whole⟩ := divides
  have positive : 0 < sectorSize.toNat := by
    rcases Nat.eq_zero_or_pos sectorSize.toNat with zero | positive
    · rw [zero,Nat.zero_mul] at whole
      exact absurd whole (by decide)
    · exact positive
  have quotient : 2 ^ 20 / sectorSize.toNat = step := by
    rw [whole,Nat.mul_div_cancel_left _ positive]
  rw [quotient,whole,Nat.mul_comm x]
  constructor
  · rintro ⟨k,rfl⟩
    exact Nat.mul_dvd_mul_left _ ⟨k,by rw [Nat.zero_add,Nat.mul_comm]⟩
  · intro multiple
    obtain ⟨k,same⟩ := Nat.dvd_of_mul_dvd_mul_left positive multiple
    exact ⟨k,by rw [same,Nat.zero_add,Nat.mul_comm]⟩

end Sizes

theorem candidateAt_startLba {lba : UInt64} {candidate : FoundPartition}
    (found : candidateAt env disk lba = some candidate) : candidate.startLba = lba := by
  unfold candidateAt probeOffset at found
  cases detected : env.detect (probeReadFunc env.device disk env.bytesPerSector lba) with
  | none =>
    simp only [detected] at found
    cases found
  | some detection =>
    simp only [detected] at found
    cases found
    rfl

theorem candidateAt_detected {lba : UInt64} {type : FilesystemType} {label : List UInt8}
    (detected : env.detect (probeReadFunc env.device disk env.bytesPerSector lba) = some (type,label)) :
    ∃ candidate, candidateAt env disk lba = some candidate ∧ candidate.fsType = type ∧ candidate.label = label := by
  unfold candidateAt probeOffset
  simp only [detected]
  exact ⟨_,rfl,rfl,rfl⟩

/-- Marking leaves everything but the mark and the confidence. -/
theorem markAgainst_keeps (bytesPerSector : UInt32) (found : FoundPartition) (layout : List DriveLayoutPartition) :
    (markAgainst bytesPerSector found layout).toRecoveredPartition = found.toRecoveredPartition := by
  induction layout with
  | nil => rfl
  | cons existing rest ih =>
    rw [markAgainst]
    split
    next => rfl
    next => exact ih

theorem markOverlaps_keeps (bytesPerSector : UInt32) (layout : List DriveLayoutPartition)
    (results : List FoundPartition) :
    (markOverlaps bytesPerSector layout results).map FoundPartition.toRecoveredPartition =
      results.map FoundPartition.toRecoveredPartition := by
  rw [markOverlaps,List.map_map]
  refine List.map_congr_left (fun found _ => ?_)
  change FoundPartition.toRecoveredPartition (ite _ _ _) = _
  split
  next => rfl
  next => exact markAgainst_keeps bytesPerSector found layout

theorem found_sublist (lbas : List UInt64) :
    ((lbas.filterMap (candidateAt env disk)).map (fun found => found.startLba)).Sublist lbas := by
  induction lbas with
  | nil => exact .slnil
  | cons lba rest ih =>
    cases found : candidateAt env disk lba with
    | none =>
      rw [List.filterMap_cons_none found]
      exact .cons _ ih
    | some candidate =>
      rw [List.filterMap_cons_some found,List.map_cons,candidateAt_startLba found]
      exact .cons_cons _ ih

/-- Every probed position at which the detector recognises something is reported, and no two
reports are about one position. -/
def ReportsAll (env : ScanEnv) (disk : Disk) (probed : List UInt64) (results : List FoundPartition) : Prop :=
  (results.map (fun found => found.startLba)).Nodup ∧
    (∀ found ∈ results, found.startLba ∈ probed) ∧
    ∀ lba ∈ probed, ∀ type label,
      env.detect (probeReadFunc env.device disk env.bytesPerSector lba) = some (type,label) →
        ∃ found ∈ results, found.startLba = lba ∧ found.fsType = type ∧ found.label = label

theorem reportsAll_marked {lbas : List UInt64} (apart : lbas.Nodup) (layout : List DriveLayoutPartition) :
    ReportsAll env disk lbas (markOverlaps env.bytesPerSector layout (lbas.filterMap (candidateAt env disk))) := by
  obtain ⟨raw,named⟩ : ∃ raw, raw = lbas.filterMap (candidateAt env disk) := ⟨_,rfl⟩
  obtain ⟨marked,results⟩ : ∃ marked, marked = markOverlaps env.bytesPerSector layout raw := ⟨_,rfl⟩
  have kept := markOverlaps_keeps env.bytesPerSector layout raw
  rw [← results] at kept
  have starts : marked.map (fun found => found.startLba) = raw.map (fun found => found.startLba) := by
    have := congrArg (List.map RecoveredPartition.startLba) kept
    rwa [List.map_map,List.map_map] at this
  have sub := @found_sublist env disk lbas
  rw [← named,← starts] at sub
  rw [← named,← results]
  refine ⟨apart.sublist sub,fun found member => sub.subset (List.mem_map_of_mem member),?_⟩
  intro lba member type label detected
  obtain ⟨candidate,found,same_type,same_label⟩ := candidateAt_detected detected
  have listed : candidate ∈ raw := by
    rw [named]
    exact List.mem_filterMap.mpr ⟨lba,member,found⟩
  have there : candidate.toRecoveredPartition ∈ marked.map FoundPartition.toRecoveredPartition := by
    rw [kept]
    exact List.mem_map_of_mem listed
  obtain ⟨report,reported,same⟩ := List.mem_map.mp there
  refine ⟨report,reported,?_,?_,?_⟩
  · rw [same]
    exact candidateAt_startLba found
  · rw [same]
    exact same_type
  · rw [same]
    exact same_label

section Passes

variable (never : ∀ n, env.canceled n = false)
include never

theorem scanPasses_all (mode : PartitionScanMode) {total : UInt64} (divides : env.bytesPerSector.toNat ∣ 2 ^ 20)
    (signed : total.toNat * env.bytesPerSector.toNat < 2 ^ 63) {fuel : Nat} (enough : total.toNat < fuel) :
    ∃ lbas : List UInt64, lbas.Nodup ∧ (∀ lba, lba ∈ lbas ↔ Due mode env.bytesPerSector total lba) ∧
      scanPasses env disk mode total fuel = some (.ok (),ScanState.probeAll env disk lbas {}) := by
  have some_byte : 0 < env.bytesPerSector.toNat := Nat.pos_of_dvd_of_pos divides (by decide)
  have at_most : env.bytesPerSector.toNat ≤ 2 ^ 20 := Nat.le_of_dvd (by decide) divides
  have sectors : total.toNat ≤ total.toNat * env.bytesPerSector.toNat := Nat.le_mul_of_pos_right _ some_byte
  have zero : (0 : UInt64).toNat = 0 := rfl
  have small : ∀ start step, 0 < step → ∀ x ∈ strided start step total.toNat, x < 2 ^ 64 := by
    intro start step positive x member
    have below := ((mem_strided positive).mp member).1
    omega
  cases mode with
  | deep =>
    have one : (1 : UInt64).toNat = 1 := rfl
    refine ⟨positions (strided 0 1 total.toNat),nodup_positions (small 0 1 (by decide)) (strided_nodup (by decide)),
      ?_,?_⟩
    · intro lba
      rw [mem_positions (small 0 1 (by decide)),mem_strided (by decide),Due,UInt64.lt_iff_toNat_lt]
      exact and_congr_right (fun _ => ⟨fun _ => .inl rfl,fun _ => ⟨lba.toNat,by omega⟩⟩)
    · have swept := @scanSteps_all env disk never 1 total (by decide) (by rw [one]; omega) fuel 0 {}
        (by rw [zero]; omega)
      rw [zero,one] at swept
      rw [scanPasses,stepSectors,swept]
  | quick =>
    have unit : DEFAULT_ALIGNMENT_BYTES.toNat = 2 ^ 20 := rfl
    obtain ⟨step,length⟩ : ∃ step, step = 2 ^ 20 / env.bytesPerSector.toNat := ⟨_,rfl⟩
    have positive : 0 < step := by
      rw [length]
      exact Nat.div_pos at_most some_byte
    have short : step ≤ 2 ^ 20 := by
      rw [length]
      exact Nat.div_le_self _ _
    have stepped : (stepSectors env.bytesPerSector .quick).toNat = step := by
      rw [stepSectors,UInt64.toNat_div,UInt32.toNat_toUInt64,unit,length]
    obtain ⟨first,named⟩ : ∃ first, first = positions (strided 0 step total.toNat) := ⟨_,rfl⟩
    obtain ⟨legacy,named'⟩ : ∃ legacy, legacy = positions (strided 63 63 total.toNat) := ⟨_,rfl⟩
    have bytes : ∀ lba : UInt64, lba.toNat < total.toNat →
        (lba * env.bytesPerSector.toUInt64 % DEFAULT_ALIGNMENT_BYTES = 0 ↔
          2 ^ 20 ∣ lba.toNat * env.bytesPerSector.toNat) := by
      intro lba below
      have before := Nat.mul_le_mul_right env.bytesPerSector.toNat below.le
      exact bytes_of_position (by omega)
    have on_first : ∀ lba, lba ∈ first ↔ lba.toNat < total.toNat ∧ 2 ^ 20 ∣ lba.toNat * env.bytesPerSector.toNat := by
      intro lba
      rw [named,mem_positions (small 0 step positive),mem_strided positive,length,multiple_of_step divides]
    have on_legacy : ∀ lba, lba ∈ legacyOnly env.bytesPerSector legacy ↔ lba.toNat < total.toNat ∧
        63 ∣ lba.toNat ∧ lba.toNat ≠ 0 ∧ ¬ 2 ^ 20 ∣ lba.toNat * env.bytesPerSector.toNat := by
      intro lba
      rw [legacyOnly,List.mem_filter,named',mem_positions (small 63 63 (by decide)),mem_strided (by decide),
        decide_eq_true_eq,and_assoc]
      refine and_congr_right (fun below => ?_)
      rw [ne_eq,bytes lba below]
      constructor
      · rintro ⟨⟨k,reached⟩,off⟩
        exact ⟨⟨k + 1,by omega⟩,by omega,off⟩
      · rintro ⟨⟨k,multiple⟩,nonzero,off⟩
        exact ⟨⟨k - 1,by omega⟩,off⟩
    refine ⟨first ++ legacyOnly env.bytesPerSector legacy,?_,?_,?_⟩
    · have once : first.Nodup := by
        rw [named]
        exact nodup_positions (small 0 step positive) (strided_nodup positive)
      have once' : (legacyOnly env.bytesPerSector legacy).Nodup := by
        rw [named']
        exact (nodup_positions (small 63 63 (by decide)) (strided_nodup (by decide))).filter _
      refine List.Nodup.append once once' ?_
      intro lba left right
      exact ((on_legacy lba).mp right).2.2.2 ((on_first lba).mp left).2
    · intro lba
      rw [List.mem_append,on_first,on_legacy,Due,UInt64.lt_iff_toNat_lt]
      constructor
      · rintro (⟨below,boundary⟩ | ⟨below,cylinder,_⟩)
        · exact ⟨below,.inr (.inl boundary)⟩
        · exact ⟨below,.inr (.inr cylinder)⟩
      · rintro ⟨below,impossible | boundary | cylinder⟩
        · cases impossible
        · exact .inl ⟨below,boundary⟩
        · by_cases boundary : 2 ^ 20 ∣ lba.toNat * env.bytesPerSector.toNat
          · exact .inl ⟨below,boundary⟩
          · refine .inr ⟨below,cylinder,?_,boundary⟩
            intro first_sector
            rw [first_sector,Nat.zero_mul] at boundary
            exact boundary (Nat.dvd_zero _)
    · have swept := @scanSteps_all env disk never (stepSectors env.bytesPerSector .quick) total
        (by rw [stepped]; exact positive) (by rw [stepped]; omega) fuel 0 {} (by rw [zero]; omega)
      have cylinder : LEGACY_CHS_STEP.toNat = 63 := rfl
      have legacy_swept := @scanLegacy_all env disk never total (by omega) fuel LEGACY_CHS_STEP
        (ScanState.probeAll env disk first {}) (by omega)
      rw [zero,stepped,← named] at swept
      rw [cylinder,← named',probeAll_probeAll] at legacy_swept
      rw [scanPasses,swept]
      simp only [legacy_swept,Option.map_some]

/-- A scan that is not cancelled probes what its mode calls for, each position once, and
reports every position at which the detector recognises a filesystem. -/
theorem scan_covers (mode : PartitionScanMode) (geometry : env.device.diskGeometry = none)
    (divides : env.bytesPerSector.toNat ∣ 2 ^ 20) (signed : disk.totalBytes.toNat < 2 ^ 63) {fuel : Nat}
    (enough : (disk.totalBytes / env.bytesPerSector.toUInt64).toNat < fuel) :
    ∃ probed outcome results, scan env disk mode fuel = some (probed,outcome) ∧ probed.Nodup ∧
      (∀ lba, lba ∈ probed ↔ Due mode env.bytesPerSector (disk.totalBytes / env.bytesPerSector.toUInt64) lba) ∧
      ReportsAll env disk probed results ∧
      (outcome = .ok results ∨ results = [] ∧ ∃ e, outcome = .error e) := by
  have some_byte : 0 < env.bytesPerSector.toNat := Nat.pos_of_dvd_of_pos divides (by decide)
  have size : env.bytesPerSector ≠ 0 := by
    intro zero
    rw [zero] at some_byte
    exact absurd some_byte (by decide)
  obtain ⟨total,sectors⟩ : ∃ total, total = disk.totalBytes / env.bytesPerSector.toUInt64 := ⟨_,rfl⟩
  have within : total.toNat * env.bytesPerSector.toNat < 2 ^ 63 := by
    rw [sectors,UInt64.toNat_div,UInt32.toNat_toUInt64]
    exact Nat.lt_of_le_of_lt (Nat.div_mul_le_self _ _) signed
  have known : RawDiskHandle.getGeometry env.device disk = .ok disk.totalBytes := by
    rw [RawDiskHandle.getGeometry,geometry]
    rfl
  rw [← sectors] at enough ⊢
  unfold scan
  simp only [known,← sectors,if_neg size]
  by_cases empty : total = 0
  · have nothing : ∀ lba, ¬ Due mode env.bytesPerSector total lba := by
      rintro lba ⟨below,_⟩
      rw [empty] at below
      exact absurd (UInt64.lt_iff_toNat_lt.mp below) (Nat.not_lt_zero _)
    rw [if_pos empty]
    refine ⟨[],_,[],rfl,List.nodup_nil,?_,⟨List.nodup_nil,?_,?_⟩,.inr ⟨rfl,_,rfl⟩⟩
    · exact fun lba => ⟨fun member => absurd member List.not_mem_nil,fun due => absurd due (nothing lba)⟩
    · exact fun found member => absurd member List.not_mem_nil
    · exact fun lba member => absurd member List.not_mem_nil
  · obtain ⟨lbas,once,due,swept⟩ := @scanPasses_all env disk never mode total divides within fuel enough
    have reports := @reportsAll_marked env disk lbas once (env.driveLayout.getD [])
    have probed : (ScanState.probeAll env disk lbas {}).probed = lbas := List.nil_append _
    have raw : (ScanState.probeAll env disk lbas {}).results = lbas.filterMap (candidateAt env disk) := List.nil_append _
    rw [if_neg empty]
    simp only [swept,probed,raw]
    split
    next nothing => exact ⟨lbas,_,_,rfl,once,due,reports,.inr ⟨nothing,_,rfl⟩⟩
    next => exact ⟨lbas,_,_,rfl,once,due,reports,.inl rfl⟩

end Passes

/-- A disk of 4 MiB that says `ext4` wherever it is asked. -/
theorem scan_covers_sample :
    let env : ScanEnv := { detect := fun _ => some (.ext4,[]) }
    ∃ probed outcome results, scan env (filled 4194304 0) .quick 9000 = some (probed,outcome) ∧ probed.Nodup ∧
      (∀ lba, lba ∈ probed ↔ Due .quick 512 (4194304 / 512) lba) ∧ ReportsAll env (filled 4194304 0) probed results ∧
      (outcome = .ok results ∨ results = [] ∧ ∃ e, outcome = .error e) :=
  scan_covers (fun _ => rfl) .quick rfl (by decide) (by decide) (by decide)

end SetecWizard.Core.PartitionRecovery
