import SetecWizard.Recovery.MftScan

/-! The copy of a recovered file: the bytes of its runs one after the other, cut at the size
that is known. A size of zero counts as one that is not known.
-/
namespace SetecWizard.Library

variable {α : Type*}

theorem window_zero (store : Nat → α) (off : Nat) : window store off 0 = [] := rfl

end SetecWizard.Library

namespace SetecWizard.Core.FileRecovery
open SetecWizard.Library

variable {env : RecoveryEnv} {r : FileRecovery} {disk : Disk}

/-- Content cut at a size, unless the size is zero. -/
def limited (size : Nat) (content : List UInt8) : List UInt8 := if size = 0 then content else content.take size

theorem limited_nil (size : Nat) : limited size [] = [] := by
  rw [limited]
  split
  next => rfl
  next => exact List.take_nil

theorem limited_limited (size : Nat) (first second : List UInt8) :
    limited size (limited size first ++ second) = limited size (first ++ second) := by
  unfold limited
  split
  next => rfl
  next =>
    rw [List.take_append,List.take_append,List.take_take,Nat.min_self,List.length_take]
    by_cases full : size ≤ first.length
    · rw [Nat.min_eq_left full,Nat.sub_self,Nat.sub_eq_zero_of_le full]
    · rw [Nat.min_eq_right (by omega)]

theorem limited_idem (size : Nat) (content : List UInt8) : limited size (limited size content) = limited size content := by
  have twice := limited_limited size content []
  rwa [List.append_nil,List.append_nil] at twice

theorem limited_full {size : Nat} {first : List UInt8} (some_size : 0 < size)
    (full : size ≤ (limited size first).length) (second : List UInt8) :
    limited size (first ++ second) = limited size first := by
  unfold limited at full ⊢
  rw [if_neg (by omega)] at full ⊢
  rw [if_neg (by omega)]
  rw [List.length_take] at full
  rw [List.take_append_of_le_length (by omega)]

theorem positive_iff {size : UInt64} : 0 < size ↔ size.toNat ≠ 0 := by
  rw [UInt64.lt_iff_toNat_lt]
  exact Nat.pos_iff_ne_zero

theorem limited_chunk {sizeBytes : UInt64} {out data : List UInt8} (fits : limited sizeBytes.toNat out = out) :
    out ++ data.take (if 0 < sizeBytes ∧ sizeBytes.toNat < out.length + data.length then
        sizeBytes.toNat - out.length else data.length) = limited sizeBytes.toNat (out ++ data) := by
  unfold limited at fits ⊢
  by_cases known : sizeBytes.toNat = 0
  · rw [if_pos known,if_neg (fun both => positive_iff.mp both.1 known),List.take_length]
  · rw [if_neg known] at fits ⊢
    rw [List.take_append,fits]
    split
    next => rfl
    next enough =>
      have whole : ¬ sizeBytes.toNat < out.length + data.length := fun more =>
        enough ⟨positive_iff.mpr known,more⟩
      rw [List.take_length,List.take_of_length_le (by omega)]

section Copy

variable (vol : Readable env r disk) {sizeBytes runByteOffset runByteSize : UInt64}
include vol

theorem copyRun_eq (inside : runByteOffset.toNat + runByteSize.toNat ≤ partBytes r) {fuel : Nat} {off : UInt64}
    {out : List UInt8} (fits : limited sizeBytes.toNat out = out) (bounded : off.toNat < 2 ^ 63 + 2 ^ 20)
    (enough : runByteSize.toNat ≤ off.toNat + fuel * 2 ^ 20) :
    copyRun env r disk sizeBytes runByteOffset runByteSize (fuel + 1) off out =
      some (.ok (),limited sizeBytes.toNat (out ++ window disk.byte
        (partBase r + runByteOffset.toNat + off.toNat) (runByteSize.toNat - off.toNat))) := by
  have chunk : readChunk.toNat = 2 ^ 20 := rfl
  have room := vol.inside
  have signed := vol.signed
  have ends (fuel : Nat) {off : UInt64} {out : List UInt8} (fits : limited sizeBytes.toNat out = out)
      (last : ¬ off < runByteSize) : copyRun env r disk sizeBytes runByteOffset runByteSize (fuel + 1) off out =
      some (.ok (),limited sizeBytes.toNat (out ++ window disk.byte
        (partBase r + runByteOffset.toNat + off.toNat) (runByteSize.toNat - off.toNat))) := by
    have none : runByteSize.toNat - off.toNat = 0 := by
      rw [UInt64.lt_iff_toNat_lt] at last
      omega
    rw [copyRun,if_pos last,none,window_zero,List.append_nil,fits]
  induction fuel generalizing off out with
  | zero =>
    refine ends 0 fits ?_
    rw [UInt64.lt_iff_toNat_lt]
    omega
  | succ fuel ih =>
    by_cases more : off < runByteSize
    · have below := UInt64.lt_iff_toNat_lt.mp more
      have left : (runByteSize - off).toNat = runByteSize.toNat - off.toNat :=
        UInt64.toNat_sub_of_le _ _ (UInt64.le_iff_toNat_le.mpr (Nat.le_of_lt below))
      have toRead : (min readChunk (runByteSize - off)).toUInt32.toNat =
          min (2 ^ 20) (runByteSize.toNat - off.toNat) := by
        rw [UInt64.toNat_toUInt32,UInt64.toNat_min,chunk,left]
        exact Nat.mod_eq_of_lt (by omega)
      have place : (runByteOffset + off).toNat = runByteOffset.toNat + off.toNat := by
        rw [UInt64.toNat_add]
        exact Nat.mod_eq_of_lt (by omega)
      have next : (off + readChunk).toNat = off.toNat + 2 ^ 20 := by
        rw [UInt64.toNat_add,chunk]
        exact Nat.mod_eq_of_lt (by omega)
      have read := @readPartitionBytes_inside env r disk vol (runByteOffset + off)
        (min readChunk (runByteSize - off)).toUInt32 (by omega) (by omega) (by omega)
      rw [place,toRead,← Nat.add_assoc] at read
      rw [copyRun,if_neg (not_not_intro more)]
      simp only [read,limited_chunk fits]
      -- the chunk and what is behind it are the rest of the run
      have rest : window disk.byte (partBase r + runByteOffset.toNat + off.toNat) (runByteSize.toNat - off.toNat) =
          window disk.byte (partBase r + runByteOffset.toNat + off.toNat)
            (min (2 ^ 20) (runByteSize.toNat - off.toNat)) ++
          window disk.byte (partBase r + runByteOffset.toNat + (off + readChunk).toNat)
            (runByteSize.toNat - (off + readChunk).toNat) := by
        rw [next]
        by_cases full : 2 ^ 20 ≤ runByteSize.toNat - off.toNat
        · have joined : runByteSize.toNat - off.toNat = 2 ^ 20 + (runByteSize.toNat - (off.toNat + 2 ^ 20)) := by omega
          rw [Nat.min_eq_left full,← Nat.add_assoc,← window_append,← joined]
        · have none : runByteSize.toNat - (off.toNat + 2 ^ 20) = 0 := by omega
          rw [Nat.min_eq_right (by omega),none,window_zero,List.append_nil]
      split
      next done =>
        rw [rest,← List.append_assoc,limited_full (Nat.pos_of_ne_zero (positive_iff.mp done.1)) done.2]
      next going =>
        have whole : limited sizeBytes.toNat (limited sizeBytes.toNat (out ++ window disk.byte
            (partBase r + runByteOffset.toNat + off.toNat) (min (2 ^ 20) (runByteSize.toNat - off.toNat)))) = _ :=
          limited_idem _ _
        rw [ih whole (by omega) (by omega),limited_limited,List.append_assoc,← rest]
    · exact ends (fuel + 1) fits more

end Copy

/-- The bytes of a run: those of its clusters, or zeros. -/
def FileRun.bytes (r : FileRecovery) (disk : Disk) (clusterSize : UInt32) (run : FileRun) : List UInt8 :=
  match run.cluster with
  | none => List.replicate (run.count * clusterSize.toNat) 0
  | some cluster =>
    window disk.byte (partBase r + cluster.toNat * clusterSize.toNat) (run.count * clusterSize.toNat)

def logicalContent (r : FileRecovery) (disk : Disk) (clusterSize : UInt32) (realSize : Nat) (runs : List FileRun) :
    List UInt8 :=
  (runs.flatMap (FileRun.bytes r disk clusterSize)).take realSize

def onDisk (runs : List FileRun) : List FileRun := runs.filter (fun run => run.cluster.isSome)

/-- The clusters of a run are clusters of the partition. -/
def FileRun.Inside (r : FileRecovery) (clusterSize : UInt32) (run : FileRun) : Prop :=
  ∀ cluster, run.cluster = some cluster → run.count ≠ 0 →
    0 ≤ cluster ∧ (cluster.toNat + run.count) * clusterSize.toNat ≤ partBytes r

section Runs

variable (vol : Readable env r disk) {clusterSize : UInt32} {sizeBytes : UInt64}
include vol

theorem copyRun_run {run : FileRun} {stored : DataRun} (kept : run.stored = some stored)
    (inside : run.Inside r clusterSize) (some_byte : 0 < clusterSize.toNat) {fuel : Nat}
    (enough : partBytes r ≤ fuel * 2 ^ 20) {out : List UInt8} (fits : limited sizeBytes.toNat out = out) :
    copyRun env r disk sizeBytes (stored.clusterOffset * clusterSize.toUInt64)
      (stored.clusterCount * clusterSize.toUInt64) (fuel + 1) 0 out =
      some (.ok (),limited sizeBytes.toNat (out ++ run.bytes r disk clusterSize)) := by
  obtain ⟨place,count⟩ := run
  cases place with
  | none => cases kept
  | some cluster =>
    cases kept
    have room := vol.inside
    have signed := vol.signed
    have start : (0 : UInt64).toNat = 0 := rfl
    by_cases empty : count = 0
    · have none : (UInt64.ofNat count * clusterSize.toUInt64) = 0 := by
        rw [empty]
        exact UInt64.zero_mul
      have done : ¬ (0 : UInt64) < 0 := by decide
      simp only [none,FileRun.bytes]
      rw [copyRun,if_pos done]
      rw [empty,Nat.zero_mul,window_zero,List.append_nil,fits]
    · obtain ⟨positive,ends⟩ : 0 ≤ cluster ∧ (cluster.toNat + count) * clusterSize.toNat ≤ partBytes r :=
        inside cluster rfl empty
      have whole : (cluster.toNat + count) ≤ partBytes r :=
        Nat.le_trans (Nat.le_mul_of_pos_right _ some_byte) ends
      rw [Nat.add_mul] at ends
      have first : (UInt64.ofInt cluster).toNat = cluster.toNat := by
        rw [UInt64.ofInt,UInt64.toNat_ofNat']
        omega
      have place : (UInt64.ofInt cluster * clusterSize.toUInt64).toNat = cluster.toNat * clusterSize.toNat := by
        rw [UInt64.toNat_mul,first,UInt32.toNat_toUInt64]
        exact Nat.mod_eq_of_lt (by omega)
      have length : (UInt64.ofNat count * clusterSize.toUInt64).toNat = count * clusterSize.toNat := by
        have counted : (UInt64.ofNat count).toNat = count := by
          rw [UInt64.toNat_ofNat']
          exact Nat.mod_eq_of_lt (by omega)
        rw [UInt64.toNat_mul,counted,UInt32.toNat_toUInt64]
        exact Nat.mod_eq_of_lt (by omega)
      have copied := @copyRun_eq env r disk vol sizeBytes (UInt64.ofInt cluster * clusterSize.toUInt64)
        (UInt64.ofNat count * clusterSize.toUInt64) (by omega) fuel 0 out fits (by rw [start]; decide)
        (by rw [start,Nat.zero_add]; omega)
      rw [copied,place,length,start,Nat.add_zero,Nat.sub_zero]
      rfl

theorem copyRuns_eq {runs : List FileRun} (inside : ∀ run ∈ runs, run.Inside r clusterSize)
    (some_byte : 0 < clusterSize.toNat) {fuel : Nat} (enough : partBytes r ≤ fuel * 2 ^ 20) {out : List UInt8}
    (fits : limited sizeBytes.toNat out = out) :
    copyRuns env r disk clusterSize sizeBytes (fuel + 1) (runs.filterMap FileRun.stored) out =
      some (.ok (),limited sizeBytes.toNat (out ++ (onDisk runs).flatMap (FileRun.bytes r disk clusterSize))) := by
  induction runs generalizing out with
  | nil =>
    rw [List.filterMap_nil,copyRuns,onDisk,List.filter_nil,List.flatMap_nil,List.append_nil,fits]
  | cons run rest ih =>
    obtain ⟨here,there⟩ := List.forall_mem_cons.mp inside
    cases kept : run.stored with
    | none =>
      have absent : run.cluster = none := by simpa [FileRun.stored] using kept
      have same : onDisk (run :: rest) = onDisk rest := List.filter_cons_of_neg (by simp [absent])
      rw [List.filterMap_cons_none kept,ih there fits,same]
    | some stored =>
      have present : run.cluster.isSome = true := by
        cases place : run.cluster with
        | none => simp [FileRun.stored,place] at kept
        | some _ => rfl
      have more : onDisk (run :: rest) = run :: onDisk rest := List.filter_cons_of_pos present
      rw [List.filterMap_cons_some kept,copyRuns,copyRun_run vol kept here some_byte enough fits,more,
        List.flatMap_cons,← List.append_assoc]
      simp only []
      split
      next full =>
        rw [limited_full (Nat.pos_of_ne_zero (positive_iff.mp full.1)) full.2]
      next going => rw [ih there (limited_idem _ _),limited_limited]

theorem recoverNtfsFile_eq {file : RecoverableFile} {outputPath : String} {runs : List FileRun}
    (room : 512 ≤ partBytes r) (sectors : readLE16 (window disk.byte (partBase r) 512) 0x0B ≠ 0)
    (clusters : (window disk.byte (partBase r) 512).getD 0x0D 0 ≠ 0) (creates : env.creates outputPath = true)
    (size : clusterSize = (readLE16 (window disk.byte (partBase r) 512) 0x0B).toUInt32 *
      ((window disk.byte (partBase r) 512).getD 0x0D 0).toUInt32) (some_byte : 0 < clusterSize.toNat)
    (inside : ∀ run ∈ runs, run.Inside r clusterSize) (stored : file.dataRuns = runs.filterMap FileRun.stored)
    {fuel : Nat} (enough : partBytes r ≤ fuel * 2 ^ 20) :
    recoverNtfsFile env r disk file outputPath (fuel + 1) = some (.ok (),some (limited file.sizeBytes.toNat
      ((onDisk runs).flatMap (FileRun.bytes r disk clusterSize)))) := by
  have boot := @readPartitionBytes_inside env r disk vol 0 512 (by decide) (by decide) room
  have start : partBase r + (0 : UInt64).toNat = partBase r := rfl
  have length : (512 : UInt32).toNat = 512 := rfl
  rw [start,length] at boot
  have copied := @copyRuns_eq env r disk vol clusterSize file.sizeBytes runs inside some_byte fuel enough []
    (limited_nil _)
  rw [List.nil_append] at copied
  unfold recoverNtfsFile
  simp only [boot,if_neg (not_or_intro sectors clusters),creates,Bool.true_eq_false,if_false]
  rw [← size,stored,copied]
  rfl

end Runs
end SetecWizard.Core.FileRecovery
