import SetecWizard.Core.SdCardAnalyzer
import Mathlib.Data.List.Count
import Mathlib.Data.List.Nodup
import Mathlib.Tactic.Ring

/-! Where the surface scan of a card reads. No call says where to read, so that each one reads
where the last one ended; the buffer has room for 64 sectors of 512 bytes.
-/
namespace SetecWizard.Core.SdCardAnalyzer

variable (host : SurfaceHost) (sectorSize total : Nat)

def offsets (read : SurfaceRead) : List Nat :=
  (List.range read.toRead).map (fun k => read.position + k * sectorSize)

/-- No read is longer than the buffer, each sector of the card is read once and at its own
offset, all sectors are counted, and those of the failed reads are counted as bad. -/
structure ScansSafely (result : SdHealthResult) (reads : List SurfaceRead) : Prop where
  fits : ∀ read ∈ reads, read.readBytes ≤ bufSize
  once : ∀ s, s < result.totalSectors → (reads.flatMap (offsets sectorSize)).count (s * sectorSize) = 1
  ends : result.sectorsScanned = result.totalSectors
  bad : result.badSectors = ((reads.filter (fun read => !read.ok)).map SurfaceRead.toRead).sum

/-- A call transfers all that it is asked for. -/
def ReadsInFull (call position readBytes : Nat) : Prop :=
  ∃ n, host.readFile call position readBytes = some n ∧ readBytes ≤ n

section Reads

def readsFrom (call sec position : Nat) : List SurfaceRead :=
  if total ≤ sec then []
  else
    let toRead := min kSectorsPerRead (total - sec)
    let readBytes := toRead * sectorSize
    ⟨sec,toRead,position,readBytes,readOk host call position readBytes⟩ ::
      readsFrom (call + 1) (sec + kSectorsPerRead) (position + transferred host call position readBytes)
termination_by total - sec
decreasing_by
  simp only [kSectorsPerRead]
  omega

variable {host} {sectorSize} {total}

theorem readOk_iff {call position readBytes : Nat} :
    readOk host call position readBytes = true ↔ ReadsInFull host call position readBytes := by
  unfold readOk transferred ReadsInFull
  cases host.readFile call position readBytes with
  | none => simp
  | some n => simp

theorem transferred_le (call position readBytes : Nat) : transferred host call position readBytes ≤ readBytes :=
  Nat.min_le_right _ _

theorem readOk_of_transferred {call position readBytes : Nat} (some_byte : 0 < readBytes)
    (all : transferred host call position readBytes = readBytes) : readOk host call position readBytes = true := by
  unfold readOk
  unfold transferred at all ⊢
  cases answer : host.readFile call position readBytes with
  | none =>
    rw [answer] at all
    simp at all
    omega
  | some n =>
    rw [answer] at all
    simpa using all

theorem transferred_of_readOk {call position readBytes : Nat} (ok : readOk host call position readBytes = true) :
    transferred host call position readBytes = readBytes := by
  simp only [readOk,Bool.and_eq_true,beq_iff_eq] at ok
  exact ok.2

theorem surfaceLoop_reads (never : ∀ sec, host.canceled sec = false) (sec : Nat) (run : SurfaceRun) :
    (surfaceLoop host sectorSize sec run).reads = run.reads ++
        readsFrom host sectorSize run.result.totalSectors run.reads.length sec run.position ∧
      (surfaceLoop host sectorSize sec run).result.totalSectors = run.result.totalSectors := by
  fun_induction surfaceLoop host sectorSize sec run with
  | case1 sec run done =>
    rw [readsFrom,if_pos done,List.append_nil]
    exact ⟨rfl,rfl⟩
  | case2 sec run _ canceled => rw [never] at canceled; cases canceled
  | case3 sec run more _ ih =>
    rw [readsFrom,if_neg more,ih.1,ih.2]
    simp only [surfacePass,List.length_append,List.length_singleton,List.append_assoc,List.singleton_append,and_self]

def Counted (sec : Nat) (run : SurfaceRun) : Prop :=
  run.result.sectorsScanned = min sec run.result.totalSectors ∧
    run.result.badSectors = ((run.reads.filter (fun read => !read.ok)).map SurfaceRead.toRead).sum

theorem counted_pass {sec : Nat} {run : SurfaceRun} (counted : Counted sec run) :
    Counted (sec + kSectorsPerRead) (surfacePass host sectorSize sec run) := by
  obtain ⟨scanned,bad⟩ := counted
  constructor
  · simp only [surfacePass,scanned,kSectorsPerRead]
    omega
  · simp only [surfacePass,List.filter_append,List.map_append,List.sum_append,bad]
    split
    next ok => simp [ok]
    next failed => simp [failed]

theorem surfaceLoop_counts (never : ∀ sec, host.canceled sec = false) (sec : Nat) (run : SurfaceRun)
    (counted : Counted sec run) :
    Counted run.result.totalSectors (surfaceLoop host sectorSize sec run) := by
  fun_induction surfaceLoop host sectorSize sec run with
  | case1 sec run done => exact ⟨by rw [counted.1,Nat.min_self,Nat.min_eq_right done],counted.2⟩
  | case2 sec run _ canceled => rw [never] at canceled; cases canceled
  | case3 sec run more _ ih => exact ih (counted_pass counted)

end Reads

section Offsets

variable {host} {sectorSize} {total}

/-- Every read but the last goes well. -/
def AllButLast : List SurfaceRead → Prop
  | [] => True
  | [_] => True
  | read :: next :: rest => read.ok = true ∧ AllButLast (next :: rest)

theorem mem_offsets {read : SurfaceRead} {off : Nat} :
    off ∈ offsets sectorSize read ↔ ∃ k, k < read.toRead ∧ off = read.position + k * sectorSize := by
  simp only [offsets,List.mem_map,List.mem_range]
  constructor
  · rintro ⟨k,bound,rfl⟩
    exact ⟨k,bound,rfl⟩
  · rintro ⟨k,bound,rfl⟩
    exact ⟨k,bound,rfl⟩

theorem offsets_chunk (sec n readBytes : Nat) (ok : Bool) :
    offsets sectorSize ⟨sec,n,sec * sectorSize,readBytes,ok⟩ = (List.range' sec n).map (· * sectorSize) := by
  rw [List.range'_eq_map_range,List.map_map,offsets]
  apply List.map_congr_left
  intro k _
  exact (Nat.add_mul sec k sectorSize).symm

theorem readsFrom_done {call sec position : Nat} (done : total ≤ sec) :
    readsFrom host sectorSize total call sec position = [] := by
  rw [readsFrom,if_pos done]

theorem readsFrom_more {call sec position : Nat} (more : sec < total) :
    readsFrom host sectorSize total call sec position =
      ⟨sec,min kSectorsPerRead (total - sec),position,min kSectorsPerRead (total - sec) * sectorSize,
        readOk host call position (min kSectorsPerRead (total - sec) * sectorSize)⟩ ::
      readsFrom host sectorSize total (call + 1) (sec + kSectorsPerRead)
        (position + transferred host call position (min kSectorsPerRead (total - sec) * sectorSize)) := by
  rw [readsFrom,if_neg (Nat.not_le.mpr more)]

theorem allButLast_readsFrom {call sec position : Nat} (more : sec < total) :
    AllButLast (readsFrom host sectorSize total call sec position) ↔ (sec + kSectorsPerRead < total →
      readOk host call position (kSectorsPerRead * sectorSize) = true ∧
        AllButLast (readsFrom host sectorSize total (call + 1) (sec + kSectorsPerRead)
          (position + transferred host call position (kSectorsPerRead * sectorSize)))) := by
  rw [readsFrom_more more]
  rcases Nat.lt_or_ge (sec + kSectorsPerRead) total with again | last
  · have whole : min kSectorsPerRead (total - sec) = kSectorsPerRead := by omega
    rw [whole,readsFrom_more again]
    exact ⟨fun both _ => both,fun both => both again⟩
  · rw [readsFrom_done last]
    exact ⟨fun _ again => absurd again (by omega),fun _ => trivial⟩

theorem offsets_aligned {call sec : Nat} (chunks : Nat) (few : total ≤ sec + chunks * kSectorsPerRead)
    (good : AllButLast (readsFrom host sectorSize total call sec (sec * sectorSize))) :
    (readsFrom host sectorSize total call sec (sec * sectorSize)).flatMap (offsets sectorSize) =
      (List.range' sec (total - sec)).map (· * sectorSize) := by
  induction chunks generalizing call sec with
  | zero =>
    rw [readsFrom_done (by omega),Nat.sub_eq_zero_of_le (by omega)]
    rfl
  | succ chunks ih =>
    rcases Nat.lt_or_ge sec total with more | done
    · rw [allButLast_readsFrom more] at good
      rw [readsFrom_more more,List.flatMap_cons,offsets_chunk]
      rcases Nat.lt_or_ge (sec + kSectorsPerRead) total with again | last
      · obtain ⟨ok,rest⟩ := good again
        have whole : min kSectorsPerRead (total - sec) = kSectorsPerRead := by omega
        have next : sec * sectorSize + transferred host call (sec * sectorSize) (kSectorsPerRead * sectorSize) =
            (sec + kSectorsPerRead) * sectorSize := by
          rw [transferred_of_readOk ok,Nat.add_mul]
        have parts : total - sec = kSectorsPerRead + (total - (sec + kSectorsPerRead)) := by omega
        rw [next] at rest
        rw [whole,next,ih (by rw [Nat.add_mul] at few; omega) rest,← List.map_append,parts]
        exact congrArg _ List.range'_append_1
      · rw [readsFrom_done last,List.flatMap_nil,List.append_nil,Nat.min_eq_right (by omega)]
    · rw [readsFrom_done done,Nat.sub_eq_zero_of_le done]
      rfl

/-- The last sector is read only when no read before the last one has fallen behind. -/
theorem last_sector {call sec position : Nat} (some_byte : 0 < sectorSize) (chunks : Nat)
    (few : total ≤ sec + chunks * kSectorsPerRead) (behind : position ≤ sec * sectorSize)
    (reached : (total - 1) * sectorSize ∈
      (readsFrom host sectorSize total call sec position).flatMap (offsets sectorSize)) :
    position = sec * sectorSize ∧ AllButLast (readsFrom host sectorSize total call sec position) := by
  induction chunks generalizing call sec position with
  | zero =>
    rw [readsFrom_done (by omega)] at reached
    exact absurd reached List.not_mem_nil
  | succ chunks ih =>
    rcases Nat.lt_or_ge sec total with more | done
    · rw [readsFrom_more more,List.flatMap_cons,List.mem_append] at reached
      rw [allButLast_readsFrom more]
      rcases reached with here | later
      · obtain ⟨k,bound,place⟩ := mem_offsets.mp here
        simp only at bound place
        have furthest : (sec + k) * sectorSize ≤ (total - 1) * sectorSize :=
          Nat.mul_le_mul_right _ (by omega)
        have nearest : (total - 1) * sectorSize ≤ (sec + k) * sectorSize := by
          rw [place,Nat.add_mul]
          omega
        have same := Nat.eq_of_mul_eq_mul_right some_byte (Nat.le_antisymm nearest furthest)
        constructor
        · rw [Nat.add_mul] at furthest
          omega
        · intro again
          omega
      · rcases Nat.lt_or_ge (sec + kSectorsPerRead) total with again | last
        · have whole : min kSectorsPerRead (total - sec) = kSectorsPerRead := by omega
          rw [whole] at later
          have moved := @transferred_le host call position (kSectorsPerRead * sectorSize)
          obtain ⟨start,rest⟩ := ih (by rw [Nat.add_mul] at few; omega)
            (by rw [Nat.add_mul]; omega) later
          rw [Nat.add_mul] at start
          have here : position = sec * sectorSize := by omega
          have all : transferred host call position (kSectorsPerRead * sectorSize) =
              kSectorsPerRead * sectorSize := by omega
          have something : 0 < kSectorsPerRead * sectorSize := Nat.mul_pos (by decide) some_byte
          exact ⟨here,fun _ => ⟨readOk_of_transferred something all,rest⟩⟩
        · rw [readsFrom_done last] at later
          exact absurd later List.not_mem_nil
    · rw [readsFrom_done done] at reached
      exact absurd reached List.not_mem_nil

/-- The reads are in step when all calls but the last transfer what they are asked for. -/
theorem inStep_iff {call : Nat} (chunks : Nat) (few : total ≤ (call + chunks) * kSectorsPerRead)
    (left : call * kSectorsPerRead < total) :
    AllButLast (readsFrom host sectorSize total call (call * kSectorsPerRead) (call * kSectorsPerRead * sectorSize)) ↔
      ∀ i, call ≤ i → (i + 1) * kSectorsPerRead < total →
        ReadsInFull host i (i * kSectorsPerRead * sectorSize) (kSectorsPerRead * sectorSize) := by
  induction chunks generalizing call with
  | zero => exact absurd left (by rw [Nat.add_zero] at few; omega)
  | succ chunks ih =>
    have step : call * kSectorsPerRead + kSectorsPerRead = (call + 1) * kSectorsPerRead := (Nat.succ_mul _ _).symm
    rw [allButLast_readsFrom left,step]
    constructor
    · intro good i from_call inside
      have again : (call + 1) * kSectorsPerRead < total :=
        Nat.lt_of_le_of_lt (Nat.mul_le_mul_right _ (by omega)) inside
      obtain ⟨ok,rest⟩ := good again
      rw [transferred_of_readOk ok,← Nat.add_mul,step] at rest
      rcases Nat.eq_or_lt_of_le from_call with rfl | after
      · exact readOk_iff.mp ok
      · exact (ih (by rw [Nat.add_assoc,Nat.add_comm 1]; exact few) again).mp rest i after inside
    · intro full again
      have ok := readOk_iff.mpr (full call (Nat.le_refl _) again)
      refine ⟨ok,?_⟩
      rw [transferred_of_readOk ok,← Nat.add_mul,step]
      exact (ih (by rw [Nat.add_assoc,Nat.add_comm 1]; exact few) again).mpr
        (fun i after => full i (by omega))

end Offsets

section Scan

variable {host} {sectorSize} {sizeBytes : Nat}

theorem surfaceScan_runs (info : host.getDiskInfo = .ok (sizeBytes,sectorSize)) (opens : host.createFile = none)
    (size : 0 < sectorSize) (never : ∀ sec, host.canceled sec = false) :
    ∃ result, surfaceScan host = .ok (result,readsFrom host sectorSize (sizeBytes / sectorSize) 0 0 0) ∧
      result.totalSectors = sizeBytes / sectorSize ∧ result.sectorsScanned = sizeBytes / sectorSize ∧
      result.badSectors = (((readsFrom host sectorSize (sizeBytes / sectorSize) 0 0 0).filter
        (fun read => !read.ok)).map SurfaceRead.toRead).sum := by
  obtain ⟨start,starts⟩ : ∃ start : SurfaceRun, start = { result := { totalSectors := sizeBytes / sectorSize } } :=
    ⟨_,rfl⟩
  have total : start.result.totalSectors = sizeBytes / sectorSize := by rw [starts]
  have counted : Counted 0 start := by
    rw [starts]
    exact ⟨(Nat.zero_min _).symm,rfl⟩
  obtain ⟨reads,same⟩ := @surfaceLoop_reads host sectorSize never 0 start
  obtain ⟨scanned,bad⟩ := @surfaceLoop_counts host sectorSize never 0 start counted
  have listed : (surfaceLoop host sectorSize 0 start).reads =
      readsFrom host sectorSize (sizeBytes / sectorSize) 0 0 0 := by
    rw [reads,total,starts]
    rfl
  rw [same,Nat.min_self,total] at scanned
  rw [total] at same
  rw [listed] at bad
  simp only [surfaceScan,info,opens,if_pos size,← starts]
  exact ⟨_,congrArg _ (congrArg _ listed),same,scanned,bad⟩

theorem readBytes_le {total call sec position : Nat} :
    ∀ read ∈ readsFrom host sectorSize total call sec position,
      read.readBytes ≤ min kSectorsPerRead (total - sec) * sectorSize := by
  fun_induction readsFrom host sectorSize total call sec position with
  | case1 => exact fun _ member => absurd member List.not_mem_nil
  | case2 call sec position more toRead readBytes ih =>
    refine List.forall_mem_cons.mpr ⟨Nat.le_refl _,fun read member => ?_⟩
    exact Nat.le_trans (ih read member) (Nat.mul_le_mul_right _ (by omega))

theorem count_multiples {total : Nat} (positive : 0 < sectorSize) {s : Nat} (inside : s < total) :
    ((List.range' 0 total).map (· * sectorSize)).count (s * sectorSize) = 1 := by
  have apart : Function.Injective (· * sectorSize) := fun _ _ same => Nat.eq_of_mul_eq_mul_right positive same
  apply List.count_eq_one_of_mem
  · exact List.Nodup.map apart (List.nodup_range' 1 Nat.one_pos)
  · apply List.mem_map_of_mem
    exact List.mem_range'_1.mpr ⟨Nat.zero_le _,by omega⟩

/-- A card is scanned safely exactly when no chunk is larger than the buffer and no call before
the last one falls behind. -/
theorem surfaceScan_safe_iff (info : host.getDiskInfo = .ok (sizeBytes,sectorSize)) (opens : host.createFile = none)
    (size : sectorSize ∈ [512,1024,2048,4096]) (never : ∀ sec, host.canceled sec = false) :
    (∃ result reads, surfaceScan host = .ok (result,reads) ∧ ScansSafely sectorSize result reads) ↔
      min kSectorsPerRead (sizeBytes / sectorSize) * sectorSize ≤ bufSize ∧
        ∀ i, (i + 1) * kSectorsPerRead < sizeBytes / sectorSize →
          ReadsInFull host i (i * kSectorsPerRead * sectorSize) (kSectorsPerRead * sectorSize) := by
  have positive : 0 < sectorSize := by
    simp only [List.mem_cons,List.not_mem_nil,or_false] at size
    omega
  obtain ⟨result,run,all,scanned,bad⟩ := surfaceScan_runs info opens positive never
  obtain ⟨total,counts⟩ : ∃ total, total = sizeBytes / sectorSize := ⟨_,rfl⟩
  rw [← counts] at run all scanned bad ⊢
  have chunks : total ≤ 0 + total * kSectorsPerRead := by
    rw [Nat.zero_add]
    exact Nat.le_mul_of_pos_right _ (by decide)
  rcases Nat.eq_zero_or_pos total with none_left | some_left
  · have empty : readsFrom host sectorSize total 0 0 0 = [] := readsFrom_done (by omega)
    rw [empty] at run bad
    rw [none_left,Nat.min_zero,Nat.zero_mul]
    refine ⟨fun _ => ⟨Nat.zero_le _,fun _ inside => absurd inside (Nat.not_lt_zero _)⟩,fun _ => ?_⟩
    refine ⟨result,[],run,fun _ member => absurd member List.not_mem_nil,fun s inside => ?_,?_,bad⟩
    · omega
    · rw [scanned,all]
  · have step := @inStep_iff host sectorSize total 0 total (by rw [Nat.zero_add]; omega) (by omega)
    rw [Nat.zero_mul,Nat.zero_mul] at step
    constructor
    · rintro ⟨result',reads,same,safe⟩
      rw [run] at same
      cases same
      constructor
      · have first : readsFrom host sectorSize total 0 0 0 = _ := readsFrom_more some_left
        apply safe.fits ⟨0,min kSectorsPerRead (total - 0),0,min kSectorsPerRead (total - 0) * sectorSize,_⟩
        rw [first]
        exact List.mem_cons_self
      · have reached := safe.once (total - 1) (by omega)
        have member := List.count_pos_iff.mp (by rw [reached]; exact Nat.one_pos)
        obtain ⟨_,good⟩ := last_sector positive total chunks (Nat.zero_le _) member
        exact fun i inside => step.mp good i (Nat.zero_le _) inside
    · rintro ⟨fits,full⟩
      have good := step.mpr (fun i _ inside => full i inside)
      have listed := @offsets_aligned host sectorSize total 0 0 total chunks (by rw [Nat.zero_mul]; exact good)
      rw [Nat.zero_mul,Nat.sub_zero] at listed
      refine ⟨result,_,run,fun read member => ?_,fun s inside => ?_,by rw [scanned,all],bad⟩
      · exact Nat.le_trans (readBytes_le read member) fits
      · rw [listed]
        exact count_multiples positive (by omega)

def smallCard : SurfaceHost where
  getDiskInfo := .ok (192 * 512,512)

theorem small_scanned : ∃ result reads, surfaceScan smallCard = .ok (result,reads) ∧ ScansSafely 512 result reads :=
  (surfaceScan_safe_iff rfl rfl (by decide) (fun _ => rfl)).mpr
    ⟨by decide,fun _ _ => ⟨_,rfl,Nat.le_refl _⟩⟩

/-- A card with sectors of 4096 bytes is asked for eight times what the buffer holds, by the
first call. -/
theorem large_sectors_overrun :
    ¬ ∃ result reads, surfaceScan { getDiskInfo := .ok (64 * 4096,4096) } = .ok (result,reads) ∧
      ScansSafely 4096 result reads := by
  rintro ⟨result,reads,run,safe⟩
  obtain ⟨_,same,_⟩ := @surfaceScan_runs { getDiskInfo := .ok (64 * 4096,4096) } 4096 (64 * 4096) rfl rfl (by decide)
    (fun _ => rfl)
  rw [same] at run
  cases run
  have small := safe.fits _ (by rw [readsFrom_more (by decide)]; exact List.mem_cons_self)
  exact absurd small (by decide)

end Scan

end SetecWizard.Core.SdCardAnalyzer
