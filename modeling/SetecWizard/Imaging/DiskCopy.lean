import SetecWizard.Core.VirtualDisk
import SetecWizard.Imaging.Sectors
import Mathlib.Logic.Relation

/-! The copy loop under any pattern of faults. What it has counted is on the target,
however often a chunk was written in part before; and it counts on as long as reads
deliver something and one of three attempts to write it succeeds.
-/
namespace SetecWizard.Core
open SetecWizard.Library

namespace VirtualDisk

variable {env : CopyEnv} {source : Disk} {target target' : FileHandle}

theorem write_length (handle : FileHandle) (buf : List UInt8) (outcome : Bool × Nat) :
    handle.length ≤ (handle.write buf outcome).2.length ∧
      (handle.pos ≤ handle.length →
        handle.pos + (buf.take outcome.2).length ≤ (handle.write buf outcome).2.length) := by
  simp only [FileHandle.write]
  split
  next nothing => exact ⟨Nat.le_refl _,fun reaches => by rw [nothing]; exact reaches⟩
  next => exact ⟨Nat.le_max_left _ _,fun _ => Nat.le_max_right _ _⟩

section Attempts

def Succeeds (env : CopyEnv) (pos attempt n : Nat) : Prop :=
  (env.writeFile pos attempt).1 = true ∧ n ≤ (env.writeFile pos attempt).2

instance (env : CopyEnv) (pos attempt n : Nat) : Decidable (Succeeds env pos attempt n) :=
  inferInstanceAs (Decidable (_ ∧ _))

theorem attempt_written {buf : List UInt8} {pos attempt : Nat} :
    ((env.writeFile pos attempt).1 = true ∧ (buf.take (env.writeFile pos attempt).2).length = buf.length) ↔
      Succeeds env pos attempt buf.length := by
  rw [List.length_take]
  exact and_congr_right fun _ => by omega

variable {buf : List UInt8} {totalCopied : UInt64}

def attempted (env : CopyEnv) (buf : List UInt8) (pos attempt : Nat) (target : FileHandle) : FileHandle :=
  (target.write buf (env.writeFile pos attempt)).2

theorem writeAttempts_succ (left attempt : Nat) (target : FileHandle) :
    writeAttempts env buf totalCopied (left + 1) attempt target =
      if Succeeds env totalCopied.toNat attempt buf.length then
        (true,attempted env buf totalCopied.toNat attempt target)
      else writeAttempts env buf totalCopied left (attempt + 1)
        ((attempted env buf totalCopied.toNat attempt target).seek totalCopied) := by
  rw [writeAttempts]
  exact if_congr attempt_written rfl rfl

theorem writeAttempts_true_iff (left attempt : Nat) (target : FileHandle) :
    (writeAttempts env buf totalCopied left attempt target).1 = true ↔
      ∃ k < left, Succeeds env totalCopied.toNat (attempt + k) buf.length := by
  induction left generalizing attempt target with
  | zero => simp [writeAttempts]
  | succ left ih =>
    rw [writeAttempts_succ]
    split
    next succeeds => exact ⟨fun _ => ⟨0,Nat.succ_pos _,succeeds⟩,fun _ => rfl⟩
    next fails =>
      rw [ih]
      constructor
      · rintro ⟨k,below,later⟩
        exact ⟨k + 1,Nat.succ_lt_succ below,by rwa [← Nat.add_assoc,Nat.add_right_comm]⟩
      · rintro ⟨k,below,later⟩
        cases k with
        | zero => exact absurd later fails
        | succ k => exact ⟨k,Nat.lt_of_succ_lt_succ below,by rwa [Nat.add_right_comm,Nat.add_assoc]⟩

/-- However many attempts it took, the chunk is where it belongs and nothing else changed. -/
theorem writeAttempts_ok {n left attempt : Nat} (small : totalCopied.toNat < 2 ^ 63)
    (stands : target.pos = totalCopied.toNat) (reaches : totalCopied.toNat ≤ target.length)
    (done : writeAttempts env (window source.byte totalCopied.toNat n) totalCopied left attempt target =
      (true,target')) :
    target'.pos = totalCopied.toNat + n ∧ totalCopied.toNat + n ≤ target'.length ∧
      Copied source.byte 0 totalCopied.toNat (totalCopied.toNat + n) (totalCopied.toNat + n)
        target.byte target'.byte := by
  induction left generalizing attempt target with
  | zero => simp [writeAttempts] at done
  | succ left ih =>
    rw [writeAttempts_succ,length_window] at done
    split at done
    next succeeds =>
      obtain rfl := (Prod.mk.inj done).2
      have all := List.take_of_length_le (l := window source.byte totalCopied.toNat n)
        (i := (env.writeFile totalCopied.toNat attempt).2) (by rw [length_window]; exact succeeds.2)
      have grown := (write_length target (window source.byte totalCopied.toNat n)
        (env.writeFile totalCopied.toNat attempt)).2 (by omega)
      rw [all,length_window,stands] at grown
      rw [attempted]
      refine ⟨by simp only [FileHandle.write,all,length_window,stands],grown,?_⟩
      simp only [FileHandle.write,all,stands]
      have piece := @Copied.of_patch UInt8 source.byte 0 totalCopied.toNat (totalCopied.toNat + n)
        (totalCopied.toNat + n) target.byte (window source.byte totalCopied.toNat n)
        (by rw [length_window]) (fun i above below => by
          rw [getElem?_window,if_pos (by omega),Nat.add_sub_cancel' above])
      rwa [Nat.zero_add] at piece
    next fails =>
      rw [FileHandle.seek,if_pos small] at done
      have kept := (write_length target (window source.byte totalCopied.toNat n)
        (env.writeFile totalCopied.toNat attempt)).1
      obtain ⟨pos,grown,copied⟩ := ih rfl (by exact Nat.le_trans reaches kept) done
      refine ⟨pos,grown,copied.inside,fun i apart => (copied.outside i apart).trans ?_⟩
      apply patch_apart
      rw [List.length_take,length_window,stands]
      omega

end Attempts

section Loop

variable (env source) (toRead : UInt64 → Nat)

def nextRead (pos : Nat) : Nat := delivered env source pos (toRead (UInt64.ofNat pos))

/-- The loop gets from one position to the next: something is read, and one of three
attempts to write it succeeds. -/
def Advances (pos next : Nat) : Prop :=
  0 < nextRead env source toRead pos ∧ next = pos + nextRead env source toRead pos ∧
    ∃ attempt < 3, Succeeds env pos attempt (nextRead env source toRead pos)

def Leads : Nat → Nat → Prop := Relation.ReflTransGen (Advances env source toRead)

variable {env source toRead}

theorem delivered_le (env : CopyEnv) (source : Disk) (pos n : Nat) :
    delivered env source pos n ≤ n ∧ delivered env source pos n ≤ source.totalBytes.toNat - pos := by
  unfold delivered
  split
  · exact ⟨Nat.zero_le _,Nat.zero_le _⟩
  · exact available_le source pos n _

theorem leads_le {pos dry : Nat} (leads : Leads env source toRead pos dry) : pos ≤ dry := by
  induction leads with
  | refl => exact Nat.le_refl _
  | tail _ last ih =>
    obtain ⟨_,rfl,_⟩ := last
    omega

/-- Where the loop stands: the three positions agree, and the target reaches that far. -/
structure Stands (source : Disk) (pos : Nat) (totalCopied : UInt64) (target : FileHandle) : Prop where
  counted : totalCopied.toNat = pos
  writes : target.pos = pos
  reaches : pos ≤ target.length
  inside : pos ≤ source.totalBytes.toNat

variable {pos fuel : Nat} {totalCopied : UInt64} {last : CopyEnd}

theorem Stands.next (small : source.totalBytes.toNat < 2 ^ 63) (stands : Stands source pos totalCopied target)
    (written : writeAttempts env (window source.byte pos (nextRead env source toRead pos)) totalCopied 3 0 target =
      (true,target')) :
    Stands source (pos + nextRead env source toRead pos)
        (totalCopied + UInt64.ofNat (nextRead env source toRead pos)) target' ∧
      Copied source.byte 0 pos (pos + nextRead env source toRead pos) (pos + nextRead env source toRead pos)
        target.byte target'.byte := by
  have bound := (delivered_le env source pos (toRead (UInt64.ofNat pos))).2
  change nextRead env source toRead pos ≤ _ at bound
  obtain ⟨counted,writes,reaches,inside⟩ := stands
  rw [← counted] at written
  obtain ⟨moved,grown,copied⟩ := writeAttempts_ok (by omega) (by rw [writes,counted]) (by omega) written
  rw [counted] at moved grown copied
  refine ⟨⟨?_,moved,grown,by omega⟩,copied⟩
  rw [UInt64.toNat_add,UInt64.toNat_ofNat',counted]
  omega

/-- What a round of the loop does: it ends where nothing is read, ends with a chunk that
cannot be written, or goes on. -/
theorem copyLoop_succ (stands : Stands source pos totalCopied target) :
    copyLoop env source toRead (fuel + 1) totalCopied pos target =
      if nextRead env source toRead pos = 0 then some ⟨totalCopied,false,target⟩
      else
        let buf := window source.byte pos (nextRead env source toRead pos)
        let (written,after) := writeAttempts env buf totalCopied 3 0 target
        if written = true then copyLoop env source toRead fuel
          (totalCopied + UInt64.ofNat (nextRead env source toRead pos))
          (pos + nextRead env source toRead pos) after
        else some ⟨totalCopied,true,after⟩ := by
  have total : UInt64.ofNat pos = totalCopied := by
    apply UInt64.toNat_inj.mp
    have bound := totalCopied.toNat_lt
    rw [UInt64.toNat_ofNat',← stands.counted,Nat.mod_eq_of_lt bound]
  have most := (delivered_le env source pos (toRead totalCopied)).1
  rw [copyLoop,nextRead,total]
  split
  next zero => rw [if_pos (by omega)]
  next =>
    simp only
    split
    next => rfl
    next =>
      rcases writeAttempts env _ totalCopied 3 0 target with ⟨_ | _,after⟩ <;> rfl

/-- The loop by induction on its rounds: what is counted has been copied, and an end
without a write error is one where nothing more is read. -/
theorem copyLoop_ok (small : source.totalBytes.toNat < 2 ^ 63) (stands : Stands source pos totalCopied target)
    (done : copyLoop env source toRead fuel totalCopied pos target = some last) :
    Leads env source toRead pos last.totalCopied.toNat ∧ (last.writeError = false →
      pos ≤ last.totalCopied.toNat ∧ nextRead env source toRead last.totalCopied.toNat = 0 ∧
      last.totalCopied.toNat ≤ last.target.length ∧
      Copied source.byte 0 pos last.totalCopied.toNat last.totalCopied.toNat target.byte last.target.byte) := by
  induction fuel generalizing pos totalCopied target with
  | zero => cases done
  | succ fuel ih =>
    rw [copyLoop_succ stands] at done
    have counted := stands.counted
    split at done
    next dry =>
      cases done
      rw [counted]
      exact ⟨.refl,fun _ => ⟨Nat.le_refl _,dry,stands.reaches,.refl _ _ _ _⟩⟩
    next some_bytes =>
      simp only at done
      split at done
      next written =>
        obtain ⟨stands',copied⟩ := stands.next small (Prod.ext written rfl)
        obtain ⟨leads,rest⟩ := ih stands' done
        have tried := (writeAttempts_true_iff 3 0 target).mp written
        rw [length_window,counted] at tried
        simp only [Nat.zero_add] at tried
        refine ⟨.head ⟨Nat.pos_of_ne_zero some_bytes,rfl,tried⟩ leads,fun fine => ?_⟩
        obtain ⟨ordered,dry,grown,copied'⟩ := rest fine
        exact ⟨by omega,dry,grown,copied.append copied' (by omega) ordered⟩
      next =>
        cases done
        rw [counted]
        exact ⟨.refl,fun wrong => by cases wrong⟩

/-- Where the positions lead to a place without more to read, the loop stops there. -/
theorem copyLoop_stops (small : source.totalBytes.toNat < 2 ^ 63) {dry : Nat}
    (leads : Leads env source toRead pos dry) (nothing : nextRead env source toRead dry = 0)
    (stands : Stands source pos totalCopied target) (enough : dry < pos + fuel) :
    ∃ last, copyLoop env source toRead fuel totalCopied pos target = some last ∧
      last.totalCopied.toNat = dry ∧ last.writeError = false := by
  induction leads using Relation.ReflTransGen.head_induction_on generalizing totalCopied target fuel with
  | refl =>
    obtain ⟨fuel,rfl⟩ : ∃ f, fuel = f + 1 := ⟨fuel - 1,by omega⟩
    rw [copyLoop_succ stands,if_pos nothing]
    exact ⟨_,rfl,stands.counted,rfl⟩
  | @head pos next first rest ih =>
    obtain ⟨some_bytes,rfl,tried⟩ := first
    have onward : pos + nextRead env source toRead pos ≤ dry := leads_le rest
    obtain ⟨fuel,rfl⟩ : ∃ f, fuel = f + 1 := ⟨fuel - 1,by omega⟩
    have written : (writeAttempts env (window source.byte pos (nextRead env source toRead pos)) totalCopied 3 0
        target).1 = true := by
      rw [writeAttempts_true_iff,length_window,stands.counted]
      simpa using tried
    obtain ⟨stands',_⟩ := stands.next small (Prod.ext written rfl)
    have enough' : dry < pos + nextRead env source toRead pos + fuel := by omega
    obtain ⟨last,done,stopped⟩ := ih stands' enough'
    refine ⟨last,?_,stopped⟩
    rw [copyLoop_succ stands,if_neg (by omega)]
    simp only [written,if_true]
    exact done

theorem copyLoop_returns (small : source.totalBytes.toNat < 2 ^ 63) (stands : Stands source pos totalCopied target)
    (enough : source.totalBytes.toNat < pos + fuel) :
    (copyLoop env source toRead fuel totalCopied pos target).isSome := by
  induction fuel generalizing pos totalCopied target with
  | zero => exact absurd stands.inside (by omega)
  | succ fuel ih =>
    rw [copyLoop_succ stands]
    split
    next => rfl
    next some_bytes =>
      simp only
      split
      next written => exact ih (stands.next small (Prod.ext written rfl)).1 (by omega)
      next => rfl

end Loop

/-- The first bytes of a target are those of the source. -/
structure Holds (target : FileContent) (source : Disk) (size : UInt64) : Prop where
  reaches : size.toNat ≤ target.length
  same : ∀ i < size.toNat, target.byte i = source.byte i

/-- After chunks that were all written, a read before the end fails or delivers nothing. -/
def DriesUp (env : CopyEnv) (source : Disk) (toRead : UInt64 → Nat) (size : UInt64) (pos : Nat) : Prop :=
  Leads env source toRead 0 pos ∧ pos < size.toNat ∧ nextRead env source toRead pos = 0

/-- A copy ends. One that ends without an error is complete, and a read that fails or an early end of
the input is reported as an error. -/
structure CompleteCopy (env : CopyEnv) (source : Disk) (toRead : UInt64 → Nat) (size : UInt64)
    (run : Nat → CopyResult) : Prop where
  ends : ∃ fuel, (run fuel).isSome
  copied : ∀ fuel target', run fuel = some (.ok (),target') → Holds target' source size
  reported : ∀ pos, DriesUp env source toRead size pos →
    ∀ fuel result target', run fuel = some (result,target') → result ≠ .ok ()

section Runs

variable {setup : Result UInt64} {toRead : UInt64 → UInt64 → Nat} {verdict : UInt64 → CopyEnd → Result Unit}
  {size : UInt64} {target : FileContent}

theorem stands_start (source : Disk) (target : FileContent) : Stands source 0 0 { target with pos := 0 } :=
  ⟨rfl,rfl,Nat.zero_le _,Nat.zero_le _⟩

theorem runCopy_returns (small : source.totalBytes.toNat < 2 ^ 63) :
    ∃ fuel, (runCopy env source fuel setup toRead verdict target).isSome := by
  refine ⟨source.totalBytes.toNat + 1,?_⟩
  unfold runCopy
  split
  next => rfl
  next =>
    rw [Option.isSome_map]
    exact copyLoop_returns small (stands_start source target) (by omega)

theorem runCopy_ok {fuel : Nat} {target' : FileContent} (prepared : setup = .ok size)
    (done : runCopy env source fuel setup toRead verdict target = some (.ok (),target')) :
    ∃ last, copyLoop env source (toRead size) fuel 0 0 { target with pos := 0 } = some last ∧
      verdict size last = .ok () ∧ last.target.toFileContent = target' := by
  rw [prepared,runCopy] at done
  obtain ⟨last,ended,same⟩ := Option.map_eq_some_iff.mp done
  obtain ⟨fine,rfl⟩ := Prod.mk.inj same
  exact ⟨last,ended,fine,rfl⟩

/-- Where a copy without a write error has counted to the end, the target holds the source. -/
theorem holds_of_counted {fuel : Nat} {last : CopyEnd} (small : source.totalBytes.toNat < 2 ^ 63)
    (ended : copyLoop env source (toRead size) fuel 0 0 { target with pos := 0 } = some last)
    (wrote : last.writeError = false) (reached : size.toNat ≤ last.totalCopied.toNat) :
    Holds last.target.toFileContent source size := by
  obtain ⟨_,_,grown,copied⟩ := (copyLoop_ok small (stands_start source target) ended).2 wrote
  refine ⟨Nat.le_trans reached grown,fun i below => ?_⟩
  have read := copied.inside i (Nat.zero_le i) (by omega)
  rwa [Nat.zero_add] at read

/-- A copy that reports only write errors does what it should exactly when no read dries up. -/
theorem runCopy_complete_iff (small : source.totalBytes.toNat < 2 ^ 63) (prepared : setup = .ok size)
    (lenient : ∀ last, verdict size last = .ok () ↔ last.writeError = false) :
    CompleteCopy env source (toRead size) size (fun fuel => runCopy env source fuel setup toRead verdict target) ↔
      ∀ pos, ¬ DriesUp env source (toRead size) size pos := by
  constructor
  · rintro complete pos ⟨leads,before,dry⟩
    obtain ⟨last,done,stopped,fine⟩ := copyLoop_stops small leads dry (stands_start source target)
      (by omega : pos < 0 + (pos + 1))
    have run : runCopy env source (pos + 1) setup toRead verdict target =
        some (.ok (),last.target.toFileContent) := by
      rw [prepared,runCopy,done]
      simp only [Option.map_some,(lenient last).mpr fine]
    exact complete.reported pos ⟨leads,before,dry⟩ _ _ _ run rfl
  · intro delivers
    refine ⟨runCopy_returns small,fun fuel target' done => ?_,fun pos dries => absurd dries (delivers pos)⟩
    obtain ⟨last,ended,fine,rfl⟩ := runCopy_ok prepared done
    have wrote := (lenient last).mp fine
    obtain ⟨leads,rest⟩ := copyLoop_ok small (stands_start source target) ended
    have dry := (rest wrote).2.1
    exact holds_of_counted small ended wrote (Nat.le_of_not_lt fun before => delivers _ ⟨leads,before,dry⟩)

theorem advances_unique (env : CopyEnv) (source : Disk) (toRead : UInt64 → Nat) :
    Relator.RightUnique (Advances env source toRead) := by
  rintro pos next other ⟨_,rfl,_⟩ ⟨_,rfl,_⟩
  rfl

/-- The loop gets nowhere beyond a place without more to read. -/
theorem leads_le_dry {pos place dry : Nat} (leads : Leads env source (toRead size) pos place)
    (stop : Leads env source (toRead size) pos dry) (nothing : nextRead env source (toRead size) dry = 0) :
    place ≤ dry := by
  rcases Relation.ReflTransGen.total_of_right_unique (advances_unique env source _) leads stop with later | earlier
  · exact leads_le later
  · cases earlier.cases_head with
    | inl same => exact Nat.le_of_eq same.symm
    | inr onward =>
      obtain ⟨_,⟨some_bytes,_,_⟩,_⟩ := onward
      omega

theorem runCopy_complete (small : source.totalBytes.toNat < 2 ^ 63) (prepared : setup = .ok size)
    (strict : ∀ last, verdict size last = .ok () → last.writeError = false ∧ size ≤ last.totalCopied) :
    CompleteCopy env source (toRead size) size
      (fun fuel => runCopy env source fuel setup toRead verdict target) := by
  refine ⟨runCopy_returns small,?_,?_⟩
  · intro fuel target' done
    obtain ⟨last,ended,fine,rfl⟩ := runCopy_ok prepared done
    obtain ⟨wrote,reached⟩ := strict last fine
    exact holds_of_counted small ended wrote (UInt64.le_iff_toNat_le.mp reached)
  · rintro pos ⟨leads,before,dry⟩ fuel result target' done rfl
    obtain ⟨last,ended,fine,rfl⟩ := runCopy_ok prepared done
    have reached := UInt64.le_iff_toNat_le.mp (strict last fine).2
    have counted := (copyLoop_ok small (stands_start source target) ended).1
    have short := leads_le_dry counted leads dry
    omega

theorem flashVerdict_ok (size : UInt64) (last : CopyEnd) : flashVerdict size last = .ok () ↔ last.writeError = false := by
  cases wrong : last.writeError <;> simp [flashVerdict,wrong]

theorem rawVerdict_ok (size : UInt64) (last : CopyEnd) : rawVerdict size last = .ok () ↔ last.writeError = false := by
  cases wrong : last.writeError <;> simp [rawVerdict,wrong]

theorem virtualVerdict_ok (size : UInt64) (last : CopyEnd) (fine : virtualVerdict size last = .ok ()) :
    last.writeError = false ∧ size ≤ last.totalCopied := by
  unfold virtualVerdict at fine
  split at fine
  next => cases fine
  next wrote =>
    split at fine
    next => cases fine
    next enough => exact ⟨by simpa using wrote,UInt64.not_lt.mp enough⟩

end Runs

/-- Success is a complete copy, and no read that fails goes unnoticed: always when a disk is
captured to a virtual disk; when one is captured raw or an image flashed, exactly if no read
before the end comes back with nothing. -/
theorem success_is_complete_iff (env : CopyEnv) (source : Disk) (small : source.totalBytes.toNat < 2 ^ 63)
    (target : FileContent) (size : UInt64) :
    (∀ format fileSize diskLength, flashSetup env format fileSize diskLength = .ok size →
      (CompleteCopy env source (flashChunk size) size
          (fun fuel => flashToDisk env source fuel format fileSize diskLength target) ↔
        ∀ pos, ¬ DriesUp env source (flashChunk size) size pos)) ∧
    (∀ format diskInfo, ¬ (format = .vhd ∨ format = .vhdx) → rawSetup env diskInfo = .ok size →
      (CompleteCopy env source (captureChunk size) size
          (fun fuel => captureFromDisk env source fuel diskInfo format target) ↔
        ∀ pos, ¬ DriesUp env source (captureChunk size) size pos)) ∧
    (∀ format diskInfo, format = .vhd ∨ format = .vhdx → virtualSetup env diskInfo = .ok size →
      CompleteCopy env source (captureChunk size) size
        (fun fuel => captureFromDisk env source fuel diskInfo format target)) := by
  refine ⟨fun format fileSize diskLength prepared => ?_,fun format diskInfo raw prepared => ?_,
    fun format diskInfo isVirtual prepared => ?_⟩
  · exact runCopy_complete_iff small prepared (flashVerdict_ok size)
  · simp only [captureFromDisk,if_neg raw]
    exact runCopy_complete_iff small prepared (rawVerdict_ok size)
  · simp only [captureFromDisk,if_pos isVirtual]
    exact runCopy_complete small prepared (virtualVerdict_ok size)

section Sample

def retriedWrites : CopyEnv :=
  { readFile := fun _ => some 2, writeFile := fun _ attempt => if attempt = 0 then (false,1) else (true,2) }

def sixBytes : Disk := ⟨6,fun _ => 0xAA⟩

def longerFile : FileContent := { byte := fun _ => 0x11, length := 9 }

theorem retried_delivers (pos : Nat) : ¬ DriesUp retriedWrites sixBytes (flashChunk 6) 6 pos ∧
    ¬ DriesUp retriedWrites sixBytes (captureChunk 6) 6 pos := by
  have reads : ∀ pos < 6, nextRead retriedWrites sixBytes (flashChunk 6) pos ≠ 0 ∧
      nextRead retriedWrites sixBytes (captureChunk 6) pos ≠ 0 := by decide
  exact ⟨fun ⟨_,before,dry⟩ => (reads pos before).1 dry,fun ⟨_,before,dry⟩ => (reads pos before).2 dry⟩

/-- The six bytes flashed, captured over a longer file and captured to a virtual disk. -/
theorem success_sample : sixBytes.totalBytes.toNat < 2 ^ 63 ∧
    CompleteCopy retriedWrites sixBytes (flashChunk 6) 6
      (fun fuel => flashToDisk retriedWrites sixBytes fuel .raw 6 0 longerFile) ∧
    CompleteCopy retriedWrites sixBytes (captureChunk 6) 6
      (fun fuel => captureFromDisk retriedWrites sixBytes fuel (.ok 6) .raw longerFile) ∧
    CompleteCopy retriedWrites sixBytes (captureChunk 6) 6
      (fun fuel => captureFromDisk retriedWrites sixBytes fuel (.ok 6) .vhdx longerFile) := by
  have sound := success_is_complete_iff retriedWrites sixBytes (by decide) longerFile 6
  exact ⟨by decide,(sound.1 .raw 6 0 rfl).mpr fun pos => (retried_delivers pos).1,
    (sound.2.1 .raw (.ok 6) (by decide) rfl).mpr fun pos => (retried_delivers pos).2,
    sound.2.2 .vhdx (.ok 6) (by decide) rfl⟩

/-- Such a capture ends, and nothing of the longer file is left. -/
example : (captureFromDisk retriedWrites sixBytes 4 (.ok 6) .raw longerFile).map
    (fun last => (last.1.isOk,last.2.length)) = some (true,6) := by decide

/-- Two reads work, of two bytes each, and the third one fails. -/
def failingRead : CopyEnv := { readFile := fun pos => if pos < 4 then some 2 else none }

/-- The read that fails goes unnoticed, and the last two bytes of the image are missing. -/
theorem failed_read_flashed :
    ∃ target', flashToDisk failingRead sixBytes 4 .raw 6 0 { byte := fun _ => 0, length := 9 } =
      some (.ok (),target') ∧ ¬ Holds target' sixBytes 6 := by
  have ends : ∃ target', flashToDisk failingRead sixBytes 4 .raw 6 0 { byte := fun _ => 0, length := 9 } =
      some (.ok (),target') ∧ target'.byte 5 = 0 := ⟨_,rfl,by decide⟩
  obtain ⟨target',done,missing⟩ := ends
  refine ⟨target',done,fun complete => ?_⟩
  have read := complete.same 5 (by decide)
  rw [missing] at read
  revert read
  decide

end Sample

end VirtualDisk
end SetecWizard.Core
