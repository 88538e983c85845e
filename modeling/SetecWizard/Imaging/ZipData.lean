import SetecWizard.Imaging.ZipPaths
import SetecWizard.Format.Integers

/-! The data of zip entries. What is extracted of an entry is what its compressed bytes, as
many as the local header says, decode to; nothing else about them is looked at.
-/
namespace SetecWizard.Core.Decompressor
open SetecWizard.Library

theorem slice_read (input : List UInt8) (pos : Nat) {n m : Nat} (within_ : m ≤ n) :
    slice input pos n = slice input pos m
      ++ slice input (pos + (slice input pos m).length) (n - (slice input pos m).length) := by
  by_cases fits : pos + m ≤ input.length
  · have size := length_slice input pos m fits
    have total : m + (n - m) = n := by omega
    rw [size,← slice_add,total]
  · have size : (slice input pos m).length = input.length - pos := by
      simp only [slice,List.length_take,List.length_drop]
      omega
    have whole : slice input pos n = slice input pos m := by
      simp only [slice]
      rw [List.take_of_length_le (by simp; omega),List.take_of_length_le (by simp; omega)]
    have past : input.drop (pos + (slice input pos m).length) = [] := by
      rw [List.drop_eq_nil_iff,size]
      omega
    rw [whole]
    simp only [slice] at past ⊢
    rw [past,List.take_nil,List.append_nil]

theorem copyStored_content (input : List UInt8) (writable : Nat → Bool) (pos remaining : Nat)
    (written : List UInt8) (done : (copyStored input writable pos remaining written).1 = .done) :
    (copyStored input writable pos remaining written).2 = written ++ slice input pos remaining := by
  fun_induction copyStored with
  | case1 => simp [slice]
  | case2 => cases done
  | case3 => cases done
  | case4 pos remaining written more got some_ fits ih =>
    rw [ih done,slice_read input pos (Nat.min_le_left remaining kChunkSize),List.append_assoc]

theorem copyStored_done (input : List UInt8) (writable : Nat → Bool) (always : ∀ i, writable i = true)
    (pos remaining : Nat) (written : List UInt8) (fits : pos + remaining ≤ input.length) :
    (copyStored input writable pos remaining written).1 = .done := by
  fun_induction copyStored with
  | case1 => rfl
  | case2 pos remaining written more got empty =>
    have size : got.length = min remaining kChunkSize :=
      length_slice input pos (min remaining kChunkSize) (by omega)
    rw [empty,List.length_nil] at size
    simp only [kChunkSize] at size
    omega
  | case3 pos remaining written more got some_ unfit => exact absurd (fun i _ => always _) unfit
  | case4 pos remaining written more got some_ whole ih =>
    have size : got.length = min remaining kChunkSize :=
      length_slice input pos (min remaining kChunkSize) (by omega)
    exact ih (by omega)

section

variable {F : Format UInt8 UInt8} (D : IdealDecoder F)

/-- The loop leaves off at the end of the stream or of the compressed bytes, and has then
written all that these decode to. -/
theorem inflateEntry_content (input : List UInt8) (writable : Nat → Bool) (strm : D.State) (pos remaining : Nat)
    (written : List UInt8) (same : written = D.given strm) (whole : D.given strm = F.produced (D.fed strm))
    (done : (inflateEntry D input writable strm pos remaining written).1 = .done) :
    (inflateEntry D input writable strm pos remaining written).2
      = F.produced (D.fed strm ++ slice input pos remaining) := by
  fun_induction inflateEntry D input writable strm pos remaining written with
  | case1 => simp [slice,same,whole]
  | case2 => cases done
  | case3 => cases done
  | case4 => cases done
  | case5 strm pos remaining written more got some_ drained outcome =>
    have tells := D.drain_tells kChunkSize writable (by decide) strm got written same
    unfold IdealDecoder.Tells at tells
    rw [show (D.drain kChunkSize writable strm got written).outcome = _ from outcome] at tells
    obtain ⟨⟨n,complete⟩,content⟩ := tells
    rw [slice_read input pos (Nat.min_le_left remaining kChunkSize),← List.append_assoc,
      F.complete_produced _ _ n complete]
    exact content
  | case6 strm pos remaining written more got some_ drained outcome ih =>
    have tells := D.drain_tells kChunkSize writable (by decide) strm got written same
    unfold IdealDecoder.Tells at tells
    rw [show (D.drain kChunkSize writable strm got written).outcome = _ from outcome] at tells
    obtain ⟨fed,given,produced,_⟩ := tells
    have next := ih given (by rw [produced,fed]) done
    rw [next,fed,slice_read input pos (Nat.min_le_left remaining kChunkSize),List.append_assoc]

theorem inflateEntry_done (input : List UInt8) (writable : Nat → Bool) (always : ∀ i, writable i = true)
    (strm : D.State) (pos remaining : Nat) (written : List UInt8) (same : written = D.given strm)
    (fits : pos + remaining ≤ input.length)
    (sound : F.verdict (D.fed strm ++ slice input pos remaining) ≠ .corrupt) :
    (inflateEntry D input writable strm pos remaining written).1 = .done := by
  have all : writable = fun _ => true := funext always
  fun_induction inflateEntry D input writable strm pos remaining written with
  | case1 => rfl
  | case2 strm pos remaining written more got empty =>
    have size : got.length = min remaining kChunkSize :=
      length_slice input pos (min remaining kChunkSize) (by omega)
    rw [empty,List.length_nil] at size
    simp only [kChunkSize] at size
    omega
  | case3 strm pos remaining written more got some_ drained code message outcome =>
    have tells := D.drain_tells kChunkSize writable (by decide) strm got written same
    unfold IdealDecoder.Tells at tells
    rw [show (D.drain kChunkSize writable strm got written).outcome = _ from outcome] at tells
    have corrupt := F.corrupt_append _ (slice input (pos + got.length) (remaining - got.length)) tells
    rw [slice_read input pos (Nat.min_le_left remaining kChunkSize),← List.append_assoc] at sound
    exact absurd corrupt sound
  | case4 strm pos remaining written more got some_ drained outcome =>
    have total := D.drain_total kChunkSize strm got written
    rw [← all] at total
    exact absurd outcome total
  | case5 => rfl
  | case6 strm pos remaining written more got some_ drained outcome ih =>
    have tells := D.drain_tells kChunkSize writable (by decide) strm got written same
    unfold IdealDecoder.Tells at tells
    rw [show (D.drain kChunkSize writable strm got written).outcome = _ from outcome] at tells
    obtain ⟨fed,given,_,_⟩ := tells
    have size : got.length = min remaining kChunkSize :=
      length_slice input pos (min remaining kChunkSize) (by omega)
    refine ih given (by omega) ?_
    rw [slice_read input pos (Nat.min_le_left remaining kChunkSize)] at sound
    rwa [fed,List.append_assoc]

end

section

variable {F : Format UInt8 UInt8} (D : IdealDecoder F) (host : ZipHost) (input : List UInt8)
  (outputDir : List Char)

def isFile (entry : ZipEntry) : Bool := !endsWithSlash (host.fromUtf8 entry.nameBuf)

def compressed (entry : ZipEntry) : List UInt8 :=
  slice input entry.dataOffset entry.header.compressedSize.toNat

variable (F) in
/-- What the compressed bytes of an entry stand for. -/
def entryData (entry : ZipEntry) : List UInt8 :=
  if entry.header.method = 0 then compressed input entry else F.produced (compressed input entry)

variable (F) in
def entryFile (entry : ZipEntry) : Place × List UInt8 :=
  (filePlace host outputDir (host.fromUtf8 entry.nameBuf),entryData F input entry)

variable (F) in
/-- The compressed bytes are there in full, and no decoder could refuse them. -/
structure Sound (entry : ZipEntry) : Prop where
  method : entry.header.method = 0 ∨ entry.header.method = 8
  fits : entry.dataOffset + entry.header.compressedSize.toNat ≤ input.length
  decodes : entry.header.method ≠ 0 → F.verdict (compressed input entry) ≠ .corrupt

/-- Nothing outside the archive stands in the way. -/
structure Faultless : Prop where
  opens : host.opens = true
  output : (mkpath host {} (filePath host outputDir ['.'])).1 = true
  openable : ∀ place, host.openable place = true
  writable : ∀ place i, host.writable place i = true
  initializes : host.initializes = true

theorem makeDirectories_files (world : ZipWorld) (places : List Place) :
    (makeDirectories host world places).2.files = world.files := by
  obtain ⟨added,adds⟩ := makeDirectories_adds host world places
  rw [adds.after]

theorem mkpath_files (world : ZipWorld) (path : List Char) : (mkpath host world path).2.files = world.files :=
  makeDirectories_files host world _

theorem extractEntry_files (world : ZipWorld) (entry : ZipEntry)
    (done : (extractEntry D host input outputDir world entry).1 = .ok ()) :
    (extractEntry D host input outputDir world entry).2.files
      = entryFile F host input outputDir entry :: world.files := by
  have kept := mkpath_files host world (dirPart (filePath host outputDir (host.fromUtf8 entry.nameBuf)))
  simp only [extractEntry] at done ⊢
  split at done
  next => cases done
  next opens =>
    rw [if_neg opens]
    split at done
    next stored =>
      rw [if_pos stored]
      split at done
      next content copied =>
        have whole := copyStored_content input (host.writable (filePlace host outputDir
          (host.fromUtf8 entry.nameBuf))) entry.dataOffset entry.header.compressedSize.toNat []
        simp only [filePlace] at whole
        rw [copied] at whole
        have bytes : content = [] ++ compressed input entry := whole rfl
        rw [bytes]
        simp only [entryFile,entryData,if_pos stored,kept,List.nil_append,filePlace]
      next => cases done
      next => cases done
      next => cases done
    next other =>
      rw [if_neg other]
      split at done
      next deflated =>
        rw [if_pos deflated]
        split at done
        next => cases done
        next starts =>
          rw [if_neg starts]
          split at done
          next content inflated =>
            have whole := inflateEntry_content D input (host.writable (filePlace host outputDir
              (host.fromUtf8 entry.nameBuf))) D.start entry.dataOffset entry.header.compressedSize.toNat []
              D.given_start.symm (by rw [D.given_start,D.fed_start,F.produced_nil])
            simp only [filePlace] at whole
            rw [inflated] at whole
            have bytes : content = F.produced (D.fed D.start ++ compressed input entry) := whole rfl
            rw [bytes]
            simp only [entryFile,entryData,if_neg other,kept,D.fed_start,List.nil_append,filePlace]
          next => cases done
          next => cases done
          next => cases done
      next => cases done

theorem extractEntry_done (faultless : Faultless host outputDir) (world : ZipWorld) {entry : ZipEntry}
    (sound : Sound F input entry) : (extractEntry D host input outputDir world entry).1 = .ok () := by
  have opens : ¬ ¬ host.openable (Place.resolve host.current
      (filePath host outputDir (host.fromUtf8 entry.nameBuf))) = true :=
    not_not.mpr (faultless.openable _)
  simp only [extractEntry]
  rw [if_neg opens]
  by_cases stored : entry.header.method = 0
  · have done := copyStored_done input (host.writable (Place.resolve host.current
      (filePath host outputDir (host.fromUtf8 entry.nameBuf)))) (faultless.writable _) entry.dataOffset
      entry.header.compressedSize.toNat [] sound.fits
    rw [if_pos stored]
    split
    next => rfl
    all_goals
      next _ other =>
        rw [other] at done
        cases done
  · have deflated := sound.method.resolve_left stored
    have done := inflateEntry_done D input (host.writable (Place.resolve host.current
      (filePath host outputDir (host.fromUtf8 entry.nameBuf)))) (faultless.writable _) D.start entry.dataOffset
      entry.header.compressedSize.toNat [] D.given_start.symm sound.fits
      (by rw [D.fed_start,List.nil_append]; exact sound.decodes stored)
    rw [if_neg stored,if_pos deflated,if_neg (not_not.mpr faultless.initializes)]
    split
    next => rfl
    all_goals
      next other =>
        rw [other] at done
        cases done

def walk (bytesProcessed : Nat) : List ZipEntry :=
  if input.length ≤ bytesProcessed then []
  else
    match _found : entryAt input bytesProcessed with
    | none => []
    | some entry => entry :: walk (nextPosition host input entry)
termination_by input.length - bytesProcessed
decreasing_by
  have forward := @nextPosition_gt host _ _ _ _found
  omega

def fileEntries (bytesProcessed : Nat) : List ZipEntry := (walk host input bytesProcessed).filter (isFile host)

variable (F) in
def entryFiles (bytesProcessed : Nat) : List (Place × List UInt8) :=
  (fileEntries host input bytesProcessed).map (entryFile F host input outputDir)

theorem walk_past {pos : Nat} (past : input.length ≤ pos) : walk host input pos = [] := by
  rw [walk,if_pos past]

theorem walk_none {pos : Nat} (none_ : entryAt input pos = none) : walk host input pos = [] := by
  rw [walk]
  split
  next => rfl
  next =>
    split
    next => rfl
    next found =>
      rw [none_] at found
      cases found

theorem walk_some {pos : Nat} {entry : ZipEntry} (more : ¬ input.length ≤ pos)
    (found : entryAt input pos = some entry) :
    walk host input pos = entry :: walk host input (nextPosition host input entry) := by
  rw [walk,if_neg more]
  split
  next none_ =>
    rw [found] at none_
    cases none_
  next other =>
    rw [found] at other
    cases other
    rfl

theorem fileEntries_some {pos : Nat} {entry : ZipEntry} (more : ¬ input.length ≤ pos)
    (found : entryAt input pos = some entry) : fileEntries host input pos
      = (if isFile host entry then [entry] else [])
        ++ fileEntries host input (nextPosition host input entry) := by
  simp only [fileEntries,walk_some host input more found,List.filter_cons]
  split
  next => rfl
  next => rfl

theorem performEntry_files (world : ZipWorld) (entry : ZipEntry)
    (done : (performEntry D host input outputDir world entry).1 = .ok ()) :
    (performEntry D host input outputDir world entry).2.files
      = ((if isFile host entry then [entry] else []).map (entryFile F host input outputDir)).reverse
        ++ world.files := by
  unfold isFile
  by_cases slash : endsWithSlash (host.fromUtf8 entry.nameBuf) = true
  · rw [performEntry,if_pos slash,slash]
    exact mkpath_files host world _
  · rw [performEntry,if_neg slash] at done ⊢
    rw [Bool.eq_false_of_not_eq_true slash]
    exact extractEntry_files D host input outputDir world entry done

theorem extractLoop_files (pos : Nat) (world : ZipWorld)
    (done : (extractLoop D host input outputDir pos world).1 = .ok ()) :
    (extractLoop D host input outputDir pos world).2.files
      = (entryFiles F host input outputDir pos).reverse ++ world.files := by
  fun_induction extractLoop D host input outputDir pos world with
  | case1 pos world past => simp [entryFiles,fileEntries,walk_past host input past]
  | case2 pos world more none_ => simp [entryFiles,fileEntries,walk_none host input none_]
  | case3 => cases done
  | case4 pos world more entry found after works ih =>
    have files := performEntry_files D host input outputDir world entry (by rw [works])
    rw [works] at files
    rw [ih done,entryFiles,entryFiles,fileEntries_some host input more found,files,List.map_append,
      List.reverse_append,List.append_assoc]

theorem extractLoop_done (faultless : Faultless host outputDir) (pos : Nat) (world : ZipWorld)
    (sound : ∀ entry ∈ walk host input pos, Sound F input entry) :
    (extractLoop D host input outputDir pos world).1 = .ok () := by
  fun_induction extractLoop D host input outputDir pos world with
  | case1 => rfl
  | case2 => rfl
  | case3 pos world more entry found e after fails =>
    rw [walk_some host input more found] at sound
    have done : (performEntry D host input outputDir world entry).1 = .ok () := by
      unfold performEntry
      split
      next => rfl
      next => exact extractEntry_done D host input outputDir faultless world (sound entry List.mem_cons_self)
    rw [fails] at done
    cases done
  | case4 pos world more entry found after works ih =>
    rw [walk_some host input more found] at sound
    exact ih (fun later member => sound later (List.mem_cons_of_mem _ member))

end

end SetecWizard.Core.Decompressor
