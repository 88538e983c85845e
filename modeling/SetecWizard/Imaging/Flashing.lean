import SetecWizard.Core.IsoFlasher
import SetecWizard.Imaging.Sectors

/-! Flashing. What arrives on the disk is the pieces that the reads of the file gave, each
laid at the sector it begins in, so that the image is complete exactly if every read begins
on a sector boundary and the reads reach the end of the file.
-/
namespace SetecWizard.Core.IsoFlasher
open SetecWizard.Library

/-- The sizes of the reads, until the file is read, a read fails, or it gives nothing. -/
def deliveries (readFile : Nat → Nat → Except UInt32 Nat) (bufSize fileSize pos : Nat) : List Nat :=
  if fileSize ≤ pos then []
  else
    let readSize := min bufSize (fileSize - pos)
    match readFile pos readSize with
    | .error _ => []
    | .ok moved =>
      if min moved readSize = 0 then []
      else min moved readSize :: deliveries readFile bufSize fileSize (pos + min moved readSize)
termination_by fileSize - pos

section Deliveries

variable {readFile : Nat → Nat → Except UInt32 Nat} {bufSize fileSize pos : Nat}

theorem deliveries_past (past : fileSize ≤ pos) : deliveries readFile bufSize fileSize pos = [] := by
  rw [deliveries,if_pos past]

theorem deliveries_failed {lastErr : UInt32} (more : ¬ fileSize ≤ pos)
    (failed : readFile pos (min bufSize (fileSize - pos)) = .error lastErr) :
    deliveries readFile bufSize fileSize pos = [] := by
  rw [deliveries,if_neg more]
  simp only [failed]

theorem deliveries_ended {moved : Nat} (more : ¬ fileSize ≤ pos)
    (read : readFile pos (min bufSize (fileSize - pos)) = .ok moved)
    (ended : min moved (min bufSize (fileSize - pos)) = 0) : deliveries readFile bufSize fileSize pos = [] := by
  rw [deliveries,if_neg more]
  simp only [read,if_pos ended]

theorem deliveries_read {moved : Nat} (more : ¬ fileSize ≤ pos)
    (read : readFile pos (min bufSize (fileSize - pos)) = .ok moved)
    (some_ : ¬ min moved (min bufSize (fileSize - pos)) = 0) :
    deliveries readFile bufSize fileSize pos = min moved (min bufSize (fileSize - pos))
      :: deliveries readFile bufSize fileSize (pos + min moved (min bufSize (fileSize - pos))) := by
  rw [deliveries,if_neg more]
  simp only [read,if_neg some_]

theorem deliveries_positive : ∀ size ∈ deliveries readFile bufSize fileSize pos, 0 < size := by
  fun_induction deliveries readFile bufSize fileSize pos with
  | case1 => simp
  | case2 => simp
  | case3 => simp
  | case4 pos more readSize moved read some_ ih =>
    intro size member
    rcases List.mem_cons.mp member with rfl | later
    · exact Nat.pos_of_ne_zero some_
    · exact ih size later

theorem deliveries_sum (within_ : pos ≤ fileSize) :
    pos + (deliveries readFile bufSize fileSize pos).sum ≤ fileSize := by
  fun_induction deliveries readFile bufSize fileSize pos with
  | case1 => simpa using within_
  | case2 => simpa using within_
  | case3 => simpa using within_
  | case4 pos more readSize moved read some_ ih =>
    have least := Nat.min_le_right moved readSize
    have rest := ih (by omega)
    rw [List.sum_cons]
    omega

end Deliveries

/-- The pieces of the file, with the MBR put over the first that is long enough. -/
def pieces (file : Nat → UInt8) : Option (List UInt8) → Nat → List Nat → List (List UInt8)
  | _,_,[] => []
  | mbr,pos,size :: rest =>
    (overlay mbr (window file pos size)).1
      :: pieces file (overlay mbr (window file pos size)).2 (pos + size) rest

/-- What is put over a chunk fills it up to byte 512. -/
def Overlays (mbr : Option (List UInt8)) : Prop := ∀ table ∈ mbr, table.length = 66

theorem overlays_none : Overlays none := by
  intro table none_
  cases none_

theorem overlays_mbr (diskBytes : UInt64) : Overlays (some (mbrTable diskBytes)) := by
  intro table same
  cases same
  rfl

section Overlay

variable {mbr : Option (List UInt8)} (overlays : Overlays mbr)

include overlays

theorem length_overlay (data : List UInt8) : (overlay mbr data).1.length = data.length := by
  cases mbr with
  | none => rfl
  | some table =>
    simp only [overlay]
    split
    next long => exact length_splice _ _ _ (by rw [overlays table rfl]; omega)
    next => rfl

theorem overlay_later (data : List UInt8) : Overlays (overlay mbr data).2 := by
  cases mbr with
  | none => exact overlays_none
  | some table =>
    simp only [overlay]
    split
    next => exact overlays_none
    next => exact overlays

theorem length_pieces (file : Nat → UInt8) (pos : Nat) (sizes : List Nat) :
    (pieces file mbr pos sizes).map List.length = sizes := by
  induction sizes generalizing mbr pos with
  | nil => rfl
  | cons size rest ih =>
    simp only [pieces,List.map_cons]
    rw [length_overlay overlays,length_window,ih (overlay_later overlays _)]

end Overlay

/-- Whether an MBR is left over depends on the sizes only. -/
theorem overlay_snd (mbr : Option (List UInt8)) {data other : List UInt8} (size : data.length = other.length) :
    (overlay mbr data).2 = (overlay mbr other).2 := by
  cases mbr with
  | none => rfl
  | some table =>
    simp only [overlay,size]
    split
    next => rfl
    next => rfl

section Writing

variable {env : FlashEnv} {fileSize : UInt64} {dstSectorSize : UInt32}

theorem lba_start {pos : Nat} (small : pos < 2 ^ 64) :
    (UInt64.ofNat (pos / dstSectorSize.toNat) * dstSectorSize.toUInt64).toNat
      = pos / dstSectorSize.toNat * dstSectorSize.toNat := by
  have below := Nat.div_mul_le_self pos dstSectorSize.toNat
  have quotient := Nat.div_le_self pos dstSectorSize.toNat
  rw [UInt64.toNat_mul,UInt64.toNat_ofNat',UInt32.toNat_toUInt64,
    Nat.mod_eq_of_lt (a := pos / dstSectorSize.toNat) (by omega),Nat.mod_eq_of_lt (by omega)]

theorem length_padPiece (positive : 0 < dstSectorSize.toNat) (data : List UInt8) :
    (padPiece dstSectorSize.toNat 0 data).length = roundUp data.length dstSectorSize.toNat := by
  have above := le_roundUp (n := data.length) positive
  rw [padPiece,List.length_append,List.length_replicate]
  omega

theorem writeChunk_ok (positive : 0 < dstSectorSize.toNat) {data : List UInt8} {pos : Nat} {dst dst' : Disk} (small : pos < 2 ^ 64)
    (short : data.length < 2 ^ 32) (done : writeChunk env dstSectorSize data pos dst = (.ok (),dst')) :
    dst' = dst.patched (pos / dstSectorSize.toNat * dstSectorSize.toNat) (padPiece dstSectorSize.toNat 0 data) := by
  have width := dstSectorSize.toNat_lt
  have close := roundUp_lt (n := data.length) positive
  have quotient : (data.length + dstSectorSize.toNat - 1) / dstSectorSize.toNat * dstSectorSize.toNat
      / dstSectorSize.toNat * dstSectorSize.toNat = roundUp data.length dstSectorSize.toNat := by
    rw [Nat.mul_div_cancel _ positive,roundUp]
  have size := @lba_start dstSectorSize (roundUp data.length dstSectorSize.toNat) (by omega)
  rw [roundUp,quotient] at size
  obtain ⟨same,_⟩ := writeSectors_whole (lba_start small) size done
  rw [same,List.take_of_length_le]
  · rfl
  · exact Nat.le_of_eq (length_padPiece positive data)

theorem writeChunk_size (data : List UInt8) (pos : Nat) (dst : Disk) :
    (writeChunk env dstSectorSize data pos dst).2.totalBytes = dst.totalBytes :=
  writeSectors_size ..

theorem writeChunk_fst {data other : List UInt8} (same : data.length = other.length) (pos : Nat)
    {dst dst' : Disk} (size : dst.totalBytes = dst'.totalBytes) :
    (writeChunk env dstSectorSize data pos dst).1 = (writeChunk env dstSectorSize other pos dst').1 := by
  unfold writeChunk
  rw [same]
  exact writeSectors_fst _ _ _ _ _ size _ _

variable {failed : UInt32 → Result Unit} {bufSize : UInt32}

theorem copyLoop_ok (positive : 0 < dstSectorSize.toNat) (file : Nat → UInt8) {mbr : Option (List UInt8)} (overlays : Overlays mbr) (pos : Nat)
    (dst : Disk) {dst' : Disk}
    (done : copyLoop env file fileSize dstSectorSize failed bufSize mbr pos dst = (.ok (),dst')) :
    dst'.byte = lay dstSectorSize.toNat 0 pos
      (pieces file mbr pos (deliveries env.readFile bufSize.toNat fileSize.toNat pos)) dst.byte := by
  fun_induction copyLoop env file fileSize dstSectorSize failed bufSize mbr pos dst with
  | case1 mbr pos dst past =>
    cases done
    rw [deliveries_past past]
    rfl
  | case2 => cases done
  | case3 mbr pos dst more _ readSize lastErr read =>
    rw [deliveries_failed more read]
    cases (Prod.mk.inj done).2
    rfl
  | case4 mbr pos dst more _ readSize moved read bytesRead ended =>
    rw [deliveries_ended more read ended]
    cases done
    rfl
  | case5 => cases done
  | case6 mbr pos dst more _ readSize moved read bytesRead some_ data later placed after written _ ih =>
    have limit := fileSize.toNat_lt
    have width := bufSize.toNat_lt
    have least : bytesRead ≤ bufSize.toNat := (Nat.min_le_right _ _).trans (Nat.min_le_left _ _)
    have first : (overlay mbr (window file pos bytesRead)).1 = data := by rw [placed]
    have second : (overlay mbr (window file pos bytesRead)).2 = later := by rw [placed]
    have size : data.length = bytesRead := by
      rw [← first,length_overlay overlays,length_window]
    have patched := writeChunk_ok positive (by omega) (by omega) written
    have rest := ih (by rw [← second]; exact overlay_later overlays _) done
    rw [rest,deliveries_read more read some_,pieces,lay]
    change lay _ 0 (pos + bytesRead) (pieces file later (pos + bytesRead) _) after.byte
      = lay _ 0 _ (pieces file (overlay mbr (window file pos bytesRead)).2 (pos + bytesRead) _)
        (patch dst.byte _ (padPiece _ 0 (overlay mbr (window file pos bytesRead)).1))
    rw [first,second,size,patched]
    rfl
  | case7 => cases done

theorem copyLoop_fst (file other : Nat → UInt8) {mbr : Option (List UInt8)} (overlays : Overlays mbr) (pos : Nat)
    (dst : Disk) : ∀ dst₀ : Disk, dst.totalBytes = dst₀.totalBytes →
    (copyLoop env file fileSize dstSectorSize failed bufSize mbr pos dst).1
      = (copyLoop env other fileSize dstSectorSize failed bufSize mbr pos dst₀).1 := by
  have sizes {data : List UInt8} {later mbr : Option (List UInt8)} {pos n : Nat} (overlays : Overlays mbr)
      (placed : overlay mbr (window file pos n) = (data,later)) :
      data.length = (overlay mbr (window other pos n)).1.length ∧ later = (overlay mbr (window other pos n)).2 := by
    have lengths : (window file pos n).length = (window other pos n).length := by
      rw [length_window,length_window]
    have first : (overlay mbr (window file pos n)).1 = data := by rw [placed]
    have second : (overlay mbr (window file pos n)).2 = later := by rw [placed]
    rw [← first,← second,length_overlay overlays,length_overlay overlays]
    exact ⟨lengths,overlay_snd mbr lengths⟩
  fun_induction copyLoop env file fileSize dstSectorSize failed bufSize mbr pos dst with
  | case1 mbr pos dst past =>
    intro dst₀ size
    rw [copyLoop,if_pos past]
  | case2 mbr pos dst more stops =>
    intro dst₀ size
    rw [copyLoop,if_neg more,if_pos stops]
  | case3 mbr pos dst more goes readSize lastErr read =>
    intro dst₀ size
    rw [copyLoop,if_neg more,if_neg goes]
    simp only [readSize] at read
    simp only [read]
  | case4 mbr pos dst more goes readSize moved read bytesRead ended =>
    intro dst₀ size
    rw [copyLoop,if_neg more,if_neg goes]
    simp only [readSize,bytesRead] at read ended
    simp only [read,if_pos ended]
  | case5 mbr pos dst more goes readSize moved read bytesRead some_ data later placed e after written =>
    intro dst₀ size
    obtain ⟨length,_⟩ := sizes overlays placed
    have same := @writeChunk_fst env dstSectorSize _ _ length pos _ _ size
    rw [copyLoop,if_neg more,if_neg goes]
    simp only [readSize,bytesRead] at read some_ same
    simp only [read,if_neg some_]
    rw [written] at same
    split
    next e' after' written' =>
      rw [written'] at same
      exact same
    next after' written' =>
      rw [written'] at same
      cases same
  | case6 mbr pos dst more goes readSize moved read bytesRead some_ data later placed after written continues ih =>
    intro dst₀ size
    obtain ⟨length,next_⟩ := sizes overlays placed
    have same := @writeChunk_fst env dstSectorSize _ _ length pos _ _ size
    have sized := @writeChunk_size env dstSectorSize data pos dst
    have sized' := @writeChunk_size env dstSectorSize
      (overlay mbr (window other pos bytesRead)).1 pos dst₀
    have left := overlay_later overlays (window other pos bytesRead)
    rw [← next_] at left
    conv_rhs => rw [copyLoop,if_neg more,if_neg goes]
    simp only [readSize,bytesRead] at read some_ same continues sized' next_
    simp only [read,if_neg some_]
    rw [written] at same sized
    split
    next e' after' written' =>
      rw [written'] at same
      cases same
    next after' written' =>
      rw [written'] at sized'
      rw [if_pos continues,← next_]
      exact ih left after' (sized.trans (size.trans sized'.symm))
  | case7 mbr pos dst more goes readSize moved read bytesRead some_ data later placed after written stops =>
    intro dst₀ size
    obtain ⟨length,_⟩ := sizes overlays placed
    have same := @writeChunk_fst env dstSectorSize _ _ length pos _ _ size
    rw [copyLoop,if_neg more,if_neg goes]
    simp only [readSize,bytesRead] at read some_ same stops
    simp only [read,if_neg some_]
    rw [written] at same
    split
    next e' after' written' =>
      rw [written'] at same
      cases same
    next after' written' => rw [if_neg stops]

theorem copyLoop_runs {file : Nat → UInt8} (other : Nat → UInt8) {mbr : Option (List UInt8)}
    (overlays : Overlays mbr) {pos : Nat} {dst dst' : Disk} (before : Disk)
    (size : dst.totalBytes = before.totalBytes)
    (done : copyLoop env file fileSize dstSectorSize failed bufSize mbr pos dst = (.ok (),dst')) :
    ∃ after, copyLoop env other fileSize dstSectorSize failed bufSize mbr pos before = (.ok (),after) := by
  have same := @copyLoop_fst env fileSize dstSectorSize failed bufSize file other mbr overlays pos dst before size
  rw [done] at same
  exact ⟨(copyLoop env other fileSize dstSectorSize failed bufSize mbr pos before).2,Prod.ext same.symm rfl⟩

end Writing

section Verifying

variable {env : FlashEnv} {fileSize : UInt64} {dstSectorSize : UInt32}

theorem readSectors_other {os : Win32} {disk other : Disk} {sectorSize : UInt32} {lba count : UInt64}
    {data : List UInt8} (size : disk.totalBytes = other.totalBytes)
    (read : RawDiskHandle.readSectors os disk lba count sectorSize = .ok data) :
    RawDiskHandle.readSectors os other lba count sectorSize
      = .ok (window other.byte (lba * sectorSize.toUInt64).toNat data.length) := by
  unfold RawDiskHandle.readSectors at read ⊢
  split at read
  next none_ =>
    cases read
    rw [if_pos none_]
    rfl
  next some_ =>
    rw [if_neg some_]
    dsimp only at read ⊢
    split at read
    next => cases read
    next fits =>
      rw [if_neg fits]
      split at read
      next => cases read
      next moved answer =>
        cases read
        rw [length_window,RawDiskHandle.available,RawDiskHandle.available,size]

theorem verifyChunk_ok {data : List UInt8} {pos : Nat} {dst : Disk} (small : pos < 2 ^ 64)
    (same : verifyChunk env dstSectorSize data pos dst = .ok ()) :
    data = window dst.byte (pos / dstSectorSize.toNat * dstSectorSize.toNat) data.length := by
  unfold verifyChunk at same
  dsimp only at same
  split at same
  next => cases same
  next diskRead read =>
    split at same
    next => cases same
    next enough =>
      split at same
      next => cases same
      next equal =>
        obtain ⟨bytes,_⟩ := readSectors_ok (lba_start small) read
        have taken := take_window dst.byte (pos / dstSectorSize.toNat * dstSectorSize.toNat) diskRead.length
          data.length (by omega)
        rw [← taken,← bytes]
        exact not_not.mp equal

theorem verifyChunk_other {data next : List UInt8} {pos : Nat} {dst other : Disk} (small : pos < 2 ^ 64)
    (size : dst.totalBytes = other.totalBytes) (length : data.length = next.length)
    (equal : next = window other.byte (pos / dstSectorSize.toNat * dstSectorSize.toNat) next.length)
    (same : verifyChunk env dstSectorSize data pos dst = .ok ()) :
    verifyChunk env dstSectorSize next pos other = .ok () := by
  unfold verifyChunk at same ⊢
  dsimp only at same ⊢
  split at same
  next => cases same
  next diskRead read =>
    split at same
    next => cases same
    next enough =>
      rw [← length,readSectors_other size read]
      dsimp only
      rw [lba_start small,length_window,if_neg enough,take_window _ _ _ _ (by omega),length,if_neg]
      exact not_not.mpr equal

variable {bufSize : UInt32}

theorem verifyLoop_ok (file : Nat → UInt8) (dst : Disk) (pos : Nat)
    (done : verifyLoop env file fileSize dstSectorSize bufSize dst pos = .ok ()) :
    Compared dstSectorSize.toNat file dst.byte pos
      (deliveries env.verifyFile bufSize.toNat fileSize.toNat pos) := by
  fun_induction verifyLoop env file fileSize dstSectorSize bufSize dst pos with
  | case1 pos past =>
    rw [deliveries_past past]
    trivial
  | case2 => cases done
  | case3 pos more _ readSize lastErr read =>
    rw [deliveries_failed more read]
    trivial
  | case4 pos more _ readSize moved read bytesRead ended =>
    rw [deliveries_ended more read ended]
    trivial
  | case5 => cases done
  | case6 pos more _ readSize moved read bytesRead some_ checked _ ih =>
    have limit := fileSize.toNat_lt
    have equal := verifyChunk_ok (by omega) checked
    rw [length_window] at equal
    rw [deliveries_read more read some_]
    exact ⟨equal,ih done⟩
  | case7 => cases done

theorem verifyLoop_other (file next : Nat → UInt8) {dst other : Disk} (size : dst.totalBytes = other.totalBytes)
    (pos : Nat) (done : verifyLoop env file fileSize dstSectorSize bufSize dst pos = .ok ())
    (compared : Compared dstSectorSize.toNat next other.byte pos
      (deliveries env.verifyFile bufSize.toNat fileSize.toNat pos)) :
    verifyLoop env next fileSize dstSectorSize bufSize other pos = .ok () := by
  fun_induction verifyLoop env file fileSize dstSectorSize bufSize dst pos with
  | case1 pos past => rw [verifyLoop,if_pos past]
  | case2 => cases done
  | case3 pos more goes readSize lastErr read =>
    rw [verifyLoop,if_neg more,if_neg goes]
    simp only [readSize] at read
    simp only [read]
  | case4 pos more goes readSize moved read bytesRead ended =>
    rw [verifyLoop,if_neg more,if_neg goes]
    simp only [readSize,bytesRead] at read ended
    simp only [read,if_pos ended]
  | case5 => cases done
  | case6 pos more goes readSize moved read bytesRead some_ checked continues ih =>
    have limit := fileSize.toNat_lt
    rw [deliveries_read more read some_] at compared
    obtain ⟨here,later⟩ := compared
    have lengths : (window file pos bytesRead).length = (window next pos bytesRead).length := by
      rw [length_window,length_window]
    have again := verifyChunk_other (by omega) size lengths (by rw [length_window]; exact here) checked
    have rest := ih done later
    rw [verifyLoop,if_neg more,if_neg goes]
    simp only [readSize,bytesRead] at read some_ again continues rest
    simp only [read,if_neg some_,again,if_pos continues]
    exact rest
  | case7 => cases done

end Verifying

section Contents

variable {file other : Nat → UInt8} {mbr : Option (List UInt8)}

theorem getElem?_overlay {table : List UInt8} (overlays : Overlays (some table)) (data : List UInt8) (i : Nat) :
    (overlay (some table) data).1[i]?
      = if 512 ≤ data.length ∧ 446 ≤ i ∧ i < 512 then table[i - 446]? else data[i]? := by
  have size := overlays table rfl
  simp only [overlay]
  split
  next long =>
    rw [getElem?_splice _ _ _ _ (by omega),size]
    simp only [long,true_and]
  next short => rw [if_neg (fun both => short both.1)]

theorem overlay_same (overlays : Overlays mbr) {data next : List UInt8} (lengths : data.length = next.length)
    {i : Nat} (same : data[i]? = next[i]?) : (overlay mbr data).1[i]? = (overlay mbr next).1[i]? := by
  cases mbr with
  | none => exact same
  | some table => rw [getElem?_overlay overlays,getElem?_overlay overlays,lengths,same]

theorem pieces_same {j : Nat} (overlays : Overlays mbr) (same : ∀ k, k ≠ j → file k = other k) (pos : Nat)
    (sizes : List Nat) (i : Nat) (elsewhere : pos + i ≠ j) :
    (pieces file mbr pos sizes).flatten[i]? = (pieces other mbr pos sizes).flatten[i]? := by
  induction sizes generalizing mbr pos i with
  | nil => rfl
  | cons size rest ih =>
    have lengths : (window file pos size).length = (window other pos size).length := by
      rw [length_window,length_window]
    simp only [pieces,List.flatten_cons]
    by_cases early : i < size
    · rw [List.getElem?_append_left (by rw [length_overlay overlays,length_window]; exact early),
        List.getElem?_append_left (by rw [length_overlay overlays,length_window]; exact early)]
      apply overlay_same overlays lengths
      rw [getElem?_window,getElem?_window,same (pos + i) elsewhere]
    · have late (f : Nat → UInt8) : (overlay mbr (window f pos size)).1.length ≤ i := by
        rw [length_overlay overlays,length_window]
        omega
      rw [List.getElem?_append_right (late file),List.getElem?_append_right (late other),
        length_overlay overlays,length_overlay overlays,length_window,length_window,overlay_snd mbr lengths]
      exact ih (overlay_later overlays _) (pos + size) (i - size) (by omega)

/-- Without an MBR the pieces are the file. -/
theorem pieces_none (pos : Nat) (sizes : List Nat) (i : Nat) (inside : i < sizes.sum) :
    (pieces file none pos sizes).flatten[i]? = some (file (pos + i)) := by
  induction sizes generalizing pos i with
  | nil => exact absurd inside (Nat.not_lt_zero _)
  | cons size rest ih =>
    rw [List.sum_cons] at inside
    simp only [pieces,overlay,List.flatten_cons]
    by_cases early : i < size
    · rw [List.getElem?_append_left (by rw [length_window]; exact early),getElem?_window,if_pos early]
    · have index : pos + size + (i - size) = pos + i := by omega
      rw [List.getElem?_append_right (by rw [length_window]; omega),length_window,ih _ _ (by omega),index]

theorem pieces_table {table : List UInt8} (overlays : Overlays (some table)) {size : Nat} (long : 512 ≤ size)
    (rest : List Nat) (i : Nat) (inside : i < (size :: rest).sum) :
    (pieces file (some table) 0 (size :: rest)).flatten[i]?
      = if 446 ≤ i ∧ i < 512 then table[i - 446]? else some (file i) := by
  have first : (overlay (some table) (window file 0 size)).2 = none := by
    simp only [overlay,length_window,if_pos long]
  rw [List.sum_cons] at inside
  simp only [pieces,List.flatten_cons,first]
  by_cases early : i < size
  · rw [List.getElem?_append_left (by rw [length_overlay overlays,length_window]; exact early),
      getElem?_overlay overlays,getElem?_window,if_pos early,Nat.zero_add]
    simp only [length_window,long,true_and]
  · have index : 0 + size + (i - size) = i := by omega
    rw [List.getElem?_append_right (by rw [length_overlay overlays,length_window]; omega),
      length_overlay overlays,length_window,pieces_none _ _ _ (by omega),index,if_neg (by omega)]

end Contents

def dottedFile (i : Nat) : Nat → UInt8 := fun k => if k = i then 1 else 0

section Copies

variable {env : FlashEnv} {fileSize : UInt64} {dstSectorSize bufSize : UInt32} {failed : UInt32 → Result Unit}

/-- The bytes that must be delivered by a read that begins on a sector boundary: those whose
value decides over the destination. -/
theorem lands_of_copies (positive : 0 < dstSectorSize.toNat) {mbr : Option (List UInt8)} (overlays : Overlays mbr)
    {file : Nat → UInt8} {dst dst' before : Disk} {j : Nat} (size : dst.totalBytes = before.totalBytes)
    (done : copyLoop env file fileSize dstSectorSize failed bufSize mbr 0 dst = (.ok (),dst'))
    (holds : ∀ (f : Nat → UInt8) (after : Disk),
      copyLoop env f fileSize dstSectorSize failed bufSize mbr 0 before = (.ok (),after) → after.byte j = f j) :
    Lands dstSectorSize.toNat j 0 (deliveries env.readFile bufSize.toNat fileSize.toNat 0) := by
  obtain ⟨plain,first⟩ := copyLoop_runs (fun _ => 0) overlays before size done
  obtain ⟨marked,second⟩ := copyLoop_runs (dottedFile j) overlays before size done
  have here := holds _ _ first
  have there := holds _ _ second
  have laid := copyLoop_ok positive (fun _ => 0) overlays 0 before first
  have laid' := copyLoop_ok positive (dottedFile j) overlays 0 before second
  have sizes := length_pieces overlays (fun _ => 0) 0 (deliveries env.readFile bufSize.toNat fileSize.toNat 0)
  have sizes' := length_pieces overlays (dottedFile j) 0 (deliveries env.readFile bufSize.toNat fileSize.toNat 0)
  have differ : lay dstSectorSize.toNat 0 0 (pieces (fun _ => 0) mbr 0
      (deliveries env.readFile bufSize.toNat fileSize.toNat 0)) before.byte j
      ≠ lay dstSectorSize.toNat 0 0 (pieces (dottedFile j) mbr 0
        (deliveries env.readFile bufSize.toNat fileSize.toNat 0)) before.byte j := by
    rw [← laid,← laid',here,there,dottedFile,if_pos rfl]
    decide
  rw [← sizes]
  refine lay_differs _ _ (sizes.trans sizes'.symm) ?_ before.byte before.byte rfl differ
  intro i elsewhere
  apply pieces_same overlays _ 0 _ i elsewhere
  intro k apart
  rw [dottedFile,if_neg apart]

end Copies

end SetecWizard.Core.IsoFlasher
