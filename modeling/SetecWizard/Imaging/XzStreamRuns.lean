import SetecWizard.Core.XzStream
import SetecWizard.Format.Crc32
import SetecWizard.Format.Integers
import SetecWizard.Imaging.LzmaRuns

/-! Runs of the stream decoder, over any pieces of the input. No call accesses anything outside of an
array, and a stream that is accepted begins with a header and ends with a footer of the same flags.
-/
namespace SetecWizard.Core.Xz
open SetecWizard.Library

section Checksum

theorem xzCrc32Entry_eq (i : UInt32) : xzCrc32Entry i = crc32Table i := by
  have step (r : UInt32) : (r >>> 1) ^^^ (0xEDB88320 &&& ~~~((r &&& 1) - 1)) = crc32Shift r := by
    unfold crc32Shift
    rcases and_one_cases r with clear | set
    · rw [clear,if_neg (by decide)]
      exact UInt32.xor_zero
    · rw [set,if_pos rfl]
      rfl
  unfold xzCrc32Entry crc32Table
  congr 1
  funext r _
  exact step r

theorem xzCrc32_eq (data : List UInt8) : xzCrc32 data 0 = crc32 data := by
  unfold xzCrc32 crc32
  simp only [xzCrc32Entry_eq]
  exact UInt32.xor_neg_one.symm

end Checksum

section Filling

variable {s : XzDec} {b : XzBuf}

theorem window_patch_behind (store : Nat → UInt8) (pos : Nat) (block : List UInt8) :
    window (patch store pos block) 0 (pos + block.length) = window store 0 pos ++ block := by
  rw [window_append,window_patch_apart _ _ _ _ _ (.inl (by omega)),Nat.zero_add,window_patch_whole _ _ rfl]

theorem withTemp_rule {P : StreamPass → Prop} {full : XzDec → XzBuf → StreamPass} (filled : s.temp.pos ≤ s.temp.size)
    (room : s.temp.size ≤ BLOCK_HEADER_SIZE_MAX)
    (waits : ∀ buf count, s.temp.pos + count < s.temp.size →
      window buf 0 (s.temp.pos + count) = window s.temp.buf 0 s.temp.pos ++ window b.input b.inPos count →
      P (.ret .ok { s with temp := ⟨buf,s.temp.pos + count,s.temp.size⟩ } { b with inPos := b.inPos + count }))
    (fills : ∀ buf count, s.temp.pos + count = s.temp.size →
      window buf 0 (s.temp.pos + count) = window s.temp.buf 0 s.temp.pos ++ window b.input b.inPos count →
      P (full { s with temp := ⟨buf,0,s.temp.size⟩ } { b with inPos := b.inPos + count })) : P (withTemp s b full) := by
  have small : BLOCK_HEADER_SIZE_MAX = 1024 := rfl
  obtain ⟨count,named⟩ : ∃ count, count = min ((s.temp.size + (2 ^ 64 - s.temp.pos)) % 2 ^ 64) b.available := ⟨_,rfl⟩
  have left : (s.temp.size + (2 ^ 64 - s.temp.pos)) % 2 ^ 64 = s.temp.size - s.temp.pos := by omega
  have most : count ≤ s.temp.size - s.temp.pos := by
    rw [named,left]
    exact Nat.min_le_left _ _
  have content := window_patch_behind s.temp.buf s.temp.pos (window b.input b.inPos count)
  rw [length_window] at content
  unfold withTemp fillTemp
  dsimp only
  rw [← named,if_pos (by omega)]
  by_cases whole : s.temp.pos + count = s.temp.size
  · rw [if_pos whole]
    exact fills _ count whole content
  · rw [if_neg whole]
    exact waits _ count (by omega) content

end Filling

section Accepting

def streamHeader (flags : UInt8) : List UInt8 := XZ_HEADER_MAGIC ++ [0,flags] ++ le32 (crc32 [0,flags])

def streamFooter (backward : List UInt8) (flags : UInt8) : List UInt8 :=
  le32 (crc32 (backward ++ [0,flags])) ++ backward ++ [0,flags] ++ XZ_FOOTER_MAGIC

/-- A stream from its header to its footer. -/
def Accepted (stream : List UInt8) : Prop :=
  ∃ flags middle backward, backward.length = 4 ∧ stream = streamHeader flags ++ middle ++ streamFooter backward flags

variable {s after : XzDec}

theorem le32_getLE32 (buf : Nat → UInt8) (off : Nat) : le32 (getLE32 buf off) = window buf off 4 := by
  have whole := @le32_readLE32 (window buf off 4) 0 (by rw [length_window])
  rw [slice_window _ _ _ _ _ (by omega),Nat.add_zero] at whole
  exact whole

theorem decStreamHeader_ok (done : decStreamHeader s = (.ok,after)) :
    window s.temp.buf 0 12 = streamHeader after.streamFlags.toUInt8 := by
  unfold decStreamHeader at done
  split at done
  · cases done
  · rename_i magic
    split at done
    · cases done
    · rename_i zero
      dsimp only at done
      split at done
      · cases done
      · rename_i sum
        cases done
        have magic : window s.temp.buf 0 6 = XZ_HEADER_MAGIC := by simpa using magic
        have zero : s.temp.buf 6 = 0 := by simpa using zero
        have sum : xzCrc32 (window s.temp.buf 6 2) 0 = getLE32 s.temp.buf 8 := by simpa using sum
        have flags : window s.temp.buf 6 2 = [0,(s.temp.buf 7).toUInt32.toUInt8] := by
          rw [← zero,UInt8.toUInt8_toUInt32]
          rfl
        have split : window s.temp.buf 0 12 = window s.temp.buf 0 6 ++ window s.temp.buf 6 2 ++ window s.temp.buf 8 4 := by
          rw [← window_append,← window_append]
        rw [split,magic,← le32_getLE32,← sum,flags,xzCrc32_eq]
        rfl

theorem decStreamHeader_kept (s : XzDec) : (decStreamHeader s).2.temp = s.temp ∧ (decStreamHeader s).2.lzma2 = s.lzma2 ∧
    (decStreamHeader s).1 ≠ .streamEnd := by
  unfold decStreamHeader
  dsimp only
  repeat' split
  all_goals exact ⟨rfl,rfl,fun done => XzRet.noConfusion done⟩

theorem decStreamFooter_end (done : decStreamFooter s = .streamEnd) :
    window s.temp.buf 0 12 = streamFooter (window s.temp.buf 4 4) s.streamFlags.toUInt8 := by
  unfold decStreamFooter at done
  split at done
  · cases done
  · rename_i magic
    split at done
    · cases done
    · rename_i sum
      split at done
      · cases done
      · rename_i zero
        split at done
        · cases done
        · rename_i flags
          obtain ⟨first,second⟩ := not_or.mp magic
          have first : s.temp.buf 10 = 0x59 := by simpa using first
          have second : s.temp.buf 11 = 0x5A := by simpa using second
          have sum : xzCrc32 (window s.temp.buf 4 6) 0 = getLE32 s.temp.buf 0 := by simpa using sum
          have zero : s.temp.buf 8 = 0 := by simpa using zero
          have flags : s.temp.buf 9 = s.streamFlags.toUInt8 := by simpa using flags
          have pair : window s.temp.buf 8 2 = [0,s.streamFlags.toUInt8] := by
            rw [← zero,← flags]
            rfl
          have magic : window s.temp.buf 10 2 = XZ_FOOTER_MAGIC := by
            change [s.temp.buf 10,s.temp.buf 11] = _
            rw [first,second]
            rfl
          have split : window s.temp.buf 0 12 = window s.temp.buf 0 4 ++ window s.temp.buf 4 4 ++ window s.temp.buf 8 2 ++
              window s.temp.buf 10 2 := by
            rw [← window_append,← window_append,← window_append]
          have covered : window s.temp.buf 4 6 = window s.temp.buf 4 4 ++ window s.temp.buf 8 2 := window_append s.temp.buf 4 4 2
          rw [split,magic,pair,← le32_getLE32,← sum,covered,pair,xzCrc32_eq]
          rfl

theorem decStreamFooter_waits (s : XzDec) : decStreamFooter s ≠ .ok := by
  unfold decStreamFooter
  repeat' split
  all_goals exact fun same => XzRet.noConfusion same

end Accepting

section Passes

/-- The bytes that a call reads. -/
def XzBuf.read (b after : XzBuf) : List UInt8 := window b.input b.inPos (after.inPos - b.inPos)

theorem XzBuf.Moved.read {b middle after : XzBuf} (first : b.Moved middle) (second : middle.Moved after) :
    b.read after = b.read middle ++ middle.read after := by
  have start := first.inPos
  have rest := second.inPos
  obtain ⟨k,whole⟩ := Nat.exists_eq_add_of_le start
  unfold XzBuf.read
  rw [first.input,whole,Nat.add_sub_cancel_left,← window_append]
  congr 1
  omega

theorem XzBuf.read_same (b : XzBuf) {after : XzBuf} (same : after.inPos = b.inPos) : b.read after = [] := by
  rw [XzBuf.read,same,Nat.sub_self]
  rfl

theorem XzBuf.read_count (b : XzBuf) (count : Nat) : b.read { b with inPos := b.inPos + count } = window b.input b.inPos count := by
  rw [XzBuf.read]
  dsimp only
  rw [Nat.add_sub_cancel_left]

/-- What holds of a stream decoder at all times. -/
structure XzDec.Kept (s : XzDec) : Prop where
  lzma2 : s.lzma2.Kept
  filled : s.temp.pos ≤ s.temp.size
  room : s.temp.size ≤ BLOCK_HEADER_SIZE_MAX

/-- What holds of a stream decoder that has read so much of a stream. -/
structure XzDec.Sound (s : XzDec) (seen : List UInt8) : Prop extends s.Kept where
  running : s.sequence = .blockUncompress → s.lzma2.Sound
  start : s.sequence = .streamHeader → s.temp.pos ≤ STREAM_HEADER_SIZE ∧ seen = window s.temp.buf 0 s.temp.pos
  later : s.sequence ≠ .streamHeader → ∃ rest, seen = streamHeader s.streamFlags.toUInt8 ++ rest
  footer : s.sequence = .streamFooter → s.temp.size = 12 ∧
    ∃ rest, seen = streamHeader s.streamFlags.toUInt8 ++ rest ++ window s.temp.buf 0 s.temp.pos

def StreamPass.Sound (b : XzBuf) (seen : List UInt8) : StreamPass → Prop
  | .again s after => b.Moved after ∧ s.Sound (seen ++ b.read after)
  | .ret code s after => b.Moved after ∧ s.Kept ∧ (code = .ok → s.Sound (seen ++ b.read after)) ∧
      (code = .streamEnd → Accepted (seen ++ b.read after))
  | .strayed => False
  | .running => True

variable {s : XzDec} {b : XzBuf} {seen : List UInt8}

/-- Behind the header and in front of the footer there is nothing to remember but the flags. -/
theorem XzDec.Sound.onward (sound : s.Sound seen) (here : s.sequence ≠ .streamHeader) {after : XzDec} (kept : after.Kept)
    (flags : after.streamFlags = s.streamFlags) (running : after.sequence = .blockUncompress → after.lzma2.Sound)
    (next : after.sequence ≠ .streamHeader ∧ after.sequence ≠ .streamFooter) (more : List UInt8) : after.Sound (seen ++ more) where
  toKept := kept
  running := running
  start first := absurd first next.1
  later _ := by
    obtain ⟨rest,whole⟩ := sound.later here
    exact ⟨rest ++ more,by rw [whole,flags,List.append_assoc]⟩
  footer last := absurd last next.2

/-- What most passes leave alone. -/
structure XzDec.Alike (s after : XzDec) : Prop where
  temp : after.temp = s.temp
  flags : after.streamFlags = s.streamFlags
  lzma2 : after.lzma2 = s.lzma2

theorem XzDec.Kept.alike {after : XzDec} (kept : s.Kept) (same : s.Alike after) : after.Kept :=
  ⟨same.lzma2 ▸ kept.lzma2,same.temp ▸ kept.filled,same.temp ▸ kept.room⟩

theorem XzDec.Sound.steps (sound : s.Sound seen) (here : s.sequence ≠ .streamHeader) {after : XzDec} (same : s.Alike after)
    (next : after.sequence ≠ .streamHeader ∧ after.sequence ≠ .streamFooter ∧ after.sequence ≠ .blockUncompress)
    (more : List UInt8) : after.Sound (seen ++ more) :=
  sound.onward here (sound.toKept.alike same) same.flags (fun run => absurd run next.2.2) ⟨next.1,next.2.1⟩ more

theorem XzDec.Sound.waits (sound : s.Sound (seen ++ b.read b)) : (StreamPass.ret .ok s b).Sound b seen :=
  ⟨.refl b,sound.toKept,fun _ => sound,fun ended => XzRet.noConfusion ended⟩

theorem XzDec.Kept.fails (kept : s.Kept) {code : XzRet} {after : XzBuf} (moved : b.Moved after) (failed : code ≠ .ok ∧ code ≠ .streamEnd) :
    (StreamPass.ret code s after).Sound b seen :=
  ⟨moved,kept,fun done => absurd done failed.1,fun ended => absurd ended failed.2⟩

theorem streamHeaderPass_sound (sound : s.Sound seen) (here : s.sequence = .streamHeader) (b : XzBuf) :
    (streamHeaderPass s b).Sound b seen := by
  obtain ⟨filled,whole⟩ := sound.start here
  have room : STREAM_HEADER_SIZE ≤ BLOCK_HEADER_SIZE_MAX := by decide
  have size : STREAM_HEADER_SIZE = 12 := rfl
  unfold streamHeaderPass
  apply withTemp_rule
  · exact filled
  · exact room
  · intro buf count short content
    dsimp only at short content ⊢
    have kept : XzDec.Kept { s with temp := ⟨buf,s.temp.pos + count,STREAM_HEADER_SIZE⟩ } := ⟨sound.lzma2,Nat.le_of_lt short,room⟩
    refine ⟨b.moved_to (Nat.le_add_right _ _),kept,fun _ => ?_,fun ended => XzRet.noConfusion ended⟩
    rw [b.read_count,whole,← content]
    exact {
      toKept := kept
      running := fun run => absurd (here.symm.trans run) (by decide)
      start := fun _ => ⟨Nat.le_of_lt short,rfl⟩
      later := fun other => absurd here other
      footer := fun last => absurd (here.symm.trans last) (by decide) }
  · intro buf count full content
    dsimp only at full content ⊢
    have moved : b.Moved { b with inPos := b.inPos + count } := b.moved_to (Nat.le_add_right _ _)
    obtain ⟨filled',named⟩ : ∃ filled' : XzDec, filled' = { s with temp := ⟨buf,0,STREAM_HEADER_SIZE⟩ } := ⟨_,rfl⟩
    have kept : filled'.Kept := by
      rw [named]
      exact ⟨sound.lzma2,Nat.zero_le _,room⟩
    rw [← named]
    have parts := decStreamHeader_kept filled'
    split
    · rename_i after done
      rw [done] at parts
      have header := decStreamHeader_ok done
      rw [named] at header
      dsimp only at header
      refine ⟨moved,?_⟩
      rw [b.read_count,whole,← content,full,size,header]
      exact {
        lzma2 := parts.2.1 ▸ kept.lzma2
        filled := parts.1 ▸ kept.filled
        room := parts.1 ▸ kept.room
        running := fun run => XzDecStreamState.noConfusion run
        start := fun first => XzDecStreamState.noConfusion first
        later := fun _ => ⟨[],(List.append_nil _).symm⟩
        footer := fun last => XzDecStreamState.noConfusion last }
    · rename_i code after other done
      rw [done] at parts
      apply XzDec.Kept.fails ⟨parts.2.1 ▸ kept.lzma2,parts.1 ▸ kept.filled,parts.1 ▸ kept.room⟩ moved
      exact ⟨other,parts.2.2⟩

theorem blockStartPass_sound (sound : s.Sound seen) (here : s.sequence = .blockStart) (b : XzBuf) :
    (blockStartPass s b).Sound b seen := by
  have other : s.sequence ≠ .streamHeader := by
    rw [here]
    decide
  unfold blockStartPass
  split
  · apply XzDec.Sound.waits
    rw [b.read_same rfl,List.append_nil]
    exact sound
  · split
    · refine ⟨b.moved_to (Nat.le_succ _),?_⟩
      apply sound.steps other
      · exact ⟨rfl,rfl,rfl⟩
      · exact ⟨XzDecStreamState.noConfusion,XzDecStreamState.noConfusion,XzDecStreamState.noConfusion⟩
    · refine ⟨.refl b,?_⟩
      have byte := (b.input b.inPos).toNat_lt
      apply sound.onward other
      · refine ⟨sound.lzma2,Nat.zero_le _,?_⟩
        change ((b.input b.inPos).toNat + 1) * 4 ≤ 1024
        omega
      · rfl
      · exact fun run => XzDecStreamState.noConfusion run
      · exact ⟨XzDecStreamState.noConfusion,XzDecStreamState.noConfusion⟩

theorem decVliLoop_inPos (input : Nat → UInt8) (left : Nat) (vli : Vli) (inPos : Nat) :
    inPos ≤ (decVliLoop input left vli inPos).2.2 ∧ (decVliLoop input left vli inPos).2.2 ≤ inPos + left := by
  induction left generalizing vli inPos with
  | zero => exact ⟨Nat.le_refl _,Nat.le_refl _⟩
  | succ left ih =>
    have here : inPos ≤ inPos + 1 ∧ inPos + 1 ≤ inPos + (left + 1) := ⟨Nat.le_succ _,by omega⟩
    have later := ih { vli with
      value := vli.value ||| ((input inPos &&& 0x7F).toUInt64 <<< ((vli.count - 1) * 7).toUInt64)
      count := vli.count + 1 } (inPos + 1)
    rw [decVliLoop]
    dsimp only
    split
    · split <;> exact here
    · split
      · exact here
      · exact ⟨by omega,by omega⟩

theorem decVli_inPos (vli : Vli) (input : Nat → UInt8) {inPos inSize : Nat} (inside : inPos ≤ inSize) :
    inPos ≤ (decVli vli input inPos inSize).2.2 ∧ (decVli vli input inPos inSize).2.2 ≤ inSize := by
  obtain ⟨least,most⟩ := decVliLoop_inPos input (inSize - inPos) (if vli.count = 0 then ⟨0,1⟩ else vli) inPos
  rw [Nat.add_sub_cancel' inside] at most
  exact ⟨least,most⟩

def SizeRead (s : XzDec) (headerSize : Nat) : Except (XzRet × XzDec) (UInt64 × XzDec × Nat) → Prop
  | .error failed => s.Alike failed.2 ∧ failed.1 ≠ .ok ∧ failed.1 ≠ .streamEnd
  | .ok read => s.Alike read.2.1 ∧ read.2.2 ≤ headerSize

theorem Temp.reads_inside (temp : Temp) {pos count : Nat} (inside : pos + count ≤ BLOCK_HEADER_SIZE_MAX) :
    temp.reads pos count = some (window temp.buf pos count) := if_pos inside

theorem Temp.read_inside (temp : Temp) {pos : Nat} (inside : pos < BLOCK_HEADER_SIZE_MAX) : temp.read pos = some (temp.buf pos) :=
  if_pos inside

theorem blockSize_sound (present : Bool) {pos headerSize : Nat} (whole : headerSize ≤ BLOCK_HEADER_SIZE_MAX) (inside : pos ≤ headerSize) :
    ∃ read, blockSize present s pos headerSize = some read ∧ SizeRead s headerSize read := by
  unfold blockSize
  cases present with
  | false => exact ⟨_,rfl,⟨rfl,rfl,rfl⟩,inside⟩
  | true =>
    have place := decVli_inPos ⟨s.vli.value,0⟩ s.temp.buf inside
    generalize decVli ⟨s.vli.value,0⟩ s.temp.buf pos headerSize = read at place
    obtain ⟨ret,vli,next⟩ := read
    simp only at place
    have within := s.temp.reads_inside (show pos + (next - pos) ≤ BLOCK_HEADER_SIZE_MAX by omega)
    simp only [if_true,within,bind,Option.bind]
    by_cases ended : ret = .streamEnd
    · rw [if_neg (not_not.mpr ended)]
      exact ⟨_,rfl,⟨rfl,rfl,rfl⟩,place.2⟩
    · rw [if_pos ended]
      refine ⟨_,rfl,⟨rfl,rfl,rfl⟩,?_⟩
      dsimp only
      split
      · exact ⟨XzRet.noConfusion,XzRet.noConfusion⟩
      · exact ⟨‹_›,ended⟩

theorem filterFlags_sound (temp : Temp) (pos : Nat) {headerSize : Nat} (whole : headerSize ≤ BLOCK_HEADER_SIZE_MAX) :
    ∃ read, filterFlags temp pos headerSize = some read ∧ ∀ code, read = .error code → code ≠ .ok ∧ code ≠ .streamEnd := by
  have refused {code : XzRet} (other : code ≠ .ok ∧ code ≠ .streamEnd) : ∃ read, some (.error code : Except XzRet UInt8) = some read ∧
      ∀ code, read = .error code → code ≠ .ok ∧ code ≠ .streamEnd := by
    refine ⟨_,rfl,fun code same => ?_⟩
    cases same
    exact other
  have data := @refused .dataError ⟨XzRet.noConfusion,XzRet.noConfusion⟩
  have options := @refused .optionsError ⟨XzRet.noConfusion,XzRet.noConfusion⟩
  unfold filterFlags
  split
  · exact data
  · rw [temp.read_inside (by omega)]
    simp only [bind,Option.bind]
    split
    · exact options
    · split
      · exact data
      · rw [temp.read_inside (by omega)]
        dsimp only
        split
        · exact options
        · split
          · exact data
          · rw [temp.read_inside (by omega),temp.reads_inside (by omega)]
            dsimp only
            split
            · exact options
            · refine ⟨_,rfl,fun code same => ?_⟩
              cases same

theorem xzDecLzma2Reset_cases (memory : Nat → UInt8) (s : XzDecLzma2) (props : UInt8) :
    (xzDecLzma2Reset memory s props).1 = .ok ∨ (xzDecLzma2Reset memory s props).2 = s ∧
      (xzDecLzma2Reset memory s props).1 ≠ .streamEnd := by
  unfold xzDecLzma2Reset
  split
  · exact .inr ⟨rfl,fun same => XzRet.noConfusion same⟩
  · generalize (if props = 40 then 0xFFFFFFFF else (2 + (props.toNat &&& 1)) <<< (props.toNat / 2 + 11)) = dictSize
    dsimp only
    split
    · exact .inr ⟨rfl,fun same => XzRet.noConfusion same⟩
    · exact .inl rfl

/-- A block header that is read. One that is accepted leaves a decoder to run. -/
structure XzDec.HeaderRead (s : XzDec) (code : XzRet) (after : XzDec) : Prop where
  temp : after.temp = s.temp
  flags : after.streamFlags = s.streamFlags
  lzma2 : after.lzma2.Kept
  ready : code = .ok → after.lzma2.Sound
  going : code ≠ .streamEnd

theorem XzDec.Alike.fails {after : XzDec} (alike : s.Alike after) (kept : s.lzma2.Kept) {code : XzRet}
    (other : code ≠ .ok ∧ code ≠ .streamEnd) : s.HeaderRead code after :=
  ⟨alike.temp,alike.flags,alike.lzma2 ▸ kept,fun ok => absurd ok other.1,other.2⟩

theorem XzDec.Alike.trans {middle after : XzDec} (first : s.Alike middle) (second : middle.Alike after) : s.Alike after :=
  ⟨second.temp.trans first.temp,second.flags.trans first.flags,second.lzma2.trans first.lzma2⟩

theorem blockHeaderFields_sound (memory : Nat → UInt8) (bflags : UInt8) (kept : s.lzma2.Kept) {headerSize : Nat} (some_ : 2 ≤ headerSize)
    (whole : headerSize ≤ BLOCK_HEADER_SIZE_MAX) :
    ∃ code after, blockHeaderFields memory bflags headerSize s = some (code,after) ∧ s.HeaderRead code after := by
  obtain ⟨read,found,sized⟩ := @blockSize_sound s (bflags &&& 0x40 ≠ 0) 2 headerSize whole some_
  unfold blockHeaderFields
  simp only [found,bind,Option.bind]
  cases read with
  | error failed => exact ⟨_,_,rfl,sized.1.fails kept sized.2⟩
  | ok read =>
    obtain ⟨compressed,s₁,pos⟩ := read
    obtain ⟨read,found,sized'⟩ := @blockSize_sound { s₁ with block := { s₁.block with compressed := compressed } }
      (bflags &&& 0x80 ≠ 0) pos headerSize whole sized.2
    have first : s.Alike { s₁ with block := { s₁.block with compressed := compressed } } := ⟨sized.1.temp,sized.1.flags,sized.1.lzma2⟩
    simp only [found]
    cases read with
    | error failed => exact ⟨_,_,rfl,(first.trans sized'.1).fails kept sized'.2⟩
    | ok read =>
      obtain ⟨uncompressed,s₂,pos'⟩ := read
      have both : s.Alike { s₂ with block := { s₂.block with uncompressed := uncompressed } } :=
        first.trans ⟨sized'.1.temp,sized'.1.flags,sized'.1.lzma2⟩
      obtain ⟨read,found,refusal⟩ := filterFlags_sound s₂.temp pos' whole
      simp only [found]
      cases read with
      | error code => exact ⟨_,_,rfl,both.fails kept (refusal code rfl)⟩
      | ok lzma2Props =>
        have same : s₂.lzma2 = s.lzma2 := both.lzma2
        have cases := xzDecLzma2Reset_cases memory s₂.lzma2 lzma2Props
        obtain ⟨result,reset⟩ : ∃ result, xzDecLzma2Reset memory s₂.lzma2 lzma2Props = result := ⟨_,rfl⟩
        obtain ⟨code,lzma2⟩ := result
        rw [reset] at cases
        simp only [reset]
        by_cases fine : code = .ok
        · subst fine
          have sound := xzDecLzma2Reset_sound (same ▸ kept) reset
          exact ⟨_,_,rfl,both.temp,both.flags,sound.toKept,fun _ => sound,XzRet.noConfusion⟩
        · obtain ⟨unchanged,going⟩ := cases.resolve_left fine
          have left : s.Alike { s₂ with block := { s₂.block with uncompressed := uncompressed },lzma2 := lzma2 } :=
            ⟨both.temp,both.flags,unchanged.trans same⟩
          split
          · rename_i same'
            cases same'
            exact absurd rfl fine
          · rename_i same'
            cases same'
            exact ⟨_,_,rfl,left.fails kept ⟨fine,going⟩⟩

/-- The header lies in the temporary buffer, whatever its first byte is. -/
theorem decBlockHeader_sound (memory : Nat → UInt8) (kept : s.lzma2.Kept) :
    ∃ code after, decBlockHeader memory s = some (code,after) ∧ s.HeaderRead code after := by
  have small : BLOCK_HEADER_SIZE_MAX = 1024 := rfl
  have byte := (s.temp.buf 0).toNat_lt
  have same : s.Alike s := ⟨rfl,rfl,rfl⟩
  have data : XzRet.dataError ≠ .ok ∧ XzRet.dataError ≠ .streamEnd := ⟨XzRet.noConfusion,XzRet.noConfusion⟩
  have options : XzRet.optionsError ≠ .ok ∧ XzRet.optionsError ≠ .streamEnd := ⟨XzRet.noConfusion,XzRet.noConfusion⟩
  unfold decBlockHeader
  rw [s.temp.read_inside (by decide : 0 < BLOCK_HEADER_SIZE_MAX),s.temp.read_inside (by decide : 1 < BLOCK_HEADER_SIZE_MAX)]
  simp only [bind,Option.bind]
  rw [s.temp.reads_inside (by omega),s.temp.reads_inside (by omega)]
  dsimp only
  split
  · exact ⟨_,_,rfl,same.fails kept data⟩
  · split
    · exact ⟨_,_,rfl,same.fails kept options⟩
    · split
      · exact ⟨_,_,rfl,same.fails kept options⟩
      · exact blockHeaderFields_sound memory _ kept (by omega) (by omega)

theorem blockHeaderPass_sound (memory : Nat → UInt8) (sound : s.Sound seen) (here : s.sequence = .blockHeader) (b : XzBuf) :
    (blockHeaderPass memory s b).Sound b seen := by
  have other : s.sequence ≠ .streamHeader := by
    rw [here]
    decide
  unfold blockHeaderPass
  apply withTemp_rule
  · exact sound.filled
  · exact sound.room
  · intro buf count short _
    have kept : XzDec.Kept { s with temp := ⟨buf,s.temp.pos + count,s.temp.size⟩ } := ⟨sound.lzma2,Nat.le_of_lt short,sound.room⟩
    refine ⟨b.moved_to (Nat.le_add_right _ _),kept,fun _ => ?_,fun ended => XzRet.noConfusion ended⟩
    apply sound.onward other
    · exact kept
    · rfl
    · exact sound.running
    · exact ⟨other,by dsimp only; rw [here]; decide⟩
  · intro buf count full _
    have moved : b.Moved { b with inPos := b.inPos + count } := b.moved_to (Nat.le_add_right _ _)
    obtain ⟨code,after,done,read⟩ := @decBlockHeader_sound { s with temp := ⟨buf,0,s.temp.size⟩ } memory sound.lzma2
    have kept : after.Kept := ⟨read.lzma2,by rw [read.temp]; exact Nat.zero_le _,by rw [read.temp]; exact sound.room⟩
    simp only [done]
    split
    · rename_i empty
      cases empty
    · rename_i fine
      cases fine
      refine ⟨moved,?_⟩
      apply sound.onward other
      · exact { kept with }
      · exact read.flags
      · exact fun _ => read.ready rfl
      · exact ⟨XzDecStreamState.noConfusion,XzDecStreamState.noConfusion⟩
    · rename_i other' same
      cases same
      apply kept.fails moved
      exact ⟨fun fine => other' (by rw [fine]),read.going⟩

theorem blockUncompressPass_sound (fuel : Nat) (sound : s.Sound seen) (here : s.sequence = .blockUncompress) (b : XzBuf) :
    (blockUncompressPass fuel s b).Sound b seen := by
  have other : s.sequence ≠ .streamHeader := by
    rw [here]
    decide
  unfold blockUncompressPass
  split
  · trivial
  · rename_i strayed
    obtain ⟨_,_,_,same,_⟩ := xzDecLzma2Run_sound (sound.running here) strayed
    cases same
  · rename_i ret lzma2 b' called
    obtain ⟨_,_,_,same,kept,ready⟩ := xzDecLzma2Run_sound (sound.running here) called
    cases same
    have moved := xzDecLzma2Run_moved called
    have whole (pos : UInt32) (sequence : XzDecStreamState) (block : Block) :
        XzDec.Kept { s with lzma2 := lzma2,pos := pos,sequence := sequence,block := block } := ⟨kept,sound.filled,sound.room⟩
    dsimp only
    split
    · split
      · exact (whole _ _ _).fails moved ⟨XzRet.noConfusion,XzRet.noConfusion⟩
      · refine ⟨moved,?_⟩
        apply sound.onward other (whole _ _ _)
        · rfl
        · exact fun run => XzDecStreamState.noConfusion run
        · exact ⟨XzDecStreamState.noConfusion,XzDecStreamState.noConfusion⟩
    · split
      · exact (whole _ _ _).fails moved ⟨XzRet.noConfusion,XzRet.noConfusion⟩
      · refine ⟨moved,whole _ _ _,fun _ => ?_,fun ended => XzRet.noConfusion ended⟩
        apply sound.onward other (whole _ _ _)
        · rfl
        · exact fun _ => ready XzRet.noConfusion
        · exact ⟨other,by dsimp only; rw [here]; decide⟩
    · rename_i code ended waiting
      exact (whole _ _ _).fails moved ⟨waiting,ended⟩

theorem StreamPass.Sound.after {pass : StreamPass} {middle : XzBuf} (moved : b.Moved middle)
    (sound : pass.Sound middle (seen ++ b.read middle)) : pass.Sound b seen := by
  cases pass with
  | again s last =>
    refine ⟨moved.trans sound.1,?_⟩
    rw [moved.read sound.1,← List.append_assoc]
    exact sound.2
  | ret code s last =>
    refine ⟨moved.trans sound.1,sound.2.1,?_⟩
    rw [moved.read sound.1,← List.append_assoc]
    exact sound.2.2
  | strayed => exact sound
  | running => trivial

theorem blockPaddingLoop_sound (left : Nat) (sound : s.Sound seen) (here : s.sequence = .blockPadding) (b : XzBuf) :
    (blockPaddingLoop left s b).Sound b seen := by
  have other {s : XzDec} (here : s.sequence = .blockPadding) : s.sequence ≠ .streamHeader := by
    rw [here]
    decide
  have ends {s : XzDec} {seen : List UInt8} (sound : s.Sound seen) (here : s.sequence = .blockPadding) (b : XzBuf) :
      (StreamPass.again { s with checkPos := 0,sequence := .blockCheck } b).Sound b seen := by
    refine ⟨.refl b,?_⟩
    apply sound.steps (other here)
    · exact ⟨rfl,rfl,rfl⟩
    · exact ⟨XzDecStreamState.noConfusion,XzDecStreamState.noConfusion,XzDecStreamState.noConfusion⟩
  induction left generalizing s b seen with
  | zero => exact ends sound here b
  | succ left ih =>
    have moved : b.Moved { b with inPos := b.inPos + 1 } := b.moved_to (Nat.le_succ _)
    rw [blockPaddingLoop]
    split
    · exact ends sound here b
    · split
      · apply XzDec.Sound.waits
        rw [b.read_same rfl,List.append_nil]
        exact sound
      · split
        · exact sound.toKept.fails moved ⟨XzRet.noConfusion,XzRet.noConfusion⟩
        · apply StreamPass.Sound.after moved
          apply ih
          · apply sound.steps (other here)
            · exact ⟨rfl,rfl,rfl⟩
            · dsimp only
              rw [here]
              decide
          · exact here

theorem blockCheckPass_sound (sound : s.Sound seen) (here : s.sequence = .blockCheck) (b : XzBuf) :
    (blockCheckPass s b).Sound b seen := by
  have other : s.sequence ≠ .streamHeader := by
    rw [here]
    decide
  unfold blockCheckPass
  dsimp only
  have moved (count : Nat) : b.Moved { b with inPos := b.inPos + count } := b.moved_to (Nat.le_add_right _ _)
  split
  · refine ⟨moved _,{ sound.toKept with },fun _ => ?_,fun ended => XzRet.noConfusion ended⟩
    apply sound.steps other
    · exact ⟨rfl,rfl,rfl⟩
    · dsimp only
      rw [here]
      decide
  · refine ⟨moved _,?_⟩
    apply sound.steps other
    · exact ⟨rfl,rfl,rfl⟩
    · exact ⟨XzDecStreamState.noConfusion,XzDecStreamState.noConfusion,XzDecStreamState.noConfusion⟩

theorem stopped_sound (sound : s.Sound seen) (here : s.sequence = .index) (vli : Vli) {inPos : Nat} (later : b.inPos ≤ inPos)
    {code : XzRet} (other : code ≠ .streamEnd) :
    (StreamPass.ret code { s with vli := vli } { b with inPos := inPos }).Sound b seen := by
  refine ⟨b.moved_to later,{ sound.toKept with },fun _ => ?_,fun ended => absurd ended other⟩
  apply sound.steps (by rw [here]; decide)
  · exact ⟨rfl,rfl,rfl⟩
  · dsimp only
    rw [here]
    decide

theorem indexRecordsLoop_sound (rounds : Nat) (sound : s.Sound seen) (here : s.sequence = .index) (b : XzBuf) :
    (indexRecordsLoop rounds s b).Sound b seen := by
  induction rounds generalizing s b seen with
  | zero =>
    apply XzDec.Sound.waits
    rw [b.read_same rfl,List.append_nil]
    exact sound
  | succ rounds ih =>
    rw [indexRecordsLoop]
    split
    · have later : b.inPos ≤ (decVli ⟨s.vli.value,0⟩ b.input b.inPos b.inSize).2.2 := (decVliLoop_inPos _ _ _ _).1
      generalize decVli ⟨s.vli.value,0⟩ b.input b.inPos b.inSize = read at later
      obtain ⟨ret,vli,inPos⟩ := read
      have moved : b.Moved { b with inPos := inPos } := b.moved_to later
      dsimp only
      split
      · exact stopped_sound sound here vli later ‹_›
      · split
        · apply StreamPass.Sound.after moved
          apply ih
          · apply sound.steps (by rw [here]; decide)
            · exact ⟨rfl,rfl,rfl⟩
            · dsimp only
              rw [here]
              decide
          · exact here
        · apply StreamPass.Sound.after moved
          apply ih
          · apply sound.steps (by rw [here]; decide)
            · exact ⟨rfl,rfl,rfl⟩
            · dsimp only
              rw [here]
              decide
          · exact here
    · refine ⟨.refl b,?_⟩
      apply sound.steps (by rw [here]; decide)
      · exact ⟨rfl,rfl,rfl⟩
      · exact ⟨XzDecStreamState.noConfusion,XzDecStreamState.noConfusion,XzDecStreamState.noConfusion⟩

theorem indexPass_sound (sound : s.Sound seen) (here : s.sequence = .index) (b : XzBuf) : (indexPass s b).Sound b seen := by
  unfold indexPass
  split
  · have later : b.inPos ≤ (decVli s.vli b.input b.inPos b.inSize).2.2 := (decVliLoop_inPos _ _ _ _).1
    generalize decVli s.vli b.input b.inPos b.inSize = read at later
    obtain ⟨ret,vli,inPos⟩ := read
    dsimp only
    split
    · exact stopped_sound sound here vli later ‹_›
    · apply StreamPass.Sound.after (b.moved_to later)
      apply indexRecordsLoop_sound
      · apply sound.steps (by rw [here]; decide)
        · exact ⟨rfl,rfl,rfl⟩
        · dsimp only
          rw [here]
          decide
      · exact here
  · exact indexRecordsLoop_sound _ sound here b

theorem indexPaddingLoop_moved (left : Nat) (s : XzDec) (b : XzBuf) :
    b.Moved (indexPaddingLoop left s b).2 ∧ s.Alike (indexPaddingLoop left s b).1 := by
  induction left generalizing s b with
  | zero => exact ⟨.refl b,rfl,rfl,rfl⟩
  | succ left ih =>
    rw [indexPaddingLoop]
    split
    · obtain ⟨moved,same⟩ := ih { s with pos := s.pos + 1 } { b with inPos := b.inPos + 1 }
      exact ⟨(b.moved_to (Nat.le_succ _)).trans moved,same.temp,same.flags,same.lzma2⟩
    · exact ⟨.refl b,rfl,rfl,rfl⟩

theorem indexPaddingPass_sound (sound : s.Sound seen) (here : s.sequence = .indexPadding) (b : XzBuf) :
    (indexPaddingPass s b).Sound b seen := by
  obtain ⟨moved,same⟩ := indexPaddingLoop_moved 3 s b
  unfold indexPaddingPass
  split
  rename_i after b' done
  rw [done] at moved same
  refine ⟨moved,?_⟩
  apply sound.onward (by rw [here]; decide)
  · exact ⟨same.lzma2 ▸ sound.lzma2,Nat.zero_le _,(by decide : 4 ≤ BLOCK_HEADER_SIZE_MAX)⟩
  · exact same.flags
  · exact fun run => XzDecStreamState.noConfusion run
  · exact ⟨XzDecStreamState.noConfusion,XzDecStreamState.noConfusion⟩

theorem indexCrc32Pass_sound (sound : s.Sound seen) (here : s.sequence = .indexCrc32) (b : XzBuf) :
    (indexCrc32Pass s b).Sound b seen := by
  have other : s.sequence ≠ .streamHeader := by
    rw [here]
    decide
  unfold indexCrc32Pass
  apply withTemp_rule
  · exact sound.filled
  · exact sound.room
  · intro buf count short _
    have kept : XzDec.Kept { s with temp := ⟨buf,s.temp.pos + count,s.temp.size⟩ } := ⟨sound.lzma2,Nat.le_of_lt short,sound.room⟩
    refine ⟨b.moved_to (Nat.le_add_right _ _),kept,fun _ => ?_,fun ended => XzRet.noConfusion ended⟩
    apply sound.onward other
    · exact kept
    · rfl
    · exact sound.running
    · exact ⟨other,by dsimp only; rw [here]; decide⟩
  · intro buf count _ _
    obtain ⟨rest,whole⟩ := sound.later other
    have onward (more : List UInt8) : seen ++ more = streamHeader s.streamFlags.toUInt8 ++ (rest ++ more) := by
      rw [whole,List.append_assoc]
    refine ⟨b.moved_to (Nat.le_add_right _ _),?_⟩
    exact {
      lzma2 := sound.lzma2
      filled := Nat.zero_le _
      room := (by decide : 12 ≤ BLOCK_HEADER_SIZE_MAX)
      running := fun run => XzDecStreamState.noConfusion run
      start := fun first => XzDecStreamState.noConfusion first
      later := fun _ => ⟨_,onward _⟩
      footer := fun _ => ⟨rfl,_,(onward _).trans (List.append_nil _).symm⟩ }

theorem streamFooterPass_sound (sound : s.Sound seen) (here : s.sequence = .streamFooter) (b : XzBuf) :
    (streamFooterPass s b).Sound b seen := by
  have other : s.sequence ≠ .streamHeader := by
    rw [here]
    decide
  obtain ⟨size,rest,whole⟩ := sound.footer here
  unfold streamFooterPass
  apply withTemp_rule
  · exact sound.filled
  · exact sound.room
  · intro buf count short content
    have kept : XzDec.Kept { s with temp := ⟨buf,s.temp.pos + count,s.temp.size⟩ } := ⟨sound.lzma2,Nat.le_of_lt short,sound.room⟩
    refine ⟨b.moved_to (Nat.le_add_right _ _),kept,fun _ => ?_,fun ended => XzRet.noConfusion ended⟩
    obtain ⟨rest',later⟩ := sound.later other
    rw [b.read_count]
    exact {
      toKept := kept
      running := sound.running
      start := fun first => absurd first other
      later := fun _ => ⟨rest' ++ _,by rw [later,List.append_assoc]⟩
      footer := fun _ => ⟨size,rest,by rw [whole,List.append_assoc,← content]⟩ }
  · intro buf count full content
    have moved : b.Moved { b with inPos := b.inPos + count } := b.moved_to (Nat.le_add_right _ _)
    have kept : XzDec.Kept { s with temp := ⟨buf,0,s.temp.size⟩ } := ⟨sound.lzma2,Nat.zero_le _,sound.room⟩
    refine ⟨moved,kept,fun waiting => ?_,fun ended => ?_⟩
    · exact absurd waiting (decStreamFooter_waits _)
    · refine ⟨s.streamFlags.toUInt8,rest,window buf 4 4,length_window _ _ _,?_⟩
      have footer := decStreamFooter_end ended
      dsimp only at footer
      rw [b.read_count,whole,List.append_assoc,← content,full,size,footer]

theorem streamPass_sound (memory : Nat → UInt8) (fuel : Nat) (sound : s.Sound seen) (b : XzBuf) :
    (streamPass memory fuel s b).Sound b seen := by
  unfold streamPass
  split
  · exact streamHeaderPass_sound sound ‹_› b
  · exact blockStartPass_sound sound ‹_› b
  · exact blockHeaderPass_sound memory sound ‹_› b
  · exact blockUncompressPass_sound fuel sound ‹_› b
  · exact blockPaddingLoop_sound 3 sound ‹_› b
  · exact blockCheckPass_sound sound ‹_› b
  · exact indexPass_sound sound ‹_› b
  · exact indexPaddingPass_sound sound ‹_› b
  · exact indexCrc32Pass_sound sound ‹_› b
  · exact streamFooterPass_sound sound ‹_› b

end Passes

section Runs

variable {s : XzDec} {b : XzBuf} {seen : List UInt8} {memory : Nat → UInt8}

theorem xzDecRun_sound {fuel : Nat} (sound : s.Sound seen) {called : Called XzDec} (run : xzDecRun memory fuel s b = some called) :
    ∃ ret after b', called = .returned ret after b' ∧ b.Moved b' ∧ after.Kept ∧
      (ret = .ok → after.Sound (seen ++ b.read b')) ∧ (ret = .streamEnd → Accepted (seen ++ b.read b')) := by
  induction fuel generalizing s b seen with
  | zero => cases run
  | succ fuel ih =>
    have passed := streamPass_sound memory fuel sound b
    rw [xzDecRun] at run
    generalize streamPass memory fuel s b = pass at passed run
    cases pass with
    | running => cases run
    | strayed => exact passed.elim
    | ret ret after b' =>
      cases run
      exact ⟨ret,after,b',rfl,passed⟩
    | again after b' =>
      obtain ⟨moved,going⟩ := passed
      have further (allow : Bool) (next : xzDecRun memory fuel { after with allowBufError := allow } b' = some called) :
          ∃ ret after b'', called = .returned ret after b'' ∧ b.Moved b'' ∧ after.Kept ∧
            (ret = .ok → after.Sound (seen ++ b.read b'')) ∧ (ret = .streamEnd → Accepted (seen ++ b.read b'')) := by
        have same : XzDec.Sound { after with allowBufError := allow } (seen ++ b.read b') := { going with toKept := { going.toKept with } }
        obtain ⟨ret,last,b'',returned,moved',rest⟩ := ih same next
        refine ⟨ret,last,b'',returned,moved.trans moved',?_⟩
        rw [moved.read moved',← List.append_assoc]
        exact rest
      dsimp only at run
      split at run
      · split at run
        · cases run
          exact ⟨.bufError,after,b',rfl,moved,going.toKept,fun ok => XzRet.noConfusion ok,fun ended => XzRet.noConfusion ended⟩
        · exact further true run
      · exact further false run

theorem xzDecReset_sound (kept : s.lzma2.Kept) : (xzDecReset s).Sound [] where
  lzma2 := kept
  filled := Nat.le_refl _
  room := Nat.zero_le _
  running run := XzDecStreamState.noConfusion run
  start _ := ⟨Nat.zero_le _,rfl⟩
  later other := absurd rfl other
  footer last := XzDecStreamState.noConfusion last

/-- The decoders that calls lead to, with the bytes they have read of the current stream. After anything
but `XZ_OK` a decoder has to be reset. -/
inductive ReachedStream (dictMax : UInt32) : XzDec → Option (List UInt8) → Prop where
  | init : ReachedStream dictMax (xzDecInit dictMax) (some [])
  | reset {s : XzDec} {seen : Option (List UInt8)} (before : ReachedStream dictMax s seen) :
      ReachedStream dictMax (xzDecReset s) (some [])
  | run {s after : XzDec} {seen : List UInt8} {memory : Nat → UInt8} {fuel : Nat} {b b' : XzBuf} {ret : XzRet}
      (before : ReachedStream dictMax s (some seen)) (call : xzDecRun memory fuel s b = some (.returned ret after b')) :
      ReachedStream dictMax after (if ret = .ok then some (seen ++ b.read b') else none)

theorem ReachedStream.sound {dictMax : UInt32} (positive : 0 < dictMax) {seen : Option (List UInt8)}
    (reached : ReachedStream dictMax s seen) : s.Kept ∧ ∀ bytes, seen = some bytes → s.Sound bytes := by
  induction reached with
  | init =>
    have sound : (xzDecInit dictMax).Sound [] := @xzDecReset_sound (xzDecInit dictMax) (xzDecLzma2Create_sound positive).toKept
    refine ⟨sound.toKept,fun bytes same => ?_⟩
    cases same
    exact sound
  | reset before ih =>
    have sound := xzDecReset_sound ih.1.lzma2
    refine ⟨sound.toKept,fun bytes same => ?_⟩
    cases same
    exact sound
  | run before call ih =>
    obtain ⟨ret,after,b',same,_,kept,waits,_⟩ := xzDecRun_sound (ih.2 _ rfl) call
    cases same
    refine ⟨kept,fun bytes same => ?_⟩
    split at same
    · cases same
      exact waits ‹_›
    · cases same

/-- Whatever the input is and however it is cut, no call of the stream decoder goes astray. -/
theorem stream_never_strays {dictMax : UInt32} (positive : 0 < dictMax) {seen : List UInt8} (reached : ReachedStream dictMax s (some seen))
    (memory : Nat → UInt8) (b : XzBuf) (fuel : Nat) : xzDecRun memory fuel s b ≠ some .strayed := by
  intro strayed
  obtain ⟨_,_,_,same,_⟩ := xzDecRun_sound ((reached.sound positive).2 _ rfl) strayed
  cases same

/-- A stream of one block, with its check and its record in the index. -/
def sampleStream : List UInt8 :=
  [0xFD,0x37,0x7A,0x58,0x5A,0x00,0x00,0x01,0x69,0x22,0xDE,0x36,0x02,0x00,0x21,0x01,0x00,0x00,0x00,0x00,0x37,0x27,0x97,0xD6,
    0xE0,0x00,0x1A,0x00,0x09,0x00,0x00,0x30,0x99,0xAB,0xDF,0x05,0xE9,0x75,0x00,0x00,0x00,0x00,0x00,0x00,0xD1,0x8E,0xF6,0xA8,
    0x00,0x01,0x21,0x1B,0x24,0x69,0x7C,0x26,0x90,0x42,0x99,0x0D,0x01,0x00,0x00,0x00,0x00,0x01,0x59,0x5A]

def sampleStreamBuf : XzBuf := ⟨fun i => sampleStream.getD i 0,0,68,[],40⟩

theorem sampleStream_never_strays : xzDecRun (fun _ => 0) 20 (xzDecInit 67108864) sampleStreamBuf ≠ some .strayed :=
  stream_never_strays (by decide) .init _ _ _

/-- What is accepted, however it is cut, begins with the header of some flags and ends with a footer of the same
flags, and their checksums are right. -/
theorem accepted_stream {dictMax : UInt32} (positive : 0 < dictMax) {seen : List UInt8} (reached : ReachedStream dictMax s (some seen))
    {memory : Nat → UInt8} {b b' : XzBuf} {fuel : Nat} {after : XzDec}
    (call : xzDecRun memory fuel s b = some (.returned .streamEnd after b')) : Accepted (seen ++ b.read b') := by
  obtain ⟨_,_,_,same,_,_,_,accepted⟩ := xzDecRun_sound ((reached.sound positive).2 _ rfl) call
  cases same
  exact accepted rfl

theorem sampleStream_accepted : Accepted sampleStream := by
  obtain ⟨after,b',call,checked⟩ := @exists_returned _ .streamEnd (fun _ b => decide (sampleStreamBuf.read b = sampleStream))
    (xzDecRun (fun _ => 0) 20 (xzDecInit 67108864) sampleStreamBuf) (by decide +kernel)
  have accepted := accepted_stream (by decide) .init call
  rwa [of_decide_eq_true checked] at accepted

end Runs

end SetecWizard.Core.Xz
