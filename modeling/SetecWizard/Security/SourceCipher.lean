import SetecWizard.Core.SrcCipher
import SetecWizard.Format.Integers

/-! The tool that encrypts source files. The two loops that lengthen a key append a piece of
the passphrase's own length, so that an empty one is never long enough. Each byte of a
ciphertext reaches the accumulator of its tag by steps that can be taken back.
-/
namespace SetecWizard.Core.SrcCipher
open SetecWizard.Library

section Keystream

variable {passphrase : List UInt8} {streamLen : UInt64}

theorem length_mixByte (roundKey : UInt8) (state : List UInt8) (i : Nat) :
    (mixByte roundKey state i).length = state.length := by
  simp only [mixByte,List.length_set]

theorem length_mixRound (state : List UInt8) (roundKey : UInt8) : (mixRound state roundKey).length = state.length := by
  rw [mixRound]
  generalize List.range state.length = places
  induction places generalizing state with
  | nil => rfl
  | cons i places ih => rw [List.foldl_cons,ih,length_mixByte]

theorem length_mixRounds (key state : List UInt8) : (mixRounds key state).length = state.length := by
  rw [mixRounds]
  generalize List.range 256 = rounds
  induction rounds generalizing state with
  | nil => rfl
  | cons round rounds ih => rw [List.foldl_cons,ih,length_mixRound]

theorem length_keyPiece (passphrase : List UInt8) (old : Nat) : (keyPiece passphrase old).length = passphrase.length :=
  List.length_mapIdx

theorem length_statePiece (key : List UInt8) (old : Nat) : (statePiece key old).length = key.length :=
  List.length_mapIdx

theorem deriveKeystream_eq {fuel : Nat} {key state : List UInt8} (keyed : grow 64 (keyPiece passphrase) fuel passphrase = some key)
    (stated : grow (streamLen + 64).toNat (statePiece key) fuel key = some state) :
    deriveKeystream fuel passphrase streamLen =
      if state.length < streamLen.toNat then none else some ((mixRounds key state).take streamLen.toNat) := by
  simp only [deriveKeystream,keyed,stated,Option.bind_eq_bind,Option.bind_some,length_mixRounds]

/-- What the derivation is asked for: as many bytes as requested, after a finite time. -/
def Derives (passphrase : List UInt8) (streamLen : UInt64) : Prop :=
  ∃ stream, Returns (fun fuel => deriveKeystream fuel passphrase streamLen) stream ∧ stream.length = streamLen.toNat

theorem key_returns (nonempty : passphrase ≠ []) :
    ∃ key, Returns (fun fuel => grow 64 (keyPiece passphrase) fuel passphrase) key ∧ 64 ≤ key.length ∧
      passphrase.length ≤ key.length :=
  grow_returns (fun old => by rw [length_keyPiece]; exact List.length_pos_iff.mpr nonempty) passphrase

theorem deriveKeystream_returns (nonempty : passphrase ≠ [])
    (fits : streamLen.toNat + 64 < 2 ^ 64 ∨ streamLen.toNat ≤ passphrase.length) : Derives passphrase streamLen := by
  obtain ⟨key,keyed,least,longer⟩ := key_returns nonempty
  obtain ⟨state,stated,limit,grown⟩ := @grow_returns UInt8 (streamLen + 64).toNat (statePiece key)
    (fun old => by rw [length_statePiece]; omega) key
  have long : streamLen.toNat ≤ state.length := by
    rcases fits with whole | short
    · have sixty_four : (64 : UInt64).toNat = 64 := rfl
      rw [UInt64.toNat_add,sixty_four,Nat.mod_eq_of_lt whole] at limit
      omega
    · omega
  obtain ⟨first,key_here⟩ := keyed
  obtain ⟨second,state_here⟩ := stated
  refine ⟨(mixRounds key state).take streamLen.toNat,⟨max first second,fun fuel reached => ?_⟩,?_⟩
  · dsimp only
    rw [deriveKeystream_eq (key_here fuel (by omega)) (state_here fuel (by omega)),if_neg (Nat.not_lt.mpr long)]
  · rw [List.length_take,length_mixRounds]
    exact Nat.min_eq_left long

theorem deriveKeystream_empty (fuel : Nat) (streamLen : UInt64) : deriveKeystream fuel [] streamLen = none := by
  have never : grow 64 (keyPiece []) fuel [] = none := grow_stuck (fun _ => rfl) (by decide) fuel
  rw [deriveKeystream,never]
  rfl

/-- When the limit wraps, the state is the key. -/
theorem wrapped_limit (wraps : 2 ^ 64 ≤ streamLen.toNat + 64) : (streamLen + 64).toNat < 64 := by
  have width := streamLen.toNat_lt
  have sixty_four : (64 : UInt64).toNat = 64 := rfl
  rw [UInt64.toNat_add,sixty_four]
  omega

theorem derives_iff : Derives passphrase streamLen ↔
    passphrase ≠ [] ∧ (streamLen.toNat + 64 < 2 ^ 64 ∨ streamLen.toNat ≤ passphrase.length) := by
  constructor
  · rintro ⟨stream,returns,length⟩
    have nonempty : passphrase ≠ [] := by
      rintro rfl
      obtain ⟨fuel,ended⟩ := returns.not_none
      exact ended (deriveKeystream_empty fuel streamLen)
    refine ⟨nonempty,?_⟩
    by_contra neither
    rw [not_or,Nat.not_lt,Nat.not_le] at neither
    obtain ⟨wraps,beyond⟩ := neither
    obtain ⟨key,keyed,least,_⟩ := key_returns nonempty
    have state : Returns (fun fuel => grow (streamLen + 64).toNat (statePiece key) fuel key) key :=
      grow_enough (Nat.le_trans (Nat.le_of_lt (wrapped_limit wraps)) least)
    have short : key.length < streamLen.toNat := by
      by_cases long : 64 ≤ passphrase.length
      · rw [keyed.unique (grow_enough long)]
        exact beyond
      · obtain ⟨fuel,enough⟩ := keyed
        rcases grow_length_lt (fun old => Nat.le_of_eq (length_keyPiece passphrase old)) (enough fuel (Nat.le_refl _))
          with bounded | rfl
        · omega
        · omega
    -- The stream would be longer than the state it is cut from.
    obtain ⟨least',enough⟩ := returns
    obtain ⟨first,key_here⟩ := keyed
    obtain ⟨second,state_here⟩ := state
    have ended := enough (max least' (max first second)) (Nat.le_max_left _ _)
    dsimp only at ended
    rw [deriveKeystream_eq (key_here _ (by omega)) (state_here _ (by omega)),if_pos short] at ended
    cases ended
  · rintro ⟨nonempty,fits⟩
    exact deriveKeystream_returns nonempty fits

/-- An empty passphrase, as the second argument on the command line can be. -/
theorem empty_passphrase : ¬ ∀ passphrase streamLen, Derives passphrase streamLen := by
  intro all
  obtain ⟨stream,returns,_⟩ := all [] 100
  obtain ⟨fuel,ended⟩ := returns.not_none
  exact ended (deriveKeystream_empty fuel 100)

end Keystream

section Tag

variable {data : List UInt8}

theorem turned (x : UInt8) : (x <<< 1 ||| x >>> 7).toNat = x.toNat % 128 * 2 + x.toNat / 128 := by
  have bound := x.toNat_lt
  have one : (1 : UInt8).toNat % 8 = 1 := rfl
  have seven : (7 : UInt8).toNat % 8 = 7 := rfl
  have low : x.toNat <<< 1 % 2 ^ 8 = (x.toNat % 128) <<< 1 := by
    rw [Nat.shiftLeft_eq,Nat.shiftLeft_eq]
    omega
  have high : x.toNat / 2 ^ 7 < 2 ^ 1 := by omega
  rw [UInt8.toNat_or,UInt8.toNat_shiftLeft,UInt8.toNat_shiftRight,one,seven,low,Nat.shiftRight_eq_div_pow,
    ← Nat.shiftLeft_add_eq_or_of_lt high,Nat.shiftLeft_eq,Nat.pow_one]
  rfl

theorem turned_injective {x y : UInt8} (same : x <<< 1 ||| x >>> 7 = y <<< 1 ||| y >>> 7) : x = y := by
  have bound := x.toNat_lt
  have bound' := y.toNat_lt
  have values := congrArg UInt8.toNat same
  rw [turned,turned] at values
  apply UInt8.toNat_inj.mp
  omega

theorem xor_right_injective {a b c : UInt8} (same : a ^^^ c = b ^^^ c) : a = b := by
  have undone := congrArg (· ^^^ c) same
  simp only [UInt8.xor_assoc,UInt8.xor_self,UInt8.xor_zero] at undone
  exact undone

theorem xor_left_injective {a b c : UInt8} (same : c ^^^ a = c ^^^ b) : a = b := by
  rw [UInt8.xor_comm c a,UInt8.xor_comm c b] at same
  exact xor_right_injective same

theorem accumulate_differs {a b : UInt8} (differs : a ≠ b) (data : List UInt8) :
    data.foldl accumulateByte a ≠ data.foldl accumulateByte b := by
  induction data generalizing a b with
  | nil => exact differs
  | cons x rest ih => exact ih (fun same => differs (xor_right_injective (turned_injective same)))

theorem accumulate_set {i : Nat} {b : UInt8} (inside : i < data.length) (differs : data[i]? ≠ some b) :
    accumulate (data.set i b) ≠ accumulate data := by
  have changed : data.set i b = data.take i ++ b :: data.drop (i + 1) := by
    rw [List.set_eq_take_append_cons_drop,if_pos inside]
  have whole : data = data.take i ++ data[i] :: data.drop (i + 1) := by
    rw [← List.drop_eq_getElem_cons inside,List.take_append_drop]
  rw [changed,accumulate]
  conv_rhs => rw [whole]
  rw [accumulate,List.foldl_append,List.foldl_append,List.foldl_cons,List.foldl_cons]
  apply accumulate_differs
  intro same
  have byte := xor_left_injective (turned_injective same)
  rw [byte,List.getElem?_eq_getElem inside] at differs
  exact differs rfl

def tagOf (stream data : List UInt8) : List UInt8 :=
  (List.range TAG_LEN).map (fun i => stream.getD i 0 ^^^ accumulate data ^^^ UInt8.ofNat i)

theorem length_tagOf (stream data : List UInt8) : (tagOf stream data).length = 32 := by
  rw [tagOf,List.length_map,List.length_range,TAG_LEN]

theorem tagOf_injective {stream other : List UInt8} (same : tagOf stream data = tagOf stream other) :
    accumulate data = accumulate other := by
  have first := congrArg List.head? same
  simp only [tagOf,TAG_LEN,List.range_succ_eq_map,List.map_cons,List.head?_cons,Option.some.injEq] at first
  exact xor_left_injective (xor_right_injective first)

theorem computeTag_returns (passphrase : List UInt8) {n : Nat} (small : n < 2 ^ 63) :
    ∃ stream, ∀ data : List UInt8, data.length = n →
      Returns (fun fuel => computeTag fuel data passphrase) (tagOf stream data) := by
  have words : (UInt64.ofNat (TAG_LEN + n)).toNat = 32 + n := by
    rw [UInt64.toNat_ofNat',TAG_LEN]
    omega
  obtain ⟨stream,returns,_⟩ := @deriveKeystream_returns (passphrase ++ FormatEngine.asciiBytes "_tag_verify")
    (UInt64.ofNat (TAG_LEN + n)) (fun empty => by cases (List.append_eq_nil_iff.mp empty).2) (.inl (by rw [words]; omega))
  refine ⟨stream,fun data length => ?_⟩
  obtain ⟨least,enough⟩ := returns
  refine ⟨least,fun fuel reached => ?_⟩
  have derived := enough fuel reached
  dsimp only at derived ⊢
  rw [computeTag,length,derived]
  rfl

end Tag

section File

variable {key ciphertext tag raw : List UInt8}

def fileOf (ciphertext tag : List UInt8) : List UInt8 :=
  MAGIC ++ le32 (UInt32.ofNat ciphertext.length) ++ ciphertext ++ tag

theorem length_fileOf (ciphertext tag : List UInt8) :
    (fileOf ciphertext tag).length = 12 + ciphertext.length + tag.length := by
  have magic : MAGIC.length = 8 := rfl
  simp only [fileOf,List.length_append,magic,length_le32]

theorem fileOf_parts (ciphertext : List UInt8) (sized : tag.length = 32) :
    (fileOf ciphertext tag).take 8 = MAGIC ∧
      slice (fileOf ciphertext tag) 8 4 = le32 (UInt32.ofNat ciphertext.length) ∧
      slice (fileOf ciphertext tag) 12 ciphertext.length = ciphertext ∧
      slice (fileOf ciphertext tag) (12 + ciphertext.length) 32 = tag := by
  have front : fileOf ciphertext tag = MAGIC ++ (le32 (UInt32.ofNat ciphertext.length) ++ (ciphertext ++ tag)) := by
    rw [fileOf,List.append_assoc,List.append_assoc]
  have middle : fileOf ciphertext tag = (MAGIC ++ le32 (UInt32.ofNat ciphertext.length)) ++ ciphertext ++ tag := rfl
  refine ⟨?_,?_,?_,?_⟩
  · rw [front]
    exact List.take_left' rfl
  · have block := slice_middle MAGIC (le32 (UInt32.ofNat ciphertext.length)) (ciphertext ++ tag)
    rw [← front] at block
    exact block
  · rw [middle]
    exact slice_middle (MAGIC ++ le32 (UInt32.ofNat ciphertext.length)) ciphertext tag
  · have block := slice_middle (MAGIC ++ le32 (UInt32.ofNat ciphertext.length) ++ ciphertext) tag []
    rw [List.append_nil,sized,List.length_append] at block
    exact block

theorem doDecrypt_rejects (inpath outpath : String) (opens : Bool)
    (bad : raw.length < 44 ∨ raw.take 8 ≠ MAGIC ∨ raw.length - 44 ≠ (readLE32 raw 8).toNat ∨
      ∃ expected, Returns (fun fuel => computeTag fuel (slice raw 12 (raw.length - 44)) key) expected ∧
        slice raw (12 + (raw.length - 44)) 32 ≠ expected) :
    ∃ message, Returns (fun fuel => doDecrypt fuel key inpath outpath (some raw) opens) (fails message) := by
  by_cases small : raw.length < MAGIC_LEN + 4 + TAG_LEN
  · exact ⟨_,0,fun fuel _ => by dsimp only [doDecrypt]; rw [if_pos small]⟩
  by_cases magic : raw.take MAGIC_LEN ≠ MAGIC
  · exact ⟨_,0,fun fuel _ => by dsimp only [doDecrypt]; rw [if_neg small,if_pos magic]⟩
  by_cases mismatch : raw.length - MAGIC_LEN - 4 - TAG_LEN ≠ (readLE32 raw MAGIC_LEN).toNat
  · exact ⟨_,0,fun fuel _ => by dsimp only [doDecrypt]; rw [if_neg small,if_neg magic,if_pos mismatch]⟩
  have rest : raw.length - MAGIC_LEN - 4 - TAG_LEN = raw.length - 44 := by
    rw [MAGIC_LEN,TAG_LEN]
    omega
  rcases bad with short | other | wrong | ⟨expected,⟨least,enough⟩,differs⟩
  · exact absurd short small
  · exact absurd other magic
  · exact absurd (rest ▸ wrong) mismatch
  · refine ⟨"Tag verification failed — wrong key or corrupt file\n",least,fun fuel reached => ?_⟩
    have computed : computeTag fuel (slice raw (MAGIC_LEN + 4) (raw.length - 44)) key = some expected :=
      enough fuel reached
    have differs' : slice raw (MAGIC_LEN + 4 + (raw.length - 44)) TAG_LEN ≠ expected := differs
    dsimp only [doDecrypt]
    rw [if_neg small,if_neg magic,if_neg mismatch,rest,computed,Option.bind_eq_bind,Option.bind_some,if_pos differs']
    rfl

theorem doDecrypt_accepts (inpath outpath : String) {stream : List UInt8} (sized : tag.length = 32)
    (words : ciphertext.length < 2 ^ 32) (tagged : Returns (fun fuel => computeTag fuel ciphertext key) tag)
    (derived : Returns (fun fuel => deriveKeystream fuel key (UInt64.ofNat ciphertext.length)) stream) :
    Returns (fun fuel => doDecrypt fuel key inpath outpath (some (fileOf ciphertext tag)) true)
      { exitCode := 0,output := some (ciphertext.mapIdx (fun i b => b ^^^ stream.getD i 0)) } := by
  obtain ⟨front,size,middle,end_⟩ := fileOf_parts ciphertext sized
  have length := length_fileOf ciphertext tag
  have rest : (fileOf ciphertext tag).length - MAGIC_LEN - 4 - TAG_LEN = ciphertext.length := by
    rw [MAGIC_LEN,TAG_LEN]
    omega
  have small : ¬ (fileOf ciphertext tag).length < MAGIC_LEN + 4 + TAG_LEN := by
    rw [MAGIC_LEN,TAG_LEN]
    omega
  have same : ¬ ciphertext.length ≠ (readLE32 (fileOf ciphertext tag) MAGIC_LEN).toNat := by
    have read : readLE32 (fileOf ciphertext tag) MAGIC_LEN = UInt32.ofNat ciphertext.length := readLE32_of_slice size
    rw [read,UInt32.toNat_ofNat',Nat.mod_eq_of_lt words]
    exact fun differs => differs rfl
  have known : ¬ (fileOf ciphertext tag).take MAGIC_LEN ≠ MAGIC := not_not.mpr front
  have held : slice (fileOf ciphertext tag) (MAGIC_LEN + 4) ciphertext.length = ciphertext := middle
  have last : slice (fileOf ciphertext tag) (MAGIC_LEN + 4 + ciphertext.length) TAG_LEN = tag := end_
  obtain ⟨first,tag_here⟩ := tagged
  obtain ⟨second,stream_here⟩ := derived
  refine ⟨max first second,fun fuel reached => ?_⟩
  have computed := tag_here fuel (by omega)
  have keyed := stream_here fuel (by omega)
  dsimp only at computed keyed
  dsimp only [doDecrypt]
  rw [if_neg small,if_neg known,rest,if_neg same,held,last,computed,Option.bind_eq_bind,Option.bind_some,
    if_neg (not_not.mpr rfl),keyed]
  rfl

/-- One byte changed, or some bytes cut off or added at the end. -/
def Altered (file altered : List UInt8) : Prop :=
  (∃ i b, i < file.length ∧ file[i]? ≠ some b ∧ altered = file.set i b) ∨
    (altered <+: file ∧ altered ≠ file) ∨ (file <+: altered ∧ altered ≠ file)

theorem slice_set_apart {xs : List UInt8} {i off n : Nat} (b : UInt8) (apart : i < off ∨ off + n ≤ i) :
    slice (xs.set i b) off n = slice xs off n := by
  apply slice_keep
  intro j low high
  exact List.getElem?_set_ne (by omega)

theorem slice_set_inside {xs : List UInt8} {i off n : Nat} (b : UInt8) (low : off ≤ i) :
    slice (xs.set i b) off n = (slice xs off n).set (i - off) b := by
  rw [slice,slice,List.drop_set,if_neg (Nat.not_lt.mpr low),List.take_set]

theorem getElem?_of_slice {xs ys : List UInt8} {i off n : Nat} (same : slice xs off n = slice ys off n) (low : off ≤ i)
    (high : i < off + n) : xs[i]? = ys[i]? := by
  have cell := congrArg (fun part => part[i - off]?) same
  simp only [getElem?_slice,if_pos (show i - off < n by omega)] at cell
  rwa [Nat.add_sub_cancel' low] at cell

theorem size_bytes {raw other : List UInt8} (long : 12 ≤ raw.length) (long' : 12 ≤ other.length)
    (same : (readLE32 raw 8).toNat = (readLE32 other 8).toNat) : slice raw 8 4 = slice other 8 4 := by
  rw [← le32_readLE32 long,← le32_readLE32 long',UInt32.toNat_inj.mp same]

theorem altered_rejected (inpath outpath : String) (opens : Bool) {stream altered : List UInt8} (words : ciphertext.length < 2 ^ 32)
    (tags : ∀ data : List UInt8, data.length = ciphertext.length →
      Returns (fun fuel => computeTag fuel data key) (tagOf stream data))
    (changed : Altered (fileOf ciphertext (tagOf stream ciphertext)) altered) :
    ∃ message, Returns (fun fuel => doDecrypt fuel key inpath outpath (some altered) opens) (fails message) := by
  have sized := length_tagOf stream ciphertext
  obtain ⟨front,size,middle,end_⟩ := fileOf_parts ciphertext sized
  have length := length_fileOf ciphertext (tagOf stream ciphertext)
  have read : (readLE32 (fileOf ciphertext (tagOf stream ciphertext)) 8).toNat = ciphertext.length := by
    rw [readLE32_of_slice size,UInt32.toNat_ofNat',Nat.mod_eq_of_lt words]
  rw [sized] at length
  generalize fileOf ciphertext (tagOf stream ciphertext) = file at *
  apply doDecrypt_rejects
  rcases changed with ⟨i,b,inside,differs,rfl⟩ | ⟨⟨extra,whole⟩,cut⟩ | ⟨⟨extra,rfl⟩,added⟩
  · have total : (file.set i b).length - 44 = ciphertext.length := by
      rw [List.length_set]
      omega
    have here : (file.set i b)[i]? = some b := List.getElem?_set_self inside
    rw [total]
    by_cases magic : i < 8
    · right; left
      intro same
      have cells : slice (file.set i b) 0 8 = slice file 0 8 := same.trans front.symm
      rw [← getElem?_of_slice cells (Nat.zero_le _) (by omega),here] at differs
      exact differs rfl
    by_cases field : i < 12
    · right; right; left
      intro same
      have cells := size_bytes (by rw [List.length_set]; omega) (by omega) (same.symm.trans read.symm)
      rw [← getElem?_of_slice cells (by omega) (by omega),here] at differs
      exact differs rfl
    right; right; right
    by_cases body : i < 12 + ciphertext.length
    · -- The stream of the tag is the old one and the accumulator is another one.
      refine ⟨_,tags _ (length_slice _ _ _ (by rw [List.length_set]; omega)),fun same => ?_⟩
      rw [slice_set_apart b (.inl body),end_,slice_set_inside b (by omega),middle] at same
      refine accumulate_set (by omega) ?_ (tagOf_injective same.symm)
      have cell := congrArg (fun part => part[i - 12]?) middle
      simp only [getElem?_slice,if_pos (show i - 12 < ciphertext.length by omega)] at cell
      rw [← cell,Nat.add_sub_cancel' (by omega)]
      exact differs
    · refine ⟨tagOf stream ciphertext,?_,fun same => ?_⟩
      · rw [slice_set_apart b (.inr (by omega)),middle]
        exact tags ciphertext rfl
      · rw [← getElem?_of_slice (same.trans end_.symm) (by omega) (by omega),here] at differs
        exact differs rfl
  · by_cases short : altered.length < 44
    · exact .inl short
    right; right; left
    have shorter : altered.length < file.length := by
      have sum := congrArg List.length whole
      rw [List.length_append] at sum
      have some_ : extra ≠ [] := by
        rintro rfl
        exact cut (by rw [← whole,List.append_nil])
      have positive := List.length_pos_iff.mpr some_
      omega
    have field : slice altered 8 4 = slice file 8 4 := by
      rw [← whole]
      exact (slice_append_left _ _ _ _ (by omega)).symm
    rw [readLE32_of_slice (field.trans size),UInt32.toNat_ofNat',Nat.mod_eq_of_lt words]
    omega
  · right; right; left
    have some_ : extra ≠ [] := by
      rintro rfl
      exact added (List.append_nil _)
    have positive := List.length_pos_iff.mpr some_
    have field : slice (file ++ extra) 8 4 = slice file 8 4 := slice_append_left _ _ _ _ (by omega)
    rw [readLE32_of_slice (field.trans size),UInt32.toNat_ofNat',Nat.mod_eq_of_lt words,List.length_append]
    omega

theorem xor_twice (plaintext keystream : List UInt8) :
    (plaintext.mapIdx (fun i b => b ^^^ keystream.getD i 0)).mapIdx (fun i b => b ^^^ keystream.getD i 0) = plaintext := by
  apply List.ext_getElem?
  intro i
  rw [List.getElem?_mapIdx,List.getElem?_mapIdx]
  cases plaintext[i]? with
  | none => rfl
  | some b => simp only [Option.map_some,UInt8.xor_assoc,UInt8.xor_self,UInt8.xor_zero]

theorem cipher_round_trip (plaintext : List UInt8) (inpath encpath outpath : String) (nonempty : key ≠ [])
    (short : plaintext.length < 2 ^ 32) :
    ∃ file, Returns (fun fuel => doEncrypt fuel key inpath encpath (some plaintext) true) { exitCode := 0,output := some file } ∧
      Returns (fun fuel => doDecrypt fuel key encpath outpath (some file) true) { exitCode := 0,output := some plaintext } ∧
      ∀ altered, Altered file altered → ∀ opens, ∃ message,
        Returns (fun fuel => doDecrypt fuel key encpath outpath (some altered) opens) (fails message) := by
  have words : (UInt64.ofNat plaintext.length).toNat = plaintext.length := by
    rw [UInt64.toNat_ofNat']
    omega
  obtain ⟨keystream,derived,_⟩ := @deriveKeystream_returns key (UInt64.ofNat plaintext.length) nonempty
    (.inl (by rw [words]; omega))
  obtain ⟨stream,tags⟩ := computeTag_returns key (show plaintext.length < 2 ^ 63 by omega)
  have same : (plaintext.mapIdx (fun i b => b ^^^ keystream.getD i 0)).length = plaintext.length := List.length_mapIdx
  have tagged := tags _ same
  have encrypted : Returns (fun fuel => doEncrypt fuel key inpath encpath (some plaintext) true)
      { exitCode := 0
        output := some (fileOf (plaintext.mapIdx (fun i b => b ^^^ keystream.getD i 0))
          (tagOf stream (plaintext.mapIdx (fun i b => b ^^^ keystream.getD i 0)))) } := by
    obtain ⟨first,stream_here⟩ := derived
    obtain ⟨second,tag_here⟩ := tagged
    refine ⟨max first second,fun fuel reached => ?_⟩
    have keyed := stream_here fuel (by omega)
    have computed := tag_here fuel (by omega)
    dsimp only at keyed computed
    dsimp only [doEncrypt]
    rw [keyed,Option.bind_eq_bind,Option.bind_some,computed,fileOf,same]
    rfl
  rw [← same] at derived tags
  have decrypted := doDecrypt_accepts encpath outpath (length_tagOf _ _) (by rw [same]; exact short) tagged derived
  rw [xor_twice] at decrypted
  exact ⟨_,encrypted,decrypted,fun altered changed opens =>
    altered_rejected encpath outpath opens (by rw [same]; exact short) tags changed⟩

theorem five_bytes : ∃ file,
    Returns (fun fuel => doEncrypt fuel [0x6B] "a.cpp" "a.enc" (some [1,2,3,4,5]) true) { exitCode := 0,output := some file } ∧
      Returns (fun fuel => doDecrypt fuel [0x6B] "a.enc" "b.cpp" (some file) true) { exitCode := 0,output := some [1,2,3,4,5] } ∧
      ∀ altered, Altered file altered → ∀ opens, ∃ message,
        Returns (fun fuel => doDecrypt fuel [0x6B] "a.enc" "b.cpp" (some altered) opens) (fails message) :=
  cipher_round_trip [1,2,3,4,5] "a.cpp" "a.enc" "b.cpp" (by decide) (by decide)

end File

end SetecWizard.Core.SrcCipher
