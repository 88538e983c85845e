import SetecWizard.Core.Decompressor
import Mathlib.Data.List.TakeWhile

/-! When decompression accepts a file. An .xz file is accepted when its first stream ends; a
.gz file also when the file ends before its stream does. Neither looks at what follows the
first stream, and both leave the output behind when a read or a write fails.
-/
namespace SetecWizard.Core.Decompressor
open SetecWizard.Library

/-- Success means the decoded content of the whole input, an error leaves no output. -/
structure Complete (F : Format UInt8 UInt8) (host : DecompressHost) (done : Decompressed) : Prop where
  success : done.1 = .ok () → ∃ content, F.Whole host.input content ∧ done.2 = some content
  failure : ∀ e, done.1 = .error e → done.2 = none

theorem complete_removed {F : Format UInt8 UInt8} {host : DecompressHost} (e : ErrorInfo) :
    Complete F host (.error e,none) := by
  refine ⟨?_,fun _ _ => rfl⟩
  intro success
  cases success

theorem complete_left {F : Format UInt8 UInt8} {host : DecompressHost} (e : ErrorInfo) (left : List UInt8) :
    ¬ Complete F host (.error e,some left) := by
  intro complete
  have none_ := complete.failure e rfl
  cases none_

theorem complete_ok {F : Format UInt8 UInt8} {host : DecompressHost} (written : List UInt8) :
    Complete F host (.ok (),some written) ↔ F.Whole host.input written := by
  constructor
  · intro complete
    obtain ⟨content,whole,same⟩ := complete.success rfl
    exact Option.some.inj same ▸ whole
  · intro whole
    refine ⟨fun _ => ⟨written,whole,rfl⟩,?_⟩
    intro e failure
    cases failure

section

variable {F : Format UInt8 UInt8} (D : IdealDecoder F) (host : DecompressHost)

/-- The files are opened and the decoder is set up, or no output is created. -/
def Starts : Prop := host.inputOpens = true ∧ host.outputOpens = true

/-- What is decoded of the bytes read is decoded of the whole file. -/
def FirstIsWhole (F : Format UInt8 UInt8) (host : DecompressHost) : Prop :=
  F.Whole host.input (F.produced host.pieces.flatten)

def gzDelivered : List UInt8 := (D.feed kChunkSize (fun _ => true) D.start host.pieces []).1

/-- No write fails, and the input is corrupt or its first stream is all that it decodes to. -/
structure GzSound : Prop where
  initializes : host.initializes = true
  writable : IdealDecoder.Accepts host.writable [] (gzDelivered D host)
  stream : F.verdict host.pieces.flatten = .corrupt ∨
    ∃ n, F.verdict host.pieces.flatten = .complete n ∧ FirstIsWhole F host

theorem feed_verdict : IdealDecoder.TellsAll (F := F) host.pieces.flatten
    (D.feed kChunkSize (fun _ => true) D.start host.pieces []) := by
  have tells := D.feed_tells kChunkSize (fun _ => true) (by decide) host.pieces D.start
    (by rw [D.fed_start,F.verdict_nil]) [] D.given_start.symm
  rwa [D.fed_start,List.nil_append] at tells

theorem Whole.complete {input content : List UInt8} (whole : F.Whole input content) :
    ∃ n, F.verdict input = .complete n := by
  cases whole with
  | last ends => exact ⟨_,ends⟩
  | more ends _ => exact ⟨_,ends⟩

theorem decompressGz_started (starts : Starts host) (inputPath outputPath : String) :
    Complete F host (decompressGz D host inputPath outputPath) ↔ GzSound D host := by
  have tells := feed_verdict D host
  have total := D.feed_total kChunkSize host.pieces D.start []
  obtain ⟨same,fails⟩ := D.feed_writable kChunkSize host.writable host.pieces D.start []
  unfold decompressGz
  rw [if_neg (not_not.mpr starts.1),if_neg (not_not.mpr starts.2)]
  split
  next uninitialized =>
    exact iff_of_false (complete_left _ _) (fun sound => uninitialized sound.initializes)
  next initialized =>
    by_cases accepts : IdealDecoder.Accepts host.writable [] (gzDelivered D host)
    · rw [same accepts]
      have sound : GzSound D host ↔ (F.verdict host.pieces.flatten = .corrupt ∨
          ∃ n, F.verdict host.pieces.flatten = .complete n ∧ FirstIsWhole F host) :=
        ⟨fun sound => sound.stream,fun stream => ⟨not_not.mp initialized,accepts,stream⟩⟩
      rw [sound]
      generalize D.feed kChunkSize (fun _ => true) D.start host.pieces [] = done at tells total
      obtain ⟨written,outcome⟩ := done
      unfold IdealDecoder.TellsAll at tells
      cases outcome with
      | unwritable => exact absurd rfl total
      | paused =>
        have refused : ¬ (F.verdict host.pieces.flatten = .corrupt ∨
            ∃ n, F.verdict host.pieces.flatten = .complete n ∧ FirstIsWhole F host) := by
          simp only at tells
          simp [tells]
        dsimp only
        split
        next =>
          exact iff_of_false (complete_left _ _) refused
        next read =>
          have input : host.input = host.pieces.flatten := by
            rw [DecompressHost.input,Option.not_isSome_iff_eq_none.mp read]
            exact List.append_nil _
          rw [complete_ok,input]
          refine ⟨fun whole => ?_,fun holds => absurd holds refused⟩
          obtain ⟨n,complete⟩ := Whole.complete whole
          rw [tells] at complete
          cases complete
      | failed code message =>
        exact iff_of_true (complete_removed _) (.inl tells)
      | ended =>
        obtain ⟨⟨n,complete⟩,content⟩ := tells
        simp only at content
        rw [complete_ok,content]
        constructor
        · intro whole
          exact .inr ⟨n,complete,whole⟩
        · rintro (corrupt | ⟨_,_,whole⟩)
          · rw [complete] at corrupt
            cases corrupt
          · exact whole
    · have unwritable := fails accepts
      generalize D.feed kChunkSize host.writable D.start host.pieces [] = done at unwritable
      obtain ⟨written,outcome⟩ := done
      simp only at unwritable
      subst unwritable
      exact iff_of_false (complete_left _ _) (fun sound => accepts sound.writable)

theorem decompressGz_complete_iff (inputPath outputPath : String) :
    Complete F host (decompressGz D host inputPath outputPath) ↔ (Starts host → GzSound D host) := by
  by_cases starts : Starts host
  · rw [decompressGz_started D host starts]
    exact ⟨fun sound _ => sound,fun sound => sound starts⟩
  · refine iff_of_true ?_ (fun both => absurd both starts)
    unfold decompressGz
    split
    next => exact complete_removed _
    next opens =>
      rw [if_pos (fun created => starts ⟨not_not.mp opens,created⟩)]
      exact complete_removed _

/-- The calls to the decoder where every write succeeds. -/
def xzPumped : List UInt8 × IdealDecoder.PumpOutcome :=
  D.pump kChunkSize (fun _ => true) host.unread.isSome D.start [] host.pieces []

/-- No read and no write fails, and a complete first stream is all that the input decodes to. -/
structure XzSound : Prop where
  initializes : host.initializes = true
  readable : (xzPumped D host).2 ≠ .unreadable
  writable : IdealDecoder.Accepts host.writable [] (xzPumped D host).1
  stream : ∀ n, F.verdict host.pieces.flatten = .complete n → FirstIsWhole F host

theorem pump_verdict : IdealDecoder.TellsPumped (F := F) host.pieces.flatten (xzPumped D host) := by
  have tells := D.pump_tells kChunkSize (fun _ => true) host.unread.isSome (by decide) D.start [] host.pieces
    host.nonempty [] D.given_start.symm
  rwa [D.fed_start,List.nil_append,List.nil_append] at tells

theorem decompressXz_started (starts : Starts host) (inputPath outputPath : String) :
    Complete F host (decompressXz D host inputPath outputPath) ↔ XzSound D host := by
  have tells := pump_verdict D host
  have total := D.pump_total kChunkSize host.unread.isSome D.start [] host.pieces []
  obtain ⟨same,fails⟩ := D.pump_writable kChunkSize host.writable host.unread.isSome D.start [] host.pieces []
  unfold decompressXz
  rw [if_neg (not_not.mpr starts.1),if_neg (not_not.mpr starts.2)]
  split
  next uninitialized => exact iff_of_false (complete_left _ _) (fun sound => uninitialized sound.initializes)
  next initialized =>
    by_cases accepts : IdealDecoder.Accepts host.writable [] (xzPumped D host).1
    · have pumped : D.pump kChunkSize (fun _ => true) host.unread.isSome D.start [] host.pieces []
          = xzPumped D host := rfl
      have sound : XzSound D host ↔ (xzPumped D host).2 ≠ .unreadable ∧
          ∀ n, F.verdict host.pieces.flatten = .complete n → FirstIsWhole F host :=
        ⟨fun sound => ⟨sound.readable,sound.stream⟩,
          fun both => ⟨not_not.mp initialized,both.1,accepts,both.2⟩⟩
      rw [same accepts,pumped,sound]
      change (xzPumped D host).2 ≠ .unwritable at total
      generalize xzPumped D host = done at tells total
      obtain ⟨written,outcome⟩ := done
      unfold IdealDecoder.TellsPumped at tells
      cases outcome with
      | unwritable => exact absurd rfl total
      | unreadable => exact iff_of_false (complete_left _ _) (fun both => both.1 rfl)
      | stuck =>
        refine iff_of_true (complete_removed _) ⟨by simp,?_⟩
        intro n complete
        rw [tells] at complete
        cases complete
      | failed code message =>
        refine iff_of_true (complete_removed _) ⟨by simp,?_⟩
        intro n complete
        rw [tells] at complete
        cases complete
      | ended =>
        obtain ⟨⟨n,complete⟩,content⟩ := tells
        simp only at content
        rw [complete_ok,content]
        constructor
        · intro whole
          exact ⟨by simp,fun _ _ => whole⟩
        · intro both
          exact both.2 n complete
    · have unwritable := fails accepts
      generalize D.pump kChunkSize host.writable host.unread.isSome D.start [] host.pieces [] = done at unwritable
      obtain ⟨written,outcome⟩ := done
      simp only at unwritable
      subst unwritable
      exact iff_of_false (complete_left _ _) (fun sound => accepts sound.writable)

theorem decompressXz_complete_iff (inputPath outputPath : String) :
    Complete F host (decompressXz D host inputPath outputPath) ↔ (Starts host → XzSound D host) := by
  by_cases starts : Starts host
  · rw [decompressXz_started D host starts]
    exact ⟨fun sound _ => sound,fun sound => sound starts⟩
  · refine iff_of_true ?_ (fun both => absurd both starts)
    unfold decompressXz
    split
    next => exact complete_removed _
    next opens =>
      rw [if_pos (fun created => starts ⟨not_not.mp opens,created⟩)]
      exact complete_removed _

end

/-- Both kinds of files are accepted, and failures cleaned up, under these conditions only. -/
theorem decompress_complete_iff {G X : Format UInt8 UInt8} (inflate : IdealDecoder G) (xzDec : IdealDecoder X)
    (gz xz : DecompressHost) (inputPath outputPath : String) :
    (Complete G gz (decompressGz inflate gz inputPath outputPath) ↔ (Starts gz → GzSound inflate gz)) ∧
    (Complete X xz (decompressXz xzDec xz inputPath outputPath) ↔ (Starts xz → XzSound xzDec xz)) :=
  ⟨decompressGz_complete_iff inflate gz inputPath outputPath,
    decompressXz_complete_iff xzDec xz inputPath outputPath⟩

section Terminated

theorem nonzero_of_clean {text : List UInt8} (clean : 0 ∉ text) : ∀ b ∈ text, decide (b ≠ 0) = true :=
  fun _ member => decide_eq_true (fun zero => clean (zero ▸ member))

theorem takeWhile_clean {text : List UInt8} (clean : 0 ∉ text) : text.takeWhile (· ≠ 0) = text :=
  List.takeWhile_eq_self_iff.mpr (nonzero_of_clean clean)

theorem takeWhile_terminated {text : List UInt8} (clean : 0 ∉ text) (rest : List UInt8) :
    (text ++ 0 :: rest).takeWhile (· ≠ 0) = text := by
  rw [List.takeWhile_append_of_pos (nonzero_of_clean clean),List.takeWhile_cons_of_neg (by simp),List.append_nil]

/-- A stream is its content, without zeros, and a zero at the end. -/
def terminated : Format UInt8 UInt8 where
  produced := List.takeWhile (· ≠ 0)
  verdict input := if 0 ∈ input then .complete ((input.takeWhile (· ≠ 0)).length + 1) else .truncated
  verdict_nil := rfl
  produced_nil := rfl
  produced_append xs ys := by
    by_cases member : 0 ∈ xs
    · obtain ⟨text,rest,rfl,clean⟩ := List.eq_append_cons_of_mem member
      rw [List.append_assoc,List.cons_append,takeWhile_terminated clean,takeWhile_terminated clean]
    · rw [takeWhile_clean member,List.takeWhile_append_of_pos (nonzero_of_clean member)]
      exact List.prefix_append _ _
  complete_le xs n complete := by
    split at complete
    next member =>
      obtain ⟨text,rest,rfl,clean⟩ := List.eq_append_cons_of_mem member
      rw [takeWhile_terminated clean] at complete
      cases complete
      rw [List.length_append,List.length_cons]
      omega
    next => cases complete
  complete_append xs ys n complete := by
    split at complete
    next member =>
      obtain ⟨text,rest,rfl,clean⟩ := List.eq_append_cons_of_mem member
      rw [takeWhile_terminated clean] at complete
      rw [if_pos (List.mem_append_left _ member),List.append_assoc,List.cons_append,takeWhile_terminated clean]
      exact complete
    next => cases complete
  complete_produced xs ys n complete := by
    split at complete
    next member =>
      obtain ⟨text,rest,rfl,clean⟩ := List.eq_append_cons_of_mem member
      rw [List.append_assoc,List.cons_append,takeWhile_terminated clean,takeWhile_terminated clean]
    next => cases complete
  corrupt_append xs ys corrupt := by
    split at corrupt <;> cases corrupt

/-- What a decoder of terminated streams has copied, and whether it has met the zero. -/
structure Copying where
  text : List UInt8
  clean : 0 ∉ text
  ended : Bool
  stalled : Bool

namespace Copying

def fed (s : Copying) : List UInt8 := s.text ++ if s.ended then [0] else []

theorem produced_fed (s : Copying) : terminated.produced s.fed = s.text := by
  unfold fed
  split
  · exact takeWhile_terminated s.clean []
  · rw [List.append_nil]
    exact takeWhile_clean s.clean

def copied (input : List UInt8) (room : Nat) : List UInt8 := (input.takeWhile (· ≠ 0)).take room

theorem copied_prefix (input : List UInt8) (room : Nat) : copied input room <+: input :=
  (List.take_prefix _ _).trans (List.takeWhile_prefix _)

theorem copied_clean (s : Copying) (input : List UInt8) (room : Nat) : 0 ∉ s.text ++ copied input room := by
  intro member
  rcases List.mem_append.mp member with old | new
  · exact s.clean old
  · have nonzero := List.mem_takeWhile_imp (List.mem_of_mem_take new)
    simp at nonzero

def run (s : Copying) (input : List UInt8) (room : Nat) : DecoderCall Copying UInt8 :=
  if s.ended then { next := s,used := 0,output := [],ret := .streamEnd }
  else if copied input room = input.takeWhile (· ≠ 0) ∧ 0 ∈ input then
    { next := ⟨s.text ++ copied input room,copied_clean s input room,true,false⟩
      used := (copied input room).length + 1
      output := copied input room
      ret := .streamEnd }
  else
    { next := ⟨s.text ++ copied input room,copied_clean s input room,false,copied input room = []⟩
      used := (copied input room).length
      output := copied input room
      ret := if copied input room = [] ∧ s.stalled then .bufError else .ok }

theorem run_cases (s : Copying) (input : List UInt8) (room : Nat) (going : s.ended = false) :
    (∃ text rest, input = text ++ 0 :: rest ∧ copied input room = text ∧ (run s input room).ret = .streamEnd ∧
      (run s input room).next.ended = true ∧ (run s input room).used = text.length + 1) ∨
    ¬ (copied input room = input.takeWhile (· ≠ 0) ∧ 0 ∈ input) ∧ (run s input room).next.ended = false ∧
      (run s input room).used = (copied input room).length ∧
      (run s input room).ret = (if copied input room = [] ∧ s.stalled then .bufError else .ok) ∧
      (run s input room).next.stalled = decide (copied input room = []) := by
  unfold run
  rw [if_neg (by simp [going])]
  split
  next whole =>
    obtain ⟨text,rest,rfl,clean⟩ := List.eq_append_cons_of_mem whole.2
    have text_ := whole.1.trans (takeWhile_terminated clean rest)
    exact .inl ⟨text,rest,rfl,text_,rfl,rfl,congrArg (·.length + 1) text_⟩
  next part => exact .inr ⟨part,rfl,rfl,rfl,rfl⟩

theorem run_text (s : Copying) (input : List UInt8) (room : Nat) (going : s.ended = false) :
    (run s input room).output = copied input room ∧ (run s input room).next.text = s.text ++ copied input room := by
  unfold run
  rw [if_neg (by simp [going])]
  split <;> exact ⟨rfl,rfl⟩

end Copying

/-- A decoder that copies the content as it comes, and stops behind the zero. -/
def copyingDecoder : IdealDecoder terminated where
  State := Copying
  start := { text := [],clean := List.not_mem_nil,ended := false,stalled := false }
  run := Copying.run
  fed := Copying.fed
  given := Copying.text
  stalled := Copying.stalled
  fed_start := rfl
  given_start := rfl
  used_le s input room := by
    cases going : s.ended with
    | true => simp [Copying.run,going]
    | false =>
      have fits := (Copying.copied_prefix input room).length_le
      rcases Copying.run_cases s input room going with
        ⟨text,rest,rfl,_,_,_,used⟩ | ⟨_,_,used,_⟩
      · rw [used,List.length_append,List.length_cons]
        omega
      · rwa [used]
  fed_run s input room := by
    cases going : s.ended with
    | true => simp [Copying.run,going]
    | false =>
      have text_ := (Copying.run_text s input room going).2
      simp only [Copying.fed,going,text_]
      rcases Copying.run_cases s input room going with
        ⟨text,rest,rfl,all,_,ended,used⟩ | ⟨_,ended,used,_⟩
      · have front : (text ++ 0 :: rest).take (text.length + 1) = text ++ [0] := by
          rw [List.take_length_add_append]
          rfl
        simp [ended,used,all,front]
      · have front := List.prefix_iff_eq_take.mp (Copying.copied_prefix input room)
        simp [ended,used,← front]
  given_run s input room := by
    cases going : s.ended with
    | true => simp [Copying.run,going]
    | false =>
      obtain ⟨output,text_⟩ := Copying.run_text s input room going
      rw [output,text_]
  output_le s input room := by
    cases going : s.ended with
    | true => simp [Copying.run,going]
    | false =>
      rw [(Copying.run_text s input room going).1]
      exact List.length_take_le _ _
  given_prefix s input room := by
    rw [Copying.produced_fed]
  processed s input room continues short := by
    cases going : s.ended with
    | true =>
      rw [Copying.run,if_pos going] at continues
      rcases continues with wrong | wrong <;> cases wrong
    | false =>
      rw [(Copying.run_text s input room going).1] at short
      have all : Copying.copied input room = input.takeWhile (· ≠ 0) := by
        unfold Copying.copied at short ⊢
        rw [List.length_take] at short
        exact List.take_of_length_le (by omega)
      rcases Copying.run_cases s input room going with
        ⟨_,_,_,_,ret,_⟩ | ⟨part,ended,used,_⟩
      · rw [ret] at continues
        rcases continues with wrong | wrong <;> cases wrong
      · have clean : 0 ∉ input := fun member => part ⟨all,member⟩
        refine ⟨by rw [used,all,takeWhile_clean clean],(Copying.produced_fed _).symm,if_neg ?_⟩
        rw [Copying.fed,ended]
        simpa using (Copying.run s input room).next.clean
  ended s input room ends := by
    have last : (Copying.run s input room).next.ended = true := by
      cases going : s.ended with
      | true => simp [Copying.run,going]
      | false =>
        rcases Copying.run_cases s input room going with
          ⟨_,_,_,_,_,ended,_⟩ | ⟨_,_,_,ret,_⟩
        · exact ended
        · rw [ret] at ends
          split at ends <;> cases ends
    have text_ := takeWhile_terminated (Copying.run s input room).next.clean []
    refine ⟨?_,(Copying.produced_fed _).symm⟩
    rw [Copying.fed,if_pos last]
    refine (if_pos (List.mem_append_right _ (List.mem_singleton_self 0))).trans ?_
    rw [text_,List.length_append]
    rfl
  corrupt s input room code message failed := by
    cases going : s.ended with
    | true =>
      rw [Copying.run,if_pos going] at failed
      cases failed
    | false =>
      rcases Copying.run_cases s input room going with
        ⟨_,_,_,_,ret,_⟩ | ⟨_,_,_,ret,_⟩
      · rw [ret] at failed
        cases failed
      · rw [ret] at failed
        split at failed <;> cases failed
  progress s input room ok none nothing := by
    cases going : s.ended with
    | true =>
      rw [Copying.run,if_pos going] at ok
      cases ok
    | false =>
      rw [(Copying.run_text s input room going).1] at nothing
      rcases Copying.run_cases s input room going with
        ⟨_,_,_,_,ret,_⟩ | ⟨_,_,_,ret,stalled⟩
      · rw [ret] at ok
        cases ok
      · rw [ret] at ok
        rw [stalled]
        simp only [nothing,true_and,decide_true,and_true] at ok ⊢
        cases still : s.stalled with
        | false => rfl
        | true =>
          rw [still,if_pos rfl] at ok
          cases ok
  idle s input room idle := by
    cases going : s.ended with
    | true =>
      rw [Copying.run,if_pos going] at idle
      cases idle
    | false =>
      rw [(Copying.run_text s input room going).1]
      rcases Copying.run_cases s input room going with
        ⟨_,_,_,_,ret,_⟩ | ⟨_,_,used,ret,_⟩
      · rw [ret] at idle
        cases idle
      · rw [ret] at idle
        split at idle
        next nothing => exact ⟨by rw [used,nothing.1]; rfl,nothing.1⟩
        next => cases idle

end Terminated

/-- A download that broke off before its first byte. -/
def emptyDownload : DecompressHost where
  pieces := []
  nonempty := fun _ member => nomatch member

theorem empty_accepted :
    decompressGz copyingDecoder emptyDownload "image.gz" "image.iso" = (.ok (),some []) ∧
    ¬ Complete terminated emptyDownload (decompressGz copyingDecoder emptyDownload "image.gz" "image.iso") := by
  have done : decompressGz copyingDecoder emptyDownload "image.gz" "image.iso" = (.ok (),some []) := rfl
  refine ⟨done,?_⟩
  rw [done,complete_ok]
  intro whole
  obtain ⟨n,complete⟩ := Whole.complete whole
  cases complete


def members (file : List UInt8) (some_byte : file ≠ []) : DecompressHost where
  pieces := [file]
  nonempty piece member := by
    rw [List.mem_singleton.mp member]
    exact some_byte

/-- A file of one stream is decoded; of two streams either function keeps only the first. -/
theorem second_stream_lost :
    Complete terminated (members [0x41,0] (by decide))
      (decompressGz copyingDecoder (members [0x41,0] (by decide)) "image.gz" "image.iso") ∧
    ¬ Complete terminated (members [0x41,0,0x42,0] (by decide))
      (decompressGz copyingDecoder (members [0x41,0,0x42,0] (by decide)) "image.gz" "image.iso") ∧
    ¬ Complete terminated (members [0x41,0,0x42,0] (by decide))
      (decompressXz copyingDecoder (members [0x41,0,0x42,0] (by decide)) "image.xz" "image.iso") := by
  have lost : ¬ terminated.Whole [0x41,0,0x42,0] [0x41] := by
    generalize same : ([0x41] : List UInt8) = content
    intro whole
    cases whole with
    | last ends => exact absurd ends (by decide)
    | more ends rest =>
      obtain rfl : 2 = _ := Verdict.complete.inj ends
      have nothing := @List.append_cancel_left _ [0x41] [] _ same
      cases rest with
      | last => cases nothing
      | more ends _ =>
        obtain rfl : 2 = _ := Verdict.complete.inj ends
        cases nothing
  rw [decompressGz_complete_iff,decompressGz_complete_iff,decompressXz_complete_iff]
  refine ⟨fun _ => ⟨rfl,fun _ _ _ => rfl,.inr ⟨2,rfl,.last rfl⟩⟩,fun sound => ?_,fun sound => ?_⟩
  · rcases (sound ⟨rfl,rfl⟩).stream with corrupt | ⟨_,_,whole⟩
    · cases corrupt
    · exact lost whole
  · exact lost ((sound ⟨rfl,rfl⟩).stream 2 rfl)

end SetecWizard.Core.Decompressor
