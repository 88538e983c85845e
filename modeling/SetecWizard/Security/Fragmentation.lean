import SetecWizard.Core.Fido2Manager
import SetecWizard.Format.Integers
import SetecWizard.Library.Framing

/-! The packets of a message. An initial packet holds 57 bytes of it and the packets behind it
59 each, with the numbers 0,1,2,... that have seven bits, so 7609 bytes are as much as can be
sent. Packets are built for longer messages too.
-/
namespace SetecWizard.Core.Fido2Manager
open SetecWizard.Library

/-- The message that packets carry: their payloads, cut to the length in the first. -/
def messageOf : List (List UInt8) → List UInt8
  | [] => []
  | first :: rest =>
    (first.drop 7 ++ rest.flatMap (·.drop 5)).take ((first.getD 5 0).toNat * 256 + (first.getD 6 0).toNat)

/-- Packets that a receiver puts together to the message. -/
structure Decodable (cid : UInt32) (cmd : UInt8) (data : List UInt8) (packets : List (List UInt8)) : Prop where
  size : ∀ pkt ∈ packets, pkt.length = 64
  channel : ∀ pkt ∈ packets, readLE32 pkt 0 = cid
  initial : ∃ first, packets.head? = some first ∧ first.getD 4 0 &&& 0x80 ≠ 0 ∧
    (cmd < 0x80 → first.getD 4 0 &&& 0x7F = cmd)
  numbered : ∀ seq pkt, packets.tail[seq]? = some pkt →
    seq < 128 ∧ pkt.getD 4 0 = UInt8.ofNat seq ∧ pkt.getD 4 0 &&& 0x80 = 0
  message : messageOf packets = data

/-- As much as 128 continuation packets can carry behind an initial one. -/
def maxMessage : Nat := 57 + 128 * 59

/-- Messages that can be carried are, and of others there are no packets. -/
def FragmentsExactly (cid : UInt32) (cmd : UInt8) (data : List UInt8) : Prop :=
  (data.length ≤ maxMessage → Decodable cid cmd data (buildInitPackets cid cmd data)) ∧
    (maxMessage < data.length → buildInitPackets cid cmd data = [])

section Packets

variable (cid : UInt32)

def contHeader (seq : UInt8) : List UInt8 := le32 cid ++ [seq]

def initHeader (cmd : UInt8) (length : Nat) : List UInt8 :=
  le32 cid ++ [cmd ||| 0x80,UInt8.ofNat (length / 256),UInt8.ofNat length]

theorem buildContPackets_cons (seq : UInt8) {data : List UInt8} (left : data ≠ []) :
    buildContPackets cid seq data =
      framed 64 0 (contHeader cid seq) data :: buildContPackets cid (seq + 1) (data.drop 59) := by
  have written := overwrite_framed (0 : UInt8) [le32 cid,[seq]] data (by decide : 5 ≤ 64)
  rw [buildContPackets,if_neg left]
  exact congrArg (· :: _) written

theorem buildInitPackets_eq (cmd : UInt8) (data : List UInt8) : buildInitPackets cid cmd data =
    framed 64 0 (initHeader cid cmd data.length) data :: buildContPackets cid 0 (data.drop 57) := by
  have written := overwrite_framed (0 : UInt8)
    [le32 cid,[cmd ||| 0x80],[UInt8.ofNat (data.length / 256),UInt8.ofNat data.length]] data (by decide : 7 ≤ 64)
  rw [buildInitPackets]
  exact congrArg (· :: _) written

theorem channel_framed (tail data : List UInt8) : readLE32 (framed 64 0 (le32 cid ++ tail) data) 0 = cid := by
  apply readLE32_of_slice
  have size := length_le32 cid
  rw [slice_framed 64 0 data (by rw [List.length_append]; omega),slice_append_left _ _ 0 4 (by omega)]
  exact slice_all (le32 cid)

/-- What holds of the packets from a number on. -/
structure Continued (seq : UInt8) (data : List UInt8) (packets : List (List UInt8)) : Prop where
  size : ∀ pkt ∈ packets, pkt.length = 64
  channel : ∀ pkt ∈ packets, readLE32 pkt 0 = cid
  numbered : ∀ k pkt, packets[k]? = some pkt → 59 * k < data.length ∧ pkt.getD 4 0 = seq + UInt8.ofNat k
  payload : (packets.flatMap (·.drop 5)).take data.length = data

theorem buildContPackets_continued (seq : UInt8) (data : List UInt8) :
    Continued cid seq data (buildContPackets cid seq data) := by
  induction seq, data using buildContPackets.induct with
  | case1 seq =>
    rw [buildContPackets,if_pos rfl]
    exact ⟨fun _ member => absurd member List.not_mem_nil,fun _ member => absurd member List.not_mem_nil,
      fun k pkt found => (nomatch found),rfl⟩
  | case2 seq data left ih =>
    have later : Continued cid (seq + 1) (data.drop 59) (buildContPackets cid (seq + 1) (data.drop 59)) := ih
    rw [buildContPackets_cons cid seq left]
    refine ⟨?_,?_,?_,?_⟩
    · exact List.forall_mem_cons.mpr ⟨length_framed 0 (by decide : 5 ≤ 64) data,later.size⟩
    · exact List.forall_mem_cons.mpr ⟨channel_framed cid [seq] data,later.channel⟩
    · intro k pkt found
      cases k with
      | zero =>
        cases found
        refine ⟨List.length_pos_iff.mpr left,?_⟩
        rw [getD_framed 64 0 data (by decide : 4 < 5)]
        exact (UInt8.add_zero seq).symm
      | succ k =>
        obtain ⟨inside,number⟩ := later.numbered k pkt found
        rw [List.length_drop] at inside
        refine ⟨by omega,?_⟩
        rw [number,UInt8.add_assoc,UInt8.ofNat_add,UInt8.add_comm (UInt8.ofNat k)]
        rfl
    · exact take_payload 64 0 (contHeader cid seq) data later.payload

end Packets

section Decoding

variable (cid : UInt32) (cmd : UInt8) (data : List UInt8)

theorem init_bit (cmd : UInt8) : (cmd ||| 0x80) &&& 0x80 ≠ 0 := by
  have each : ∀ n < 256, (UInt8.ofNat n ||| 0x80) &&& 0x80 ≠ 0 := by decide +kernel
  rw [← UInt8.ofNat_toNat (x := cmd)]
  exact each cmd.toNat cmd.toNat_lt

theorem init_command {cmd : UInt8} (low : cmd < 0x80) : (cmd ||| 0x80) &&& 0x7F = cmd := by
  have each : ∀ n < 128, (UInt8.ofNat n ||| 0x80) &&& 0x7F = UInt8.ofNat n := by decide
  rw [← UInt8.ofNat_toNat (x := cmd)]
  exact each cmd.toNat (UInt8.lt_iff_toNat_lt.mp low)

theorem cont_bit {seq : Nat} (low : seq < 128) : UInt8.ofNat seq &&& 0x80 = 0 := by
  have each : ∀ n < 128, UInt8.ofNat n &&& 0x80 = 0 := by decide
  exact each seq low

theorem length_field (short : data.length < 65536) :
    (UInt8.ofNat (data.length / 256)).toNat * 256 + (UInt8.ofNat data.length).toNat = data.length := by
  rw [UInt8.toNat_ofNat',UInt8.toNat_ofNat']
  omega

theorem buildInitPackets_decodable (short : data.length ≤ maxMessage) :
    Decodable cid cmd data (buildInitPackets cid cmd data) := by
  have later := buildContPackets_continued cid 0 (data.drop 57)
  simp only [maxMessage] at short
  rw [buildInitPackets_eq]
  refine ⟨?_,?_,?_,?_,?_⟩
  · exact List.forall_mem_cons.mpr ⟨length_framed 0 (by decide : 7 ≤ 64) data,later.size⟩
  · exact List.forall_mem_cons.mpr ⟨channel_framed cid _ data,later.channel⟩
  · have command : (framed 64 0 (initHeader cid cmd data.length) data).getD 4 0 = cmd ||| 0x80 := by
      rw [getD_framed 64 0 data (by decide : 4 < 7)]
      rfl
    refine ⟨_,rfl,?_,?_⟩
    · rw [command]
      exact init_bit cmd
    · intro low
      rw [command]
      exact init_command low
  · intro seq pkt found
    obtain ⟨inside,number⟩ := later.numbered seq pkt found
    rw [List.length_drop] at inside
    rw [UInt8.zero_add] at number
    have low : seq < 128 := by omega
    refine ⟨low,number,?_⟩
    rw [number]
    exact cont_bit low
  · have high : (framed 64 0 (initHeader cid cmd data.length) data).getD 5 0 = UInt8.ofNat (data.length / 256) := by
      rw [getD_framed 64 0 data (by decide : 5 < 7)]
      rfl
    have low : (framed 64 0 (initHeader cid cmd data.length) data).getD 6 0 = UInt8.ofNat data.length := by
      rw [getD_framed 64 0 data (by decide : 6 < 7)]
      rfl
    rw [messageOf,high,low,length_field data (by omega)]
    exact take_payload 64 0 (initHeader cid cmd data.length) data later.payload

/-- Packets are what they should be exactly for messages that they can carry. -/
theorem buildInitPackets_exact_iff : FragmentsExactly cid cmd data ↔ data.length ≤ maxMessage := by
  constructor
  · intro exact
    by_contra long
    have none := exact.2 (Nat.lt_of_not_le long)
    rw [buildInitPackets_eq] at none
    cases none
  · intro short
    exact ⟨fun _ => buildInitPackets_decodable cid cmd data short,fun long => absurd short (Nat.not_le.mpr long)⟩

/-- One byte more than can be carried is sent all the same. -/
theorem long_message_sent : ¬ FragmentsExactly CTAPHID_BROADCAST_CID CTAPHID_CBOR (List.replicate 7610 0) := by
  intro exact
  have none := exact.2 (by rw [List.length_replicate]; decide)
  rw [buildInitPackets_eq] at none
  cases none

end Decoding

end SetecWizard.Core.Fido2Manager
