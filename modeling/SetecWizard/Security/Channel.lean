import SetecWizard.Core.Fido2Manager
import SetecWizard.Format.Integers

/-! Which channel openCtapChannel stores. A response to CTAPHID_INIT has the nonce
after the seven bytes of the packet header and the allocated channel behind it; the
stored number is read eight bytes into the report that arrives first.
-/
namespace SetecWizard.Core.Fido2Manager
open SetecWizard.Library

structure InitResponse where
  nonce : Bytes 8
  cid : UInt32
  version : Bytes 4
  capabilities : UInt8
deriving DecidableEq

/-- The broadcast channel, the command and the length 17. -/
def responseHeader : List UInt8 := le32 CTAPHID_BROADCAST_CID ++ [0x86,0x00,0x11]

def InitResponse.report (response : InitResponse) : Bytes 64 where
  data := responseHeader ++ response.nonce.data ++ le32 response.cid ++ response.version.data
    ++ [response.capabilities] ++ List.replicate 40 0
  size := by simp [responseHeader,response.nonce.size,response.version.size]

/-- The report is a response to CTAPHID_INIT and echoes the nonce. -/
def Carries (nonce : Bytes 8) (report : Bytes 64) : Prop :=
  slice report.data 0 7 = responseHeader ∧ slice report.data 7 8 = nonce.data

instance (nonce : Bytes 8) (report : Bytes 64) : Decidable (Carries nonce report) :=
  inferInstanceAs (Decidable (_ ∧ _))

/-- The channel the device allocates in a response. -/
def allocated (report : Bytes 64) : UInt32 := readLE32 report.data 15

/-- The channel stored is the one that a response carrying our nonce allocates. -/
def StoresAllocated (host : HidHost) : Prop :=
  ∀ devicePath channel, openCtapChannel host devicePath = .ok channel →
    ∃ nonce, host.random = some nonce ∧
      ∃ response ∈ host.reports, Carries nonce response ∧ channel.cid = allocated response

/-- The device opens, the request goes out and a first report comes in. -/
structure Exchanged (host : HidHost) (nonce : Bytes 8) (first : Bytes 64) : Prop where
  opens : ∃ handle, host.createFile = .ok handle
  random : host.random = some nonce
  writes : host.write 0 = none
  reads : host.read 0 = none
  arrives : host.reports.head? = some first

theorem report_carries (response : InitResponse) : Carries response.nonce response.report := by
  have header : responseHeader.length = 7 := rfl
  constructor
  · have front := slice_append_left responseHeader (response.nonce.data ++ (le32 response.cid
      ++ (response.version.data ++ ([response.capabilities] ++ List.replicate 40 0)))) 0 7 (by omega)
    simp only [InitResponse.report,List.append_assoc]
    rw [front,← header,slice_all]
  · have middle := slice_middle responseHeader response.nonce.data (le32 response.cid
      ++ (response.version.data ++ ([response.capabilities] ++ List.replicate 40 0)))
    simp only [InitResponse.report,List.append_assoc]
    rw [header,response.nonce.size] at middle
    simpa only [List.append_assoc] using middle

theorem report_allocated (response : InitResponse) : allocated response.report = response.cid := by
  apply readLE32_of_slice
  have before : (responseHeader ++ response.nonce.data).length = 15 := by
    simp [responseHeader,response.nonce.size]
  have middle := slice_middle (responseHeader ++ response.nonce.data) (le32 response.cid)
    (response.version.data ++ ([response.capabilities] ++ List.replicate 40 0))
  rw [before,length_le32] at middle
  simpa only [InitResponse.report,List.append_assoc] using middle

theorem initPackets_nonce (nonce : Bytes 8) :
    ∃ pkt, buildInitPackets CTAPHID_BROADCAST_CID CTAPHID_INIT nonce.data = [pkt] := by
  have rest : nonce.data.drop (CTAPHID_REPORT_SIZE - 7) = [] := by
    simp [CTAPHID_REPORT_SIZE,nonce.size]
  rw [buildInitPackets,rest,buildContPackets,if_pos rfl]
  exact ⟨_,rfl⟩

theorem recv_report (host : HidHost) (traffic : HidTraffic) (timeoutMs : Nat) {arrived : Bytes 64}
    (reads : host.read traffic.received = none)
    (found : host.reports[traffic.received]? = some arrived) :
    recvHidReport host traffic CTAPHID_REPORT_SIZE timeoutMs
      = .ok (arrived.data,{ traffic with received := traffic.received + 1 }) := by
  have whole : (0x00 :: arrived.data).take (CTAPHID_REPORT_SIZE + 1) = 0x00 :: arrived.data :=
    List.take_of_length_le (by simp [CTAPHID_REPORT_SIZE,arrived.size])
  simp only [recvHidReport,reads,found,whole,List.length_cons,arrived.size,List.drop_succ_cons,List.drop_zero]
  rfl

theorem openCtapChannel_ok {host : HidHost} {devicePath : String} {channel : CtapHidChannel}
    (done : openCtapChannel host devicePath = .ok channel) :
    ∃ nonce first, Exchanged host nonce first ∧ channel.cid = readLE32 first.data 8 := by
  unfold openCtapChannel at done
  split at done
  next => cases done
  next hDevice opens =>
    obtain ⟨⟨initResponse,traffic⟩,init,stored⟩ := bind_ok.mp done
    obtain ⟨_,stored⟩ := bind_unit_ok.mp stored
    cases stored
    unfold ctapHidInit at init
    split at init
    next => cases init
    next nonce random =>
      obtain ⟨pkt,single⟩ := initPackets_nonce nonce
      rw [single] at init
      obtain ⟨_,init⟩ := bind_unit_ok.mp init
      obtain ⟨sent,sending,received⟩ := bind_ok.mp init
      obtain ⟨next,first,last⟩ := bind_ok.mp sending
      cases last
      cases writes : host.write 0 with
      | some fault => cases fault <;> simp [sendHidReport,writes] at first
      | none =>
        simp only [sendHidReport,List.length_nil,writes,List.nil_append,Except.ok.injEq] at first
        subst first
        cases reads : host.read 0 with
        | some fault => cases fault <;> simp [recvHidReport,reads] at received
        | none =>
          cases found : host.reports[0]? with
          | none => simp [recvHidReport,reads,found] at received
          | some arrived =>
            rw [recv_report host _ 3000 reads found] at received
            cases received
            have arrives : host.reports.head? = some arrived := by
              rw [List.head?_eq_getElem?,found]
            exact ⟨nonce,arrived,⟨⟨hDevice,opens⟩,random,writes,reads,arrives⟩,rfl⟩

theorem Exchanged.openCtapChannel {host : HidHost} {nonce : Bytes 8} {first : Bytes 64}
    (exchanged : Exchanged host nonce first) (devicePath : String) :
    ∃ channel, openCtapChannel host devicePath = .ok channel ∧ channel.cid = readLE32 first.data 8 := by
  obtain ⟨handle,opens⟩ := exchanged.opens
  obtain ⟨pkt,single⟩ := initPackets_nonce nonce
  have found : host.reports[0]? = some first := by
    rw [← List.head?_eq_getElem?,exchanged.arrives]
  have received (sent : List (List UInt8)) :
      recvHidReport host { sent := sent } CTAPHID_REPORT_SIZE 3000
        = .ok (first.data,{ sent := sent,received := 1 }) :=
    recv_report host { sent := sent } 3000 exchanged.reads found
  have enough : ¬ first.data.length < 17 := by
    rw [first.size]
    omega
  refine ⟨{ handle := handle,cid := readLE32 first.data 8 },?_,rfl⟩
  simp only [Core.openCtapChannel,opens,ctapHidInit,exchanged.random,single,sendPackets,sendHidReport,
    List.length_nil,exchanged.writes,List.nil_append,bind,Except.bind,received,refuse,enough,if_false,
    List.isEmpty_cons,Bool.false_eq_true]
  rfl

theorem stored_iff (first response : Bytes 64) :
    readLE32 first.data 8 = allocated response ↔ slice first.data 8 4 = slice response.data 15 4 := by
  have here : 8 + 4 ≤ first.data.length := by simp [first.size]
  have there : 15 + 4 ≤ response.data.length := by simp [response.size]
  constructor
  · intro equal
    rw [← le32_readLE32 here,← le32_readLE32 there,equal,allocated]
  · intro equal
    exact readLE32_of_slice (equal.trans (le32_readLE32 there).symm)

/-- The stored channel is right exactly if bytes 8 to 11 of the first report, the second to
fifth byte of the nonce it echoes, are those of the channel allocated for our nonce. -/
theorem openCtapChannel_allocated_iff (host : HidHost) :
    StoresAllocated host ↔ ∀ nonce first, Exchanged host nonce first →
      ∃ response ∈ host.reports, Carries nonce response ∧
        slice first.data 8 4 = slice response.data 15 4 := by
  constructor
  · intro stores nonce first exchanged
    obtain ⟨channel,opened,cid⟩ := exchanged.openCtapChannel ""
    obtain ⟨drawn,random,response,member,carries,equal⟩ := stores "" channel opened
    have drawn_eq : drawn = nonce := Option.some.inj (random.symm.trans exchanged.random)
    subst drawn_eq
    exact ⟨response,member,carries,(stored_iff first response).mp (cid.symm.trans equal)⟩
  · intro condition devicePath channel opened
    obtain ⟨nonce,first,exchanged,cid⟩ := openCtapChannel_ok opened
    obtain ⟨response,member,carries,equal⟩ := condition nonce first exchanged
    exact ⟨nonce,exchanged.random,response,member,carries,cid.trans ((stored_iff first response).mpr equal)⟩

theorem report_echo (response : InitResponse) :
    slice response.report.data 8 4 = slice response.nonce.data 1 4 := by
  have inner := slice_slice response.report.data 7 8 1 4 (by omega)
  rw [(report_carries response).2] at inner
  exact inner.symm

/-- When every report is a response to CTAPHID_INIT, the four bytes are taken from the
nonce that the first of them answers, whoever drew it. -/
theorem openCtapChannel_responses (host : HidHost) (nonce : Bytes 8) (first : InitResponse)
    (others : List InitResponse) (arriving : host.reports = (first :: others).map InitResponse.report)
    (exchanged : Exchanged host nonce first.report) :
    StoresAllocated host ↔ ∃ response ∈ first :: others,
      response.nonce = nonce ∧ slice first.nonce.data 1 4 = le32 response.cid := by
  have carries_nonce (response : InitResponse) : Carries nonce response.report ↔ response.nonce = nonce := by
    constructor
    · intro carries
      exact Bytes.ext ((report_carries response).2.symm.trans carries.2)
    · intro same
      exact same ▸ report_carries response
  have cid_bytes (response : InitResponse) : slice response.report.data 15 4 = le32 response.cid := by
    have there : 15 + 4 ≤ response.report.data.length := by simp [response.report.size]
    rw [← le32_readLE32 there,← report_allocated response,allocated]
  rw [openCtapChannel_allocated_iff]
  constructor
  · intro condition
    obtain ⟨report,member,carries,equal⟩ := condition nonce first.report exchanged
    rw [arriving] at member
    obtain ⟨response,among,rfl⟩ := List.mem_map.mp member
    rw [report_echo,cid_bytes] at equal
    exact ⟨response,among,(carries_nonce response).mp carries,equal⟩
  · rintro ⟨response,among,own,equal⟩ drawn arrived other
    have drawn_eq : nonce = drawn := Option.some.inj (exchanged.random.symm.trans other.random)
    have arrived_eq : first.report = arrived := Option.some.inj (exchanged.arrives.symm.trans other.arrives)
    subst drawn_eq arrived_eq
    refine ⟨response.report,?_,(carries_nonce response).mpr own,?_⟩
    · rw [arriving]
      exact List.mem_map_of_mem among
    · rw [report_echo,cid_bytes,equal]

/-- An authenticator that answers our nonce, and only ours. -/
def ownResponse : InitResponse where
  nonce := ⟨[0x00,0x01,0x02,0x03,0x04,0x05,0x06,0x07],rfl⟩
  cid := 0x40302010
  version := ⟨[2,1,0,0],rfl⟩
  capabilities := 0x05

def ownHost : HidHost where
  createFile := .ok 7
  random := some ownResponse.nonce
  write := fun _ => none
  read := fun _ => none
  reports := [ownResponse.report]

theorem ownHost_exchanged : Exchanged ownHost ownResponse.nonce ownResponse.report :=
  ⟨⟨7,rfl⟩,rfl,rfl,rfl,rfl⟩

/-- The device allocates 0x40302010; the number stored is four bytes of our own nonce. -/
theorem nonce_stored :
    (∃ channel, openCtapChannel ownHost "fido" = .ok channel ∧ channel.cid = 0x04030201) ∧
      ¬ StoresAllocated ownHost := by
  obtain ⟨channel,opened,cid⟩ := ownHost_exchanged.openCtapChannel "fido"
  have number : channel.cid = 0x04030201 := cid.trans (by decide)
  refine ⟨⟨channel,opened,number⟩,?_⟩
  intro stores
  obtain ⟨nonce,_,response,member,_,equal⟩ := stores "fido" channel opened
  have only : response = ownResponse.report := List.mem_singleton.mp member
  rw [only,report_allocated,number] at equal
  exact absurd equal (by decide)

end SetecWizard.Core.Fido2Manager
