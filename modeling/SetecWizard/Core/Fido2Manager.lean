import SetecWizard.Core.ByteOrder
import SetecWizard.Core.RawDiskHandle
import Mathlib.Logic.Function.Iterate
import SetecWizard.Core.BootAuthenticator
import SetecWizard.Core.FormatFat32
import SetecWizard.Library.LittleEndian

/-! The CTAPHID transport of Fido2Manager: output and input reports, the packets a
message is cut into and the allocation of a channel. What Windows answers to each
call, and the reports the authenticator delivers, are the host.
-/
namespace SetecWizard.Core
open SetecWizard.Library

def CTAPHID_INIT : UInt8 := 0x06
def CTAPHID_CBOR : UInt8 := 0x10
def CTAPHID_BROADCAST_CID : UInt32 := 0xFFFFFFFF
def CTAPHID_REPORT_SIZE : Nat := 64
/-- Where an overlapped transfer of a report fails, with the error code. -/
inductive HidFault where
  | event (err : UInt32)
  | request (err : UInt32)
  | completion (err : UInt32)
deriving DecidableEq

/-- The answers of one opening: the handle, the nonce drawn, the fault of each report
sent, the fault of each report received, and the reports that arrive, in order. -/
structure HidHost where
  createFile : Except UInt32 Nat
  random : Option (Bytes 8)
  write : Nat → Option HidFault
  read : Nat → Option HidFault
  reports : List (Bytes 64)

/-- The output reports handed to the device so far and the number of input reports taken. -/
structure HidTraffic where
  sent : List (List UInt8) := []
  received : Nat := 0
deriving DecidableEq

structure CtapHidChannel where
  handle : Nat
  cid : UInt32 := 0
deriving DecidableEq

/-- Continuation packets: channel, sequence number and up to 59 bytes. -/
def buildContPackets (cid : UInt32) (seq : UInt8) (data : List UInt8) : List (List UInt8) :=
  if data = [] then []
  else
    overwrite (List.replicate CTAPHID_REPORT_SIZE 0)
        [(0,le32 cid),(4,[seq]),(5,data.take (CTAPHID_REPORT_SIZE - 5))]
      :: buildContPackets cid (seq + 1) (data.drop (CTAPHID_REPORT_SIZE - 5))
termination_by data.length
decreasing_by
  have nonempty := List.length_pos_iff.mpr ‹¬data = []›
  simp only [CTAPHID_REPORT_SIZE,List.length_drop]
  omega

/-- The initial packet carries the command, the length and up to 57 bytes. -/
def buildInitPackets (cid : UInt32) (cmd : UInt8) (data : List UInt8) : List (List UInt8) :=
  overwrite (List.replicate CTAPHID_REPORT_SIZE 0)
      [(0,le32 cid),(4,[cmd ||| 0x80]),(5,[UInt8.ofNat (data.length / 256),UInt8.ofNat data.length]),
        (7,data.take (CTAPHID_REPORT_SIZE - 7))]
    :: buildContPackets cid 0 (data.drop (CTAPHID_REPORT_SIZE - 7))

/-- A report sent carries a report ID of zero before its 64 bytes. -/
def sendHidReport (host : HidHost) (traffic : HidTraffic) (data : List UInt8) : Result HidTraffic :=
  let report := overwrite (List.replicate (CTAPHID_REPORT_SIZE + 1) 0) [(1,data.take CTAPHID_REPORT_SIZE)]
  match host.write traffic.sent.length with
  | some (.event err) => .error (.fromWin32 .fido2AuthFailed err "CreateEvent failed for HID write")
  | some (.request err) => .error (.fromWin32 .fido2AuthFailed err "WriteFile failed for HID report")
  | some (.completion err) => .error (.fromWin32 .fido2AuthFailed err "HID write overlapped result failed")
  | none => .ok { traffic with sent := traffic.sent ++ [report] }

def sendPackets (host : HidHost) : HidTraffic → List (List UInt8) → Result HidTraffic
  | traffic,[] => .ok traffic
  | traffic,pkt :: rest => do
    let next ← sendHidReport host traffic pkt
    sendPackets host next rest

/-- The report ID comes back before the 64 bytes and is taken off. When no further
report arrives the wait times out. -/
def recvHidReport (host : HidHost) (traffic : HidTraffic) (maxLen timeoutMs : Nat) :
    Result (List UInt8 × HidTraffic) :=
  match host.read traffic.received with
  | some (.event err) => .error (.fromWin32 .fido2AuthFailed err "CreateEvent failed for HID read")
  | some (.request err) => .error (.fromWin32 .fido2AuthFailed err "ReadFile failed for HID report")
  | some (.completion err) => .error (.fromWin32 .fido2AuthFailed err "HID read overlapped result failed")
  | none =>
    match host.reports[traffic.received]? with
    | none => .error (.fromCode .fido2AuthFailed
        ("HID read timed out after " ++ toString timeoutMs ++ "ms"))
    | some arrived =>
      let report := (0x00 :: arrived.data).take (maxLen + 1)
      .ok (if report.length > 1 then report.drop 1 else [],
        { traffic with received := traffic.received + 1 })

def ctapHidInit (host : HidHost) (traffic : HidTraffic) : Result (List UInt8 × HidTraffic) :=
  match host.random with
  | none => .error (.fromCode .keyGenerationFailed "Failed to generate CTAPHID init nonce")
  | some nonce => do
    let packets := buildInitPackets CTAPHID_BROADCAST_CID CTAPHID_INIT nonce.data
    refuse (packets.isEmpty = true) .fido2AuthFailed "Failed to build CTAPHID_INIT packet"
    let sent ← sendPackets host traffic packets
    recvHidReport host sent CTAPHID_REPORT_SIZE 3000

def openCtapChannel (host : HidHost) (devicePath : String) : Result CtapHidChannel :=
  match host.createFile with
  | .error err => .error (.fromWin32 .fido2DeviceNotFound err ("Cannot open FIDO2 device: " ++ devicePath))
  | .ok hDevice => do
    let (initResponse,_) ← ctapHidInit host {}
    refuse (initResponse.length < 17) .fido2AuthFailed "CTAPHID_INIT response too short"
    return { handle := hDevice, cid := readLE32 initResponse 8 }

/-- The loop that puts a response together: the attempts left, the length once an initial
packet was taken, and what was gathered so far. -/
def recvResponse (host : HidHost) (cid : UInt32) :
    Nat → Option UInt16 → List UInt8 → HidTraffic → Result (List UInt8 × HidTraffic)
  | 0,_,fullResponse,traffic => .ok (fullResponse,traffic)
  | attempt + 1,gotInit,fullResponse,traffic => do
    let (report,traffic) ← recvHidReport host traffic CTAPHID_REPORT_SIZE 5000
    if report.length < 7 then recvResponse host cid attempt gotInit fullResponse traffic
    else match gotInit with
      | none =>
        if readLE32 report 0 ≠ cid then recvResponse host cid attempt none fullResponse traffic
        else if report.getD 4 0 &&& 0x80 = 0 then recvResponse host cid attempt none fullResponse traffic
        else
          let expectedLen := (report.getD 5 0).toUInt16 <<< 8 ||| (report.getD 6 0).toUInt16
          let fullResponse := fullResponse ++ (report.drop 7).take expectedLen.toNat
          if expectedLen.toNat ≤ fullResponse.length then .ok (fullResponse,traffic)
          else recvResponse host cid attempt (some expectedLen) fullResponse traffic
      | some expectedLen =>
        -- Neither the channel nor the sequence number is looked at.
        let fullResponse := fullResponse ++ (report.drop 5).take (expectedLen.toNat - fullResponse.length)
        if expectedLen.toNat ≤ fullResponse.length then .ok (fullResponse,traffic)
        else recvResponse host cid attempt (some expectedLen) fullResponse traffic

def ctapHidCborCommand (host : HidHost) (traffic : HidTraffic) (channel : CtapHidChannel) (command : UInt8)
    (cborPayload : List UInt8) : Result (List UInt8 × HidTraffic) := do
  let sent ← sendPackets host traffic (buildInitPackets channel.cid CTAPHID_CBOR (command :: cborPayload))
  let (fullResponse,traffic) ← recvResponse host channel.cid 100 none [] sent
  match fullResponse with
  | [] => .error (.fromCode .fido2AuthFailed "Empty CTAP response")
  | ctapStatus :: payload =>
    if ctapStatus ≠ 0x00 then
      .error (.fromCode .fido2AuthFailed ("CTAP2 error: 0x" ++ toString ctapStatus.toNat))
    else .ok (payload,traffic)

end SetecWizard.Core

/-! The decoder of Fido2Manager for the answer to authenticatorGetInfo. It reads the few keys it
knows out of a CBOR map and skips the values of the others. Text is what bytes it has.
-/
namespace SetecWizard.Core.Fido2Manager
open SetecWizard.Library FormatEngine

structure Fido2DeviceInfo where
  devicePath : String := ""
  manufacturer : String := ""
  product : String := ""
  serialNumber : String := ""
  vendorId : UInt16 := 0
  productId : UInt16 := 0
  protocols : List (List UInt8) := []
  extensions : List (List UInt8) := []
  firmwareVersion : List UInt8 := []
  supportsPinProtocol : Bool := false
  hasPin : Bool := false
  pinRetryCount : UInt32 := 0
deriving DecidableEq

section Reading

variable (data : List UInt8)

/-- The number of a head whose first byte is read: 24, 25 and 26 stand for one, two and four bytes
behind it. Each caller knows these up to some width only, and says what it takes where there is
another value or the data ends. -/
def readArgument (widest addInfo p : Nat) : Option (Nat × Nat) :=
  let width := 2 ^ (addInfo - 24)
  if addInfo < 24 then some (addInfo,p)
  else if addInfo ≤ widest ∧ p + width ≤ data.length then some (ofLE (slice data p width).reverse,p + width)
  else none

def addInfoAt (p : Nat) : Nat := (data.getD p 0 &&& 0x1F).toNat

def majorAt (p : Nat) : Nat := (data.getD p 0 >>> 5).toNat

def readUint (p : Nat) : Nat × Nat :=
  if data.length ≤ p then (0,p)
  else (readArgument data 26 (addInfoAt data p) (p + 1)).getD (0,p + 1)

def readString (p : Nat) : List UInt8 × Nat :=
  if data.length ≤ p then ([],p)
  else if majorAt data p ≠ 3 then ([],p + 1)
  else
    let (strLen,p) := (readArgument data 25 (addInfoAt data p) (p + 1)).getD (addInfoAt data p,p + 1)
    if data.length < p + strLen then ([],p) else (slice data p strLen,p + strLen)

/-- One value, those in it by `skip`. -/
def skipStep (skip : Nat → Nat) (p : Nat) : Nat :=
  if data.length ≤ p then p
  else
    let (count,q) := (readArgument data 26 (addInfoAt data p) (p + 1)).getD (addInfoAt data p,p + 1)
    match majorAt data p with
    | 2 | 3 => q + count
    | 4 => skip^[count] q
    | 5 => (skip ∘ skip)^[count] q
    | _ => q

/-- A value in another starts behind the head of that one, so the values are not nested deeper
than there are bytes. -/
def skipNested : Nat → Nat → Nat
  | 0,p => p
  | depth + 1,p => skipStep data (skipNested depth) p

def skipValue (p : Nat) : Nat := skipNested data data.length p

/-- The length in the head of an array, a map or a byte string. -/
def readLength (p : Nat) : Nat × Nat :=
  (readArgument data 24 (addInfoAt data p) (p + 1)).getD (addInfoAt data p,p + 1)

def readStrings : Nat → Nat → List (List UInt8) → List (List UInt8) × Nat
  | 0,p,strings => (strings,p)
  | left + 1,p,strings =>
    if p < data.length then
      let (string,p) := readString data p
      readStrings left p (if string = [] then strings else strings ++ [string])
    else (strings,p)

def readOptions : Nat → Nat → Fido2DeviceInfo → Fido2DeviceInfo × Nat
  | 0,p,info => (info,p)
  | left + 1,p,info =>
    if p < data.length then
      let (optKey,p) := readString data p
      let (optVal,p) := if p < data.length then (data.getD p 0 == 0xF5,p + 1) else (false,p)
      readOptions left p
        (if optKey = asciiBytes "clientPin" then { info with supportsPinProtocol := true,hasPin := optVal } else info)
    else (info,p)

def readUints : Nat → Nat → Nat
  | 0,p => p
  | left + 1,p => if p < data.length then readUints left (readUint data p).2 else p

def readEntry (key p : Nat) (info : Fido2DeviceInfo) : Fido2DeviceInfo × Nat :=
  match key with
  | 0x01 =>
    if data.length ≤ p then (info,p)
    else
      let (arrLen,p) := readLength data p
      let (protocols,p) := readStrings data arrLen p info.protocols
      ({ info with protocols },p)
  | 0x02 =>
    if data.length ≤ p then (info,p)
    else
      let (arrLen,p) := readLength data p
      let (extensions,p) := readStrings data arrLen p info.extensions
      ({ info with extensions },p)
  | 0x03 =>
    if data.length ≤ p then (info,p)
    else
      let (bsLen,p) := readLength data p
      (if bsLen = 16 ∧ p + 16 ≤ data.length then { info with firmwareVersion := toHex (slice data p 16) } else info,
        p + bsLen)
  | 0x04 =>
    if data.length ≤ p then (info,p)
    else
      let (optMapLen,p) := readLength data p
      readOptions data optMapLen p info
  | 0x06 =>
    if data.length ≤ p then (info,p)
    else
      -- the length is not read where it stands behind the head
      let arrLen := addInfoAt data p
      (if 0 < arrLen then { info with supportsPinProtocol := true } else info,readUints data arrLen (p + 1))
  | 0x0E =>
    let (fwVer,p) := readUint data p
    ({ info with firmwareVersion := asciiBytes (toString fwVer) },p)
  | _ => (info,skipValue data p)

def readMap : Nat → Nat → Fido2DeviceInfo → Fido2DeviceInfo
  | 0,_,info => info
  | left + 1,pos,info =>
    if pos < data.length then
      let (key,pos) := readUint data pos
      let (info,pos) := readEntry data key pos info
      readMap left pos info
    else info

end Reading

def parseGetInfoResponse (cborData : List UInt8) (baseInfo : Fido2DeviceInfo) : Result Fido2DeviceInfo :=
  if cborData = [] then .ok baseInfo
  else if majorAt cborData 0 ≠ 5 then .ok baseInfo
  else
    let (mapLen,pos) := readLength cborData 0
    .ok (readMap cborData mapLen pos baseInfo)

end SetecWizard.Core.Fido2Manager
