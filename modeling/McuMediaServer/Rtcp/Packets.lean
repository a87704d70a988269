import McuMediaServer.Rtcp.Fields
import Mathlib.Data.List.TakeWhile

/-!
# RTCP packets

The common header and the packets that carry no feedback fields. As for the fields, `serialize`
writes into what is left of a buffer and `parse` is given the rest of the datagram and the size it
may use. Sizes are of the type `DWORD`.
-/

namespace McuMediaServer

open ByteSeq ByteWriter ByteParser

/-! ## The common header -/

/-- The word every packet starts with. Reference: `rtp.h:39`. -/
structure RtcpCommon where
  count : Nat
  p : Nat
  version : Nat
  pt : Nat
  length : Nat
  deriving DecidableEq, Repr

namespace RtcpCommon

def read (data : List UInt8) : Option RtcpCommon := do
  let first ← get1 data 0
  let pt ← get1 data 1
  let length ← get2 data 2
  return ⟨first % 2 ^ 5, first / 2 ^ 5 % 2, first / 2 ^ 6, pt, length⟩

/-- The length in bytes. Reference: `rtp.cpp:95`, `GetRTCPHeaderLength`. -/
def headerLength (h : RtcpCommon) : Nat := (h.length + 1) * 4

end RtcpCommon

/-- The length in words less one. Reference: `rtp.cpp:100`, `SetRTCPHeaderLength`. -/
def lengthField (size : Nat) : Nat := dwordSub (size / 4) 1

/-- The header every `Serialize` writes: a count of 5 bits, version 2, no padding and the length. -/
def rtcpHeader (count pt size : Nat) : List UInt8 :=
  be1 (2 * 2 ^ 6 + count % 2 ^ 5) ++ be1 pt ++ be2 (lengthField size)

/-- Words one after the other. -/
def wordsBytes (words : List UInt32) : List UInt8 :=
  words.flatMap fun w => be4 w.toNat

/-- The loop that reads one word for each that the header counts. -/
def getWords : Nat → List UInt8 → Option (List UInt32)
  | 0, _ => some []
  | count + 1, data => do
    let word ← get4 data 0
    let words ← getWords count (data.drop 4)
    return .ofNat word :: words

/-! ## Sender and receiver reports -/

/-- Byte strings of a fixed length. -/
structure Octets (n : Nat) where
  data : List UInt8
  length_eq : data.length = n
  deriving DecidableEq, Repr

/-- A fixed number of bytes. Reference: `memcpy`. -/
def Octets.read (n : Nat) (data : List UInt8) (i : Nat) : Option (Octets n) :=
  if h : i + n ≤ data.length then
    some ⟨(data.drop i).take n, by
      rw [List.length_take, List.length_drop]
      omega⟩
  else
    none

/-- A report block, kept as it is on the wire. Reference: `rtp.h:556`. -/
structure RTCPReport where
  buffer : Octets 24
  deriving DecidableEq, Repr

namespace RTCPReport

/-- Reference: `rtp.h:593`. -/
def serialize (r : RTCPReport) : ByteWriter :=
  check 24 (put r.buffer.data)

/-- Reference: `rtp.h:604`. -/
def parse (data : List UInt8) (size : Nat) : Option (Parsed RTCPReport) :=
  if size < 24 then
    some none
  else do
    let buffer ← Octets.read 24 data 0
    return some (⟨buffer⟩, 24)

/-- The loop over the report blocks, which ends early where less than a block is left. Reference:
`rtp.cpp:378`. -/
def parseReports : Nat → List UInt8 → Nat → Option (List RTCPReport)
  | 0, _, _ => some []
  | count + 1, data, size => do
    match ← parse data size with
    | none => return []
    | some (report, len) =>
      let reports ← parseReports count (data.drop len) (size - len)
      return report :: reports

end RTCPReport

/-- Reference: `rtp.h:690`. -/
structure RTCPSenderReport where
  ssrc : UInt32
  ntpSec : UInt32
  ntpFrac : UInt32
  rtpTimestamp : UInt32
  packetsSent : UInt32
  octectsSent : UInt32
  reports : List RTCPReport
  deriving DecidableEq, Repr

namespace RTCPSenderReport

/-- Reference: `rtp.cpp:352`. -/
def getSize (p : RTCPSenderReport) : Nat :=
  (4 + 24 + 24 * p.reports.length) % 2 ^ 32

def info (p : RTCPSenderReport) : List UInt8 :=
  be4 p.ssrc.toNat ++ be4 p.ntpSec.toNat ++ be4 p.ntpFrac.toNat ++ be4 p.rtpTimestamp.toNat ++
    be4 p.packetsSent.toNat ++ be4 p.octectsSent.toNat

/-- The loop runs over as many reports as the header could count. Reference: `rtp.cpp:392`. -/
def serialize (p : RTCPSenderReport) : ByteWriter :=
  check p.getSize <| seq <|
    put (rtcpHeader p.reports.length 200 p.getSize ++ p.info) ::
      (p.reports.take (p.reports.length % 2 ^ 5)).map RTCPReport.serialize

/-- Reference: `rtp.cpp:357`. -/
def parse (data : List UInt8) (size : Nat) : Option (Parsed RTCPSenderReport) := do
  let header ← RtcpCommon.read data
  if size < header.headerLength then
    return none
  let ssrc ← get4 data 4
  let ntpSec ← get4 data 8
  let ntpFrac ← get4 data 12
  let rtpTimestamp ← get4 data 16
  let packetsSent ← get4 data 20
  let octectsSent ← get4 data 24
  let reports ← RTCPReport.parseReports header.count (data.drop 28) (size - 28)
  return some (⟨.ofNat ssrc, .ofNat ntpSec, .ofNat ntpFrac, .ofNat rtpTimestamp,
    .ofNat packetsSent, .ofNat octectsSent, reports⟩, 28 + 24 * reports.length)

end RTCPSenderReport

/-- Reference: `rtp.h:735`. -/
structure RTCPReceiverReport where
  ssrc : UInt32
  reports : List RTCPReport
  deriving DecidableEq, Repr

namespace RTCPReceiverReport

/-- Reference: `rtp.cpp:450`. -/
def getSize (p : RTCPReceiverReport) : Nat :=
  (4 + 4 + 24 * p.reports.length) % 2 ^ 32

/-- Reference: `rtp.cpp:485`. -/
def serialize (p : RTCPReceiverReport) : ByteWriter :=
  check p.getSize <| seq <|
    put (rtcpHeader p.reports.length 201 p.getSize ++ be4 p.ssrc.toNat) ::
      (p.reports.take (p.reports.length % 2 ^ 5)).map RTCPReport.serialize

/-- Reference: `rtp.cpp:455`. -/
def parse (data : List UInt8) (size : Nat) : Option (Parsed RTCPReceiverReport) := do
  let header ← RtcpCommon.read data
  if size < header.headerLength then
    return none
  let ssrc ← get4 data 4
  let reports ← RTCPReport.parseReports header.count (data.drop 8) (size - 8)
  return some (⟨.ofNat ssrc, reports⟩, 8 + 24 * reports.length)

end RTCPReceiverReport

/-! ## Goodbye, extended jitter and application packets -/

/-- A C string, without its terminator. -/
structure CString where
  chars : List UInt8
  nonzero : 0 ∉ chars
  deriving DecidableEq, Repr

/-- The string in a buffer, up to the first zero. -/
def CString.ofBuffer (buffer : List UInt8) : CString :=
  ⟨buffer.takeWhile (· ≠ 0), fun h => by simpa using List.mem_takeWhile_imp h⟩

/-- Reference: `rtp.h:755`. -/
structure RTCPBye where
  ssrcs : List UInt32
  reason : Option CString
  deriving DecidableEq, Repr

namespace RTCPBye

/-- The length of the reason and the reason. -/
def reasonBytes : Option CString → List UInt8
  | none => []
  | some reason => be1 reason.chars.length ++ reason.chars

/-- Reference: `rtp.cpp:527`. -/
def getSize (p : RTCPBye) : Nat :=
  (4 + 4 * p.ssrcs.length + (p.reason.elim 0 fun reason => reason.chars.length + 1)) % 2 ^ 32

/-- Reference: `rtp.cpp:575`. -/
def serialize (p : RTCPBye) : ByteWriter :=
  check p.getSize <|
    put (rtcpHeader p.ssrcs.length 203 p.getSize ++ (wordsBytes p.ssrcs ++ reasonBytes p.reason))

/-- Reference: `rtp.cpp:535`. -/
def parse (data : List UInt8) (size : Nat) : Option (Parsed RTCPBye) := do
  let header ← RtcpCommon.read data
  let packetSize := header.headerLength
  if size < packetSize then
    return none
  let ssrcs ← getWords header.count (data.drop 4)
  let len := 4 + 4 * header.count
  if len < packetSize then
    let n ← get1 data len
    let reason ← slice data (len + 1) n
    return some (⟨ssrcs, some (.ofBuffer reason)⟩, len + 1 + n)
  return some (⟨ssrcs, none⟩, len)

end RTCPBye

/-- Reference: `rtp.h:770`. -/
structure RTCPExtendedJitterReport where
  jitters : List UInt32
  deriving DecidableEq, Repr

namespace RTCPExtendedJitterReport

/-- Reference: `rtp.cpp:624`. -/
def getSize (p : RTCPExtendedJitterReport) : Nat :=
  (4 + 4 * p.jitters.length) % 2 ^ 32

/-- Reference: `rtp.cpp:653`. -/
def serialize (p : RTCPExtendedJitterReport) : ByteWriter :=
  check p.getSize <| put (rtcpHeader p.jitters.length 195 p.getSize ++ wordsBytes p.jitters)

/-- Reference: `rtp.cpp:629`. -/
def parse (data : List UInt8) (size : Nat) : Option (Parsed RTCPExtendedJitterReport) := do
  let header ← RtcpCommon.read data
  if size < header.headerLength then
    return none
  let jitters ← getWords header.count (data.drop 4)
  return some (⟨jitters⟩, 4 + 4 * header.count)

end RTCPExtendedJitterReport

/-- Reference: `rtp.h:918`. -/
structure RTCPApp where
  subtype : UInt8
  ssrc : UInt32
  name : Octets 4
  data : List UInt8
  deriving DecidableEq, Repr

namespace RTCPApp

/-- Reference: `rtp.cpp:695`. -/
def getSize (p : RTCPApp) : Nat :=
  (4 + 8 + p.data.length) % 2 ^ 32

/-- Reference: `rtp.cpp:700`. -/
def serialize (p : RTCPApp) : ByteWriter :=
  check p.getSize <|
    put (rtcpHeader p.subtype.toNat 204 p.getSize ++ (be4 p.ssrc.toNat ++ p.name.data ++ p.data))

/-- Reference: `rtp.cpp:734`. -/
def parse (data : List UInt8) (size : Nat) : Option (Parsed RTCPApp) := do
  let header ← RtcpCommon.read data
  let packetSize := header.headerLength
  if size < packetSize then
    return none
  let ssrc ← get4 data 4
  let name ← Octets.read 4 data 8
  let payload ← slice data 12 (dwordSub packetSize 12)
  return some (⟨.ofNat header.count, .ofNat ssrc, name, payload⟩, packetSize)

end RTCPApp

/-! ## Requests outside the feedback packets -/

/-- Reference: `rtp.h:784`. -/
structure RTCPFullIntraRequest where
  ssrc : UInt32
  deriving DecidableEq, Repr

namespace RTCPFullIntraRequest

/-- Reference: `rtp.cpp:1086`. -/
def getSize (_ : RTCPFullIntraRequest) : Nat := 4 + 4

/-- Reference: `rtp.cpp:1108`. -/
def serialize (p : RTCPFullIntraRequest) : ByteWriter :=
  check p.getSize <| put (rtcpHeader 0 192 p.getSize ++ be4 p.ssrc.toNat)

/-- Reference: `rtp.cpp:1091`. -/
def parse (data : List UInt8) (size : Nat) : Option (Parsed RTCPFullIntraRequest) := do
  let header ← RtcpCommon.read data
  if size < header.headerLength then
    return none
  let ssrc ← get4 data 4
  return some (⟨.ofNat ssrc⟩, 8)

end RTCPFullIntraRequest

/-- Reference: `rtp.h:795`. -/
structure RTCPNACK where
  ssrc : UInt32
  fsn : UInt16
  blp : UInt16
  deriving DecidableEq, Repr

namespace RTCPNACK

/-- Reference: `rtp.cpp:1137`. -/
def getSize (_ : RTCPNACK) : Nat := 4 + 8

/-- Reference: `rtp.cpp:1161`. -/
def serialize (p : RTCPNACK) : ByteWriter :=
  check p.getSize <|
    put (rtcpHeader 0 193 p.getSize ++ (be4 p.ssrc.toNat ++ be2 p.fsn.toNat ++ be2 p.blp.toNat))

/-- The mask is read from the low half of the source. Reference: `rtp.cpp:1142`. -/
def parse (data : List UInt8) (size : Nat) : Option (Parsed RTCPNACK) := do
  let header ← RtcpCommon.read data
  if size < header.headerLength then
    return none
  let ssrc ← get4 data 4
  let fsn ← get2 data 8
  let blp ← get2 data 6
  return some (⟨.ofNat ssrc, .ofNat fsn, .ofNat blp⟩, 12)

end RTCPNACK

/-! ## Source descriptions -/

namespace RTCPSDES

/-- Reference: `rtp.h:813`. -/
structure Item where
  type : UInt8
  payload : Payload (2 ^ 8)
  deriving DecidableEq, Repr

def Item.bytes (item : Item) : List UInt8 :=
  be1 item.type.toNat ++ be1 item.payload.data.length ++ item.payload.data

/-- Reference: `rtp.h:878`. -/
structure Description where
  ssrc : UInt32
  items : List Item
  deriving DecidableEq, Repr

namespace Description

/-- The length up to and with the null item. -/
def length (d : Description) : Nat :=
  4 + (d.items.map fun item => item.payload.data.length + 2).sum + 1

/-- Reference: `rtp.cpp:1303`. -/
def getSize (d : Description) : Nat :=
  pad32 d.length % 2 ^ 32

def bytes (d : Description) : List UInt8 :=
  be4 d.ssrc.toNat ++ (d.items.flatMap Item.bytes ++
    List.replicate (pad32 d.length - d.length + 1) 0)

/-- Reference: `rtp.cpp:1346`. -/
def serialize (d : Description) : ByteWriter :=
  check d.getSize (put d.bytes)

/-- The loop over the items, which ends at a null item or where no more than two bytes are left.
Reference: `rtp.cpp:1325`. -/
def parseItems : Nat → List UInt8 → Nat → Option (Parsed (List Item))
  | 0, _, _ => none
  | fuel + 1, data, size =>
    if size ≤ 2 then
      some (some ([], 0))
    else do
      let type ← get1 data 0
      if type = 0 then
        return some ([], 0)
      let length ← get1 data 1
      if size < 2 + length then
        return none
      let payload ← Payload.read (2 ^ 8) data 2 length
      match ← parseItems fuel (data.drop (2 + length)) (size - (2 + length)) with
      | none => return none
      | some (items, len) => return some (⟨.ofNat type, payload⟩ :: items, 2 + length + len)

/-- Reference: `rtp.cpp:1315`. -/
def parse (data : List UInt8) (size : Nat) : Option (Parsed Description) :=
  if size < 4 then
    some none
  else do
    let ssrc ← get4 data 0
    match ← parseItems (size + 1) (data.drop 4) (size - 4) with
    | none => return none
    | some (items, len) => return some (⟨.ofNat ssrc, items⟩, pad32 (4 + len + 1))

end Description

end RTCPSDES

/-- Reference: `rtp.h:808`. -/
structure RTCPSDES where
  descriptions : List RTCPSDES.Description
  deriving DecidableEq, Repr

namespace RTCPSDES

/-- Reference: `rtp.cpp:1209`. -/
def getSize (p : RTCPSDES) : Nat :=
  (4 + (p.descriptions.map Description.getSize).sum) % 2 ^ 32

/-- Reference: `rtp.cpp:1250`. -/
def serialize (p : RTCPSDES) : ByteWriter :=
  check p.getSize <| seq <|
    put (rtcpHeader p.descriptions.length 202 p.getSize) ::
      p.descriptions.map Description.serialize

/-- The loop counts no description, so any count but zero lets it run to the end. Reference:
`rtp.cpp:1218`. -/
def parse (data : List UInt8) (size : Nat) : Option (Parsed RTCPSDES) := do
  let header ← RtcpCommon.read data
  if size < header.headerLength then
    return none
  if header.count = 0 then
    return some (⟨[]⟩, 4)
  match ← parseAll Description.parse size (data.drop 4) (size - 4) with
  | none => return none
  | some (descriptions, len) => return some (⟨descriptions⟩, 4 + len)

end RTCPSDES

end McuMediaServer
