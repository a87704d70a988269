import McuMediaServer.Rtcp.Feedback

/-!
# Compound RTCP packets

The packets of a datagram, one after the other. The parser cuts the datagram by the lengths in the
headers, hands each piece to the parser of its type and keeps what could be parsed.
-/

namespace McuMediaServer

open ByteSeq ByteWriter ByteParser

/-- Reference: `rtp.h:630`. -/
inductive RTCPPacket where
  | senderReport (p : RTCPSenderReport)
  | receiverReport (p : RTCPReceiverReport)
  | sdes (p : RTCPSDES)
  | bye (p : RTCPBye)
  | app (p : RTCPApp)
  | rtpFeedback (p : RTCPRTPFeedback)
  | payloadFeedback (p : RTCPPayloadFeedback)
  | fullIntraRequest (p : RTCPFullIntraRequest)
  | nack (p : RTCPNACK)
  | extendedJitterReport (p : RTCPExtendedJitterReport)
  deriving DecidableEq, Repr

namespace RTCPPacket

/-- Reference: `rtp.h:633`, `Type`. -/
def getType : RTCPPacket → Nat
  | senderReport _ => 200
  | receiverReport _ => 201
  | sdes _ => 202
  | bye _ => 203
  | app _ => 204
  | rtpFeedback _ => 205
  | payloadFeedback _ => 206
  | fullIntraRequest _ => 192
  | nack _ => 193
  | extendedJitterReport _ => 195

def getSize : RTCPPacket → Nat
  | senderReport p => p.getSize
  | receiverReport p => p.getSize
  | sdes p => p.getSize
  | bye p => p.getSize
  | app p => p.getSize
  | rtpFeedback p => RTCPRTPFeedback.getSize p
  | payloadFeedback p => RTCPPayloadFeedback.getSize p
  | fullIntraRequest p => p.getSize
  | nack p => p.getSize
  | extendedJitterReport p => p.getSize

def serialize : RTCPPacket → ByteWriter
  | senderReport p => p.serialize
  | receiverReport p => p.serialize
  | sdes p => p.serialize
  | bye p => p.serialize
  | app p => p.serialize
  | rtpFeedback p => RTCPRTPFeedback.serialize p
  | payloadFeedback p => RTCPPayloadFeedback.serialize p
  | fullIntraRequest p => p.serialize
  | nack p => p.serialize
  | extendedJitterReport p => p.serialize

/-- Create the packet of a type and let it parse; an unknown type is skipped. Reference:
`rtp.cpp:207`. -/
def parse (type : Nat) (data : List UInt8) (size : Nat) : Option (Parsed RTCPPacket) :=
  match type with
  | 200 => (RTCPSenderReport.parse data size).map fun r => r.map (Prod.map senderReport id)
  | 201 => (RTCPReceiverReport.parse data size).map fun r => r.map (Prod.map receiverReport id)
  | 202 => (RTCPSDES.parse data size).map fun r => r.map (Prod.map sdes id)
  | 203 => (RTCPBye.parse data size).map fun r => r.map (Prod.map bye id)
  | 204 => (RTCPApp.parse data size).map fun r => r.map (Prod.map app id)
  | 205 => (RTCPRTPFeedback.parse data size).map fun r => r.map (Prod.map rtpFeedback id)
  | 206 => (RTCPPayloadFeedback.parse data size).map fun r => r.map (Prod.map payloadFeedback id)
  | 192 => (RTCPFullIntraRequest.parse data size).map fun r =>
      r.map (Prod.map fullIntraRequest id)
  | 193 => (RTCPNACK.parse data size).map fun r => r.map (Prod.map nack id)
  | 195 => (RTCPExtendedJitterReport.parse data size).map fun r =>
      r.map (Prod.map extendedJitterReport id)
  | _ => some none

end RTCPPacket

/-- Reference: `rtp.h:1561`. -/
abbrev RTCPCompoundPacket := List RTCPPacket

namespace RTCPCompoundPacket

/-- Whether a datagram starts like RTCP. Reference: `rtp.h:1564`. -/
def isRTCP (data : List UInt8) : Bool :=
  (RtcpCommon.read data).any fun header =>
    header.version == 2 && (200 ≤ header.pt && header.pt ≤ 206)

/-- The size of the last packet and of one header, since the sum is assigned and not added to.
Reference: `rtp.h:1594`. -/
def getSize (packets : RTCPCompoundPacket) : Nat :=
  packets.foldl (fun _ packet => (4 + packet.getSize) % 2 ^ 32) 0

/-- Reference: `rtp.h:1605`. -/
def serialize (packets : RTCPCompoundPacket) : ByteWriter :=
  check (getSize packets) (seq (packets.map RTCPPacket.serialize))

/-- The packet that a successful `Parse` adds. -/
def added : Parsed RTCPPacket → List RTCPPacket
  | some (packet, len) => if len = 0 then [] else [packet]
  | none => []

/-- The loop over the pieces of a datagram. Reference: `rtp.cpp:200`. -/
def parsePackets : Nat → List UInt8 → Option (Option RTCPCompoundPacket)
  | _, [] => some (some [])
  | 0, _ :: _ => none
  | fuel + 1, byte :: rest => do
    let buffer := byte :: rest
    let header ← RtcpCommon.read buffer
    let len := header.headerLength
    if buffer.length < len then
      return none
    let packet ← RTCPPacket.parse header.pt buffer len
    match ← parsePackets fuel (buffer.drop len) with
    | none => return none
    | some packets => return some (added packet ++ packets)

/-- Reference: `rtp.cpp:188`. -/
def parse (data : List UInt8) : Option (Option RTCPCompoundPacket) :=
  if isRTCP data then
    parsePackets data.length data
  else
    some none

end RTCPCompoundPacket

end McuMediaServer
