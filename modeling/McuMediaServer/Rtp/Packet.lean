import Mathlib.Data.UInt
import Mathlib.Tactic.Common

/-!
# RTP packets

The packets the media server queues, sends and receives, with the fields its bookkeeping reads. A
packet is kept as its header fields and its payload; the functions that cut a datagram into these
fields are not part of this file. The *extended* sequence number of a packet is the 32-bit number
made of the cycle count the session assigned to it and of the 16 bits that travel on the wire.
-/

namespace McuMediaServer

/-- An RTP packet: the header fields, the payload and the values the session attaches to it.
Reference: `rtp.h:78`, class `RTPPacket`. -/
structure RTPPacket where
  /-- Synchronization source. -/
  ssrc : UInt32
  /-- Payload type. -/
  type : UInt8
  /-- Marker bit. -/
  mark : Bool := false
  /-- The sequence number on the wire. -/
  seqNum : UInt16
  timestamp : UInt32
  /-- Contributing sources. -/
  csrcs : List UInt32 := []
  /-- Extension header and data, empty when the extension bit is not set. -/
  extension : List UInt8 := []
  /-- The media data. -/
  payload : List UInt8
  codec : UInt32 := 0
  /-- Sequence number cycles, assigned by the session. -/
  cycles : UInt16 := 0
  deriving DecidableEq, Repr

/-- A packet with the time, in milliseconds, at which it was received or sent.
Reference: `rtp.h:427`, class `RTPTimedPacket`. -/
structure RTPTimedPacket extends RTPPacket where
  time : UInt64
  deriving DecidableEq, Repr

namespace RTPPacket

/-- `((DWORD)cycles)<<16 | GetSeqNum()`. Reference: `rtp.h:253`, `GetExtSeqNum`. -/
def extSeqNum (p : RTPPacket) : Nat :=
  p.cycles.toNat * 2 ^ 16 + p.seqNum.toNat

/-- Fixed header, contributing sources and extension. Reference: `rtp.h:231`,
`GetRTPHeaderLen`. -/
def rtpHeaderLen (p : RTPPacket) : Nat :=
  12 + 4 * p.csrcs.length + p.extension.length

/-- Reference: `rtp.h:245`, `GetMediaLength`. -/
def mediaLength (p : RTPPacket) : Nat :=
  p.payload.length

/-- Reference: `rtp.h:241`, `GetSize`. -/
def size (p : RTPPacket) : Nat :=
  p.mediaLength + p.rtpHeaderLen

variable (p : RTPPacket)

theorem extSeqNum_lt : p.extSeqNum < 2 ^ 32 := by
  have hc := p.cycles.toNat_lt
  have hs := p.seqNum.toNat_lt
  unfold extSeqNum
  omega

theorem extSeqNum_mod : p.extSeqNum % 2 ^ 16 = p.seqNum.toNat := by
  have hs := p.seqNum.toNat_lt
  unfold extSeqNum
  omega

end RTPPacket

/-- A packet with no content but its extended sequence number and its time, for examples. -/
def RTPTimedPacket.numbered (extSeq : Nat) (time : UInt64) : RTPTimedPacket where
  ssrc := 1
  type := 96
  seqNum := .ofNat extSeq
  timestamp := 0
  payload := []
  cycles := .ofNat (extSeq / 2 ^ 16)
  time := time

end McuMediaServer
