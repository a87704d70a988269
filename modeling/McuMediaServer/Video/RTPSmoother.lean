import McuMediaServer.Video.H264Frame

/-!
# Resending a frame

The smoother makes the packets of a frame again from the notes that were taken when it was put
together: the prefix of a note and then a slice of the frame.
-/

namespace McuMediaServer

open ByteSeq ByteWriter H264

/-- A packet that waits to be sent. Reference: `rtp.h:399`. -/
structure RTPPacketSched where
  mediaData : List UInt8
  mark : Bool

namespace RTPSmoother

/-- The media that a packet has room for. Reference: `rtp.h:246`. -/
def maxMediaLength : Nat := 1700 - 12

/-- The packets of the notes, the last one with a mark; a note that does not fit a packet is left
out. There is no value when a slice is not in the buffer. Reference: `RTPSmoother.cpp:122`. -/
def sendPackets (data : List UInt8) : List RtpPacketization → Option (List RTPPacketSched)
  | [] => some []
  | rtp :: info => do
    let packets ← sendPackets data info
    if maxMediaLength < rtp.getTotalLength then
      return packets
    else
      let bytes ← slice data rtp.pos rtp.size
      return ⟨rtp.prefixData ++ bytes, info.isEmpty⟩ :: packets

/-- A frame without notes is an error, and nothing is sent. Reference: `RTPSmoother.cpp:63`. -/
def sendFrame (frame : VideoFrame) : Option (List RTPPacketSched) :=
  sendPackets frame.buffer frame.rtpInfo

/-- The packets of payloads, of which the last one has the mark. -/
def marked : List (List UInt8) → List RTPPacketSched
  | [] => []
  | payload :: payloads => ⟨payload, payloads.isEmpty⟩ :: marked payloads

theorem map_marked (payloads : List (List UInt8)) :
    (marked payloads).map RTPPacketSched.mediaData = payloads := by
  induction payloads with
  | nil => rfl
  | cons payload payloads ih => rw [marked, List.map_cons, ih]

end RTPSmoother

namespace H264Depacketizer

/-- The payloads of a frame are put into it, and sending the frame makes packets with these
payloads, from slices that are media of the frame and prefixes that fit their array. -/
def Resends (d : H264Depacketizer) (payloads : List (List UInt8)) : Prop :=
  ∃ d', d.resetFrame.addPayloads payloads = some d' ∧
    (∃ packets, RTPSmoother.sendFrame d'.frame = some packets ∧
      packets.map RTPPacketSched.mediaData = payloads) ∧
    ∀ rtp ∈ d'.frame.rtpInfo, rtp.pos + rtp.size ≤ d'.frame.length ∧ rtp.prefixData.length ≤ 16

section Lemmas

variable {d d' : H264Depacketizer} {nals sent : List (List UInt8)}

theorem sendPackets_eq_marked {frame : VideoFrame} (hframe : frame.Inv)
    {notes : List RtpPacketization} (hsends : List.Forall₂ (Sends frame.media) notes sent)
    (hlen : ∀ payload ∈ sent, payload.length ≤ RTPSmoother.maxMediaLength) :
    RTPSmoother.sendPackets frame.buffer notes = some (RTPSmoother.marked sent) := by
  induction hsends with
  | nil => rfl
  | @cons rtp payload notes sent hsend hrest ih =>
    rw [List.forall_mem_cons] at hlen
    have hpackets := ih hlen.2
    have hlast : notes.isEmpty = sent.isEmpty := by
      cases hrest <;> rfl
    obtain ⟨hle, hpayload⟩ := hsend
    rw [hframe.length_media] at hle
    have hinside : rtp.pos + rtp.size ≤ frame.buffer.length :=
      Nat.le_trans hle hframe.length_le
    have hslice : slice frame.buffer rtp.pos rtp.size =
        some ((frame.media.drop rtp.pos).take rtp.size) := by
      rw [slice, if_pos hinside, VideoFrame.media, List.drop_take, List.take_take,
        Nat.min_eq_left (by omega)]
    have htotal : rtp.getTotalLength = payload.length := by
      have hlength := congrArg List.length hpayload
      rw [List.length_append, List.length_take, List.length_drop, hframe.length_media,
        Nat.min_eq_left (by omega)] at hlength
      have hmax := hlen.1
      rw [RTPSmoother.maxMediaLength] at hmax
      rw [RtpPacketization.getTotalLength, Nat.mod_eq_of_lt (by omega)]
      omega
    rw [RTPSmoother.sendPackets, hpackets, htotal, hslice, Option.bind_eq_bind, Option.bind_some,
      if_neg (Nat.not_lt.2 hlen.1), Option.bind_eq_bind, Option.bind_some, hpayload, hlast]
    rfl

theorem Built.resends (h : Built d' nals sent)
    (hlen : ∀ payload ∈ sent, payload.length ≤ RTPSmoother.maxMediaLength)
    (hadd : d.resetFrame.addPayloads sent = some d') : Resends d sent := by
  refine ⟨d', hadd, ⟨_, sendPackets_eq_marked h.inv.frame h.sends hlen, RTPSmoother.map_marked sent⟩,
    ?_⟩
  intro rtp hrtp
  obtain ⟨i, hi, rfl⟩ := List.getElem_of_mem hrtp
  have hsend := h.sends.get hi (by rw [← h.sends.length_eq]; exact hi)
  rw [← h.inv.frame.length_media]
  exact ⟨hsend.1, RtpPacketization.prefixLen_le _⟩

end Lemmas

section Resends

variable {d : H264Depacketizer} {payloads : List RTPPayload} {nals : List (List UInt8)}

theorem Resends.isSome (h : Resends d (payloads.map RTPPayload.data)) :
    (d.resetFrame.addPayloads (payloads.map RTPPayload.data)).isSome := by
  obtain ⟨d', hd', -⟩ := h
  rw [hd']
  rfl

/-- The payloads of a frame are sent again as they came exactly when every aggregate fits the 16
bytes of a prefix, and three times the length of the frame is a `DWORD` whenever its buffer has to
be enlarged. -/
theorem resends_iff (hd : d.Reachable) (hcarry : Carry (payloads.map RTPPayload.data) nals) :
    Resends d (payloads.map RTPPayload.data) ↔
      (∀ payload ∈ payloads, IsAggregate payload.data → payload.data.length ≤ 16) ∧
        VideoFrame.CanAppend d.frame.buffer.length 0 (allPieces (payloads.map RTPPayload.data)) := by
  rw [← isSome_addFrame hd hcarry]
  constructor
  · exact Resends.isSome
  · intro hsome
    obtain ⟨d', hd'⟩ := Option.isSome_iff_exists.1 hsome
    refine (built_of_addFrame hd hcarry hd').resends ?_ hd'
    intro payload hpayload
    obtain ⟨payload, -, rfl⟩ := List.mem_map.1 hpayload
    exact payload.length_le

end Resends

/-- A slice of an intra picture is sent again. -/
theorem idrSlice_resends :
    Resends new [idrSlice.data] ↔
      (∀ payload ∈ [idrSlice], IsAggregate payload.data → payload.data.length ≤ 16) ∧
        VideoFrame.CanAppend 0 0 (allPieces [idrSlice.data]) :=
  @resends_iff new [idrSlice] _ .new carry_idrSlice

/-- The 18 bytes of an aggregate of parameter sets do not fit a prefix. -/
theorem not_resends_parameterSets : ¬ Resends new [parameterSets.data] := by
  intro h
  have hcarry : Carry ([parameterSets].map RTPPayload.data) _ := carry_parameterSets
  have hsmall := ((isSome_addFrame .new hcarry).1 (Resends.isSome h)).1
  exact absurd (hsmall parameterSets (List.mem_singleton_self _)) (by decide)

end H264Depacketizer

end McuMediaServer
