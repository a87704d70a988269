import McuMediaServer.Rtp.Buffer
import McuMediaServer.Rtp.Nack

/-!
# Receiving RTP packets

`RTPSession::ReadRTP`, from the point where it holds a decrypted RTP packet: it finds the codec,
follows a change of source, takes a retransmitted packet out of its RTX packet, checks the blocks of
a redundant one, and then numbers the packet with the cycles counted so far. The session counts a
new cycle when a low sequence number arrives while the highest one so far was a high one.

`numbered_iff_inCycle` compares these numbers with the true positions of the packets in their
stream: it says exactly which arrivals get the wrong number or leave the highest number behind.
-/

namespace McuMediaServer

open ByteSeq StepRun

/-- Codecs by payload type. Reference: `rtp.h:47`, class `RTPMap`. -/
abbrev RTPMap := Std.TreeMap UInt8 UInt8

namespace RTPMap

/-- `(BYTE)-1`. Reference: `rtp.h:75`. -/
def notFound : UInt8 := 255

/-- Reference: `rtp.h:51`, `GetCodecForType`. -/
def getCodecForType (m : RTPMap) (type : UInt8) : UInt8 :=
  m[type]?.getD notFound

end RTPMap

/-- Reference: `codecs.h:54`, `VideoCodec::RTX`. -/
def codecRTX : UInt8 := 110

/-- The codecs of redundant packets, `TextCodec::T140RED` and `VideoCodec::RED`. Reference:
`codecs.h:54`, `codecs.h:108`. -/
def isRedundant (codec : UInt8) : Bool :=
  codec = 105 || codec = 109

/-- The payload types a redundant payload names: the primary one and those of the redundant blocks.
There is no value when the headers run past the payload. Reference: `rtp.cpp:1375`,
`RTPRedundantPacket`. -/
def redundantTypes : List UInt8 → Option (UInt8 × List UInt8)
  | [] => none
  | b :: rest =>
    if b.toNat < 128 then
      some (b &&& 0x7F, [])
    else
      match rest with
      | _ :: _ :: _ :: rest =>
        (redundantTypes rest).map fun (primary, types) => (primary, (b &&& 0x7F) :: types)
      | _ => none

/-- What a session counts about a source it receives. Reference: `rtp.h:1632`, `RTPSource`, and
`rtp.h:1670`, `RTPIncomingSource`. -/
structure RTPIncomingSource where
  ssrc : UInt32
  /-- The highest extended number of the packets that were not retransmitted. -/
  extSeq : Nat
  /-- A 32-bit count of sequence number cycles. -/
  cycles : Nat := 0
  numPackets : UInt32 := 0
  totalBytes : UInt32 := 0
  lostPackets : UInt32 := 0
  totalPacketsSinceLastSR : UInt32 := 0
  nackedPacketsSinceLastSR : UInt32 := 0
  totalBytesSinceLastSR : UInt32 := 0
  minExtSeqNumSinceLastSR : Nat := 2 ^ 32 - 1

/-- What a report block says about a source. Reference: `rtpsession.cpp:2133`. -/
structure ReceptionReport where
  ssrc : UInt32
  fractionLost : UInt32
  lostCount : UInt32
  lastSeqNum : Nat

/-- The report block for a source, if it has received anything since the last one, and the counters
started over. Reference: `rtpsession.cpp:2118`, `CreateSenderReport`. -/
def RTPIncomingSource.report (r : RTPIncomingSource) :
    RTPIncomingSource × Option ReceptionReport :=
  if r.totalPacketsSinceLastSR ≠ 0 ∧ r.minExtSeqNumSinceLastSR ≤ r.extSeq then
    let total : UInt32 := .ofNat (r.extSeq - r.minExtSeqNumSinceLastSR + 1)
    let lost := total - r.totalPacketsSinceLastSR + r.nackedPacketsSinceLastSR
    ({ r with
        lostPackets := r.lostPackets + lost
        totalPacketsSinceLastSR := 0
        totalBytesSinceLastSR := 0
        nackedPacketsSinceLastSR := 0
        minExtSeqNumSinceLastSR := 2 ^ 32 - 1 },
      some {
        ssrc := r.ssrc
        fractionLost := lost * 256 / total
        lostCount := r.lostPackets + lost
        lastSeqNum := r.extSeq })
  else
    (r, none)

/-- The receiving half of a session. Reference: `rtpsession.h:141`, class `RTPSession`. -/
structure Receiver where
  recv : RTPIncomingSource
  /-- The source of retransmissions. -/
  rtxSSRC : UInt32
  /-- The payload type of the packets in retransmissions, `recvRTX.apt`. -/
  rtxApt : UInt8
  rtpMapIn : RTPMap
  packets : RTPBuffer := {}
  losts : RTPLostPackets := .ofSession
  isNACKEnabled : Bool := false
  /-- Round trip time, in milliseconds. -/
  rtt : Nat := 0

/-- Why a packet is not queued: an error is logged, or the read runs past the datagram. -/
inductive Refusal where
  | error
  | outside

namespace Receiver

/-- Follow the source of a packet that is not a retransmission, or take the original packet out of a
retransmission, whose payload starts with the original number. The last value says whether it was
one. Reference: `rtpsession.cpp:1487`. -/
def route (s : Receiver) (rtp : RTPTimedPacket) :
    Receiver × Except Refusal (RTPTimedPacket × Bool) :=
  let codec := s.rtpMapIn.getCodecForType rtp.type
  if codec = RTPMap.notFound then
    (s, .error .error)
  else if s.recv.ssrc ≠ rtp.ssrc then
    if codec ≠ codecRTX then
      -- A new source: a report is sent to the old one
      ({ s with
          packets := s.packets.reset
          recv := { s.recv.report.1 with cycles := 0, extSeq := 0, ssrc := rtp.ssrc } },
        .ok ({ rtp with codec := codec.toUInt32 }, false))
    else
      let s := { s with rtxSSRC := if s.rtxSSRC = 0 then rtp.ssrc else s.rtxSSRC }
      match get2 rtp.payload 0 with
      | none => (s, .error .outside)
      | some osn =>
        let codec := s.rtpMapIn.getCodecForType s.rtxApt
        if codec = RTPMap.notFound then
          (s, .error .error)
        else
          (s, .ok ({ rtp with
            payload := rtp.payload.drop 2
            seqNum := .ofNat osn
            ssrc := s.recv.ssrc
            type := s.rtxApt
            codec := codec.toUInt32 }, true))
  else
    ({ s with rtxApt := rtp.type }, .ok ({ rtp with codec := codec.toUInt32 }, false))

/-- The blocks of a redundant packet have known types. Reference: `rtpsession.cpp:1582`. -/
def checkRedundant (s : Receiver) (rtp : RTPTimedPacket) : Except Refusal Unit :=
  if isRedundant rtp.codec.toUInt8 then
    match redundantTypes rtp.payload with
    | none => .error .outside
    | some (primary, types) =>
      if (primary :: types).any fun t => s.rtpMapIn.getCodecForType t = RTPMap.notFound then
        .error .error
      else
        .ok ()
  else
    .ok ()

/-- A low number arrives and the highest number so far is a high one: the sequence has wrapped.
Reference: `rtpsession.cpp:1640`. -/
def wraps (extSeq seq : Nat) : Bool :=
  seq < 0x0FFF && 0xF000 < extSeq % 2 ^ 16

/-- Count the cycles and number the packet. Reference: `rtpsession.cpp:1636`. -/
def number (s : Receiver) (rtp : RTPTimedPacket) : Receiver × RTPTimedPacket :=
  let cycles :=
    if wraps s.recv.extSeq rtp.seqNum.toNat then (s.recv.cycles + 1) % 2 ^ 32 else s.recv.cycles
  ({ s with recv := { s.recv with cycles := cycles } }, { rtp with cycles := .ofNat cycles })

/-- Enter the packet in the window of lost packets, and send NACKs for the losses when they are
enabled and no intra frame is awaited; `sinceFPU` is the time since one was requested. Reference:
`rtpsession.cpp:1651`. -/
def countLosses (s : Receiver) (rtp : RTPTimedPacket) (sinceFPU : Nat) :
    Receiver × Option (List NACKField) :=
  let (losts, lost) := s.losts.addPacket rtp
  let s := { s with losts := losts }
  if s.isNACKEnabled ∧ s.rtt / 2 < sinceFPU ∧ lost ≠ 0 then
    ({ s with recv := { s.recv with
        nackedPacketsSinceLastSR := s.recv.nackedPacketsSinceLastSR + .ofNat lost } },
      losts.getNacks.toOption)
  else
    (s, none)

/-- Count a packet that is not a retransmission, and keep the highest number. Reference:
`rtpsession.cpp:1688`. -/
def countPacket (s : Receiver) (rtp : RTPTimedPacket) (size : Nat) : Receiver :=
  { s with recv := { s.recv with
      numPackets := s.recv.numPackets + 1
      totalPacketsSinceLastSR := s.recv.totalPacketsSinceLastSR + 1
      totalBytes := s.recv.totalBytes + .ofNat size
      totalBytesSinceLastSR := s.recv.totalBytesSinceLastSR + .ofNat size
      minExtSeqNumSinceLastSR := min rtp.extSeqNum s.recv.minExtSeqNumSinceLastSR
      extSeq := if s.recv.extSeq < rtp.extSeqNum then rtp.extSeqNum else s.recv.extSeq } }

/-- Reference: `rtpsession.cpp:1783`. -/
def queue (s : Receiver) (rtp : RTPTimedPacket) : Receiver :=
  { s with packets := (s.packets.add rtp).1 }

/-- Reference: `rtpsession.cpp:2194`, `SendSenderReport`. -/
def sendSenderReport (s : Receiver) : Receiver :=
  { s with recv := s.recv.report.1 }

/-- What is done with a packet once it is numbered: losses and statistics are counted, it is queued,
and a sender report is sent when `reportDue`. Reference: `rtpsession.cpp:1651`. -/
def accept (s : Receiver) (numbered : RTPTimedPacket) (isRTX : Bool) (size sinceFPU : Nat)
    (reportDue : Bool) : Receiver × Option (List NACKField) :=
  let (s, nacks) := s.countLosses numbered sinceFPU
  let s := (if isRTX then s else s.countPacket numbered size).queue numbered
  (if reportDue then s.sendSenderReport else s, nacks)

/-- Read a packet: number and queue it, and return it with the NACK fields sent for the losses it
revealed. Reference: `rtpsession.cpp:1487`, `ReadRTP`. -/
def readRTP (s : Receiver) (rtp : RTPTimedPacket) (sinceFPU : Nat) (reportDue : Bool) :
    Receiver × Except Refusal (RTPTimedPacket × Option (List NACKField)) :=
  match s.route rtp with
  | (s, .error e) => (s, .error e)
  | (s, .ok (original, isRTX)) =>
    match s.checkRedundant original with
    | .error e => (s, .error e)
    | .ok () =>
      let numbered := s.number original
      let admitted := numbered.1.accept numbered.2 isRTX rtp.size sinceFPU reportDue
      (admitted.1, .ok (numbered.2, admitted.2))

/-! ### What reading a packet does to the numbering -/

/-- The part of the session that numbers the packets. -/
structure Numbering where
  ssrc : UInt32
  extSeq : Nat
  cycles : Nat
  rtpMapIn : RTPMap

/-- Reference: `rtpsession.cpp:1636`. -/
abbrev numbering (s : Receiver) : Numbering where
  ssrc := s.recv.ssrc
  extSeq := s.recv.extSeq
  cycles := s.recv.cycles
  rtpMapIn := s.rtpMapIn

namespace Numbering

/-- The numbering when the next packet of source `ssrc` arrives: a new source starts over. -/
def follow (n : Numbering) (ssrc : UInt32) : Numbering :=
  if n.ssrc = ssrc then n else { n with ssrc := ssrc, extSeq := 0, cycles := 0 }

/-- The cycles when the number `seq` arrives. -/
def cyclesAt (n : Numbering) (seq : Nat) : Nat :=
  if wraps n.extSeq seq then (n.cycles + 1) % 2 ^ 32 else n.cycles

/-- The extended number given to the number `seq`. -/
def assign (n : Numbering) (seq : Nat) : Nat :=
  n.cyclesAt seq % 2 ^ 16 * 2 ^ 16 + seq

/-- The numbering after the number `seq` arrived in a packet that was not retransmitted, or in one
that was. -/
def next (n : Numbering) (seq : Nat) (isRTX : Bool) : Numbering :=
  { n with
    cycles := n.cyclesAt seq
    extSeq := if isRTX then n.extSeq else max n.extSeq (n.assign seq) }

end Numbering

section Frame

variable (s : Receiver) (rtp : RTPTimedPacket)

theorem numbering_queue : (s.queue rtp).numbering = s.numbering := rfl

theorem numbering_sendSenderReport : s.sendSenderReport.numbering = s.numbering := by
  simp only [numbering, sendSenderReport, RTPIncomingSource.report]
  split <;> rfl

-- Applied to a packet, the two sides would be compared by entering it in the window.
theorem countLosses_def : countLosses = fun s rtp sinceFPU =>
    let (losts, lost) := s.losts.addPacket rtp
    let s := { s with losts := losts }
    if s.isNACKEnabled ∧ s.rtt / 2 < sinceFPU ∧ lost ≠ 0 then
      ({ s with recv := { s.recv with
          nackedPacketsSinceLastSR := s.recv.nackedPacketsSinceLastSR + .ofNat lost } },
        losts.getNacks.toOption)
    else
      (s, none) := rfl

theorem accept_def : accept = fun s numbered isRTX size sinceFPU reportDue =>
    let (s, nacks) := s.countLosses numbered sinceFPU
    let s := (if isRTX then s else s.countPacket numbered size).queue numbered
    (if reportDue then s.sendSenderReport else s, nacks) := rfl

theorem numbering_countLosses (sinceFPU : Nat) :
    (s.countLosses rtp sinceFPU).1.numbering = s.numbering := by
  rw [countLosses_def]
  beta_reduce
  cases s.losts.addPacket rtp with
  | mk losts lost =>
    simp only
    split <;> simp only

theorem extSeqNum_number : (s.number rtp).2.extSeqNum = s.numbering.assign rtp.seqNum.toNat := by
  simp only [number, RTPPacket.extSeqNum, UInt16.toNat_ofNat']
  rfl

theorem numbering_number : (s.number rtp).1.numbering =
    { s.numbering with cycles := s.numbering.cyclesAt rtp.seqNum.toNat } := rfl

theorem numbering_countPacket (size : Nat) : (s.countPacket rtp size).numbering =
    { s.numbering with extSeq := max s.numbering.extSeq rtp.extSeqNum } := by
  have h : ∀ m n : Nat, (if m < n then n else m) = max m n := fun m n => by
    rw [Nat.max_def]
    split <;> split <;> omega
  simp only [countPacket, numbering, h]

theorem numbering_accept (isRTX : Bool) (size sinceFPU : Nat) (reportDue : Bool) :
    (s.accept rtp isRTX size sinceFPU reportDue).1.numbering =
      { s.numbering with
        extSeq := if isRTX then s.numbering.extSeq else max s.numbering.extSeq rtp.extSeqNum } := by
  have hreport : ∀ t : Receiver,
      (if reportDue then t.sendSenderReport else t).numbering = t.numbering := by
    intro t
    cases reportDue with
    | false => rfl
    | true => exact numbering_sendSenderReport t
  rw [accept_def]
  beta_reduce
  have hlosses := numbering_countLosses s rtp sinceFPU
  cases hl : s.countLosses rtp sinceFPU with
  | mk t nacks =>
    rw [hl] at hlosses
    simp only [hreport, numbering_queue]
    cases isRTX with
    | true => exact hlosses
    | false =>
      have hpacket := numbering_countPacket t rtp size
      rw [hlosses] at hpacket
      exact hpacket

theorem numbering_accept_number (isRTX : Bool) (size sinceFPU : Nat) (reportDue : Bool) :
    ((s.number rtp).1.accept (s.number rtp).2 isRTX size sinceFPU reportDue).1.numbering =
      s.numbering.next rtp.seqNum.toNat isRTX := by
  rw [numbering_accept, numbering_number, extSeqNum_number, Numbering.next]

end Frame

/-- The packet is not refused: its type is known, it holds an original packet of a known type if it
is a retransmission, and the blocks of a redundant packet have known types. -/
def accepts (s : Receiver) (rtp : RTPTimedPacket) : Bool :=
  match s.route rtp with
  | (s, .ok (original, _)) => (s.checkRedundant original).isOk
  | (_, .error _) => false

theorem readRTP_eq {s s' : Receiver} {rtp original : RTPTimedPacket} {isRTX : Bool}
    (hroute : s.route rtp = (s', .ok (original, isRTX)))
    (hcheck : s'.checkRedundant original = .ok ()) (sinceFPU : Nat) (reportDue : Bool) :
    s.readRTP rtp sinceFPU reportDue =
      (((s'.number original).1.accept (s'.number original).2 isRTX rtp.size sinceFPU reportDue).1,
        .ok ((s'.number original).2,
          ((s'.number original).1.accept (s'.number original).2 isRTX rtp.size sinceFPU
            reportDue).2)) := by
  simp only [readRTP, hroute, hcheck]

theorem readRTP_of_route {s s' : Receiver} {rtp original : RTPTimedPacket} {isRTX : Bool}
    (hroute : s.route rtp = (s', .ok (original, isRTX))) (haccepts : s.accepts rtp = true)
    (sinceFPU : Nat) (reportDue : Bool) :
    ∃ t p nacks, s.readRTP rtp sinceFPU reportDue = (t, .ok (p, nacks)) ∧
      p.extSeqNum = s'.numbering.assign original.seqNum.toNat ∧
      t.numbering = s'.numbering.next original.seqNum.toNat isRTX := by
  simp only [accepts, hroute] at haccepts
  cases hcheck : s'.checkRedundant original with
  | error e =>
    simp only [hcheck] at haccepts
    cases haccepts
  | ok u =>
    exact ⟨_, _, _, readRTP_eq hroute hcheck sinceFPU reportDue, extSeqNum_number s' original,
      numbering_accept_number ..⟩

theorem readRTP_of_refused {s : Receiver} {rtp : RTPTimedPacket} (h : s.accepts rtp = false)
    (sinceFPU : Nat) (reportDue : Bool) :
    ∃ e, s.readRTP rtp sinceFPU reportDue = ((s.route rtp).1, .error e) := by
  cases hroute : s.route rtp with
  | mk t result =>
    simp only [accepts, hroute] at h
    cases result with
    | error e =>
      simp only [readRTP, hroute]
      exact ⟨e, rfl⟩
    | ok original =>
      obtain ⟨original, isRTX⟩ := original
      cases hred : t.checkRedundant original with
      | error e =>
        simp only [readRTP, hroute, hred]
        exact ⟨e, rfl⟩
      | ok u =>
        simp only [hred] at h
        cases h

theorem route_media {s : Receiver} {rtp : RTPTimedPacket}
    (hcodec : s.rtpMapIn.getCodecForType rtp.type ≠ codecRTX) :
    ((s.route rtp).1.numbering = s.numbering ∧ s.accepts rtp = false) ∨
      ∃ s' original, s.route rtp = (s', .ok (original, false)) ∧
        s'.numbering = s.numbering.follow rtp.ssrc ∧ original.seqNum = rtp.seqNum := by
  by_cases hfound : s.rtpMapIn.getCodecForType rtp.type = RTPMap.notFound
  · have hroute : s.route rtp = (s, .error .error) := by
      simp only [route, hfound, if_true]
    rw [accepts, hroute]
    exact .inl ⟨rfl, rfl⟩
  · right
    rw [route, if_neg hfound]
    by_cases hssrc : s.recv.ssrc = rtp.ssrc
    · rw [if_neg (by simp [hssrc])]
      exact ⟨_, _, rfl, by simp only [numbering, Numbering.follow, hssrc, if_true], rfl⟩
    · rw [if_pos hssrc, if_pos hcodec]
      exact ⟨_, _, rfl, by simp only [numbering, Numbering.follow, hssrc, if_false], rfl⟩

theorem route_rtx {s : Receiver} {rtp : RTPTimedPacket} {osn : Nat}
    (hcodec : s.rtpMapIn.getCodecForType rtp.type = codecRTX) (hssrc : s.recv.ssrc ≠ rtp.ssrc)
    (hosn : get2 rtp.payload 0 = some osn) :
    (s.route rtp).1.numbering = s.numbering ∧
      (s.accepts rtp = false ∨
        ∃ s' original, s.route rtp = (s', .ok (original, true)) ∧ s'.numbering = s.numbering ∧
          original.seqNum.toNat = osn) := by
  have hlt := get2_lt hosn
  have hfound : codecRTX ≠ RTPMap.notFound := by decide
  rw [accepts]
  unfold route
  rw [hcodec, if_neg hfound, if_pos hssrc, if_neg (by simp), hosn]
  dsimp only
  split
  · exact ⟨rfl, .inl rfl⟩
  · refine ⟨rfl, .inr ⟨_, _, rfl, rfl, ?_⟩⟩
    rw [UInt16.toNat_ofNat', Nat.mod_eq_of_lt hlt]

namespace Numbering

variable (n : Numbering) (ssrc : UInt32)

theorem follow_of_eq (h : n.ssrc = ssrc) : n.follow ssrc = n := if_pos h

@[simp]
theorem follow_ssrc : (n.follow ssrc).ssrc = ssrc := by
  unfold follow
  split
  case isTrue h => exact h
  case isFalse => rfl

@[simp]
theorem follow_follow : (n.follow ssrc).follow ssrc = n.follow ssrc :=
  follow_of_eq _ _ (follow_ssrc n ssrc)

@[simp]
theorem follow_rtpMapIn : (n.follow ssrc).rtpMapIn = n.rtpMapIn := by
  unfold follow
  split <;> rfl

theorem wraps_iff {extSeq seq : Nat} :
    wraps extSeq seq = true ↔ seq < 0x0FFF ∧ 0xF000 < extSeq % 2 ^ 16 := by
  simp only [wraps, Bool.and_eq_true, decide_eq_true_eq]

/-- The cycles are those of the highest number. -/
structure Coherent (n : Numbering) : Prop where
  cycles_eq : n.cycles = n.extSeq / 2 ^ 16
  extSeq_lt : n.extSeq < 2 ^ 32

section Coherent

variable {n : Numbering} {e : Nat}

theorem Coherent.cyclesAt_eq (h : n.Coherent) :
    n.cyclesAt (e % 2 ^ 16) =
      n.extSeq / 2 ^ 16 + if wraps n.extSeq (e % 2 ^ 16) then 1 else 0 := by
  have hlt := h.extSeq_lt
  rw [cyclesAt, h.cycles_eq]
  split <;> omega

theorem Coherent.assign_eq_iff (h : n.Coherent)
    (hreach : n.extSeq = 0 ∨ n.extSeq < e + 2 ^ 16 ∧ e < n.extSeq + 2 ^ 16) :
    n.assign (e % 2 ^ 16) = e ↔ e < 2 ^ 32 ∧
      e / 2 ^ 16 = n.extSeq / 2 ^ 16 + if wraps n.extSeq (e % 2 ^ 16) then 1 else 0 := by
  have hlt := h.extSeq_lt
  rw [assign, h.cyclesAt_eq]
  cases hwrap : wraps n.extSeq (e % 2 ^ 16) with
  | false =>
    simp only [Bool.false_eq_true, if_false]
    omega
  | true =>
    -- the packet is above the highest number, so its cycle is not the one after the last
    obtain ⟨hlow, hhigh⟩ := wraps_iff.1 hwrap
    simp only [if_true]
    omega

theorem Coherent.next (h : n.Coherent) (he : e < 2 ^ 32)
    (hcycle : e / 2 ^ 16 = n.extSeq / 2 ^ 16 + if wraps n.extSeq (e % 2 ^ 16) then 1 else 0)
    (hassign : n.assign (e % 2 ^ 16) = e) : (n.next (e % 2 ^ 16) false).Coherent := by
  have hlt := h.extSeq_lt
  have hext : (n.next (e % 2 ^ 16) false).extSeq = max n.extSeq e := by
    rw [Numbering.next, hassign]
    rfl
  refine ⟨?_, by omega⟩
  rw [hext]
  change n.cyclesAt (e % 2 ^ 16) = _
  rw [h.cyclesAt_eq, ← hcycle]
  cases hwrap : wraps n.extSeq (e % 2 ^ 16) with
  | false =>
    simp only [hwrap, Bool.false_eq_true, if_false] at hcycle
    omega
  | true =>
    simp only [hwrap, if_true] at hcycle
    omega

theorem Coherent.assign_eq_and_le_iff (h : n.Coherent)
    (hreach : n.extSeq = 0 ∨ n.extSeq < e + 2 ^ 16 ∧ e < n.extSeq + 2 ^ 16) :
    n.assign (e % 2 ^ 16) = e ∧ e ≤ n.extSeq ↔
      wraps n.extSeq (e % 2 ^ 16) = false ∧ e / 2 ^ 16 = n.extSeq / 2 ^ 16 ∧ e ≤ n.extSeq := by
  have hlt := h.extSeq_lt
  rw [h.assign_eq_iff hreach]
  cases hwrap : wraps n.extSeq (e % 2 ^ 16) with
  | false =>
    simp only [Bool.false_eq_true, if_false, true_and]
    omega
  | true =>
    simp only [if_true, Bool.true_eq_false, false_and, iff_false]
    omega

theorem Coherent.next_rtx (h : n.Coherent)
    (hwrap : wraps n.extSeq (e % 2 ^ 16) = false) : (n.next (e % 2 ^ 16) true).Coherent := by
  refine ⟨?_, h.extSeq_lt⟩
  change n.cyclesAt (e % 2 ^ 16) = n.extSeq / 2 ^ 16
  rw [h.cyclesAt_eq, hwrap]
  rfl

end Coherent

end Numbering

end Receiver

/-- A packet that arrives from a stream: a packet of the stream itself, with the low bits of its
position as its number, or a retransmission, which has them at the start of its payload. -/
structure Arrival (ssrc : UInt32) (rtpMapIn : RTPMap) where
  /-- The true position of the packet in the stream. -/
  index : Nat
  rtp : RTPTimedPacket
  isRTX : Bool
  /-- Time since an intra frame was requested. -/
  sinceFPU : Nat := 0
  /-- A sender report is due. -/
  reportDue : Bool := false
  carries :
    if isRTX then
      rtp.ssrc ≠ ssrc ∧ rtpMapIn.getCodecForType rtp.type = codecRTX ∧
        get2 rtp.payload 0 = some (index % 2 ^ 16)
    else
      rtp.ssrc = ssrc ∧ rtpMapIn.getCodecForType rtp.type ≠ codecRTX ∧
        rtp.seqNum.toNat = index % 2 ^ 16

/-- A session that receives a stream, with the true position and the assigned number of every
packet so far. -/
structure Reception where
  receiver : Receiver
  assigned : List (Nat × Nat) := []

namespace Reception

variable {ssrc : UInt32} {rtpMapIn : RTPMap}

def step (r : Reception) (a : Arrival ssrc rtpMapIn) : Reception :=
  match r.receiver.readRTP a.rtp a.sinceFPU a.reportDue with
  | (s, .ok (p, _)) => { receiver := s, assigned := r.assigned ++ [(a.index, p.extSeqNum)] }
  | (s, .error _) => { r with receiver := s }

/-- Every packet was given its true position, and the session keeps the highest one. -/
structure Numbered (r : Reception) : Prop where
  index_eq : ∀ x ∈ r.assigned, x.2 = x.1
  le_extSeq : ∀ x ∈ r.assigned, x.2 ≤ r.receiver.recv.extSeq
  extSeq_mem : r.assigned ≠ [] → ∃ x ∈ r.assigned, x.2 = r.receiver.recv.extSeq

/-- The highest number when the next packet of the stream arrives. -/
def highest (r : Reception) (ssrc : UInt32) : Nat :=
  (r.receiver.numbering.follow ssrc).extSeq

/-- The arrival is out of place by less than a cycle, and a retransmission arrives while the session
follows the stream it belongs to. -/
def InReach (r : Reception) (a : Arrival ssrc rtpMapIn) : Prop :=
  (a.isRTX = true → r.receiver.recv.ssrc = ssrc) ∧
    (r.assigned ≠ [] → r.highest ssrc < a.index + 2 ^ 16 ∧ a.index < r.highest ssrc + 2 ^ 16)

/-- The arrival is in the cycle the session takes it to be in, which is the one of the highest
number, or the next one when the numbers wrap. A retransmission is neither where the numbers wrap
nor above the highest number. -/
def InCycle (r : Reception) (a : Arrival ssrc rtpMapIn) : Prop :=
  r.receiver.accepts a.rtp = true →
    if a.isRTX then
      Receiver.wraps (r.highest ssrc) (a.index % 2 ^ 16) = false ∧
        a.index / 2 ^ 16 = r.highest ssrc / 2 ^ 16 ∧ a.index ≤ r.highest ssrc
    else
      a.index < 2 ^ 32 ∧ a.index / 2 ^ 16 = r.highest ssrc / 2 ^ 16 +
        if Receiver.wraps (r.highest ssrc) (a.index % 2 ^ 16) then 1 else 0

instance (r : Reception) (a : Arrival ssrc rtpMapIn) : Decidable (r.InReach a) :=
  inferInstanceAs (Decidable (_ ∧ _))

instance (r : Reception) (a : Arrival ssrc rtpMapIn) : Decidable (r.InCycle a) :=
  inferInstanceAs (Decidable (_ → _))

/-- What holds of a reception besides its numbers being right. -/
structure Inv (ssrc : UInt32) (rtpMapIn : RTPMap) (r : Reception) : Prop where
  rtpMapIn_eq : r.receiver.rtpMapIn = rtpMapIn
  coherent : (r.receiver.numbering.follow ssrc).Coherent
  highest_eq : r.assigned = [] → r.highest ssrc = 0
  follows : r.assigned ≠ [] → r.receiver.recv.ssrc = ssrc

variable {r' : Reception}

section Step

variable {r : Reception} {a : Arrival ssrc rtpMapIn}

theorem route_cases (hI : Inv ssrc rtpMapIn r) (hreach : r.InReach a) :
    (r.receiver.accepts a.rtp = false ∧
      ((r.receiver.route a.rtp).1.numbering = r.receiver.numbering ∨
        (r.receiver.route a.rtp).1.numbering = r.receiver.numbering.follow ssrc)) ∨
    (r.receiver.accepts a.rtp = true ∧ ∃ s' original,
      r.receiver.route a.rtp = (s', .ok (original, a.isRTX)) ∧
      s'.numbering = r.receiver.numbering.follow ssrc ∧
      original.seqNum.toNat = a.index % 2 ^ 16) := by
  have hcarries := a.carries
  cases hrtx : a.isRTX with
  | true =>
    rw [hrtx, if_pos rfl] at hcarries
    obtain ⟨hne, hcodec, hosn⟩ := hcarries
    have hcodec : r.receiver.rtpMapIn.getCodecForType a.rtp.type = codecRTX := by
      rw [hI.rtpMapIn_eq, hcodec]
    have hssrc : r.receiver.numbering.ssrc = ssrc := hreach.1 hrtx
    have hdiff : r.receiver.recv.ssrc ≠ a.rtp.ssrc := fun h => hne (h.symm.trans hssrc)
    obtain ⟨hroute, hrest⟩ := Receiver.route_rtx hcodec hdiff hosn
    rw [Receiver.Numbering.follow_of_eq _ _ hssrc]
    cases haccepts : r.receiver.accepts a.rtp with
    | false => exact .inl ⟨rfl, .inl hroute⟩
    | true =>
      rcases hrest with hrefused | hrest
      · rw [haccepts] at hrefused
        cases hrefused
      · exact .inr ⟨rfl, hrest⟩
  | false =>
    rw [hrtx, if_neg (by simp)] at hcarries
    obtain ⟨hssrc, hcodec, hseq⟩ := hcarries
    have hcodec : r.receiver.rtpMapIn.getCodecForType a.rtp.type ≠ codecRTX := by
      rwa [hI.rtpMapIn_eq]
    rcases Receiver.route_media hcodec with ⟨hroute, hrefused⟩ | ⟨s', original, hroute, hs', heq⟩
    · exact .inl ⟨hrefused, .inl hroute⟩
    · rw [hssrc] at hs'
      cases haccepts : r.receiver.accepts a.rtp with
      | false =>
        rw [hroute]
        exact .inl ⟨rfl, .inr hs'⟩
      | true => exact .inr ⟨rfl, s', original, hroute, hs', by rw [heq, hseq]⟩

theorem step_cases (hI : Inv ssrc rtpMapIn r) (hreach : r.InReach a) :
    (r.receiver.accepts a.rtp = false ∧ (r.step a).assigned = r.assigned ∧
      ((r.step a).receiver.numbering = r.receiver.numbering ∨
        (r.step a).receiver.numbering = r.receiver.numbering.follow ssrc)) ∨
    (r.receiver.accepts a.rtp = true ∧
      (r.step a).assigned = r.assigned ++
        [(a.index, (r.receiver.numbering.follow ssrc).assign (a.index % 2 ^ 16))] ∧
      (r.step a).receiver.numbering =
        (r.receiver.numbering.follow ssrc).next (a.index % 2 ^ 16) a.isRTX) := by
  rcases route_cases hI hreach with ⟨hrefused, hroute⟩ | ⟨haccepts, s', original, hroute, hs', hseq⟩
  · obtain ⟨e, hread⟩ := Receiver.readRTP_of_refused hrefused a.sinceFPU a.reportDue
    rw [step, hread]
    exact .inl ⟨hrefused, rfl, hroute⟩
  · obtain ⟨t, p, nacks, hread, hp, ht⟩ :=
      Receiver.readRTP_of_route hroute haccepts a.sinceFPU a.reportDue
    rw [hs', hseq] at hp ht
    rw [step, hread]
    exact .inr ⟨haccepts, by rw [← hp], ht⟩

theorem inv_of_refused (hI : Inv ssrc rtpMapIn r) (hassigned : r'.assigned = r.assigned)
    (hnumbering : r'.receiver.numbering = r.receiver.numbering ∨
      r'.receiver.numbering = r.receiver.numbering.follow ssrc) : Inv ssrc rtpMapIn r' := by
  have hfollow : r'.receiver.numbering.follow ssrc = r.receiver.numbering.follow ssrc := by
    rcases hnumbering with h | h
    · rw [h]
    · rw [h, Receiver.Numbering.follow_follow]
  have hmap : r'.receiver.numbering.rtpMapIn = r.receiver.numbering.rtpMapIn := by
    rcases hnumbering with h | h
    · rw [h]
    · rw [h, Receiver.Numbering.follow_rtpMapIn]
  refine ⟨hmap.trans hI.rtpMapIn_eq, ?_, ?_, ?_⟩
  · rw [hfollow]
    exact hI.coherent
  · intro hnil
    rw [highest, hfollow]
    exact hI.highest_eq (hassigned ▸ hnil)
  · intro hcons
    have hssrc : r.receiver.numbering.ssrc = ssrc := hI.follows (hassigned ▸ hcons)
    change r'.receiver.numbering.ssrc = ssrc
    rcases hnumbering with h | h
    · rw [h, hssrc]
    · rw [h, Receiver.Numbering.follow_ssrc]

theorem numbered_of_refused (hI : Inv ssrc rtpMapIn r) (hnum : r.Numbered)
    (hassigned : r'.assigned = r.assigned)
    (hnumbering : r'.receiver.numbering = r.receiver.numbering ∨
      r'.receiver.numbering = r.receiver.numbering.follow ssrc) : r'.Numbered := by
  have hextSeq : r.assigned ≠ [] → r'.receiver.recv.extSeq = r.receiver.recv.extSeq := by
    intro hcons
    have hssrc : r.receiver.numbering.ssrc = ssrc := hI.follows hcons
    change r'.receiver.numbering.extSeq = r.receiver.numbering.extSeq
    rcases hnumbering with h | h
    · rw [h]
    · rw [h, Receiver.Numbering.follow_of_eq _ _ hssrc]
  refine ⟨?_, ?_, ?_⟩
  · rw [hassigned]
    exact hnum.index_eq
  · intro x hx
    rw [hassigned] at hx
    rw [hextSeq (List.ne_nil_of_mem hx)]
    exact hnum.le_extSeq x hx
  · intro hcons
    rw [hassigned] at hcons ⊢
    rw [hextSeq hcons]
    exact hnum.extSeq_mem hcons

theorem highest_eq_extSeq (hI : Inv ssrc rtpMapIn r) (h : r.assigned ≠ []) :
    r.highest ssrc = r.receiver.recv.extSeq := by
  rw [highest, Receiver.Numbering.follow_of_eq _ _ (hI.follows h)]

theorem numbered_concat_iff (hI : Inv ssrc rtpMapIn r) (hnum : r.Numbered)
    {e v : Nat} (hassigned : r'.assigned = r.assigned ++ [(e, v)])
    (hextSeq : r'.receiver.recv.extSeq = r.highest ssrc ∨
      r'.receiver.recv.extSeq = max (r.highest ssrc) v) :
    r'.Numbered ↔ v = e ∧ v ≤ r'.receiver.recv.extSeq := by
  have hlast : (e, v) ∈ r'.assigned := by
    rw [hassigned]
    exact List.mem_append_right _ (List.mem_singleton.2 rfl)
  constructor
  · intro h
    exact ⟨h.index_eq _ hlast, h.le_extSeq _ hlast⟩
  · intro h
    obtain ⟨hv, hle⟩ := h
    refine ⟨?_, ?_, ?_⟩
    · intro x hx
      rw [hassigned] at hx
      rcases List.mem_append.1 hx with hx | hx
      · exact hnum.index_eq x hx
      · rw [List.mem_singleton.1 hx]
        exact hv
    · intro x hx
      rw [hassigned] at hx
      rcases List.mem_append.1 hx with hx | hx
      · have hx' := hnum.le_extSeq x hx
        rw [← highest_eq_extSeq hI (List.ne_nil_of_mem hx)] at hx'
        omega
      · rw [List.mem_singleton.1 hx]
        exact hle
    · intro _
      by_cases heq : r'.receiver.recv.extSeq = v
      · exact ⟨(e, v), hlast, heq.symm⟩
      · have hhighest : r'.receiver.recv.extSeq = r.highest ssrc := by omega
        have hcons : r.assigned ≠ [] := by
          intro hnil
          have hzero := hI.highest_eq hnil
          omega
        obtain ⟨x, hx, hxeq⟩ := hnum.extSeq_mem hcons
        rw [← highest_eq_extSeq hI hcons] at hxeq
        refine ⟨x, ?_, hxeq.trans hhighest.symm⟩
        rw [hassigned]
        exact List.mem_append_left _ hx

theorem inv_of_accepted (hI : Inv ssrc rtpMapIn r) {seq : Nat} {isRTX : Bool}
    (hassigned : r'.assigned ≠ [])
    (hnumbering : r'.receiver.numbering = (r.receiver.numbering.follow ssrc).next seq isRTX)
    (hcoherent : ((r.receiver.numbering.follow ssrc).next seq isRTX).Coherent) :
    Inv ssrc rtpMapIn r' := by
  have hssrc : r'.receiver.numbering.ssrc = ssrc := by
    rw [hnumbering]
    exact Receiver.Numbering.follow_ssrc _ _
  have hmap : r'.receiver.numbering.rtpMapIn = r.receiver.numbering.rtpMapIn := by
    rw [hnumbering]
    exact Receiver.Numbering.follow_rtpMapIn _ _
  refine ⟨hmap.trans hI.rtpMapIn_eq, ?_, fun hnil => absurd hnil hassigned, fun _ => hssrc⟩
  rw [Receiver.Numbering.follow_of_eq _ _ hssrc, hnumbering]
  exact hcoherent

/-- **Step lemma.** An arrival within reach is given its true position and the highest number is
kept exactly if it is in cycle, and then the invariant is kept. -/
theorem step_numbered (hI : Inv ssrc rtpMapIn r) (hnum : r.Numbered) (hreach : r.InReach a) :
    ((r.step a).Numbered ↔ r.InCycle a) ∧ (r.InCycle a → Inv ssrc rtpMapIn (r.step a)) := by
  rcases step_cases hI hreach with ⟨hrefused, hassigned, hnumbering⟩ |
    ⟨haccepts, hassigned, hnumbering⟩
  · have hcycle : r.InCycle a := by
      rw [InCycle, hrefused]
      intro h
      cases h
    exact ⟨iff_of_true (numbered_of_refused hI hnum hassigned hnumbering) hcycle,
      fun _ => inv_of_refused hI hassigned hnumbering⟩
  · have hnear : r.highest ssrc = 0 ∨
        r.highest ssrc < a.index + 2 ^ 16 ∧ a.index < r.highest ssrc + 2 ^ 16 := by
      by_cases hnil : r.assigned = []
      · exact .inl (hI.highest_eq hnil)
      · exact .inr (hreach.2 hnil)
    have hcons : (r.step a).assigned ≠ [] := by
      rw [hassigned]
      exact List.append_ne_nil_of_right_ne_nil _ (List.cons_ne_nil _ _)
    have hextSeq : (r.step a).receiver.recv.extSeq =
        ((r.receiver.numbering.follow ssrc).next (a.index % 2 ^ 16) a.isRTX).extSeq := by
      rw [← hnumbering]
    have hconcat := fun h => numbered_concat_iff hI hnum hassigned h
    have hcycle : r.InCycle a ↔
        if a.isRTX then
          Receiver.wraps (r.highest ssrc) (a.index % 2 ^ 16) = false ∧
            a.index / 2 ^ 16 = r.highest ssrc / 2 ^ 16 ∧ a.index ≤ r.highest ssrc
        else
          a.index < 2 ^ 32 ∧ a.index / 2 ^ 16 = r.highest ssrc / 2 ^ 16 +
            if Receiver.wraps (r.highest ssrc) (a.index % 2 ^ 16) then 1 else 0 := by
      rw [InCycle, haccepts]
      exact forall_prop_of_true rfl
    rw [hcycle]
    cases hrtx : a.isRTX with
    | true =>
      rw [hrtx] at hextSeq hnumbering
      have hkeep : (r.step a).receiver.recv.extSeq = r.highest ssrc := hextSeq
      rw [hconcat (.inl hkeep), hkeep, if_pos rfl]
      refine ⟨?_, ?_⟩
      · refine Iff.trans ?_ (hI.coherent.assign_eq_and_le_iff hnear)
        exact and_congr_right fun h => by rw [h]; rfl
      · intro h
        exact inv_of_accepted hI hcons hnumbering (hI.coherent.next_rtx h.1)
    | false =>
      rw [hrtx] at hextSeq hnumbering
      have hmax : (r.step a).receiver.recv.extSeq = max (r.highest ssrc)
          ((r.receiver.numbering.follow ssrc).assign (a.index % 2 ^ 16)) := hextSeq
      have hassign := hI.coherent.assign_eq_iff hnear
      rw [hconcat (.inr hmax), hmax, if_neg (by simp)]
      refine ⟨?_, ?_⟩
      · rw [and_iff_left (Nat.le_max_right _ _)]
        exact hassign
      · intro h
        exact inv_of_accepted hI hcons hnumbering (hI.coherent.next h.1 h.2 (hassign.2 h))

end Step

/-- **Numbering.** A session that does not know a stream yet receives packets of it, each out of
place by less than a cycle. Then at every point of the run all packets have their true positions as
numbers, and the session keeps the highest one, exactly if every arrival is in cycle. -/
theorem numbered_iff_inCycle (s : Receiver) (hssrc : s.recv.ssrc ≠ ssrc)
    (arrivals : List (Arrival ssrc s.rtpMapIn))
    (hreach : Meets step InReach { receiver := s } arrivals) :
    (∀ arrived, arrived <+: arrivals → Numbered (run step { receiver := s } arrived)) ↔
      Meets step InCycle { receiver := s } arrivals := by
  have hfollow : s.numbering.follow ssrc =
      { ssrc := ssrc, extSeq := 0, cycles := 0, rtpMapIn := s.rtpMapIn } := if_neg hssrc
  have hinit : Inv ssrc s.rtpMapIn { receiver := s } := by
    refine ⟨rfl, ?_, fun _ => ?_, fun hcons => absurd rfl hcons⟩
    · rw [hfollow]
      exact ⟨(Nat.zero_div _).symm, Nat.two_pow_pos 32⟩
    · rw [highest, hfollow]
  have hnum : Numbered { receiver := s } :=
    ⟨fun _ hx => absurd hx List.not_mem_nil, fun _ hx => absurd hx List.not_mem_nil,
      fun hcons => absurd rfl hcons⟩
  exact forall_prefix_iff_meets_within (I := fun _ r => Inv ssrc s.rtpMapIn r)
    (P := fun _ r => Numbered r) hinit hnum
    (fun as a hI hP hD => (step_numbered hI hP hD).2)
    (fun as a hI hP hD => (step_numbered hI hP hD).1) arrivals hreach

/-- A session that takes type 96 for H264 and type 97 for retransmissions, for examples. -/
def videoSession : Receiver where
  recv := { ssrc := 0, extSeq := 0 }
  rtxSSRC := 0
  rtxApt := 0
  rtpMapIn := (({} : RTPMap).insert 96 99).insert 97 codecRTX

/-- A packet of stream 1 with its position and no content, for examples. -/
def videoPacket (index : Nat) : Arrival 1 videoSession.rtpMapIn where
  index := index
  rtp := .numbered index 1
  isRTX := false
  carries :=
    have hcodec : videoSession.rtpMapIn.getCodecForType 96 ≠ codecRTX := by decide
    ⟨rfl, hcodec, UInt16.toNat_ofNat'⟩

/-- The retransmission of such a packet, for examples. -/
def videoRTX (index : Nat) : Arrival 1 videoSession.rtpMapIn where
  index := index
  rtp := { RTPTimedPacket.numbered 0 1 with
    ssrc := 2, type := 97, payload := be2 index ++ [0] }
  isRTX := true
  carries :=
    have hcodec : videoSession.rtpMapIn.getCodecForType 97 = codecRTX := by decide
    have hssrc : (2 : UInt32) ≠ 1 := by decide
    ⟨hssrc, hcodec, get2_be2 index⟩

/-- Packets around the end of a cycle, one of them retransmitted and two in the wrong order. -/
theorem numbered_around_wrap :
    Numbered (run step { receiver := videoSession } [videoPacket 65533, videoPacket 65535,
      videoRTX 65534, videoPacket 65537, videoPacket 65536]) :=
  (numbered_iff_inCycle videoSession (by decide) _ (by decide)).2 (by decide) _
    (List.prefix_refl _)

/-- A packet from before the end of a cycle that arrives after one from the next cycle. -/
theorem not_numbered_late :
    Meets step InReach { receiver := videoSession }
        [videoPacket 65535, videoPacket 65537, videoPacket 65534] ∧
      ¬ Numbered (run step { receiver := videoSession }
        [videoPacket 65535, videoPacket 65537, videoPacket 65534]) := by
  refine ⟨by decide, ?_⟩
  intro h
  have hindex := h.index_eq
  revert hindex
  decide

end Reception

end McuMediaServer
