import McuMediaServer.Base.Bytes
import McuMediaServer.Base.OrderedMap
import McuMediaServer.Base.Run
import McuMediaServer.Rtp.Packet

/-!
# Sending RTP packets and sending them again

`RTPSession::SendPacket` numbers a packet, keeps a copy of it for retransmissions when the peer may
ask for them, and drops the copies that are too old; `RTPSession::ReSendPacket` looks a copy up by
the 16-bit number the peer asks for. The number on the wire is the low half of a 32-bit counter that
starts at random, and the copies are kept under that half with the cycles of the *whole* counter in
front of it.

`resends_of_withinCycle` says that this is consistent as long as the low half of the counter does
not wrap: the copies are kept under increasing numbers, and what is asked for is sent again.
-/

namespace McuMediaServer

open ByteSeq StepRun

/-- Largest datagram. Reference: `config.h:41`. -/
def mtu : Nat := 1500

/-- What a session counts about a source it sends. Reference: `rtp.h:1632`, `RTPSource`, and
`rtp.h:1698`, `RTPOutgoingSource`. -/
structure RTPOutgoingSource where
  ssrc : UInt32
  /-- The number of the next packet, a 32-bit counter. -/
  extSeq : Nat
  /-- How often the counter wrapped, 32 bits. -/
  cycles : Nat := 0
  numPackets : UInt32 := 0
  totalBytes : UInt32 := 0
  time : UInt32
  lastTime : UInt32

/-- Take the next number, and count a cycle when the counter wraps. Reference:
`rtpsession.cpp:980`. -/
def RTPOutgoingSource.next (o : RTPOutgoingSource) : RTPOutgoingSource :=
  let extSeq := (o.extSeq + 1) % 2 ^ 32
  { o with
    extSeq := extSeq
    cycles := if extSeq = 0 then (o.cycles + 1) % 2 ^ 32 else o.cycles }

/-- The sending half of a session. Reference: `rtpsession.h:141`, class `RTPSession`. -/
structure Sender where
  send : RTPOutgoingSource
  /-- The source of the retransmissions. -/
  sendRTX : RTPOutgoingSource
  /-- The payload type of the codec that is sent. -/
  sendType : UInt8
  /-- The payload type of retransmissions, `rtpMapOut->GetTypeForCodec(VideoCodec::RTX)`. -/
  rtxType : UInt8
  /-- The number of the extension with the time of sending. -/
  absSendTimeType : UInt8 := 0
  useNACK : Bool
  useRTX : Bool
  useAbsTime : Bool := false
  /-- Round trip time, in milliseconds. -/
  rtt : Nat := 0
  /-- The copies kept for retransmissions, by extended number. -/
  rtxs : Std.TreeMap Nat RTPTimedPacket := {}

/-- What a call finds outside the session. -/
structure SendEnv where
  /-- The address of the peer is known. -/
  reachable : Bool := true
  /-- The packet is sent as it is, or its encryption succeeds. -/
  protects : Bool := true
  /-- The time in milliseconds at the start of the call. -/
  now : Nat
  /-- The time in milliseconds at its end. -/
  later : Nat := now

/-- What a call to `SendPacket` stores and sends. -/
structure SendResult where
  stored : Option (Nat × RTPTimedPacket) := none
  wire : Option RTPTimedPacket := none

/-- What a call to `ReSendPacket` ends with. -/
inductive ReSendResult where
  /-- There is no copy: an intra frame is requested instead. -/
  | notFound
  | tooLong
  | notProtected
  | resent (packet : RTPTimedPacket)

/-- The time of sending, 6.18 fixed point seconds. Reference: `rtpsession.cpp:1008`. -/
def absSendTime (now : Nat) : List UInt8 :=
  be3 (now * 2 ^ 18 % 2 ^ 64 / 1000 % 2 ^ 24)

namespace Sender

/-- The header extension of the packets that are sent. Reference: `rtpsession.cpp:994`. -/
def extension (s : Sender) (now : Nat) : List UInt8 :=
  if s.useAbsTime then
    be2 0xBEDE ++ be2 1 ++ [(s.absSendTimeType <<< 4) ||| 0x02] ++ absSendTime now
  else
    []

/-- The packet as it is stored and sent; `s` is the session before it is numbered. Reference:
`rtpsession.cpp:966`. -/
def buildPacket (s : Sender) (packet : RTPPacket) (timestamp : UInt32) (now : Nat) :
    RTPTimedPacket where
  ssrc := s.send.ssrc
  type := s.sendType
  mark := packet.mark
  seqNum := .ofNat s.send.extSeq
  timestamp := s.send.time + timestamp
  extension := s.extension now
  payload := packet.payload
  cycles := .ofNat s.send.next.cycles
  time := .ofNat now

/-- Number the packet. Reference: `rtpsession.cpp:974`. -/
def countNumber (s : Sender) (timestamp : UInt32) : Sender :=
  { s with send := { s.send.next with lastTime := s.send.time + timestamp } }

/-- Keep a copy of a packet. Reference: `rtpsession.cpp:1031`. -/
def store (s : Sender) (rtx : RTPTimedPacket) : Sender :=
  if s.useNACK then { s with rtxs := s.rtxs.insert rtx.extSeqNum rtx } else s

/-- Count a packet that could be sent. Reference: `rtpsession.cpp:1069`. -/
def countSent (s : Sender) (protects : Bool) (mediaLength : Nat) : Sender :=
  if protects then
    { s with send := { s.send with
        numPackets := s.send.numPackets + 1
        totalBytes := s.send.totalBytes + .ofNat mediaLength } }
  else
    s

/-- The copies sent up to this time are dropped: between 200 and 500 milliseconds ago, by the round
trip time. Reference: `rtpsession.cpp:1079`. -/
def keepUntil (s : Sender) (now : Nat) : Nat :=
  now - (200 + min (s.rtt * 2 % 2 ^ 32) 300)

/-- Drop the old copies, up to the first one that is not old. Reference: `rtpsession.cpp:1081`. -/
def discardOld (s : Sender) (time : Nat) : Sender :=
  let old := s.rtxs.toList.takeWhile fun entry => entry.2.time.toNat ≤ time
  { s with rtxs := old.foldl (fun rtxs entry => rtxs.erase entry.1) s.rtxs }

/-- The length of the headers and of the media data of a packet that is sent. Reference:
`rtpsession.cpp:991`. -/
def sendLength (s : Sender) (packet : RTPPacket) : Nat :=
  12 + (if s.useAbsTime then 8 else 0) + packet.mediaLength

/-- Send a packet. Reference: `rtpsession.cpp:909`, `SendPacket`. -/
def sendPacket (s : Sender) (packet : RTPPacket) (timestamp : UInt32) (env : SendEnv) :
    Sender × SendResult :=
  if env.reachable = false then
    (s, {})
  else
    let rtx := s.buildPacket packet timestamp env.now
    let numbered := s.countNumber timestamp
    if mtu < s.sendLength packet then
      (numbered, {})
    else
      let stored := numbered.store rtx
      let sent := stored.countSent env.protects packet.mediaLength
      (sent.discardOld (sent.keepUntil env.later), {
        stored := if s.useNACK then some (rtx.extSeqNum, rtx) else none
        wire := if env.protects then some rtx else none })

/-- A copy as it is sent again: the time of sending is brought up to date, and a retransmission goes
to the other source with its original number in front. Reference: `rtpsession.cpp:2373`. -/
def retransmission (s : Sender) (packet : RTPTimedPacket) (seq now : Nat) : RTPTimedPacket :=
  let packet :=
    if s.useAbsTime then
      { packet with extension := packet.extension.take 5 ++ absSendTime now }
    else
      packet
  if s.useRTX then
    { packet with
      ssrc := s.sendRTX.ssrc
      type := s.rtxType
      seqNum := .ofNat s.sendRTX.extSeq
      payload := be2 seq ++ packet.payload }
  else
    packet

/-- Reference: `rtpsession.cpp:2390`. -/
def countRTX (s : Sender) (mediaLength : Nat) : Sender :=
  if s.useRTX then
    { s with sendRTX := { s.sendRTX.next with
        numPackets := s.sendRTX.numPackets + 1
        totalBytes := s.sendRTX.totalBytes + .ofNat (mediaLength + 2) } }
  else
    s

/-- Send the copy of a packet again. Reference: `rtpsession.cpp:2346`, `ReSendPacket`. -/
def reSendPacket (s : Sender) (seq : Nat) (env : SendEnv) : Sender × ReSendResult :=
  match s.rtxs[(s.send.cycles * 2 ^ 16 % 2 ^ 32) ||| seq]? with
  | none => (s, .notFound)
  | some packet =>
    if mtu < packet.size + 2 then
      (s, .tooLong)
    else
      (s.countRTX packet.mediaLength,
        if env.protects then .resent (s.retransmission packet seq env.now) else .notProtected)

/-! ### What the calls leave unchanged -/

section Frame

variable (s : Sender)

theorem getElem?_of_discardOld {time k : Nat} {p : RTPTimedPacket}
    (h : (s.discardOld time).rtxs[k]? = some p) : s.rtxs[k]? = some p := by
  have herase : ∀ (old : List (Nat × RTPTimedPacket)) (rtxs : Std.TreeMap Nat RTPTimedPacket),
      (old.foldl (fun rtxs entry => rtxs.erase entry.1) rtxs)[k]? = some p →
        rtxs[k]? = some p := by
    intro old
    induction old with
    | nil => exact fun _ h => h
    | cons entry old ih =>
      intro rtxs hold
      have hentry := ih _ hold
      rw [Std.TreeMap.getElem?_erase] at hentry
      split at hentry
      case isTrue => cases hentry
      case isFalse => exact hentry
  exact herase _ _ h

theorem countSent_rtxs (protects : Bool) (mediaLength : Nat) :
    (s.countSent protects mediaLength).rtxs = s.rtxs := by
  unfold countSent
  split <;> rfl

theorem countSent_cycles (protects : Bool) (mediaLength : Nat) :
    (s.countSent protects mediaLength).send.cycles = s.send.cycles := by
  unfold countSent
  split <;> rfl

theorem store_send (rtx : RTPTimedPacket) : (s.store rtx).send = s.send := by
  unfold store
  split <;> rfl

theorem reSendPacket_rtxs (seq : Nat) (env : SendEnv) :
    (s.reSendPacket seq env).1.rtxs = s.rtxs := by
  unfold reSendPacket countRTX
  split
  · rfl
  · split
    · rfl
    · split <;> rfl

theorem reSendPacket_send (seq : Nat) (env : SendEnv) :
    (s.reSendPacket seq env).1.send = s.send := by
  unfold reSendPacket countRTX
  split
  · rfl
  · split
    · rfl
    · split <;> rfl

end Frame

section Build

variable (s : Sender) (packet : RTPPacket) (timestamp : UInt32) (now : Nat)

theorem buildPacket_seqNum :
    (s.buildPacket packet timestamp now).seqNum.toNat = s.send.extSeq % 2 ^ 16 :=
  UInt16.toNat_ofNat'

theorem buildPacket_size : (s.buildPacket packet timestamp now).size = s.sendLength packet := by
  have hext : (s.extension now).length = if s.useAbsTime then 8 else 0 := by
    unfold extension
    split <;> rfl
  simp only [RTPPacket.size, RTPPacket.mediaLength, RTPPacket.rtpHeaderLen, buildPacket, hext,
    sendLength, List.length_nil]
  omega

end Build

/-- What `SendPacket` can do once the peer is reachable: it stores nothing new, or stores the packet
when copies are kept and it is not too long. -/
theorem sendPacket_cases (s : Sender) (packet : RTPPacket) (timestamp : UInt32) (env : SendEnv)
    (hreachable : env.reachable = true) :
    (s.sendPacket packet timestamp env).1.send.cycles = s.send.next.cycles ∧
      (((s.sendPacket packet timestamp env).2.stored = none ∧
        ∀ (k : Nat) p, (s.sendPacket packet timestamp env).1.rtxs[k]? = some p →
          s.rtxs[k]? = some p) ∨
      (s.useNACK = true ∧ s.sendLength packet ≤ mtu ∧
        (s.sendPacket packet timestamp env).2.stored =
          some ((s.buildPacket packet timestamp env.now).extSeqNum,
            s.buildPacket packet timestamp env.now) ∧
        ∀ (k : Nat) p, (s.sendPacket packet timestamp env).1.rtxs[k]? = some p →
          (s.rtxs.insert (s.buildPacket packet timestamp env.now).extSeqNum
            (s.buildPacket packet timestamp env.now))[k]? = some p)) := by
  rw [sendPacket, if_neg (by simp [hreachable])]
  generalize s.buildPacket packet timestamp env.now = rtx
  dsimp only
  by_cases hlong : mtu < s.sendLength packet
  · rw [if_pos hlong]
    exact ⟨rfl, .inl ⟨rfl, fun _ _ h => h⟩⟩
  · rw [if_neg hlong]
    have hsend : ∀ time, ((((s.countNumber timestamp).store rtx).countSent env.protects
        packet.mediaLength).discardOld time).send.cycles = s.send.next.cycles := by
      intro time
      change (((s.countNumber timestamp).store rtx).countSent env.protects
        packet.mediaLength).send.cycles = _
      rw [countSent_cycles, store_send]
      rfl
    have hrtxs : ∀ time (k : Nat) p, ((((s.countNumber timestamp).store rtx).countSent
        env.protects packet.mediaLength).discardOld time).rtxs[k]? = some p →
        ((s.countNumber timestamp).store rtx).rtxs[k]? = some p := by
      intro time k p h
      rw [← countSent_rtxs ((s.countNumber timestamp).store rtx) env.protects packet.mediaLength]
      exact getElem?_of_discardOld _ h
    refine ⟨hsend _, ?_⟩
    cases hnack : s.useNACK with
    | false =>
      have hstore : (s.countNumber timestamp).store rtx = s.countNumber timestamp :=
        if_neg (by simp [countNumber, hnack])
      refine .inl ⟨rfl, fun k p h => ?_⟩
      have hkept := hrtxs _ k p h
      rw [hstore] at hkept
      exact hkept
    | true =>
      have hstore : ((s.countNumber timestamp).store rtx).rtxs =
          s.rtxs.insert rtx.extSeqNum rtx := congrArg Sender.rtxs (if_pos hnack)
      refine .inr ⟨rfl, Nat.le_of_not_lt hlong, rfl, fun k p h => ?_⟩
      have hkept := hrtxs _ k p h
      rw [hstore] at hkept
      exact hkept

theorem reSendPacket_of_kept {s : Sender} {k : Nat} {p : RTPTimedPacket}
    (hkept : s.rtxs[k]? = some p) (hk : k = p.extSeqNum)
    (hcycles : p.cycles = .ofNat s.send.cycles) (hsize : p.size + 2 ≤ mtu) {env : SendEnv}
    (hprotects : env.protects = true) :
    (s.reSendPacket p.seqNum.toNat env).2 =
      .resent (s.retransmission p p.seqNum.toNat env.now) := by
  have hseq := p.seqNum.toNat_lt
  have hkey : (s.send.cycles * 2 ^ 16 % 2 ^ 32) ||| p.seqNum.toNat = k := by
    have hmod : s.send.cycles * 2 ^ 16 % 2 ^ 32 = (s.send.cycles % 2 ^ 16) <<< 16 := by
      rw [Nat.shiftLeft_eq]
      omega
    rw [hk, RTPPacket.extSeqNum, hcycles, UInt16.toNat_ofNat', hmod,
      ← Nat.shiftLeft_add_eq_or_of_lt hseq, Nat.shiftLeft_eq]
  rw [reSendPacket, hkey, hkept]
  dsimp only
  rw [if_neg (by omega), hprotects]
  rfl

end Sender

/-- A session that sends packets, with all it stored and sent so far. -/
structure Sending where
  sender : Sender
  stored : List (Nat × RTPTimedPacket) := []
  sent : List RTPTimedPacket := []

/-- What the session is called for. -/
inductive SendAction where
  | send (packet : RTPPacket) (timestamp : UInt32) (env : SendEnv)
  | resend (seq : Nat) (env : SendEnv)

namespace Sending

/-- A session that has not sent anything yet. -/
def start (s : Sender) : Sending where
  sender := { s with rtxs := {} }

def step (x : Sending) : SendAction → Sending
  | .send packet timestamp env =>
    let result := x.sender.sendPacket packet timestamp env
    { sender := result.1
      stored := x.stored ++ result.2.stored.toList
      sent := x.sent ++ result.2.wire.toList }
  | .resend seq env => { x with sender := (x.sender.reSendPacket seq env).1 }

/-- The last packet sent with a number. -/
def lastSent (x : Sending) (seq : UInt16) : Option RTPTimedPacket :=
  x.sent.reverse.find? fun p => p.seqNum = seq

/-- `q` sends `p` again, as it is or as a retransmission. Only the time of sending may differ. -/
structure Repeats (s : Sender) (p q : RTPTimedPacket) : Prop where
  mark_eq : q.mark = p.mark
  timestamp_eq : q.timestamp = p.timestamp
  csrcs_eq : q.csrcs = p.csrcs
  same : s.useRTX = false → q.ssrc = p.ssrc ∧ q.type = p.type ∧ q.seqNum = p.seqNum ∧
    q.payload = p.payload
  rtx : s.useRTX = true → q.ssrc = s.sendRTX.ssrc ∧ q.type = s.rtxType ∧
    q.payload = be2 p.seqNum.toNat ++ p.payload

/-- The copies were stored under increasing numbers that end in the numbers on the wire, and asking
for a number sends the last packet that was sent with it again, if there still is a copy. -/
structure Consistent (x : Sending) : Prop where
  increasing : List.Pairwise (· < ·) (x.stored.map Prod.fst)
  wire_eq : ∀ entry ∈ x.stored, entry.1 % 2 ^ 16 = entry.2.seqNum.toNat
  resends : ∀ seq p, x.lastSent seq = some p → (∃ k : Nat, x.sender.rtxs[k]? = some p) →
    ∀ env : SendEnv, env.protects = true →
      ∃ q, (x.sender.reSendPacket seq.toNat env).2 = .resent q ∧ Repeats x.sender p q

/-- The low half of the counter has not wrapped since the last packet was stored, nor does the
counter itself once packets are stored, and a packet that is stored leaves room for its number in a
retransmission. -/
def WithinCycle (x : Sending) : SendAction → Prop
  | .send packet _ env =>
    env.reachable = true →
      (x.stored ≠ [] → (x.sender.send.extSeq + 1) % 2 ^ 32 ≠ 0) ∧
      (x.sender.useNACK = true → x.sender.sendLength packet ≤ mtu →
        x.sender.sendLength packet + 2 ≤ mtu ∧
          ∀ last ∈ x.stored.getLast?,
            last.2.seqNum.toNat < x.sender.send.extSeq % 2 ^ 16)
  | .resend _ _ => True

instance (x : Sending) (a : SendAction) : Decidable (x.WithinCycle a) :=
  match a with
  | .send .. => inferInstanceAs (Decidable (_ → _))
  | .resend .. => .isTrue trivial

theorem repeats_retransmission (s : Sender) (p : RTPTimedPacket) (now : Nat) :
    Repeats s p (s.retransmission p p.seqNum.toNat now) := by
  unfold Sender.retransmission
  cases hrtx : s.useRTX with
  | false =>
    cases s.useAbsTime with
    | false => exact ⟨rfl, rfl, rfl, fun _ => ⟨rfl, rfl, rfl, rfl⟩, fun h => by simp [hrtx] at h⟩
    | true => exact ⟨rfl, rfl, rfl, fun _ => ⟨rfl, rfl, rfl, rfl⟩, fun h => by simp [hrtx] at h⟩
  | true =>
    cases s.useAbsTime with
    | false => exact ⟨rfl, rfl, rfl, fun h => by simp [hrtx] at h, fun _ => ⟨rfl, rfl, rfl⟩⟩
    | true => exact ⟨rfl, rfl, rfl, fun h => by simp [hrtx] at h, fun _ => ⟨rfl, rfl, rfl⟩⟩

/-- What the copies that were stored and kept have in common while the counter stays within a
cycle. -/
structure Inv (x : Sending) : Prop where
  increasing : List.Pairwise (· < ·) (x.stored.map Prod.fst)
  key_eq : ∀ entry ∈ x.stored, entry.1 = entry.2.extSeqNum
  cycles_eq : ∀ entry ∈ x.stored, entry.2.cycles = .ofNat x.sender.send.cycles
  size_le : ∀ entry ∈ x.stored, entry.2.size + 2 ≤ mtu
  kept : ∀ (k : Nat) p, x.sender.rtxs[k]? = some p → (k, p) ∈ x.stored

theorem Inv.consistent {x : Sending} (h : Inv x) : Consistent x := by
  refine ⟨h.increasing, ?_, ?_⟩
  · intro entry hentry
    rw [h.key_eq entry hentry]
    exact RTPPacket.extSeqNum_mod _
  · intro seq p hsent hkept env hprotects
    obtain ⟨k, hk⟩ := hkept
    have hstored := h.kept k p hk
    have hseq : p.seqNum = seq := by simpa using List.find?_some hsent
    subst hseq
    exact ⟨_, Sender.reSendPacket_of_kept hk (h.key_eq _ hstored) (h.cycles_eq _ hstored)
      (h.size_le _ hstored) hprotects, repeats_retransmission x.sender p env.now⟩

section Step

variable {x : Sending}

theorem inv_start (s : Sender) : Inv (start s) :=
  ⟨.nil, fun _ h => absurd h List.not_mem_nil, fun _ h => absurd h List.not_mem_nil,
    fun _ h => absurd h List.not_mem_nil, fun _ _ h => by simp [start] at h⟩

theorem inv_resend (h : Inv x) (seq : Nat) (env : SendEnv) : Inv (x.step (.resend seq env)) := by
  rw [step]
  refine ⟨h.increasing, h.key_eq, ?_, h.size_le, ?_⟩
  · intro entry hentry
    rw [Sender.reSendPacket_send]
    exact h.cycles_eq entry hentry
  · intro k p hk
    rw [Sender.reSendPacket_rtxs] at hk
    exact h.kept k p hk

theorem next_cycles_eq {o : RTPOutgoingSource} (h : (o.extSeq + 1) % 2 ^ 32 ≠ 0) :
    o.next.cycles = o.cycles :=
  if_neg h

theorem inv_send (h : Inv x) (packet : RTPPacket) (timestamp : UInt32) (env : SendEnv)
    (hcycle : x.WithinCycle (.send packet timestamp env)) :
    Inv (x.step (.send packet timestamp env)) := by
  rw [step]
  cases hreachable : env.reachable with
  | false =>
    have hsend : x.sender.sendPacket packet timestamp env = (x.sender, {}) := if_pos hreachable
    rw [hsend]
    simpa using h
  | true =>
    obtain ⟨hwrap, hroom⟩ := hcycle hreachable
    obtain ⟨hcycles, hcases⟩ := Sender.sendPacket_cases x.sender packet timestamp env hreachable
    have hsame : ∀ entry ∈ x.stored, entry.2.cycles =
        .ofNat (x.sender.sendPacket packet timestamp env).1.send.cycles := by
      intro entry hentry
      rw [hcycles, next_cycles_eq (hwrap (List.ne_nil_of_mem hentry))]
      exact h.cycles_eq entry hentry
    rcases hcases with ⟨hnone, hrtxs⟩ | ⟨hnack, hfits, hsome, hrtxs⟩
    · rw [hnone]
      refine ⟨?_, ?_, ?_, ?_, ?_⟩
      all_goals simp only [Option.toList_none, List.append_nil]
      · exact h.increasing
      · exact h.key_eq
      · exact hsame
      · exact h.size_le
      · exact fun k p hk => h.kept k p (hrtxs k p hk)
    · obtain ⟨hsize, hlast⟩ := hroom hnack hfits
      rw [hsome]
      have hseq := Sender.buildPacket_seqNum x.sender packet timestamp env.now
      have hbuilt : (x.sender.buildPacket packet timestamp env.now).cycles =
          .ofNat (x.sender.sendPacket packet timestamp env).1.send.cycles := by
        rw [hcycles]
        rfl
      have hsizeEq := Sender.buildPacket_size x.sender packet timestamp env.now
      generalize x.sender.buildPacket packet timestamp env.now = rtx at *
      have hmem : ∀ {entry : Nat × RTPTimedPacket}, entry ∈ x.stored ++ [(rtx.extSeqNum, rtx)] →
          entry ∈ x.stored ∨ entry = (rtx.extSeqNum, rtx) := by
        intro entry hentry
        rcases List.mem_append.1 hentry with hold | hnew
        · exact .inl hold
        · exact .inr (List.mem_singleton.1 hnew)
      refine ⟨?_, ?_, ?_, ?_, ?_⟩
      all_goals simp only [Option.toList_some]
      · -- the last number stored is in the same cycle, and its low half is below the new one
        rw [List.map_append]
        refine OrderedMap.pairwise_concat h.increasing (fun _ _ _ => Nat.lt_trans) ?_
        intro k hk
        rw [List.getLast?_map, Option.map_eq_some_iff] at hk
        obtain ⟨last, hl, rfl⟩ := hk
        have hl' : last ∈ x.stored := List.mem_of_getLast? hl
        have hlt := hlast last hl
        rw [h.key_eq last hl', RTPPacket.extSeqNum, RTPPacket.extSeqNum, hbuilt, hsame last hl',
          hseq]
        omega
      · intro entry hentry
        rcases hmem hentry with hold | rfl
        · exact h.key_eq entry hold
        · rfl
      · intro entry hentry
        rcases hmem hentry with hold | rfl
        · exact hsame entry hold
        · exact hbuilt
      · intro entry hentry
        rcases hmem hentry with hold | rfl
        · exact h.size_le entry hold
        · rw [hsizeEq]
          exact hsize
      · intro k p hk
        have hkept := hrtxs k p hk
        rw [Std.TreeMap.getElem?_insert] at hkept
        split at hkept
        case isTrue hkey =>
          cases hkept
          rw [← Std.LawfulEqCmp.eq_of_compare hkey]
          exact List.mem_append_right _ (List.mem_singleton.2 rfl)
        case isFalse => exact List.mem_append_left _ (h.kept k p hkept)

/-- **Step lemma.** A call within the cycle keeps the invariant. -/
theorem inv_step (h : Inv x) (a : SendAction) (hcycle : x.WithinCycle a) : Inv (x.step a) := by
  cases a with
  | send packet timestamp env => exact inv_send h packet timestamp env hcycle
  | resend seq env => exact inv_resend h seq env

end Step

/-- **Retransmission.** In every run of a new session whose calls stay within a cycle of the 16-bit
numbers, the copies are stored under increasing numbers that end in the numbers on the wire, and the
packet asked for is sent again. -/
theorem resends_of_withinCycle (s : Sender) (actions : List SendAction)
    (h : Meets step WithinCycle (start s) actions) : Consistent (run step (start s) actions) := by
  have hinv : Inv (run step (start s) actions) :=
    invariant_of_meets (I := fun _ x => Inv x) (inv_start s)
      (fun as a hI hcycle => inv_step hI a hcycle) actions h
  exact hinv.consistent

/-- A session that keeps copies and starts at a number, for examples. -/
def nackSender (extSeq : Nat) : Sender where
  send := { ssrc := 1, extSeq := extSeq, time := 0, lastTime := 0 }
  sendRTX := { ssrc := 2, extSeq := 7, time := 0, lastTime := 0 }
  sendType := 96
  rtxType := 97
  useNACK := true
  useRTX := true

/-- Sending a packet without content at a time in milliseconds, for examples. -/
def sendAt (now : Nat) : SendAction :=
  .send (RTPTimedPacket.numbered 0 0).toRTPPacket 0 { now := now }

/-- Three packets, the last of a cycle among them, and the first is asked for again. -/
theorem resends_before_wrap :
    Consistent (run step (start (nackSender 65533))
      [sendAt 1000, sendAt 1010, .resend 65533 { now := 1020 }, sendAt 1030]) :=
  resends_of_withinCycle _ _ (by decide)

/-- The number after the last one of a cycle is stored below it. -/
theorem not_consistent_wrap :
    ¬ Consistent (run step (start (nackSender 65535)) [sendAt 1000, sendAt 1010]) := by
  intro h
  have hincreasing := h.increasing
  revert hincreasing
  decide

end Sending

end McuMediaServer
