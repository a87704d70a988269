import Mathlib.Data.List.Basic
import McuMediaServer.Base.Bytes

/-!
# Receiving video

The loop that receives video gives each packet to a decoder, and tells it which packet is the last one
of a frame. The end of a frame whose last packet has been lost is told by the timestamp of the next
packet, which has to be greater: a smaller one, as when timestamps wrap, does not end the frame.
-/

namespace McuMediaServer

/-- Reference: `codecs.h:54`. -/
inductive VideoCodec where
  | h263_1996 | h263_1998 | mpeg4 | h264 | sorenson | vp6 | vp8 | ulpfec | red | rtx | unknown
  deriving DecidableEq

/-- Whether there is a decoder, which has the same type. Reference: `video.cpp:12`. -/
def VideoCodec.hasDecoder : VideoCodec → Bool
  | .sorenson | .h263_1998 | .h263_1996 | .mpeg4 | .h264 | .vp6 | .vp8 => true
  | .ulpfec | .red | .rtx | .unknown => false

/-- A packet; the primary payload is that of a redundant packet. Reference: `rtp.h:67` and
`rtp.h:423`. -/
structure ReceivedPacket where
  extSeqNum : UInt32
  timestamp : UInt32
  codec : VideoCodec
  mark : Bool
  mediaData : List UInt8
  primaryCodec : VideoCodec
  primaryPayloadData : List UInt8

/-- The codec of a packet and what is decoded of it; of a packet for error correction nothing is.
Reference: `videostream.cpp:673`. -/
def ReceivedPacket.payload (packet : ReceivedPacket) : Option (VideoCodec × List UInt8) :=
  if packet.codec = .red then
    if packet.primaryCodec = .ulpfec then none
    else some (packet.primaryCodec, packet.primaryPayloadData)
  else some (packet.codec, packet.mediaData)

/-- What a packet meets: whether the last request for an intra picture is long ago, what the decoder
says of the packet, and whether there is a picture. -/
structure Surroundings where
  overdue : Bool
  overdueAfter : Bool
  decoded : Bool
  isKeyFrame : Bool
  flushedPicture : Bool
  picture : Bool

/-- What is done to the decoder, to the sender and to the output. -/
inductive VideoEvent where
  | requestFPU
  | delete
  | create (type : VideoCodec)
  | flush
  | decode (packet : ReceivedPacket) (data : List UInt8) (lost : UInt32)
  | nextFrame

/-- The variables of the loop. Reference: `videostream.cpp:606`. -/
structure RecVideo where
  videoDecoder : Option VideoCodec
  lostCount : UInt32
  frameTime : UInt32
  lastSeq : UInt32
  waitIntra : Bool

namespace RecVideo

/-- Reference: `rtp.h:81`. -/
def maxExtSeqNum : UInt32 := 0xFFFFFFFF

/-- No packet of a frame has come yet. Reference: `videostream.cpp:613`. -/
def noFrameTime : UInt32 := 0xFFFFFFFF

def new : RecVideo := ⟨none, 0, noFrameTime, maxExtSeqNum, false⟩

variable (s : RecVideo)

/-- The packets lost in front of this one. Reference: `videostream.cpp:646`. -/
def lostBefore (packet : ReceivedPacket) : UInt32 :=
  if s.lastSeq ≠ maxExtSeqNum then packet.extSeqNum - s.lastSeq - 1 else 0

/-- An intra picture is asked for. Reference: `videostream.cpp:662` and `videostream.cpp:749`. -/
def requestFPU (asked : Bool) : RecVideo × List VideoEvent :=
  if asked then ({ s with lostCount := 0, waitIntra := true }, [.requestFPU]) else (s, [])

/-- A decoder for the codec takes the place of one for another. Reference: `videostream.cpp:693`. -/
def setDecoder (type : VideoCodec) : RecVideo × List VideoEvent :=
  if s.videoDecoder = some type then (s, [])
  else
    let deleted := if s.videoDecoder = none then [] else [.delete]
    if type.hasDecoder then
      ({ s with videoDecoder := some type }, deleted ++ [.create type])
    else
      ({ s with videoDecoder := none }, deleted)

/-- A packet is decoded, behind what is left of the frame before. Reference: `videostream.cpp:714`.
-/
def decode (packet : ReceivedPacket) (data : List UInt8) (lost : UInt32) (w : Surroundings) :
    RecVideo × List VideoEvent :=
  let flushed :=
    if s.frameTime < packet.timestamp then
      .flush :: if w.flushedPicture then [.nextFrame] else []
    else []
  let s := { s with frameTime := packet.timestamp }
  let asked := s.requestFPU (!w.decoded && w.overdueAfter)
  if packet.mark then
    ({ asked.1 with
        frameTime := noFrameTime
        waitIntra := asked.1.waitIntra && !w.isKeyFrame },
      flushed ++ .decode packet data lost :: asked.2 ++ if w.picture then [.nextFrame] else [])
  else
    (asked.1, flushed ++ .decode packet data lost :: asked.2)

/-- The packets that are lost are counted. Reference: `videostream.cpp:643`. -/
def count (packet : ReceivedPacket) : RecVideo :=
  { s with lostCount := s.lostCount + s.lostBefore packet, lastSeq := packet.extSeqNum }

/-- Reference: `videostream.cpp:673`. -/
def feed (packet : ReceivedPacket) (lost : UInt32) (w : Surroundings) : RecVideo × List VideoEvent :=
  match packet.payload with
  | none => (s, [])
  | some (type, data) =>
    let created := s.setDecoder type
    if created.1.videoDecoder = none then created
    else
      let fed := created.1.decode packet data lost w
      (fed.1, created.2 ++ fed.2)

/-- A packet is received. Reference: `videostream.cpp:628`. -/
def receive (packet : ReceivedPacket) (w : Surroundings) : RecVideo × List VideoEvent :=
  let counted := s.count packet
  let asked := counted.requestFPU ((counted.lostCount ≠ 0 || counted.waitIntra) && w.overdue)
  let fed := asked.1.feed packet (s.lostBefore packet) w
  (fed.1, asked.2 ++ fed.2)

/-- All that happens. -/
def recVideo (s : RecVideo) : List (ReceivedPacket × Surroundings) → List VideoEvent
  | [] => [.delete]
  | (packet, w) :: inputs => (s.receive packet w).2 ++ recVideo (s.receive packet w).1 inputs

/-! ## What is asked of the loop -/

/-- The timestamp of the frame that the decoder has not finished after an event. -/
def pendingAfter (pending : Option UInt32) : VideoEvent → Option UInt32
  | .decode packet _ _ => if packet.mark then none else some packet.timestamp
  | .flush | .delete => none
  | .requestFPU | .create _ | .nextFrame => pending

/-- A packet goes into a frame of its own timestamp, or starts one. -/
def Fits (pending : Option UInt32) : VideoEvent → Prop
  | .decode packet _ _ => ∀ timestamp, pending = some timestamp → timestamp = packet.timestamp
  | _ => True

/-- No frame has packets of two timestamps. -/
def Separated : Option UInt32 → List VideoEvent → Prop
  | _, [] => True
  | pending, event :: events => Fits pending event ∧ Separated (pendingAfter pending event) events

/-- The packets that are decoded, with what is decoded of them. -/
def decodes (events : List VideoEvent) : List (ReceivedPacket × List UInt8) :=
  events.filterMap fun
    | .decode packet data _ => some (packet, data)
    | _ => none

/-- What is to be decoded of a packet that there is a decoder for. -/
def toDecode (packet : ReceivedPacket) : Option (ReceivedPacket × List UInt8) :=
  packet.payload.bind fun payload =>
    if payload.1.hasDecoder then some (packet, payload.2) else none

/-- What is to be decoded of packets. -/
def decodable (packets : List ReceivedPacket) : List (ReceivedPacket × List UInt8) :=
  packets.filterMap toDecode

/-- The codec and the timestamp of the last packet, when it was not the last one of a frame. -/
def nextPending (pending : Option (VideoCodec × UInt32)) (packet : ReceivedPacket) :
    Option (VideoCodec × UInt32) :=
  match packet.payload with
  | none => pending
  | some (type, _) =>
    if type.hasDecoder && !packet.mark then some (type, packet.timestamp) else none

/-- Behind a packet that is not the last one of its frame there is none of the same codec with a
smaller timestamp. -/
def InOrder : Option (VideoCodec × UInt32) → List ReceivedPacket → Prop
  | _, [] => True
  | pending, packet :: packets =>
    (∀ type data timestamp, packet.payload = some (type, data) →
      pending = some (type, timestamp) → timestamp ≤ packet.timestamp) ∧
      InOrder (nextPending pending packet) packets

section Lemmas

variable {s} {pending : Option UInt32} {packet : ReceivedPacket} {w : Surroundings}

/-- The timestamp of the frame that is not finished after some events. -/
def pendingAfterAll (pending : Option UInt32) (events : List VideoEvent) : Option UInt32 :=
  events.foldl pendingAfter pending

theorem separated_append (events events' : List VideoEvent) :
    Separated pending (events ++ events') ↔
      Separated pending events ∧ Separated (pendingAfterAll pending events) events' := by
  induction events generalizing pending with
  | nil => exact (and_iff_right trivial).symm
  | cons event events ih =>
    rw [List.cons_append, Separated, Separated, ih, and_assoc]
    rfl

theorem pendingAfterAll_append (events events' : List VideoEvent) :
    pendingAfterAll pending (events ++ events') =
      pendingAfterAll (pendingAfterAll pending events) events' :=
  List.foldl_append ..

/-- Events that are nothing to the decoder. -/
def Idle (events : List VideoEvent) : Prop :=
  ∀ event ∈ events, event = .requestFPU ∨ event = .nextFrame

theorem Idle.spec {events : List VideoEvent} (h : Idle events) (pending : Option UInt32) :
    Separated pending events ∧ pendingAfterAll pending events = pending ∧ decodes events = [] := by
  induction events with
  | nil => exact ⟨trivial, rfl, rfl⟩
  | cons event events ih =>
    rw [Idle, List.forall_mem_cons] at h
    obtain ⟨hseparated, hpending, hdecodes⟩ := ih h.2
    rcases h.1 with rfl | rfl
    · exact ⟨⟨trivial, hseparated⟩, hpending, hdecodes⟩
    · exact ⟨⟨trivial, hseparated⟩, hpending, hdecodes⟩

theorem idle_requestFPU (asked : Bool) : Idle (s.requestFPU asked).2 := by
  cases asked with
  | true => exact List.forall_mem_singleton.2 (.inl rfl)
  | false => exact List.forall_mem_nil _

theorem idle_picture (picture : Bool) : Idle (if picture then [.nextFrame] else []) := by
  cases picture with
  | true => exact List.forall_mem_singleton.2 (.inr rfl)
  | false => exact List.forall_mem_nil _

@[simp]
theorem videoDecoder_requestFPU (asked : Bool) :
    (s.requestFPU asked).1.videoDecoder = s.videoDecoder := by
  cases asked <;> rfl

@[simp]
theorem frameTime_requestFPU (asked : Bool) :
    (s.requestFPU asked).1.frameTime = s.frameTime := by
  cases asked <;> rfl

theorem decodes_append (events events' : List VideoEvent) :
    decodes (events ++ events') = decodes events ++ decodes events' :=
  List.filterMap_append ..

theorem decode_spec (data : List UInt8) (lost : UInt32) :
    (Separated pending (s.decode packet data lost w).2 ↔
      (s.frameTime < packet.timestamp ∨
        ∀ timestamp, pending = some timestamp → timestamp = packet.timestamp)) ∧
      pendingAfterAll pending (s.decode packet data lost w).2 =
        (if packet.mark then none else some packet.timestamp) ∧
      decodes (s.decode packet data lost w).2 = [(packet, data)] ∧
      (s.decode packet data lost w).1.videoDecoder = s.videoDecoder ∧
      (s.decode packet data lost w).1.frameTime =
        if packet.mark then noFrameTime else packet.timestamp := by
  -- What is left of the frame before, the packet, and then only what is nothing to the decoder.
  have hflushed : ∃ flushed rest, (s.decode packet data lost w).2 =
      flushed ++ .decode packet data lost :: rest ∧ Idle rest ∧
      Separated pending flushed ∧ decodes flushed = [] ∧
      pendingAfterAll pending flushed =
        if s.frameTime < packet.timestamp then none else pending := by
    have hpicture := (idle_picture w.flushedPicture).spec none
    have hidle := @idle_requestFPU { s with frameTime := packet.timestamp }
      (!w.decoded && w.overdueAfter)
    refine ⟨if s.frameTime < packet.timestamp then
      .flush :: if w.flushedPicture then [.nextFrame] else [] else [], ?_⟩
    have hbefore : Separated pending (if s.frameTime < packet.timestamp then
          .flush :: if w.flushedPicture then [.nextFrame] else [] else []) ∧
        decodes (if s.frameTime < packet.timestamp then
          .flush :: if w.flushedPicture then [.nextFrame] else [] else []) = [] ∧
        pendingAfterAll pending (if s.frameTime < packet.timestamp then
          .flush :: if w.flushedPicture then [.nextFrame] else [] else []) =
          if s.frameTime < packet.timestamp then none else pending := by
      split
      · exact ⟨⟨trivial, hpicture.1⟩, hpicture.2.2, hpicture.2.1⟩
      · exact ⟨trivial, rfl, rfl⟩
    rw [decode]
    dsimp only
    cases packet.mark with
    | true =>
      refine ⟨({ s with frameTime := packet.timestamp }.requestFPU
        (!w.decoded && w.overdueAfter)).2 ++ if w.picture then [.nextFrame] else [], ?_, ?_, hbefore⟩
      · rw [if_pos rfl, List.append_assoc, List.cons_append]
      intro event hevent
      rcases List.mem_append.1 hevent with hevent | hevent
      · exact hidle event hevent
      · exact idle_picture w.picture event hevent
    | false => exact ⟨_, rfl, hidle, hbefore⟩
  obtain ⟨flushed, rest, hevents, hrest, hseparated, hdecodes, hpending⟩ := hflushed
  refine ⟨?_, ?_, ?_, ?_⟩
  · rw [hevents, separated_append, and_iff_right hseparated, hpending, Separated,
      and_iff_left (hrest.spec _).1]
    split
    · rename_i hlt
      exact iff_of_true (fun _ h => absurd h (Option.some_ne_none _).symm) (.inl hlt)
    · rename_i hlt
      exact (or_iff_right hlt).symm
  · rw [hevents, pendingAfterAll_append]
    exact (hrest.spec _).2.1
  · rw [hevents, decodes_append, hdecodes]
    show (packet, data) :: decodes rest = [(packet, data)]
    rw [(hrest.spec none).2.2]
  · rw [decode]
    dsimp only
    cases packet.mark with
    | true => exact ⟨videoDecoder_requestFPU _, rfl⟩
    | false => exact ⟨videoDecoder_requestFPU _, frameTime_requestFPU _⟩

/-- What the loop knows of the frame that the decoder has not finished. -/
structure Tracks (s : RecVideo) (pending : Option (VideoCodec × UInt32)) : Prop where
  hasDecoder : ∀ type, s.videoDecoder = some type → type.hasDecoder = true
  some : ∀ type timestamp, pending = some (type, timestamp) →
    s.videoDecoder = some type ∧ s.frameTime = timestamp
  none : pending = none → s.videoDecoder = none ∨ s.frameTime = noFrameTime

theorem setDecoder_spec {pending : Option (VideoCodec × UInt32)} (h : Tracks s pending)
    (type : VideoCodec) :
    Separated (pending.map (·.2)) (s.setDecoder type).2 ∧ decodes (s.setDecoder type).2 = [] ∧
      pendingAfterAll (pending.map (·.2)) (s.setDecoder type).2 =
        (if s.videoDecoder = some type then pending.map (·.2) else none) ∧
      (s.setDecoder type).1.videoDecoder = (if type.hasDecoder then some type else none) ∧
      (s.setDecoder type).1.frameTime = s.frameTime := by
  rw [setDecoder]
  by_cases hsame : s.videoDecoder = some type
  · rw [if_pos hsame, if_pos hsame, if_pos (h.hasDecoder type hsame)]
    exact ⟨trivial, rfl, rfl, hsame, rfl⟩
  · rw [if_neg hsame, if_neg hsame]
    cases hdecoder : s.videoDecoder with
    | none =>
      have hpending : pending = none := by
        cases pending with
        | none => rfl
        | some p =>
          have hsome := (h.some p.1 p.2 rfl).1
          rw [hdecoder] at hsome
          cases hsome
      rw [hpending]
      cases type.hasDecoder with
      | true => exact ⟨⟨trivial, trivial⟩, rfl, rfl, rfl, rfl⟩
      | false => exact ⟨trivial, rfl, rfl, rfl, rfl⟩
    | some type' =>
      cases type.hasDecoder with
      | true => exact ⟨⟨trivial, trivial, trivial⟩, rfl, rfl, rfl, rfl⟩
      | false => exact ⟨⟨trivial, trivial⟩, rfl, rfl, rfl, rfl⟩

/-- What a packet may be behind those before. -/
def Allowed (pending : Option (VideoCodec × UInt32)) (packet : ReceivedPacket) : Prop :=
  ∀ type data timestamp, packet.payload = some (type, data) →
    pending = some (type, timestamp) → timestamp ≤ packet.timestamp

theorem allowed_of_payload {pending : Option (VideoCodec × UInt32)} {type : VideoCodec}
    {data : List UInt8} (hpayload : packet.payload = some (type, data)) :
    Allowed pending packet ↔
      ∀ timestamp, pending = some (type, timestamp) → timestamp ≤ packet.timestamp := by
  constructor
  · intro h timestamp hpending
    exact h type data timestamp hpayload hpending
  · intro h type' data' timestamp hpayload' hpending
    obtain ⟨rfl, rfl⟩ := Prod.mk.inj (Option.some.inj (hpayload.symm.trans hpayload'))
    exact h timestamp hpending

theorem allowed_iff {pending : Option (VideoCodec × UInt32)} (h : Tracks s pending)
    {type : VideoCodec} {data : List UInt8} (hpayload : packet.payload = some (type, data)) :
    (s.frameTime < packet.timestamp ∨ ∀ timestamp,
      (if s.videoDecoder = some type then pending.map (·.2) else none) = some timestamp →
        timestamp = packet.timestamp) ↔ Allowed pending packet := by
  rw [allowed_of_payload hpayload]
  cases pending with
  | none =>
    refine iff_of_true (.inr ?_) ?_
    · intro timestamp hno
      split at hno <;> cases hno
    · intro timestamp hno
      cases hno
  | some p =>
    obtain ⟨type', timestamp⟩ := p
    obtain ⟨hdecoder, htime⟩ := h.some type' timestamp rfl
    rw [hdecoder, htime]
    by_cases hsame : type' = type
    · subst hsame
      rw [if_pos rfl]
      constructor
      · intro hlaw timestamp' heq
        cases heq
        rcases hlaw with hlt | heq
        · exact UInt32.le_of_lt hlt
        · exact UInt32.le_of_eq (heq timestamp rfl)
      · intro hlaw
        by_cases heq : timestamp = packet.timestamp
        · right
          intro timestamp' heq'
          cases heq'
          exact heq
        · exact .inl (UInt32.lt_of_le_of_ne (hlaw timestamp rfl) heq)
    · refine iff_of_true (.inr ?_) ?_
      · intro timestamp' hno
        rw [if_neg fun heq => hsame (Option.some.inj heq)] at hno
        cases hno
      · intro timestamp' heq
        cases heq
        exact absurd rfl hsame

theorem feed_spec {pending : Option (VideoCodec × UInt32)} (h : Tracks s pending) (lost : UInt32) :
    Tracks (s.feed packet lost w).1 (nextPending pending packet) ∧
      pendingAfterAll (pending.map (·.2)) (s.feed packet lost w).2 =
        (nextPending pending packet).map (·.2) ∧
      decodes (s.feed packet lost w).2 = decodable [packet] ∧
      (Separated (pending.map (·.2)) (s.feed packet lost w).2 ↔ Allowed pending packet) := by
  rw [feed, nextPending, decodable]
  cases hpayload : packet.payload with
  | none =>
    refine ⟨h, rfl, ?_, iff_of_true trivial ?_⟩
    · rw [List.filterMap_cons_none (by rw [toDecode, hpayload]; rfl)]
      rfl
    · intro type data timestamp hno
      rw [hpayload] at hno
      cases hno
  | some payload =>
    obtain ⟨type, data⟩ := payload
    dsimp only
    obtain ⟨hcreated, hcreated', hcreated'', hdecoder, htime⟩ := setDecoder_spec h type
    cases htype : type.hasDecoder with
    | false =>
      have hother : s.videoDecoder ≠ some type := by
        intro heq
        rw [h.hasDecoder type heq] at htype
        cases htype
      rw [htype, if_neg Bool.false_ne_true] at hdecoder
      rw [if_pos hdecoder, Bool.false_and, if_neg Bool.false_ne_true, hcreated'']
      refine ⟨⟨?_, ?_, fun _ => .inl hdecoder⟩, if_neg hother, ?_, iff_of_true hcreated ?_⟩
      · intro type' heq
        rw [hdecoder] at heq
        cases heq
      · intro type' timestamp hno
        cases hno
      · have hhead : toDecode packet = none := by
          rw [toDecode, hpayload, Option.bind_some, htype]
          rfl
        rw [hcreated', List.filterMap_cons_none hhead]
        rfl
      · rw [allowed_of_payload hpayload]
        intro timestamp hsome
        exact absurd (h.some type timestamp hsome).1 hother
    | true =>
      rw [htype, if_pos rfl] at hdecoder
      have hsome : (s.setDecoder type).1.videoDecoder ≠ none := by
        rw [hdecoder]
        exact Option.some_ne_none _
      obtain ⟨hfed, hfed', hfed'', hdecoder', htime'⟩ :=
        @decode_spec (s.setDecoder type).1
          (if s.videoDecoder = some type then pending.map (·.2) else none) packet w data lost
      rw [if_neg hsome, pendingAfterAll_append, separated_append, decodes_append, hcreated',
        hcreated'', hfed, hfed', hfed'', Bool.true_and, and_iff_right hcreated, htime,
        allowed_iff h hpayload]
      refine ⟨⟨?_, ?_, ?_⟩, ?_, ?_, Iff.rfl⟩
      · intro type' heq
        rw [hdecoder', hdecoder] at heq
        cases heq
        exact htype
      · intro type' timestamp heq
        rw [hdecoder', hdecoder, htime']
        cases hmark : packet.mark with
        | true =>
          rw [hmark] at heq
          cases heq
        | false =>
          rw [hmark] at heq
          cases heq
          exact ⟨rfl, rfl⟩
      · intro hnone
        rw [htime']
        cases hmark : packet.mark with
        | true => exact .inr rfl
        | false =>
          rw [hmark] at hnone
          cases hnone
      · cases packet.mark <;> rfl
      · have hhead : toDecode packet = some (packet, data) := by
          rw [toDecode, hpayload, Option.bind_some, htype]
          rfl
        rw [List.filterMap_cons_some hhead]
        rfl

theorem receive_spec {pending : Option (VideoCodec × UInt32)} (h : Tracks s pending) :
    Tracks (s.receive packet w).1 (nextPending pending packet) ∧
      pendingAfterAll (pending.map (·.2)) (s.receive packet w).2 =
        (nextPending pending packet).map (·.2) ∧
      decodes (s.receive packet w).2 = decodable [packet] ∧
      (Separated (pending.map (·.2)) (s.receive packet w).2 ↔ Allowed pending packet) := by
  rw [receive]
  dsimp only
  generalize ((decide ((s.count packet).lostCount ≠ 0) || (s.count packet).waitIntra) &&
    w.overdue) = asked
  obtain ⟨hseparated, hpending, hdecodes⟩ :=
    (@idle_requestFPU (s.count packet) asked).spec (pending.map (·.2))
  have htracks : Tracks ((s.count packet).requestFPU asked).1 pending := by
    refine ⟨?_, ?_, ?_⟩
    · rw [videoDecoder_requestFPU]
      exact h.hasDecoder
    · rw [videoDecoder_requestFPU, frameTime_requestFPU]
      exact h.some
    · rw [videoDecoder_requestFPU, frameTime_requestFPU]
      exact h.none
  obtain ⟨hfed, hfed', hfed'', hlaw⟩ := @feed_spec _ packet w _ htracks (s.lostBefore packet)
  rw [pendingAfterAll_append, separated_append, decodes_append, hpending, hdecodes,
    and_iff_right hseparated, hlaw]
  exact ⟨hfed, hfed', hfed'', Iff.rfl⟩

theorem recVideo_spec {pending : Option (VideoCodec × UInt32)} (h : Tracks s pending)
    (inputs : List (ReceivedPacket × Surroundings)) :
    (Separated (pending.map (·.2)) (s.recVideo inputs) ↔ InOrder pending (inputs.map (·.1))) ∧
      decodes (s.recVideo inputs) = decodable (inputs.map (·.1)) := by
  induction inputs generalizing s pending with
  | nil => exact ⟨iff_of_true ⟨trivial, trivial⟩ trivial, rfl⟩
  | cons input inputs ih =>
    obtain ⟨packet, w⟩ := input
    obtain ⟨htracks, hpending, hdecodes, hlaw⟩ := @receive_spec s packet w _ h
    obtain ⟨hrest, hrest'⟩ := ih htracks
    rw [recVideo, separated_append, decodes_append, hpending, hlaw, hrest, hdecodes, hrest']
    exact ⟨Iff.rfl, (List.filterMap_append ..).symm⟩

theorem tracks_new : Tracks new none := by
  refine ⟨?_, ?_, fun _ => .inl rfl⟩
  · intro type hno
    cases hno
  · intro type timestamp hno
    cases hno

end Lemmas

/-- Whatever comes, each packet that there is a decoder for is decoded once, in order. No frame has
packets of two timestamps if and only if timestamps never get smaller behind a packet that is not
the last one of its frame. -/
theorem separated_iff_inOrder (inputs : List (ReceivedPacket × Surroundings)) :
    (Separated none (new.recVideo inputs) ↔ InOrder none (inputs.map (·.1))) ∧
      decodes (new.recVideo inputs) = decodable (inputs.map (·.1)) :=
  recVideo_spec tracks_new inputs

/-- A packet whose mark has been lost, and one of the next frame, whose timestamp has wrapped. -/
def wrapped : List (ReceivedPacket × Surroundings) :=
  [(⟨1, 0xFFFFF448, .vp8, false, [0x10, 1], .unknown, []⟩, ⟨false, false, true, false, false, false⟩),
    (⟨3, 0, .vp8, true, [0x10, 2], .unknown, []⟩, ⟨false, false, true, false, false, false⟩)]

/-- The decoder takes them for one frame. -/
theorem not_separated_wrapped : ¬Separated none (new.recVideo wrapped) := by
  intro h
  have hsecond := h.2.2.1 0xFFFFF448 rfl
  exact absurd hsecond (by decide)

end RecVideo

end McuMediaServer
