import McuMediaServer.Amf.Utf8
import McuMediaServer.Base.Run
import McuMediaServer.WebSocket.Connection

/-!
# What a WebSocket connection still has to send

A connection counts the bytes of payload in its queue of frames, for those who ask whether its write
buffer is empty. Each frame that is taken from the queue is subtracted, but a pong is put into the
queue without being added, so that the counter wraps when one with a payload is sent.

`accounted_iff` says in which runs the counter is right after every step.
-/

namespace McuMediaServer

namespace WebSocket

open Amf ByteSeq StepRun

namespace Frame

/-- Reference: `websocketconnection.h:285`. -/
def getPayloadSize (f : Frame) : Nat := (f.size + 2 ^ 32 - f.headerSize) % 2 ^ 32

/-- What is written to the payload of a new frame. Reference: `websocketconnection.h:284`. -/
def fill (f : Frame) (data : List UInt8) : Frame := { f with written := f.written ++ data }

end Frame

namespace Connection

/-- A turn of the loop over the data. Reference: `websocketconnection.cpp:523`. -/
def turn (c : Connection) (data : List UInt8) : Connection × Nat :=
  match c.header with
  | none => c.receiveHeader data
  | some h => c.receivePayload h data

/-- The frames of a message of bytes. Reference: `websocketconnection.cpp:674`. -/
def messageFrames (type : MessageType) (data : List UInt8) : List Frame :=
  if data.isEmpty then [] else sendFrames data.length (messageCode type) data

/-- The frame of a message of text. Reference: `websocketconnection.cpp:771`. -/
def textFrame (message : WString) : Frame :=
  (Frame.new true .textFrame none (utf8Size message % 2 ^ 32)).fill (encode message)

/-- The frame that closes a connection for a reason. Reference: `websocketconnection.cpp:178`. -/
def closeFrame (code : UInt16) (reason : WString) : Frame :=
  (Frame.new true .close none ((utf8Size reason % 2 ^ 32 + 2) % 2 ^ 32)).fill
    (be2 code.toNat ++ encode reason)

end Connection

/-- A connection with its counter, a `DWORD`. Reference: `websocketconnection.h:383`. -/
structure Outgoing where
  connection : Connection := {}
  outgoingFramesLength : Nat := 0
  running : Bool := true

namespace Outgoing

/-- Frames are put into the queue and added to the counter. -/
def enqueue (o : Outgoing) (frames : List Frame) : Outgoing :=
  { o with
    connection := { o.connection with frames := o.connection.frames ++ frames }
    outgoingFramesLength :=
      frames.foldl (fun n f => (n + f.getPayloadSize) % 2 ^ 32) o.outgoingFramesLength }

/-- Reference: `websocketconnection.cpp:674`. -/
def sendMessage (o : Outgoing) (type : MessageType) (data : List UInt8) : Outgoing :=
  if o.running then o.enqueue (Connection.messageFrames type data) else o

/-- Reference: `websocketconnection.cpp:771`. -/
def sendText (o : Outgoing) (message : WString) : Outgoing :=
  if o.running then o.enqueue [Connection.textFrame message] else o

/-- Reference: `websocketconnection.cpp:747`. -/
def ping (o : Outgoing) : Outgoing := o.enqueue [Frame.new true .ping none 0]

/-- The frame is not added to the counter. Reference: `websocketconnection.cpp:159`. -/
def close (o : Outgoing) : Outgoing :=
  if o.running then
    { o with connection :=
        { o.connection with frames := o.connection.frames ++ [Frame.new true .close none 0] } }
  else
    o

/-- Reference: `websocketconnection.cpp:178`. -/
def closeWith (o : Outgoing) (code : UInt16) (reason : WString) : Outgoing :=
  if o.running then o.enqueue [Connection.closeFrame code reason] else o

/-- Reference: `websocketconnection.cpp:108`. -/
def stop (o : Outgoing) : Outgoing := { o with running := false }

/-- A turn of the loop over what is received. A pong is not added to the counter, and a request to
close stops the connection. Reference: `websocketconnection.cpp:509`. -/
def receive (o : Outgoing) (data : List UInt8) : Outgoing :=
  let connection := (o.connection.turn data).1
  { o with connection, running := o.running && !connection.ended }

/-- The next frame, and whether the listener is told that the queue is empty. Reference:
`websocketconnection.cpp:439`. -/
def getNextFrame (o : Outgoing) : Outgoing × Option Frame × Bool :=
  match o.connection.frames with
  | frame :: frames =>
    ({ o with
        connection := { o.connection with frames }
        outgoingFramesLength := (o.outgoingFramesLength + 2 ^ 32 - frame.getPayloadSize) % 2 ^ 32 },
      some frame, false)
  | [] => ({ o with outgoingFramesLength := 0 }, none, true)

end Outgoing

/-- What happens on a connection, in any order. What is received comes in one turn of the loop after
the other. -/
inductive OutgoingStep where
  | sendMessage (type : MessageType) (data : List UInt8)
  | sendText (message : WString)
  | ping
  | close
  | closeWith (code : UInt16) (reason : WString)
  | stop
  | receive (byte : UInt8) (rest : List UInt8)
  | getNextFrame

/-- A connection next to the frames that have been put into its queue, those that have been taken,
and whether the listener has been told in the last step that the queue is empty. -/
structure OutgoingRun where
  outgoing : Outgoing := {}
  queued : List Frame := []
  taken : List Frame := []
  raised : Bool := false

namespace OutgoingRun

def frames (o : OutgoingRun) : List Frame := o.outgoing.connection.frames

/-- A step that may put frames into the queue. -/
def queueing (o : OutgoingRun) (outgoing : Outgoing) : OutgoingRun :=
  { o with
    outgoing
    queued := o.queued ++ outgoing.connection.frames.drop o.frames.length
    raised := false }

def step (o : OutgoingRun) : OutgoingStep → OutgoingRun
  | .sendMessage type data => o.queueing (o.outgoing.sendMessage type data)
  | .sendText message => o.queueing (o.outgoing.sendText message)
  | .ping => o.queueing o.outgoing.ping
  | .close => o.queueing o.outgoing.close
  | .closeWith code reason => o.queueing (o.outgoing.closeWith code reason)
  | .stop => o.queueing o.outgoing.stop
  | .receive byte rest => o.queueing (o.outgoing.receive (byte :: rest))
  | .getNextFrame =>
    let (outgoing, frame, raised) := o.outgoing.getNextFrame
    { o with outgoing, taken := o.taken ++ frame.toList, raised }

/-- The payload in a queue. -/
def payload (frames : List Frame) : Nat := (frames.map Frame.getPayloadSize).sum

/-- The counter is that of the queue, the frames are taken in the order in which they came, each
once, and the listener is told that the queue is empty only when it is. -/
structure Accounted (o : OutgoingRun) : Prop where
  length : o.outgoing.outgoingFramesLength = payload o.frames
  order : o.queued = o.taken ++ o.frames
  raised : o.raised = true → o.frames = []

/-- The data reaches the end of a ping. -/
def AnswersPing (c : Connection) (data : List UInt8) : Prop :=
  ∃ h, c.header = some h ∧ h.getOpCode = .ping ∧
    c.framePos + min (h.getPayloadLength - c.framePos) data.length = h.getPayloadLength

/-- Steps that keep the counter right: what is added to it fits, and a pong that is sent has no
payload. -/
def Keeps (o : OutgoingRun) : OutgoingStep → Prop
  | .sendMessage _ data =>
    o.outgoing.running = true → o.outgoing.outgoingFramesLength + data.length < 2 ^ 32
  | .sendText message =>
    o.outgoing.running = true →
      o.outgoing.outgoingFramesLength + utf8Size message % 2 ^ 32 < 2 ^ 32
  | .closeWith _ reason =>
    o.outgoing.running = true →
      o.outgoing.outgoingFramesLength + (utf8Size reason % 2 ^ 32 + 2) % 2 ^ 32 < 2 ^ 32
  | .receive byte rest =>
    AnswersPing o.outgoing.connection (byte :: rest) →
      ∀ pong ∈ o.outgoing.connection.pong, pong.getPayloadSize = 0
  | .ping | .close | .stop | .getNextFrame => True

/-! ## The frames -/

theorem size_append (f : Frame) (data : List UInt8) : (f.append data).size = f.size := by
  rw [Frame.append]
  split <;> rfl

theorem headerSize_append (f : Frame) (data : List UInt8) :
    (f.append data).headerSize = f.headerSize := by
  rw [Frame.append]
  split <;> rfl

theorem getPayloadSize_append (f : Frame) (data : List UInt8) :
    (f.append data).getPayloadSize = f.getPayloadSize := by
  rw [Frame.getPayloadSize, size_append, headerSize_append, Frame.getPayloadSize]

theorem getPayloadSize_fill (f : Frame) (data : List UInt8) :
    (f.fill data).getPayloadSize = f.getPayloadSize := rfl

theorem getSize_le (h : WebSocketFrameHeader) : h.getSize ≤ 14 := by
  rw [WebSocketFrameHeader.getSize, WebSocketFrameHeader.getPayloadLenghtSize]
  split <;> split <;> (try split) <;> omega

theorem getPayloadSize_new (fin : Bool) (opCode : OpCode) (data : Option (List UInt8)) (size : Nat) :
    (Frame.new fin opCode data size).getPayloadSize = size % 2 ^ 32 := by
  have hle := getSize_le (WebSocketFrameHeader.new fin opCode size 0)
  have hnew : (Frame.new fin opCode none size).getPayloadSize = size % 2 ^ 32 := by
    change ((size + (WebSocketFrameHeader.new fin opCode size 0).getSize) % 2 ^ 32 + 2 ^ 32 -
      (WebSocketFrameHeader.new fin opCode size 0).getSize) % 2 ^ 32 = size % 2 ^ 32
    generalize (WebSocketFrameHeader.new fin opCode size 0).getSize = n at hle
    omega
  cases data with
  | none => exact hnew
  | some data => exact (getPayloadSize_append _ _).trans hnew

theorem payload_cons (f : Frame) (frames : List Frame) :
    payload (f :: frames) = f.getPayloadSize + payload frames := by
  rw [payload, List.map_cons, List.sum_cons, payload]

theorem payload_singleton (f : Frame) : payload [f] = f.getPayloadSize := by
  rw [payload, List.map_singleton, List.sum_singleton]

theorem payload_append (xs ys : List Frame) : payload (xs ++ ys) = payload xs + payload ys := by
  rw [payload, List.map_append, List.sum_append, payload, payload]

theorem payload_sendFrames {fuel : Nat} (code : OpCode) {data : List UInt8}
    (hfuel : data.length ≤ fuel) (hne : data ≠ []) :
    payload (Connection.sendFrames fuel code data) = data.length := by
  induction fuel generalizing code data with
  | zero => exact absurd (List.eq_nil_of_length_eq_zero (Nat.le_zero.1 hfuel)) hne
  | succ fuel ih =>
    have hpos := List.length_pos_iff.2 hne
    rw [Connection.sendFrames, payload_cons, getPayloadSize_new, Nat.mod_eq_of_lt (by omega)]
    split
    case isTrue hlast =>
      rw [decide_eq_true_iff] at hlast
      rw [hlast]
      rfl
    case isFalse hnot =>
      rw [decide_eq_true_iff] at hnot
      rw [ih _ (by rw [List.length_drop]; omega) (by
        rw [Ne, List.drop_eq_nil_iff]
        omega), List.length_drop]
      omega

theorem payload_messageFrames (type : MessageType) (data : List UInt8) :
    payload (Connection.messageFrames type data) = data.length := by
  rw [Connection.messageFrames]
  split
  case isTrue hnil =>
    rw [List.isEmpty_iff.1 hnil]
    rfl
  case isFalse hne =>
    exact payload_sendFrames _ le_rfl fun hnil => hne (List.isEmpty_iff.2 hnil)

theorem foldl_payload (frames : List Frame) (n : Nat) (hn : n < 2 ^ 32) :
    frames.foldl (fun n f => (n + f.getPayloadSize) % 2 ^ 32) n = (n + payload frames) % 2 ^ 32 := by
  induction frames generalizing n with
  | nil => exact (Nat.mod_eq_of_lt hn).symm
  | cons f frames ih =>
    rw [List.foldl_cons, ih _ (Nat.mod_lt _ (Nat.two_pow_pos 32)), payload_cons, Nat.mod_add_mod,
      Nat.add_assoc]

/-! ## What a turn of the loop puts into the queue -/

theorem frames_receiveHeader (c : Connection) (data : List UInt8) :
    (c.receiveHeader data).1.frames = c.frames := by
  rw [Connection.receiveHeader]
  dsimp only
  split
  · rw [Connection.headerReceived]
    split <;> rfl
  · rfl

theorem frames_payloadReceived (c : Connection) (h : WebSocketFrameHeader) (data : List UInt8) :
    (c.payloadReceived h data).frames = c.frames := by
  rw [Connection.payloadReceived]
  split <;> rfl

theorem framePos_payloadReceived (c : Connection) (h : WebSocketFrameHeader)
    (data : List UInt8) : (c.payloadReceived h data).framePos = c.framePos := by
  rw [Connection.payloadReceived]
  split <;> rfl

theorem pong_payloadReceived {c : Connection} {h : WebSocketFrameHeader} (hping : h.getOpCode = .ping)
    (data : List UInt8) :
    (c.payloadReceived h data).pong = c.pong.map fun pong => pong.append data := by
  rw [Connection.payloadReceived, hping]

theorem frames_frameReceived (c : Connection) (h : WebSocketFrameHeader) :
    (c.frameReceived h).frames =
      c.frames ++ if h.getOpCode = .ping then c.pong.toList else [] := by
  have hfin : (if h.isFin then c.notify .messageEnd else c).frames = c.frames ++ [] := by
    rw [List.append_nil]
    split <;> rfl
  rw [Connection.frameReceived]
  cases h.getOpCode with
  | continuationFrame | textFrame | binaryFrame => exact hfin
  | ping => rfl
  | _ => exact (List.append_nil _).symm

theorem frames_receivePayload {c : Connection} {h : WebSocketFrameHeader} (hheader : c.header = some h)
    (data : List UInt8) [Decidable (AnswersPing c data)] :
    ∃ piece, (c.receivePayload h data).1.frames =
      c.frames ++ if AnswersPing c data then (c.pong.map fun pong => pong.append piece).toList
        else [] := by
  refine ⟨Connection.unmask h c.framePos
    (data.take (min (h.getPayloadLength - c.framePos) data.length)), ?_⟩
  rw [Connection.receivePayload]
  dsimp only
  generalize Connection.unmask h c.framePos _ = piece
  rw [framePos_payloadReceived]
  have hanswers : AnswersPing c data ↔ h.getOpCode = .ping ∧
      c.framePos + min (h.getPayloadLength - c.framePos) data.length = h.getPayloadLength := by
    constructor
    · rintro ⟨h', hh', hping, hend⟩
      obtain rfl := Option.some.inj (hheader.symm.trans hh')
      exact ⟨hping, hend⟩
    · rintro ⟨hping, hend⟩
      exact ⟨h, hheader, hping, hend⟩
  split
  case isTrue hend =>
    dsimp only
    rw [frames_frameReceived]
    dsimp only
    rw [frames_payloadReceived]
    split
    case isTrue hping => rw [if_pos (hanswers.2 ⟨hping, hend⟩), pong_payloadReceived hping]
    case isFalse hping => rw [if_neg fun hans => hping (hanswers.1 hans).1]
  case isFalse hend =>
    dsimp only
    rw [frames_payloadReceived, if_neg fun hans => hend (hanswers.1 hans).2, List.append_nil]

theorem frames_turn (c : Connection) (data : List UInt8) :
    ∃ pongs, (c.turn data).1.frames = c.frames ++ pongs ∧
      (¬AnswersPing c data → pongs = []) ∧
      (AnswersPing c data →
        (payload pongs = 0 ↔ ∀ pong ∈ c.pong, pong.getPayloadSize = 0)) := by
  cases hheader : c.header with
  | none =>
    refine ⟨[], ?_, fun _ => rfl, ?_⟩
    · rw [Connection.turn, hheader]
      exact (frames_receiveHeader c data).trans (List.append_nil _).symm
    · rintro ⟨h, hh, -⟩
      rw [hheader] at hh
      cases hh
  | some h =>
    have hturn : c.turn data = c.receivePayload h data := by
      rw [Connection.turn, hheader]
    have := Classical.propDecidable (AnswersPing c data)
    obtain ⟨piece, hframes⟩ := frames_receivePayload hheader data
    refine ⟨_, hturn ▸ hframes, fun hnot => if_neg hnot, fun hans => ?_⟩
    rw [if_pos hans]
    cases c.pong with
    | none => exact iff_of_true rfl nofun
    | some pong =>
      rw [Option.map_some, Option.toList_some, payload_singleton, getPayloadSize_append]
      exact ⟨fun hzero p hp => Option.some.inj hp ▸ hzero, fun hzero => hzero pong rfl⟩

/-! ## Steps -/

section Step

variable {o : OutgoingRun} (h : Accounted o)

include h

theorem accounted_queueing {outgoing : Outgoing} {new : List Frame}
    (hframes : outgoing.connection.frames = o.frames ++ new) :
    Accounted (o.queueing outgoing) ↔
      outgoing.outgoingFramesLength = o.outgoing.outgoingFramesLength + payload new := by
  have hpayload : payload (o.queueing outgoing).frames =
      o.outgoing.outgoingFramesLength + payload new := by
    rw [h.length, ← payload_append]
    exact congrArg payload hframes
  constructor
  · intro h'
    exact h'.length.trans hpayload
  · intro hlength
    refine ⟨hlength.trans hpayload.symm, ?_, nofun⟩
    change o.queued ++ outgoing.connection.frames.drop o.frames.length =
      o.taken ++ outgoing.connection.frames
    rw [hframes, List.drop_left, h.order, List.append_assoc]

theorem accounted_enqueue (hlt : o.outgoing.outgoingFramesLength < 2 ^ 32) (new : List Frame) :
    Accounted (o.queueing (o.outgoing.enqueue new)) ↔
      o.outgoing.outgoingFramesLength + payload new < 2 ^ 32 := by
  rw [accounted_queueing h rfl]
  change new.foldl _ _ = _ ↔ _
  rw [foldl_payload new _ hlt, Nat.mod_eq_iff_lt (by omega)]

theorem accounted_idle {outgoing : Outgoing} (hframes : outgoing.connection.frames = o.frames)
    (hlength : outgoing.outgoingFramesLength = o.outgoing.outgoingFramesLength) :
    Accounted (o.queueing outgoing) :=
  (accounted_queueing h (hframes.trans (List.append_nil _).symm)).2 hlength

theorem accounted_receive (data : List UInt8) :
    Accounted (o.queueing (o.outgoing.receive data)) ↔
      (AnswersPing o.outgoing.connection data →
        ∀ pong ∈ o.outgoing.connection.pong, pong.getPayloadSize = 0) := by
  obtain ⟨pongs, hframes, hnone, hsome⟩ := frames_turn o.outgoing.connection data
  rw [accounted_queueing h hframes]
  change o.outgoing.outgoingFramesLength = _ ↔ _
  rw [left_eq_add]
  rcases Classical.em (AnswersPing o.outgoing.connection data) with hans | hnot
  · rw [hsome hans]
    exact ⟨fun hzero _ => hzero, fun hzero => hzero hans⟩
  · rw [hnone hnot]
    exact iff_of_true rfl fun hans => absurd hans hnot

theorem accounted_getNextFrame (hlt : o.outgoing.outgoingFramesLength < 2 ^ 32) :
    Accounted (o.step .getNextFrame) := by
  have hlength := h.length
  have horder := h.order
  rw [frames] at hlength horder
  rw [step, Outgoing.getNextFrame]
  cases hframes : o.outgoing.connection.frames with
  | nil =>
    rw [hframes] at horder
    have horder' : o.queued = o.taken ++ [] ++ o.outgoing.connection.frames := by
      rw [List.append_nil, hframes]
      exact horder
    exact ⟨congrArg payload hframes.symm, horder', fun _ => hframes⟩
  | cons frame rest =>
    rw [hframes] at hlength horder
    rw [payload_cons] at hlength
    refine ⟨?_, ?_, nofun⟩
    · change (o.outgoing.outgoingFramesLength + 2 ^ 32 - frame.getPayloadSize) % 2 ^ 32 =
        payload rest
      omega
    · change o.queued = o.taken ++ [frame] ++ rest
      rw [horder, List.append_assoc]
      rfl

end Step

theorem accounted_step {o : OutgoingRun} (h : Accounted o)
    (hlt : o.outgoing.outgoingFramesLength < 2 ^ 32) (s : OutgoingStep) :
    Accounted (o.step s) ↔ o.Keeps s := by
  cases s with
  | sendMessage type data =>
    change Accounted (o.queueing (o.outgoing.sendMessage type data)) ↔ (o.outgoing.running → _)
    rw [Outgoing.sendMessage]
    split
    case isTrue hrun =>
      rw [accounted_enqueue h hlt, payload_messageFrames]
      exact ⟨fun hfits _ => hfits, fun hfits => hfits hrun⟩
    case isFalse hstop => exact iff_of_true (accounted_idle h rfl rfl) fun hrun => absurd hrun hstop
  | sendText message =>
    change Accounted (o.queueing (o.outgoing.sendText message)) ↔ (o.outgoing.running → _)
    rw [Outgoing.sendText]
    split
    case isTrue hrun =>
      rw [accounted_enqueue h hlt, payload_singleton, Connection.textFrame, getPayloadSize_fill,
        getPayloadSize_new, Nat.mod_mod]
      exact ⟨fun hfits _ => hfits, fun hfits => hfits hrun⟩
    case isFalse hstop => exact iff_of_true (accounted_idle h rfl rfl) fun hrun => absurd hrun hstop
  | ping =>
    refine iff_of_true ((accounted_enqueue h hlt _).2 ?_) trivial
    rwa [payload_singleton, getPayloadSize_new, Nat.zero_mod, Nat.add_zero]
  | close =>
    refine iff_of_true ?_ trivial
    change Accounted (o.queueing o.outgoing.close)
    rw [Outgoing.close]
    split
    case isTrue hrun =>
      refine (accounted_queueing h rfl).2 ?_
      rw [payload_singleton, getPayloadSize_new, Nat.zero_mod, Nat.add_zero]
    case isFalse hstop => exact accounted_idle h rfl rfl
  | closeWith code reason =>
    change Accounted (o.queueing (o.outgoing.closeWith code reason)) ↔ (o.outgoing.running → _)
    rw [Outgoing.closeWith]
    split
    case isTrue hrun =>
      rw [accounted_enqueue h hlt, payload_singleton, Connection.closeFrame, getPayloadSize_fill,
        getPayloadSize_new, Nat.mod_mod]
      exact ⟨fun hfits _ => hfits, fun hfits => hfits hrun⟩
    case isFalse hstop => exact iff_of_true (accounted_idle h rfl rfl) fun hrun => absurd hrun hstop
  | stop => exact iff_of_true (@accounted_idle _ h o.outgoing.stop rfl rfl) trivial
  | receive byte rest => exact accounted_receive h (byte :: rest)
  | getNextFrame => exact iff_of_true (accounted_getNextFrame h hlt) trivial

/-- The counter is a `DWORD`. -/
theorem outgoingFramesLength_lt {o : OutgoingRun} (hlt : o.outgoing.outgoingFramesLength < 2 ^ 32)
    (s : OutgoingStep) : (o.step s).outgoing.outgoingFramesLength < 2 ^ 32 := by
  have henqueue (new : List Frame) :
      (o.outgoing.enqueue new).outgoingFramesLength < 2 ^ 32 := by
    change new.foldl _ _ < _
    rw [foldl_payload new _ hlt]
    exact Nat.mod_lt _ (Nat.two_pow_pos 32)
  cases s with
  | sendMessage type data =>
    change (o.outgoing.sendMessage type data).outgoingFramesLength < 2 ^ 32
    rw [Outgoing.sendMessage]
    split
    · exact henqueue _
    · exact hlt
  | sendText message =>
    change (o.outgoing.sendText message).outgoingFramesLength < 2 ^ 32
    rw [Outgoing.sendText]
    split
    · exact henqueue _
    · exact hlt
  | closeWith code reason =>
    change (o.outgoing.closeWith code reason).outgoingFramesLength < 2 ^ 32
    rw [Outgoing.closeWith]
    split
    · exact henqueue _
    · exact hlt
  | ping => exact henqueue _
  | close =>
    change o.outgoing.close.outgoingFramesLength < 2 ^ 32
    rw [Outgoing.close]
    split <;> exact hlt
  | stop | receive => exact hlt
  | getNextFrame =>
    change o.outgoing.getNextFrame.1.outgoingFramesLength < 2 ^ 32
    rw [Outgoing.getNextFrame]
    split
    · exact Nat.mod_lt _ (Nat.two_pow_pos 32)
    · exact Nat.two_pow_pos 32

theorem accounted_new : Accounted {} where
  length := rfl
  order := rfl
  raised := fun h => nomatch h

/-- **The counter of a connection.** In a run the counter is right after every step, the frames are
taken in order, and the listener hears that the queue is empty only when it is, exactly if all that
is added to the counter fits and no pong with a payload is sent. -/
theorem accounted_iff (steps : List OutgoingStep) :
    (∀ ss, ss <+: steps → Accounted (run step {} ss)) ↔ Meets step Keeps {} steps := by
  refine forall_prefix_iff_meets
    (I := fun _ (o : OutgoingRun) => o.outgoing.outgoingFramesLength < 2 ^ 32)
    (P := fun _ o => Accounted o) (Nat.two_pow_pos 32) accounted_new ?_ ?_ steps
  · intro ss s hlt _ _
    exact outgoingFramesLength_lt hlt s
  · intro ss s hlt h
    exact accounted_step h hlt s

theorem turn_ping : (({} : Connection).turn [0x89, 0x01]).1 =
    { header := some ⟨[0x89, 0x01]⟩, pong := some (Frame.new true .pong none 1) } := by
  decide

/-- When the byte comes, its pong is not counted. -/
theorem not_accounted_ping :
    ¬∀ ss, ss <+: [OutgoingStep.receive 0x89 [0x01], .receive 0x61 []] →
      Accounted (run step {} ss) := by
  intro h
  have hbegun := h [.receive 0x89 [0x01]] (by simp)
  have hended := h _ (List.prefix_refl _)
  rw [run_cons, run_nil] at hbegun
  rw [run_cons, run_cons, run_nil] at hended
  have hconnection : (step {} (.receive 0x89 [0x01])).outgoing.connection =
      { header := some ⟨[0x89, 0x01]⟩, pong := some (Frame.new true .pong none 1) } := turn_ping
  have hkeeps := (accounted_step hbegun (Nat.two_pow_pos 32) (.receive 0x61 [])).1 hended
  rw [Keeps, hconnection] at hkeeps
  have hzero := hkeeps ⟨_, rfl, by decide, by decide⟩ _ rfl
  rw [getPayloadSize_new] at hzero
  cases hzero

end OutgoingRun

end WebSocket

end McuMediaServer
