import McuMediaServer.WebSocket.Connection

/-!
# The frames of a byte stream

What a stream of bytes says by itself, however it is cut: the frames it holds, the last one as far
as its bytes have come, what a listener has to be told of them, and the pongs they ask for. The
connection is compared with this reading of the stream.
-/

namespace McuMediaServer

namespace WebSocket

open ByteSeq

/-! ## Headers -/

variable {h : WebSocketFrameHeader}

namespace WebSocketFrameHeader

/-- All bytes of the header are there. -/
def IsComplete (h : WebSocketFrameHeader) : Prop :=
  h.getSize = h.data.length

instance (h : WebSocketFrameHeader) : Decidable h.IsComplete :=
  inferInstanceAs (Decidable (_ = _))

/-- Byte `i` of the payload is masked with this byte of the key, which ends the header. -/
def key (h : WebSocketFrameHeader) (i : Nat) : UInt8 :=
  h.data.getD (1 + h.getPayloadLenghtSize + i % 4) 0

/-- The frames of a message. -/
def IsMessage (h : WebSocketFrameHeader) : Prop :=
  h.getOpCode = .continuationFrame ∨ h.getOpCode = .textFrame ∨ h.getOpCode = .binaryFrame

instance (h : WebSocketFrameHeader) : Decidable h.IsMessage :=
  inferInstanceAs (Decidable (_ ∨ _ ∨ _))

theorem two_le_getSize (h : WebSocketFrameHeader) : 2 ≤ h.getSize := by
  have hlen : 1 ≤ h.getPayloadLenghtSize := by
    simp only [getPayloadLenghtSize]
    split_ifs <;> omega
  unfold getSize
  omega

theorem IsComplete.two_le (hc : h.IsComplete) : 2 ≤ h.data.length :=
  hc ▸ h.two_le_getSize

theorem getSize_append {xs : List UInt8} (ys : List UInt8) (hxs : 2 ≤ xs.length) :
    getSize ⟨xs ++ ys⟩ = getSize ⟨xs⟩ := by
  have hbyte : byte ⟨xs ++ ys⟩ 1 = byte ⟨xs⟩ 1 := by
    rw [byte, byte, List.getD_append _ _ _ _ (by omega)]
  simp [getSize, getPayloadLenghtSize, isMasked, hbyte]

end WebSocketFrameHeader

/-! ## Frames -/

/-- A frame as far as its bytes have come. -/
structure ReceivedFrame where
  header : WebSocketFrameHeader
  /-- The bytes of the payload, as they stand in the stream. -/
  payload : List UInt8
  deriving DecidableEq, Repr

/-- What a listener hears of the events, byte by byte. -/
inductive Signal where
  | start (type : MessageType) (length : Nat)
  | byte (value : UInt8)
  | stop
  deriving DecidableEq, Repr

/-- What is heard of an event. -/
def Event.signals : Event → List Signal
  | messageStart type length => [.start type length]
  | messageData data => data.map .byte
  | messageEnd => [.stop]

namespace ReceivedFrame

/-- The bytes of the frame that have come. -/
def bytes (f : ReceivedFrame) : List UInt8 :=
  f.header.data ++ f.payload

/-- The whole payload is there. -/
def IsComplete (f : ReceivedFrame) : Prop :=
  f.payload.length = f.header.getPayloadLength

instance (f : ReceivedFrame) : Decidable f.IsComplete :=
  inferInstanceAs (Decidable (_ = _))

/-- The payload without its mask. -/
def unmasked (f : ReceivedFrame) : List UInt8 :=
  if f.header.isMasked then
    f.payload.mapIdx fun i b => b ^^^ f.header.key i
  else
    f.payload

/-- What the header makes heard. The length of a message is told as a `DWORD`. -/
def started (f : ReceivedFrame) : List Signal :=
  match f.header.getOpCode with
  | .textFrame => [.start .text (f.header.getPayloadLength % 2 ^ 32)]
  | .binaryFrame => [.start .binary (f.header.getPayloadLength % 2 ^ 32)]
  | _ => []

/-- What the payload makes heard. -/
def heard (f : ReceivedFrame) : List Signal :=
  if f.header.IsMessage then f.unmasked.map .byte else []

/-- What the end of the frame makes heard. -/
def stopped (f : ReceivedFrame) : List Signal :=
  if f.header.IsMessage ∧ f.header.isFin then [.stop] else []

/-- What the frame makes heard. -/
def signals (f : ReceivedFrame) : List Signal :=
  f.started ++ f.heard ++ if f.IsComplete then f.stopped else []

/-- A ping, all of it. -/
def AsksForPong (f : ReceivedFrame) : Prop :=
  f.IsComplete ∧ f.header.getOpCode = .ping

instance (f : ReceivedFrame) : Decidable f.AsksForPong :=
  inferInstanceAs (Decidable (_ ∧ _))

/-- The header of the pong that answers a ping. -/
def pongHeader (f : ReceivedFrame) : WebSocketFrameHeader :=
  .new true .pong f.header.getPayloadLength 0

/-- The pong that answers a ping: one frame with the same payload. -/
def pong (f : ReceivedFrame) : List UInt8 :=
  f.pongHeader.data ++ f.unmasked

@[simp]
theorem length_unmasked (f : ReceivedFrame) : f.unmasked.length = f.payload.length := by
  unfold unmasked
  split <;> simp

end ReceivedFrame

/-- A complete header at the start of a stream and what follows it. -/
def splitHeader (stream : List UInt8) : Option (WebSocketFrameHeader × List UInt8) :=
  let size := WebSocketFrameHeader.getSize ⟨stream⟩
  if stream.length < size then none else some (⟨stream.take size⟩, stream.drop size)

/-- The frames at the start of a stream, at most `fuel` of them. -/
def takeFrames : Nat → List UInt8 → List ReceivedFrame
  | 0, _ => []
  | fuel + 1, stream =>
    match splitHeader stream with
    | none => []
    | some (h, rest) =>
      ⟨h, rest.take h.getPayloadLength⟩ :: takeFrames fuel (rest.drop h.getPayloadLength)

/-- The frames of a stream. Each takes two bytes at least. -/
def receivedFrames (stream : List UInt8) : List ReceivedFrame :=
  takeFrames stream.length stream

/-- What a listener has to hear of a stream. -/
def expectedSignals (stream : List UInt8) : List Signal :=
  (receivedFrames stream).flatMap ReceivedFrame.signals

/-- The pings of a stream that have come to their end. -/
def completedPings (stream : List UInt8) : List ReceivedFrame :=
  (receivedFrames stream).filter fun f => f.AsksForPong

/-- The pongs a stream asks for. -/
def expectedPongs (stream : List UInt8) : List (List UInt8) :=
  (completedPings stream).map ReceivedFrame.pong

/-- The stream ends right behind the header of a frame that has no payload and whose end has to be
told: the last frame of a message or a ping. -/
def EndsAtEmptyFrame (stream : List UInt8) : Prop :=
  (receivedFrames stream).flatMap ReceivedFrame.bytes = stream ∧
    ∃ f, (receivedFrames stream).getLast? = some f ∧ f.header.getPayloadLength = 0 ∧
      (f.header.IsMessage ∧ f.header.isFin ∨ f.header.getOpCode = .ping)

/-- The pong has a size that a `DWORD` can hold. -/
def ReceivedFrame.PongFits (f : ReceivedFrame) : Prop :=
  f.header.getPayloadLength + f.pongHeader.getSize < 2 ^ 32

/-! ## Reading a stream frame by frame -/

variable {stream : List UInt8}

section Reading

open WebSocketFrameHeader

theorem splitHeader_eq_none (h : stream.length < getSize ⟨stream⟩) : splitHeader stream = none :=
  if_pos h

theorem splitHeader_append (hc : h.IsComplete) (rest : List UInt8) :
    splitHeader (h.data ++ rest) = some (h, rest) := by
  have hsize : getSize ⟨h.data ++ rest⟩ = h.data.length :=
    (getSize_append rest hc.two_le).trans hc
  unfold splitHeader
  rw [hsize, if_neg (by simp), List.take_left, List.drop_left]

theorem length_of_splitHeader {stream rest : List UInt8}
    (hs : splitHeader stream = some (h, rest)) : rest.length + 2 ≤ stream.length := by
  have hsize := two_le_getSize ⟨stream⟩
  simp only [splitHeader] at hs
  split_ifs at hs with hlt
  cases hs
  rw [List.length_drop]
  omega

attribute [local simp] takeFrames in
theorem takeFrames_of_le {fuel : Nat} (hle : stream.length ≤ fuel) :
    takeFrames fuel stream = receivedFrames stream := by
  have key : ∀ fuel fuel' (stream : List UInt8), stream.length ≤ fuel → stream.length ≤ fuel' →
      takeFrames fuel stream = takeFrames fuel' stream := by
    intro fuel
    induction fuel with
    | zero =>
      intro fuel' stream h _
      have hnil : stream = [] := List.length_eq_zero_iff.1 (by omega)
      subst hnil
      cases fuel' <;> rfl
    | succ fuel ih =>
      intro fuel' stream h h'
      cases fuel' with
      | zero =>
        have hnil : stream = [] := List.length_eq_zero_iff.1 (by omega)
        subst hnil
        rfl
      | succ fuel' =>
        simp only [takeFrames]
        cases hs : splitHeader stream with
        | none => rfl
        | some split =>
          have hlen := length_of_splitHeader hs
          have hdrop : (split.2.drop split.1.getPayloadLength).length ≤ split.2.length := by simp
          simp only
          rw [ih fuel' _ (by omega) (by omega)]
  exact key _ _ stream hle le_rfl

theorem receivedFrames_of_none (hs : splitHeader stream = none) : receivedFrames stream = [] := by
  unfold receivedFrames
  cases stream with
  | nil => rfl
  | cons b stream => simp [takeFrames, hs]

theorem receivedFrames_of_some {stream rest : List UInt8}
    (hs : splitHeader stream = some (h, rest)) :
    receivedFrames stream =
      ⟨h, rest.take h.getPayloadLength⟩ :: receivedFrames (rest.drop h.getPayloadLength) := by
  have hlen := length_of_splitHeader hs
  obtain ⟨fuel, hfuel⟩ : ∃ fuel, stream.length = fuel + 1 := ⟨stream.length - 1, by omega⟩
  have hrest : (rest.drop h.getPayloadLength).length ≤ fuel := by
    rw [List.length_drop]
    omega
  rw [receivedFrames, hfuel, takeFrames, hs, ← takeFrames_of_le hrest]

theorem receivedFrames_last (hc : h.IsComplete) {payload : List UInt8}
    (hle : payload.length ≤ h.getPayloadLength) :
    receivedFrames (h.data ++ payload) = [⟨h, payload⟩] := by
  rw [receivedFrames_of_some (splitHeader_append hc payload), List.take_of_length_le hle,
    List.drop_of_length_le hle]
  rfl

theorem receivedFrames_frame {f : ReceivedFrame} (hh : f.header.IsComplete) (hf : f.IsComplete)
    (rest : List UInt8) : receivedFrames (f.bytes ++ rest) = f :: receivedFrames rest := by
  have hlen : f.header.getPayloadLength = f.payload.length := hf.symm
  rw [ReceivedFrame.bytes, List.append_assoc, receivedFrames_of_some (splitHeader_append hh _), hlen,
    List.take_left, List.drop_left]

theorem receivedFrames_frames {fs : List ReceivedFrame}
    (hfs : ∀ f ∈ fs, f.header.IsComplete ∧ f.IsComplete) (rest : List UInt8) :
    receivedFrames (fs.flatMap ReceivedFrame.bytes ++ rest) = fs ++ receivedFrames rest := by
  induction fs with
  | nil => rfl
  | cons f fs ih =>
    obtain ⟨hh, hf⟩ := hfs f List.mem_cons_self
    rw [List.flatMap_cons, List.append_assoc, receivedFrames_frame hh hf,
      ih fun g hg => hfs g (List.mem_cons_of_mem _ hg), List.cons_append]

end Reading

end WebSocket

end McuMediaServer
