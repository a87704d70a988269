import McuMediaServer.WebSocket.Receive

/-!
# Messages cut into frames

A message is sent in frames of at most 1300 bytes. What is proved of the frames is proved by
induction on the loop that cuts them; that the other side puts them together again is then what a
connection makes of any stream, applied to the stream of these frames.
-/

namespace McuMediaServer

namespace WebSocket

open ByteSeq WebSocketFrameHeader

namespace Frame

/-- The header in front of the payload. -/
def header (f : Frame) : WebSocketFrameHeader :=
  ⟨f.getData.take f.headerSize⟩

/-- Reference: `websocketconnection.h:271`. -/
def getPayloadData (f : Frame) : List UInt8 :=
  f.getData.drop f.headerSize

/-- All that has been written fills the buffer: a header of at most 14 bytes that is complete and
names the frame, and the payload it announces. -/
structure Fits (f : Frame) : Prop where
  size : f.written.length = f.size
  headerSize : f.headerSize = f.header.data.length
  header : f.header.IsComplete
  header_le : f.headerSize ≤ 14
  opCode : f.header.getOpCode = f.opCode
  payload : f.getPayloadData.length = f.header.getPayloadLength

/-- The frame as the other side receives it. -/
def received (f : Frame) : ReceivedFrame :=
  ⟨f.header, f.getPayloadData⟩

theorem bytes_received (f : Frame) : f.received.bytes = f.getData :=
  List.take_append_drop _ _

end Frame

section Piece

variable (last : Bool) (code : OpCode) {piece : List UInt8} (hlen : piece.length ≤ 1300)
include hlen

theorem length_data_new_le :
    (WebSocketFrameHeader.new last code piece.length 0).data.length ≤ 4 := by
  obtain ⟨w, rest, heq, hcases⟩ := exists_lengthBytes piece.length
  rw [data_new, heq, List.length_append, List.length_append, length_be1, length_be1]
  rcases hcases with ⟨-, -, rfl⟩ | ⟨-, -, -, rfl⟩ | ⟨hge, -⟩
  · simp
  · simp
  · omega

theorem new_piece :
    Frame.new last code (some piece) piece.length =
      { opCode := code
        written := (WebSocketFrameHeader.new last code piece.length 0).data ++ piece
        size := ((WebSocketFrameHeader.new last code piece.length 0).data ++ piece).length
        headerSize := (WebSocketFrameHeader.new last code piece.length 0).data.length } := by
  have hheader := length_data_new_le last code hlen
  have hsize : (piece.length + (WebSocketFrameHeader.new last code piece.length 0).data.length) %
      2 ^ 32 = piece.length + (WebSocketFrameHeader.new last code piece.length 0).data.length :=
    Nat.mod_eq_of_lt (by omega)
  simp only [Frame.new, Frame.append, getSize_new, hsize, Nat.lt_irrefl, if_false,
    List.length_append]
  rw [Nat.add_comm piece.length]

theorem getData_piece : (Frame.new last code (some piece) piece.length).getData =
    (WebSocketFrameHeader.new last code piece.length 0).data ++ piece := by
  rw [new_piece last code hlen, Frame.getData, Nat.sub_self, List.replicate_zero, List.append_nil,
    List.take_length]

theorem received_piece : (Frame.new last code (some piece) piece.length).received =
    ⟨WebSocketFrameHeader.new last code piece.length 0, piece⟩ := by
  rw [Frame.received, Frame.header, Frame.getPayloadData, getData_piece last code hlen,
    new_piece last code hlen]
  simp

theorem fits_piece : (Frame.new last code (some piece) piece.length).Fits := by
  have hreceived := received_piece last code hlen
  have hheader : (Frame.new last code (some piece) piece.length).header =
      WebSocketFrameHeader.new last code piece.length 0 := congrArg ReceivedFrame.header hreceived
  have hpayload : (Frame.new last code (some piece) piece.length).getPayloadData = piece :=
    congrArg ReceivedFrame.payload hreceived
  have hle := length_data_new_le last code hlen
  refine ⟨?_, ?_, ?_, ?_, ?_, ?_⟩
  · rw [new_piece last code hlen]
  · rw [hheader, new_piece last code hlen]
  · rw [hheader]
    exact getSize_new _ _ _
  · rw [new_piece last code hlen]
    exact hle.trans (by decide)
  · rw [hheader, getOpCode_new, new_piece last code hlen]
  · rw [hheader, hpayload, getPayloadLength_new _ _ _ (by omega)]

/-- What a listener hears at the start of a message with this code. -/
def startSignals (code : OpCode) (length : Nat) : List Signal :=
  match code with
  | .textFrame => [.start .text length]
  | .binaryFrame => [.start .binary length]
  | _ => []

theorem signals_piece
    (hcode : code = .continuationFrame ∨ code = .textFrame ∨ code = .binaryFrame) :
    (ReceivedFrame.mk (WebSocketFrameHeader.new last code piece.length 0) piece).signals =
      startSignals code piece.length ++ piece.map .byte ++ if last then [.stop] else [] := by
  have hlength : (WebSocketFrameHeader.new last code piece.length 0).getPayloadLength =
      piece.length := getPayloadLength_new _ _ _ (by omega)
  have hmod : piece.length % 2 ^ 32 = piece.length := Nat.mod_eq_of_lt (by omega)
  have hmessage : (WebSocketFrameHeader.new last code piece.length 0).IsMessage := by
    rwa [IsMessage, getOpCode_new]
  have hstarted : (ReceivedFrame.mk (WebSocketFrameHeader.new last code piece.length 0)
      piece).started = startSignals code piece.length := by
    simp only [ReceivedFrame.started, getOpCode_new, hlength, hmod]
    rfl
  have hcomplete : (ReceivedFrame.mk (WebSocketFrameHeader.new last code piece.length 0)
      piece).IsComplete := hlength.symm
  rw [ReceivedFrame.signals, hstarted, ReceivedFrame.heard, if_pos hmessage,
    ReceivedFrame.unmasked, isMasked_new, if_pos hcomplete, ReceivedFrame.stopped, isFin_new]
  simp [hmessage]

end Piece

/-- The frames carry the data: its bytes in order, under this code in the first frame and as
continuations in the others, of which the last is marked. -/
structure Carries (code : OpCode) (data : List UInt8) (frames : List Frame) : Prop where
  payload : frames.flatMap Frame.getPayloadData = data
  opCodes : frames.map Frame.opCode =
    code :: List.replicate (frames.length - 1) .continuationFrame
  fins : frames.map (fun f => f.header.isFin) = List.replicate (frames.length - 1) false ++ [true]
  fits : ∀ f ∈ frames, f.Fits
  unmasked : ∀ f ∈ frames, f.header.isMasked = false
  nonempty : ∀ f ∈ frames, f.getPayloadData ≠ []
  heard : (frames.map Frame.received).flatMap ReceivedFrame.signals =
    startSignals code (min data.length 1300) ++ data.map .byte ++ [.stop]

variable {data : List UInt8}

/-- **Cutting.** The loop cuts all of a message. -/
theorem carries_sendFrames {fuel : Nat} {code : OpCode}
    (hcode : code = .continuationFrame ∨ code = .textFrame ∨ code = .binaryFrame) (hne : data ≠ [])
    (hfuel : data.length ≤ fuel) : Carries code data (Connection.sendFrames fuel code data) := by
  induction fuel generalizing code data with
  | zero => exact absurd (List.length_eq_zero_iff.1 (by omega)) hne
  | succ fuel ih =>
    have hpos : 0 < data.length := List.length_pos_iff.2 hne
    simp only [Connection.sendFrames]
    generalize hn : min data.length 1300 = n
    have htake : (data.take n).length = n := by
      rw [List.length_take]
      omega
    have hlen : (data.take n).length ≤ 1300 := by omega
    have hpiece : data.take n ≠ [] := List.ne_nil_of_length_pos (by omega)
    generalize hl : decide (n = data.length) = last
    have hreceived := received_piece last code hlen
    have hsignals := signals_piece last code hlen hcode
    have hfits := fits_piece last code hlen
    have hopCode : (Frame.new last code (some (data.take n)) (data.take n).length).opCode = code := by
      rw [new_piece last code hlen]
    rw [htake] at hreceived hsignals hfits hopCode
    rw [← hreceived] at hsignals
    generalize Frame.new last code (some (data.take n)) n = frame at *
    have hheader : frame.header = WebSocketFrameHeader.new last code n 0 :=
      congrArg ReceivedFrame.header hreceived
    have hpayload : frame.getPayloadData = data.take n := congrArg ReceivedFrame.payload hreceived
    have hfin : frame.header.isFin = last := by rw [hheader, isFin_new]
    have hmask : frame.header.isMasked = false := by rw [hheader, isMasked_new]
    cases last with
    | true =>
      have hall : n = data.length := of_decide_eq_true hl
      refine ⟨?_, ?_, ?_, ?_, ?_, ?_, ?_⟩
      · simp [hpayload, hall]
      · simp [hopCode]
      · simp [hfin]
      · simpa using hfits
      · simpa using hmask
      · simpa [hpayload] using hpiece
      · simp [hsignals, hall, hn ▸ hall]
    | false =>
      have hmore : n ≠ data.length := of_decide_eq_false hl
      have hrest : data.drop n ≠ [] := List.ne_nil_of_length_pos (by rw [List.length_drop]; omega)
      have hih := ih (.inl rfl) hrest (by rw [List.length_drop]; omega)
      simp only [Bool.false_eq_true, if_false]
      generalize Connection.sendFrames fuel .continuationFrame (data.drop n) = frames at hih ⊢
      have hframes : frames.length = frames.length - 1 + 1 := by
        have := congrArg List.length hih.opCodes
        simpa using this
      refine ⟨?_, ?_, ?_, ?_, ?_, ?_, ?_⟩
      · rw [List.flatMap_cons, hpayload, hih.payload, List.take_append_drop]
      · rw [List.map_cons, hopCode, hih.opCodes, List.length_cons, Nat.add_sub_cancel, hframes,
          List.replicate_succ, Nat.add_sub_cancel]
      · rw [List.map_cons, hfin, hih.fins, List.length_cons, Nat.add_sub_cancel, hframes,
          List.replicate_succ, Nat.add_sub_cancel, List.cons_append]
      · exact List.forall_mem_cons.2 ⟨hfits, hih.fits⟩
      · exact List.forall_mem_cons.2 ⟨hmask, hih.unmasked⟩
      · exact List.forall_mem_cons.2 ⟨by rwa [hpayload], hih.nonempty⟩
      · rw [List.map_cons, List.flatMap_cons, hsignals, hih.heard, ← hn]
        simp only [startSignals, Bool.false_eq_true, if_false, List.append_nil, List.nil_append,
          List.append_assoc]
        rw [← List.append_assoc (List.map _ _), ← List.map_append, List.take_append_drop]

variable {frames : List Frame}

theorem Carries.receivedFrames_eq {code : OpCode} (h : Carries code data frames) :
    receivedFrames (frames.flatMap Frame.getData) = frames.map Frame.received := by
  have hbytes : frames.flatMap Frame.getData =
      (frames.map Frame.received).flatMap ReceivedFrame.bytes := by
    rw [List.flatMap_map]
    exact List.flatMap_congr fun f _ => f.bytes_received.symm
  have hcomplete : ∀ f ∈ frames.map Frame.received, f.header.IsComplete ∧ f.IsComplete := by
    intro f hf
    obtain ⟨frame, hframe, rfl⟩ := List.mem_map.1 hf
    exact ⟨(h.fits frame hframe).header, (h.fits frame hframe).payload⟩
  rw [hbytes, ← List.append_nil (List.flatMap _ _), receivedFrames_frames hcomplete]
  exact List.append_nil _

theorem Carries.not_endsAtEmptyFrame {code : OpCode}
    (h : Carries code data frames) : ¬EndsAtEmptyFrame (frames.flatMap Frame.getData) := by
  rintro ⟨-, f, hlast, hzero, -⟩
  rw [h.receivedFrames_eq] at hlast
  obtain ⟨frame, hframe, rfl⟩ := List.mem_map.1 (List.mem_of_getLast? hlast)
  refine h.nonempty frame hframe (List.length_eq_zero_iff.1 ?_)
  exact (h.fits frame hframe).payload.trans hzero

theorem Carries.completedPings_eq_nil {code : OpCode}
    (h : Carries code data frames) (hcode : code ≠ .ping) :
    completedPings (frames.flatMap Frame.getData) = [] := by
  rw [completedPings, h.receivedFrames_eq, List.filter_eq_nil_iff]
  intro f hf hasks
  obtain ⟨frame, hframe, rfl⟩ := List.mem_map.1 hf
  have hping : frame.opCode = .ping :=
    (h.fits frame hframe).opCode.symm.trans (of_decide_eq_true hasks).2
  have hop : frame.opCode ∈ code :: List.replicate (frames.length - 1) .continuationFrame :=
    h.opCodes ▸ List.mem_map_of_mem hframe
  rcases List.mem_cons.1 hop with heq | hmem
  · exact hcode (heq.symm.trans hping)
  · rw [hping] at hmem
    cases (List.mem_replicate.1 hmem).2

theorem startSignals_messageCode (type : MessageType) (length : Nat) :
    startSignals (Connection.messageCode type) length = [.start type length] := by
  cases type <;> rfl

end WebSocket

end McuMediaServer
