import McuMediaServer.Base.Run
import McuMediaServer.WebSocket.Frames

/-!
# What a connection makes of a stream

A connection that has been given a stream in pieces stands somewhere in it: behind some complete
frames, in a header or in a payload. What it has told its listener and the pongs it has queued are
those of the frames behind it and of the frame it stands in, up to the end of a frame that has no
payload, which is noticed with the first byte behind it.
-/

namespace McuMediaServer

namespace WebSocket

open ByteSeq WebSocketFrameHeader

/-! ## Masks -/

variable {h : WebSocketFrameHeader}

theorem getD_getMask (hc : h.IsComplete) (hm : h.isMasked) (i : Nat) :
    (be4 h.getMask).getD (i % 4) 0 = h.key i := by
  have hsize : 1 + h.getPayloadLenghtSize + 4 = h.data.length := by
    rw [← hc, getSize, if_pos hm]
  obtain ⟨v, hv⟩ := Option.isSome_iff_exists.1
    ((isSome_get4 h.data (1 + h.getPayloadLenghtSize)).2 (by omega))
  rw [getMask, if_pos hm, hv, Option.getD_some, be4_of_get4 hv, key, List.getD_eq_getElem?_getD,
    List.getD_eq_getElem?_getD, List.getElem?_take_of_lt (Nat.mod_lt i (by omega)),
    List.getElem?_drop]

theorem unmasked_append {f : ReceivedFrame} (hc : f.header.IsComplete) (data : List UInt8) :
    (ReceivedFrame.mk f.header (f.payload ++ data)).unmasked =
      f.unmasked ++ Connection.unmask f.header f.payload.length data := by
  unfold ReceivedFrame.unmasked Connection.unmask
  by_cases hm : f.header.isMasked
  · simp only [if_pos hm, List.mapIdx_append, getD_getMask hc hm]
    simp only [Nat.add_comm]
  · simp only [if_neg hm]

/-! ## Pongs -/

/-- A pong into which the payload of a ping has been put as far as it has come. -/
structure PongOf (f : ReceivedFrame) (frame : Frame) : Prop where
  size : frame.size < 2 ^ 32
  size_eq : f.PongFits → frame.size = f.header.getPayloadLength + f.pongHeader.getSize
  written : f.PongFits → frame.written = f.pong

section Pong

variable {f : ReceivedFrame} {frame : Frame}

theorem length_pong (f : ReceivedFrame) :
    f.pong.length = f.pongHeader.getSize + f.payload.length := by
  rw [ReceivedFrame.pong, List.length_append, ReceivedFrame.length_unmasked,
    ReceivedFrame.pongHeader, getSize_new]

theorem PongOf.new (h : WebSocketFrameHeader) :
    PongOf ⟨h, []⟩ (Frame.new true .pong none (h.getPayloadLength % 2 ^ 32)) where
  size := Nat.mod_lt _ (by omega)
  size_eq := by
    intro hfits
    have hlt : h.getPayloadLength < 2 ^ 32 := Nat.lt_of_le_of_lt (Nat.le_add_right _ _) hfits
    rw [Nat.mod_eq_of_lt hlt]
    exact Nat.mod_eq_of_lt hfits
  written := by
    intro hfits
    have hlt : h.getPayloadLength < 2 ^ 32 := Nat.lt_of_le_of_lt (Nat.le_add_right _ _) hfits
    rw [Nat.mod_eq_of_lt hlt, ReceivedFrame.pong, ReceivedFrame.unmasked]
    simp [Frame.new, ReceivedFrame.pongHeader]

theorem PongOf.append (hp : PongOf f frame) (hc : f.header.IsComplete) {data : List UInt8}
    (hle : (f.payload ++ data).length ≤ f.header.getPayloadLength) :
    PongOf ⟨f.header, f.payload ++ data⟩
      (frame.append (Connection.unmask f.header f.payload.length data)) := by
  have hlen : (Connection.unmask f.header f.payload.length data).length = data.length := by
    unfold Connection.unmask
    split <;> simp
  rw [List.length_append] at hle
  constructor
  · unfold Frame.append
    split
    · exact hp.size
    · exact hp.size
  · intro hfits
    have hsize := hp.size_eq hfits
    unfold Frame.append
    split
    · exact hsize
    · exact hsize
  · intro hfits
    have hwritten := hp.written hfits
    have hroom : ¬frame.size < ((Connection.unmask f.header f.payload.length data).length +
        frame.written.length) % 2 ^ 32 := by
      rw [hp.size_eq hfits, hlen, hwritten, length_pong]
      exact Nat.not_lt.2 ((Nat.mod_le _ _).trans (by omega))
    rw [Frame.append, if_neg hroom, ReceivedFrame.pong, unmasked_append hc, ← List.append_assoc,
      hwritten]
    rfl

theorem PongOf.getData_eq_iff (hp : PongOf f frame) (hf : f.IsComplete) :
    frame.getData = f.pong ↔ f.PongFits := by
  have hlen : f.pong.length = f.header.getPayloadLength + f.pongHeader.getSize := by
    rw [length_pong, hf, Nat.add_comm]
  constructor
  · intro hdata
    have hle : frame.getData.length ≤ frame.size := List.length_take_le _ _
    have hsize := hp.size
    rw [hdata, hlen] at hle
    exact Nat.lt_of_le_of_lt hle hsize
  · intro hfits
    have hsize : frame.size = f.pong.length := (hp.size_eq hfits).trans hlen.symm
    rw [Frame.getData, hp.written hfits, hsize, Nat.sub_self, List.replicate_zero, List.append_nil,
      List.take_length]

end Pong

/-! ## Where a connection stands in a stream -/

/-- What has been told and queued for the frames that are complete; `heard` is what has been told of
the frame behind them. -/
structure Told (c : Connection) (done : List ReceivedFrame) (heard : List Signal) : Prop where
  complete : ∀ f ∈ done, f.header.IsComplete ∧ f.IsComplete
  events : c.events.flatMap Event.signals = done.flatMap ReceivedFrame.signals ++ heard
  pongs : List.Forall₂ PongOf (done.filter fun f => f.AsksForPong) c.frames

/-- What the pong of a ping is while its payload comes. -/
def PongFor (c : Connection) (f : ReceivedFrame) : Prop :=
  c.pong = none ∧ f.header.getOpCode ≠ .ping ∨
    f.header.getOpCode = .ping ∧ ∃ frame, c.pong = some frame ∧ PongOf f frame

/-- The connection has taken the stream. It stands in a header of which it has `part`, or in the
payload of a frame `f`. -/
inductive Reads (c : Connection) : List UInt8 → Prop
  | header {done : List ReceivedFrame} {part : List UInt8} (hheader : c.header = none)
      (hpong : c.pong = none) (hpart : c.headerParser.header.getD ⟨[]⟩ = ⟨part⟩)
      (hlt : part.length < getSize ⟨part⟩) (htold : Told c done []) :
      Reads c (done.flatMap ReceivedFrame.bytes ++ part)
  | payload {done : List ReceivedFrame} {f : ReceivedFrame} (hheader : c.header = some f.header)
      (hparser : c.headerParser = {}) (hcomplete : f.header.IsComplete)
      (hpos : c.framePos = f.payload.length) (hle : f.payload.length ≤ f.header.getPayloadLength)
      (hempty : f.IsComplete → f.header.getPayloadLength = 0)
      (hpong : PongFor c f)
      (htold : Told c done (f.started ++ f.heard)) :
      Reads c (done.flatMap ReceivedFrame.bytes ++ f.bytes)

theorem Reads.nil : Reads {} [] :=
  .header rfl rfl rfl (by decide)
    ⟨fun f hf => absurd hf List.not_mem_nil, rfl, .nil⟩

/-- Between two frames, the last one is not an empty one that ends the stream: its end is noticed
with the first byte behind it. -/
def Settled (c : Connection) (stream : List UInt8) : Prop :=
  c.header = none → ¬EndsAtEmptyFrame stream

variable {part : List UInt8}

section Position

variable {done : List ReceivedFrame} (hdone : ∀ f ∈ done, f.header.IsComplete ∧ f.IsComplete)
include hdone

theorem receivedFrames_header (hlt : part.length < getSize ⟨part⟩) :
    receivedFrames (done.flatMap ReceivedFrame.bytes ++ part) = done := by
  rw [receivedFrames_frames hdone, receivedFrames_of_none (splitHeader_eq_none hlt),
    List.append_nil]

theorem receivedFrames_payload {f : ReceivedFrame} (hc : f.header.IsComplete)
    (hle : f.payload.length ≤ f.header.getPayloadLength) :
    receivedFrames (done.flatMap ReceivedFrame.bytes ++ f.bytes) = done ++ [f] := by
  rw [receivedFrames_frames hdone, ReceivedFrame.bytes, receivedFrames_last hc hle]

theorem not_endsAtEmptyFrame_header (hlt : part.length < getSize ⟨part⟩)
    (hne : part ≠ []) : ¬EndsAtEmptyFrame (done.flatMap ReceivedFrame.bytes ++ part) := by
  rintro ⟨hall, -⟩
  rw [receivedFrames_header hdone hlt] at hall
  exact hne (List.self_eq_append_right.1 hall)

theorem endsAtEmptyFrame_payload_iff {f : ReceivedFrame} (hc : f.header.IsComplete)
    (hle : f.payload.length ≤ f.header.getPayloadLength) :
    EndsAtEmptyFrame (done.flatMap ReceivedFrame.bytes ++ f.bytes) ↔
      f.header.getPayloadLength = 0 ∧
        (f.header.IsMessage ∧ f.header.isFin ∨ f.header.getOpCode = .ping) := by
  rw [EndsAtEmptyFrame, receivedFrames_payload hdone hc hle, List.getLast?_append_cons]
  simp

end Position

section Turn

variable {c : Connection} {stream data : List UInt8}

theorem parse_header {p : Parser}
    (hpart : p.header.getD ⟨[]⟩ = ⟨part⟩) (hlt : part.length < getSize ⟨part⟩) (hdata : data ≠ []) :
    ∃ n, 0 < n ∧ n ≤ data.length ∧ p.parse data = (⟨some ⟨part ++ data.take n⟩⟩, n) ∧
      (IsComplete ⟨part ++ data.take n⟩ ∨
        n = data.length ∧ (part ++ data).length < getSize ⟨part ++ data⟩) := by
  have hpos : 0 < data.length := List.length_pos_iff.2 hdata
  simp only [Parser.parse, hpart]
  by_cases hc : min (2 - part.length) data.length < data.length
  · have hc2 : min (2 - part.length) data.length = 2 - part.length := by omega
    rw [if_pos hc]
    have hbase : (part ++ data.take (2 - part.length)).length = max 2 part.length := by
      rw [List.length_append, List.length_take]
      omega
    have hsize (n : Nat) (hn : 2 - part.length ≤ n) :
        getSize ⟨part ++ data.take n⟩ = getSize ⟨part ++ data.take (2 - part.length)⟩ := by
      obtain ⟨k, rfl⟩ := Nat.exists_eq_add_of_le hn
      rw [List.take_add, ← List.append_assoc, getSize_append _ (by omega)]
    have htwo := two_le_getSize ⟨part ++ data.take (2 - part.length)⟩
    -- the header has room for a byte more, behind its first two at the latest
    have hroom : part.length < getSize ⟨part ++ data.take (2 - part.length)⟩ := by
      by_cases h2 : 2 ≤ part.length
      · rwa [getSize_append _ h2]
      · omega
    rw [hc2, hbase, List.append_assoc, ← List.take_add]
    generalize hn : 2 - part.length + min (getSize ⟨part ++ data.take (2 - part.length)⟩ -
      max 2 part.length) (data.length - (2 - part.length)) = n
    refine ⟨n, by omega, by omega, rfl, ?_⟩
    by_cases hall : n = data.length ∧ (part ++ data.take n).length < getSize ⟨part ++ data.take n⟩
    · refine .inr ⟨hall.1, ?_⟩
      have hlt := hall.2
      rwa [hall.1, List.take_length] at hlt
    · left
      rw [hsize n (by omega), List.length_append, List.length_take] at hall
      rw [WebSocketFrameHeader.IsComplete, hsize n (by omega), List.length_append, List.length_take]
      omega
  · have hall : min (2 - part.length) data.length = data.length := by omega
    have hle : (part ++ data).length ≤ 2 := by
      rw [List.length_append]
      omega
    have htwo := two_le_getSize ⟨part ++ data⟩
    rw [if_neg hc, hall]
    refine ⟨data.length, hpos, le_rfl, rfl, ?_⟩
    rw [List.take_length]
    rcases Nat.lt_or_ge (part ++ data).length (getSize ⟨part ++ data⟩) with hlt | hge
    · exact .inr ⟨rfl, hlt⟩
    · exact .inl (show getSize _ = (part ++ data).length by omega)

theorem headerReceived_told {done : List ReceivedFrame} (htold : Told c done []) (hpong : c.pong = none)
    (h : WebSocketFrameHeader) :
    Told (c.headerReceived h) done ((ReceivedFrame.mk h []).started ++ (ReceivedFrame.mk h []).heard) ∧
      PongFor (c.headerReceived h) ⟨h, []⟩ := by
  have hheard : (ReceivedFrame.mk h []).heard = [] := by
    simp [ReceivedFrame.heard, ReceivedFrame.unmasked]
  obtain ⟨hcomplete, hevents, hpongs⟩ := htold
  rw [List.append_nil] at hevents
  rw [hheard, List.append_nil]
  unfold Connection.headerReceived ReceivedFrame.started
  split
  · rename_i hop
    refine ⟨⟨hcomplete, ?_, hpongs⟩, .inl ⟨hpong, by simp [hop]⟩⟩
    simp [Connection.notify, hevents, hop, Event.signals]
  · rename_i hop
    refine ⟨⟨hcomplete, ?_, hpongs⟩, .inl ⟨hpong, by simp [hop]⟩⟩
    simp [Connection.notify, hevents, hop, Event.signals]
  · rename_i hop
    exact ⟨⟨hcomplete, by simp [hevents, hop], hpongs⟩, .inl ⟨hpong, by simp [hop]⟩⟩
  · rename_i hop
    exact ⟨⟨hcomplete, by simp [hevents, hop], hpongs⟩, .inr ⟨hop, _, rfl, .new h⟩⟩
  · rename_i htext hbinary _ hping
    exact ⟨⟨hcomplete, by simp [hevents], hpongs⟩, .inl ⟨hpong, hping⟩⟩

theorem headerReceived_frame (c : Connection) (h : WebSocketFrameHeader) :
    (c.headerReceived h).header = c.header ∧ (c.headerReceived h).framePos = c.framePos ∧
      (c.headerReceived h).headerParser = c.headerParser := by
  unfold Connection.headerReceived
  split <;> exact ⟨rfl, rfl, rfl⟩

theorem receiveHeader_of_complete {n : Nat}
    (hparse : c.headerParser.parse data = (⟨some h⟩, n)) (hh : h.IsComplete) :
    c.receiveHeader data =
      ({ c with headerParser := {}, framePos := 0, header := some h }.headerReceived h, n) := by
  have hparsed : (Parser.mk (some h)).parsed? = some h := by
    rw [Parser.parsed?, Option.filter_some, if_pos (decide_eq_true (show _ = _ from hh))]
  simp only [Connection.receiveHeader, hparse, hparsed]

theorem receiveHeader_of_short {n : Nat}
    (hparse : c.headerParser.parse data = (⟨some h⟩, n)) (hh : ¬h.IsComplete) :
    c.receiveHeader data = ({ c with headerParser := ⟨some h⟩ }, n) := by
  have hparsed : (Parser.mk (some h)).parsed? = none := by
    rw [Parser.parsed?, Option.filter_some,
      if_neg fun heq : decide (h.getSize = h.data.length) = true => hh (of_decide_eq_true heq)]
  simp only [Connection.receiveHeader, hparse, hparsed]

/-- **Header turn.** A turn that starts in a header takes a byte at least. -/
theorem receiveHeader_reads (hc : c.header = none) (hr : Reads c stream) (hdata : data ≠ []) :
    0 < (c.receiveHeader data).2 ∧ (c.receiveHeader data).2 ≤ data.length ∧
      Reads (c.receiveHeader data).1 (stream ++ data.take (c.receiveHeader data).2) ∧
      Settled (c.receiveHeader data).1 (stream ++ data.take (c.receiveHeader data).2) := by
  cases hr with
  | payload hheader => rw [hc] at hheader; cases hheader
  | @header done part hheader hpong hpart hlt htold =>
    obtain ⟨n, hpos, hle, hparse, hcases⟩ := parse_header hpart hlt hdata
    rw [List.append_assoc]
    rcases hcases with hcomplete | ⟨rfl, hshort⟩
    · rw [receiveHeader_of_complete hparse hcomplete]
      refine ⟨hpos, hle, ?_⟩
      generalize hh : WebSocketFrameHeader.mk (part ++ data.take n) = h at hcomplete
      have hbytes : part ++ data.take n = (ReceivedFrame.mk h []).bytes := by
        rw [← hh, ReceivedFrame.bytes, List.append_nil]
      have hnew : Told { c with headerParser := {}, framePos := 0, header := some h } done [] :=
        ⟨htold.complete, htold.events, htold.pongs⟩
      obtain ⟨htold', hpong'⟩ := headerReceived_told hnew hpong h
      obtain ⟨hheader', hpos', hparser'⟩ := headerReceived_frame
        { c with headerParser := {}, framePos := 0, header := some h } h
      rw [hbytes]
      refine ⟨.payload hheader' hparser' hcomplete hpos' (Nat.zero_le _) (fun hzero => hzero.symm)
        hpong' htold', fun hnone => ?_⟩
      rw [hheader'] at hnone
      cases hnone
    · rw [List.take_length] at hparse
      rw [receiveHeader_of_short hparse fun heq => Nat.ne_of_gt hshort heq, List.take_length]
      have hne : part ++ data ≠ [] := List.append_ne_nil_of_right_ne_nil part hdata
      exact ⟨hpos, le_rfl, .header hheader hpong rfl hshort
        ⟨htold.complete, htold.events, htold.pongs⟩,
        fun _ => not_endsAtEmptyFrame_header htold.complete hshort hne⟩

theorem payloadReceived_told {done : List ReceivedFrame} {f : ReceivedFrame}
    (htold : Told c done (f.started ++ f.heard)) (hpong : PongFor c f)
    (hc : f.header.IsComplete)
    (hle : (f.payload ++ data).length ≤ f.header.getPayloadLength) :
    let c' := c.payloadReceived f.header (Connection.unmask f.header f.payload.length data)
    let f' := ReceivedFrame.mk f.header (f.payload ++ data)
    Told c' done (f'.started ++ f'.heard) ∧ PongFor c' f' := by
  obtain ⟨hcomplete, hevents, hpongs⟩ := htold
  simp only
  have hmessage (hm : f.header.IsMessage) (hping : f.header.getOpCode ≠ .ping) :
      Told (c.notify (.messageData (Connection.unmask f.header f.payload.length data))) done
          ((ReceivedFrame.mk f.header (f.payload ++ data)).started ++
            (ReceivedFrame.mk f.header (f.payload ++ data)).heard) ∧
        PongFor (c.notify (.messageData (Connection.unmask f.header f.payload.length data)))
          ⟨f.header, f.payload ++ data⟩ := by
    refine ⟨⟨hcomplete, ?_, hpongs⟩, ?_⟩
    · simp only [Connection.notify, List.flatMap_append, hevents, ReceivedFrame.heard, if_pos hm,
        unmasked_append hc, List.map_append, List.append_assoc]
      simp [Event.signals, ReceivedFrame.started]
    · rcases hpong with ⟨hnone, -⟩ | ⟨hop, -⟩
      · exact .inl ⟨hnone, hping⟩
      · exact absurd hop hping
  unfold Connection.payloadReceived
  split
  · rename_i hop
    exact hmessage (.inl hop) (by simp [hop])
  · rename_i hop
    exact hmessage (.inr (.inl hop)) (by simp [hop])
  · rename_i hop
    exact hmessage (.inr (.inr hop)) (by simp [hop])
  · rename_i hop
    rcases hpong with ⟨-, hping⟩ | ⟨-, frame, hframe, hpongOf⟩
    · exact absurd hop hping
    have hm : ¬f.header.IsMessage := by simp [IsMessage, hop]
    refine ⟨⟨hcomplete, ?_, hpongs⟩, .inr ⟨hop, _, ?_, hpongOf.append hc hle⟩⟩
    · simpa [ReceivedFrame.heard, hm, ReceivedFrame.started] using hevents
    · simp [hframe]
  · rename_i hcont htext hbinary hping
    have hm : ¬f.header.IsMessage := by
      rintro (hop | hop | hop)
      exacts [hcont hop, htext hop, hbinary hop]
    refine ⟨⟨hcomplete, ?_, hpongs⟩, ?_⟩
    · simpa [ReceivedFrame.heard, hm, ReceivedFrame.started] using hevents
    · rcases hpong with hnone | ⟨hop, -⟩
      · exact .inl hnone
      · exact absurd hop hping

theorem payloadReceived_frame (c : Connection) (h : WebSocketFrameHeader) (data : List UInt8) :
    (c.payloadReceived h data).header = c.header ∧
      (c.payloadReceived h data).headerParser = c.headerParser ∧
        (c.payloadReceived h data).framePos = c.framePos := by
  unfold Connection.payloadReceived
  split <;> exact ⟨rfl, rfl, rfl⟩

theorem frameReceived_told {done : List ReceivedFrame} {f : ReceivedFrame}
    (htold : Told c done (f.started ++ f.heard)) (hpong : PongFor c f)
    (hc : f.header.IsComplete) (hf : f.IsComplete) :
    Told (c.frameReceived f.header) (done ++ [f]) [] ∧ (c.frameReceived f.header).pong = none := by
  obtain ⟨hcomplete, hevents, hpongs⟩ := htold
  have hcomplete' : ∀ g ∈ done ++ [f], g.header.IsComplete ∧ g.IsComplete := by
    intro g hg
    rcases List.mem_append.1 hg with hg | hg
    · exact hcomplete g hg
    · rw [List.mem_singleton.1 hg]
      exact ⟨hc, hf⟩
  have hsignals : (done ++ [f]).flatMap ReceivedFrame.signals ++ [] =
      c.events.flatMap Event.signals ++ f.stopped := by
    rw [List.append_nil, List.flatMap_append, hevents, List.flatMap_singleton,
      ReceivedFrame.signals, if_pos hf, List.append_assoc, List.append_assoc]
    simp only [List.append_assoc]
  have hfilter (hping : f.header.getOpCode ≠ .ping) :
      (done ++ [f]).filter (fun f => f.AsksForPong) = done.filter fun f => f.AsksForPong := by
    simp [ReceivedFrame.AsksForPong, hping]
  have hmessage (hm : f.header.IsMessage) (hping : f.header.getOpCode ≠ .ping) :
      Told (if f.header.isFin then c.notify .messageEnd else c) (done ++ [f]) [] ∧
        (if f.header.isFin then c.notify .messageEnd else c).pong = none := by
    have hnone : c.pong = none := by
      rcases hpong with ⟨hnone, -⟩ | ⟨hop, -⟩
      · exact hnone
      · exact absurd hop hping
    by_cases hfin : f.header.isFin
    · rw [if_pos hfin]
      refine ⟨⟨hcomplete', ?_, (hfilter hping).symm ▸ hpongs⟩, hnone⟩
      rw [hsignals]
      simp [Connection.notify, ReceivedFrame.stopped, hm, hfin, Event.signals]
    · rw [if_neg hfin]
      refine ⟨⟨hcomplete', ?_, (hfilter hping).symm ▸ hpongs⟩, hnone⟩
      rw [hsignals]
      simp [ReceivedFrame.stopped, hfin]
  unfold Connection.frameReceived
  split
  · rename_i hop
    exact hmessage (.inl hop) (by simp [hop])
  · rename_i hop
    exact hmessage (.inr (.inl hop)) (by simp [hop])
  · rename_i hop
    exact hmessage (.inr (.inr hop)) (by simp [hop])
  · rename_i hop
    rcases hpong with ⟨-, hping⟩ | ⟨-, frame, hframe, hpongOf⟩
    · exact absurd hop hping
    have hm : ¬f.header.IsMessage := by simp [IsMessage, hop]
    refine ⟨⟨hcomplete', ?_, ?_⟩, rfl⟩
    · rw [hsignals]
      simp [ReceivedFrame.stopped, hm]
    · have hasks : f.AsksForPong := ⟨hf, hop⟩
      have hlast : [f].filter (fun f => f.AsksForPong) = [f] := by simp [hasks]
      rw [List.filter_append, hlast, hframe]
      exact List.rel_append hpongs (.cons hpongOf .nil)
  · rename_i hcont htext hbinary hping
    have hm : ¬f.header.IsMessage := by
      rintro (hop | hop | hop)
      exacts [hcont hop, htext hop, hbinary hop]
    refine ⟨⟨hcomplete', ?_, ?_⟩, ?_⟩
    · rw [hsignals]
      simp [ReceivedFrame.stopped, hm]
    · rw [hfilter hping]
      exact hpongs
    · rcases hpong with hnone | ⟨hop, -⟩
      · exact hnone.1
      · exact absurd hop hping

theorem frameReceived_frame (c : Connection) (h : WebSocketFrameHeader) :
    (c.frameReceived h).headerParser = c.headerParser := by
  unfold Connection.frameReceived
  split
  case h_1 | h_2 | h_3 => split <;> rfl
  all_goals rfl

/-- The connection once the payload has been told up to a position. -/
def payloadTaken (c : Connection) (h : WebSocketFrameHeader) (data : List UInt8) : Connection :=
  { c.payloadReceived h (Connection.unmask h c.framePos data) with
    framePos := c.framePos + data.length }

theorem receivePayload_eq (c : Connection) (h : WebSocketFrameHeader) (data : List UInt8) :
    ∃ n, n = min (h.getPayloadLength - c.framePos) data.length ∧
      c.receivePayload h data =
        if c.framePos + n = h.getPayloadLength then
          ({ (payloadTaken c h (data.take n)).frameReceived h with header := none }, n)
        else
          (payloadTaken c h (data.take n), n) := by
  refine ⟨_, rfl, ?_⟩
  have hlen : (data.take (min (h.getPayloadLength - c.framePos) data.length)).length =
      min (h.getPayloadLength - c.framePos) data.length := by
    rw [List.length_take, Nat.min_eq_left (Nat.min_le_right _ _)]
  have hpos := (payloadReceived_frame c h (Connection.unmask h c.framePos
    (data.take (min (h.getPayloadLength - c.framePos) data.length)))).2.2
  simp only [Connection.receivePayload, payloadTaken, hlen, hpos]

/-- **Payload turn.** A turn that starts in a payload takes a byte at least or ends the frame. -/
theorem receivePayload_reads (hc : c.header = some h) (hr : Reads c stream) (hdata : data ≠ []) :
    (c.receivePayload h data).2 ≤ data.length ∧
      (0 < (c.receivePayload h data).2 ∨ (c.receivePayload h data).1.header = none) ∧
      Reads (c.receivePayload h data).1 (stream ++ data.take (c.receivePayload h data).2) ∧
      (0 < (c.receivePayload h data).2 →
        Settled (c.receivePayload h data).1 (stream ++ data.take (c.receivePayload h data).2)) := by
  have hpos : 0 < data.length := List.length_pos_iff.2 hdata
  cases hr with
  | header hheader => rw [hc] at hheader; cases hheader
  | @payload done f hheader hparser hcomplete hframePos hle hempty hpong htold =>
    obtain rfl : f.header = h := Option.some.inj (hheader.symm.trans hc)
    obtain ⟨n, hn, heq⟩ := receivePayload_eq c f.header data
    rw [hframePos] at hn heq
    have hnle : n ≤ data.length := by omega
    have htake : (data.take n).length = n := by rw [List.length_take, Nat.min_eq_left hnle]
    have hle' : (f.payload ++ data.take n).length ≤ f.header.getPayloadLength := by
      rw [List.length_append, htake]
      omega
    obtain ⟨htold', hpong'⟩ := payloadReceived_told htold hpong hcomplete hle'
    obtain ⟨hheader', hparser', -⟩ := payloadReceived_frame c f.header
      (Connection.unmask f.header f.payload.length (data.take n))
    rw [← hframePos] at htold' hpong' hheader' hparser'
    have htaken : Told (payloadTaken c f.header (data.take n)) done
        ((ReceivedFrame.mk f.header (f.payload ++ data.take n)).started ++
          (ReceivedFrame.mk f.header (f.payload ++ data.take n)).heard) :=
      ⟨htold'.complete, htold'.events, htold'.pongs⟩
    have hbytes : done.flatMap ReceivedFrame.bytes ++ f.bytes ++ data.take n =
        done.flatMap ReceivedFrame.bytes ++
          (ReceivedFrame.mk f.header (f.payload ++ data.take n)).bytes := by
      simp only [ReceivedFrame.bytes, List.append_assoc]
    rw [heq]
    by_cases hend : f.payload.length + n = f.header.getPayloadLength
    · have hf : (ReceivedFrame.mk f.header (f.payload ++ data.take n)).IsComplete := by
        rw [ReceivedFrame.IsComplete, List.length_append, htake, hend]
      obtain ⟨htold'', hnone⟩ := frameReceived_told htaken hpong' hcomplete hf
      rw [if_pos hend]
      refine ⟨hnle, .inr rfl, ?_⟩
      have hpart : ((payloadTaken c f.header (data.take n)).frameReceived
          f.header).headerParser.header.getD ⟨[]⟩ = ⟨[]⟩ := by
        rw [frameReceived_frame, payloadTaken, hparser', hparser]
        rfl
      have hreads := Reads.header (c := { (payloadTaken c f.header (data.take n)).frameReceived
          f.header with header := none }) rfl hnone hpart (by decide)
        ⟨htold''.complete, htold''.events, htold''.pongs⟩
      simp only
      rw [hbytes]
      refine ⟨by simpa using hreads, fun hn0 _ hempty' => ?_⟩
      have hzero := ((endsAtEmptyFrame_payload_iff htold.complete
        (f := ⟨f.header, f.payload ++ data.take n⟩) hcomplete hle').1 hempty').1
      simp only at hzero
      omega
    · have hn0 : 0 < n := by
        by_contra hzero
        have hf : f.payload.length = f.header.getPayloadLength := by omega
        have := hempty hf
        omega
      rw [if_neg hend]
      refine ⟨hnle, .inl hn0, ?_⟩
      simp only
      rw [hbytes]
      have hpayload : (payloadTaken c f.header (data.take n)).header = some f.header :=
        hheader'.trans hheader
      refine ⟨.payload hpayload (hparser'.trans hparser) hcomplete ?_ hle'
        (fun hf => absurd ?_ hend) hpong' htaken, fun _ hnone => ?_⟩
      · simp only [payloadTaken, hframePos, List.length_append]
      · rw [← show _ = f.header.getPayloadLength from hf, List.length_append, htake]
      · rw [hpayload] at hnone
        cases hnone

end Turn

/-! ## Whole runs -/

theorem processLoop_reads {fuel : Nat} {c : Connection} {stream data : List UInt8}
    (hfuel : 2 * data.length + c.header.toList.length ≤ fuel) (hr : Reads c stream)
    (hs : data = [] → Settled c stream) :
    ∃ c', Connection.processLoop fuel c data = some c' ∧ Reads c' (stream ++ data) ∧
      Settled c' (stream ++ data) := by
  induction fuel generalizing c stream data with
  | zero =>
    have hnil : data = [] := List.length_eq_zero_iff.1 (by omega)
    subst hnil
    rw [List.append_nil]
    exact ⟨c, rfl, hr, hs rfl⟩
  | succ fuel ih =>
    cases data with
    | nil =>
      rw [List.append_nil]
      exact ⟨c, rfl, hr, hs rfl⟩
    | cons byte rest =>
      have hdata : byte :: rest ≠ [] := List.cons_ne_nil _ _
      have hone (c' : Connection) : c'.header.toList.length ≤ 1 := by
        cases c'.header <;> simp
      -- what a turn leaves, given that it takes a byte or ends a frame
      have hturn {c' : Connection} {n : Nat} (hr' : Reads c' (stream ++ (byte :: rest).take n))
          (hs' : 0 < n → Settled c' (stream ++ (byte :: rest).take n))
          (hleft : 2 * ((byte :: rest).length - n) + c'.header.toList.length ≤ fuel) :
          ∃ c'', Connection.processLoop fuel c' ((byte :: rest).drop n) = some c'' ∧
            Reads c'' (stream ++ byte :: rest) ∧ Settled c'' (stream ++ byte :: rest) := by
        have hs'' : (byte :: rest).drop n = [] → Settled c' (stream ++ (byte :: rest).take n) := by
          intro hnil
          rcases Nat.eq_zero_or_pos n with rfl | hn
          · cases hnil
          · exact hs' hn
        obtain ⟨c'', hrun, hr'', hset⟩ := ih (by rwa [List.length_drop]) hr' hs''
        rw [List.append_assoc, List.take_append_drop] at hr'' hset
        exact ⟨c'', hrun, hr'', hset⟩
      cases hheader : c.header with
      | none =>
        obtain ⟨hpos, hle, hr', hs'⟩ := receiveHeader_reads hheader hr hdata
        simp only [Connection.processLoop, hheader]
        generalize c.receiveHeader (byte :: rest) = turn at *
        have := hone turn.1
        exact hturn hr' (fun _ => hs') (by omega)
      | some h =>
        obtain ⟨hle, hpos, hr', hs'⟩ := receivePayload_reads hheader hr hdata
        simp only [Connection.processLoop, hheader]
        generalize c.receivePayload h (byte :: rest) = turn at *
        rw [hheader, Option.toList_some, List.length_singleton] at hfuel
        refine hturn hr' hs' ?_
        have := hone turn.1
        rcases hpos with hpos | hnone
        · omega
        · rw [hnone, Option.toList_none, List.length_nil]
          omega

theorem processData_reads {c : Connection} {stream : List UInt8} (data : List UInt8)
    (hr : Reads c stream) (hs : Settled c stream) :
    ∃ c', c.processData data = some c' ∧ Reads c' (stream ++ data) ∧ Settled c' (stream ++ data) := by
  refine processLoop_reads ?_ hr fun _ => hs
  cases c.header <;> simp

/-- **Run lemma.** However a stream is cut, all of it is taken. -/
theorem processChunks_reads (chunks : List (List UInt8)) :
    ∃ c, Connection.processChunks {} chunks = some c ∧
      Reads c chunks.flatten ∧ Settled c chunks.flatten := by
  refine StepRun.exists_foldlM
    (I := fun chunks c => Reads c chunks.flatten ∧ Settled c chunks.flatten) ?_ ?_ chunks
  · refine ⟨Reads.nil, ?_⟩
    rintro - ⟨-, f, hf, -⟩
    cases hf
  · intro chunks c data ⟨hr, hs⟩
    obtain ⟨c', hrun, hr', hs'⟩ := processData_reads data hr hs
    refine ⟨c', hrun, ?_⟩
    rw [List.flatten_append, List.flatten_singleton]
    exact ⟨hr', hs'⟩

/-- What the listener of a connection has heard. -/
def Connection.heard (c : Connection) : List Signal :=
  c.events.flatMap Event.signals

/-- What has been queued to be sent. -/
def Connection.queued (c : Connection) : List (List UInt8) :=
  c.frames.map Frame.getData

section Agreement

variable {c : Connection} {stream : List UInt8}

theorem map_getData_iff {fs : List ReceivedFrame} {frames : List Frame}
    (hf : ∀ f ∈ fs, f.IsComplete) (h : List.Forall₂ PongOf fs frames) :
    frames.map Frame.getData = fs.map ReceivedFrame.pong ↔ ∀ f ∈ fs, f.PongFits := by
  induction h with
  | nil => simp
  | @cons f frame fs frames hp _ ih =>
    have hhead := hp.getData_eq_iff (hf f List.mem_cons_self)
    have htail := ih fun g hg => hf g (List.mem_cons_of_mem _ hg)
    rw [List.map_cons, List.map_cons, List.cons.injEq, hhead, htail, List.forall_mem_cons]

theorem Told.pongs_iff {done : List ReceivedFrame} {heard : List Signal}
    (htold : Told c done heard) :
    c.queued = (done.filter fun f => f.AsksForPong).map ReceivedFrame.pong ↔
      ∀ f ∈ done.filter fun f => f.AsksForPong, f.PongFits :=
  map_getData_iff (fun f hf => (htold.complete f (List.mem_filter.1 hf).1).2) htold.pongs

theorem Reads.hears_iff (hr : Reads c stream) (hs : Settled c stream) :
    c.heard = expectedSignals stream ∧ c.queued = expectedPongs stream ↔
      ¬EndsAtEmptyFrame stream ∧ ∀ f ∈ completedPings stream, f.PongFits := by
  cases hr with
  | @header done part hheader _ _ hlt htold =>
    have hframes := receivedFrames_header htold.complete hlt
    have hheard : c.heard = done.flatMap ReceivedFrame.signals := by
      rw [Connection.heard, htold.events, List.append_nil]
    rw [expectedSignals, expectedPongs, completedPings, hframes, htold.pongs_iff]
    exact ⟨fun h => ⟨hs hheader, h.2⟩, fun h => ⟨hheard, h.2⟩⟩
  | @payload done f _ _ hcomplete _ hle hempty _ htold =>
    have hframes := receivedFrames_payload htold.complete hcomplete hle
    have hheard : c.heard = done.flatMap ReceivedFrame.signals ++ (f.started ++ f.heard) :=
      htold.events
    have hpongs : c.queued.length = (done.filter fun f => f.AsksForPong).length := by
      rw [Connection.queued, List.length_map, htold.pongs.length_eq]
    rw [endsAtEmptyFrame_payload_iff htold.complete hcomplete hle, expectedSignals, expectedPongs,
      completedPings, hframes, List.flatMap_append, List.flatMap_singleton, List.filter_append,
      hheard, List.append_cancel_left_eq, ReceivedFrame.signals, List.self_eq_append_right]
    have hstopped : (if f.IsComplete then f.stopped else []) = [] ↔
        ¬(f.header.getPayloadLength = 0 ∧ f.header.IsMessage ∧ f.header.isFin) := by
      by_cases hf : f.IsComplete
      · rw [if_pos hf, ReceivedFrame.stopped]
        simp [hempty hf]
      · rw [if_neg hf]
        refine ⟨fun _ hzero => hf ?_, fun _ => rfl⟩
        exact Nat.le_antisymm hle (hzero.1 ▸ Nat.zero_le _)
    rw [hstopped]
    by_cases hping : f.AsksForPong
    · have hlast : [f].filter (fun f => f.AsksForPong) = [f] := by simp [hping]
      rw [hlast]
      constructor
      · rintro ⟨-, hqueued⟩
        rw [hqueued] at hpongs
        simp at hpongs
      · rintro ⟨hnot, -⟩
        exact absurd ⟨hempty hping.1, .inr hping.2⟩ hnot
    · have hlast : [f].filter (fun f => f.AsksForPong) = [] := by simp [hping]
      rw [hlast, List.append_nil, htold.pongs_iff]
      refine and_congr_left fun _ => not_congr (and_congr_right fun hzero => ?_)
      refine ⟨.inl, fun h => h.resolve_right fun hop => hping ⟨?_, hop⟩⟩
      exact Nat.le_antisymm hle (hzero ▸ Nat.zero_le _)

end Agreement

/-- **Events of a stream.** After any pieces of a stream, the listener has heard what the frames and
the payload bytes in them make heard, and their pings have been answered, exactly when the pieces do
not end right behind the header of an empty frame whose end has to be told and no ping is too long
for a frame. Reference: `websocketconnection.cpp:509`. -/
theorem processChunks_iff (chunks : List (List UInt8)) :
    (∃ c, Connection.processChunks {} chunks = some c ∧
        c.heard = expectedSignals chunks.flatten ∧ c.queued = expectedPongs chunks.flatten) ↔
      ¬EndsAtEmptyFrame chunks.flatten ∧ ∀ f ∈ completedPings chunks.flatten, f.PongFits := by
  obtain ⟨c, hrun, hr, hs⟩ := processChunks_reads chunks
  rw [← hr.hears_iff hs, hrun]
  simp

/-- The end of an empty message is not told when its header is complete. -/
theorem not_processChunks_empty :
    ¬∃ c, Connection.processChunks {} [[0x81, 0x00]] = some c ∧
      c.heard = expectedSignals [0x81, 0x00] ∧ c.queued = expectedPongs [0x81, 0x00] := by
  decide

end WebSocket

end McuMediaServer
