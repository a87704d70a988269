import McuMediaServer.Video.VP8Encoder
import McuMediaServer.Video.H263Decoder

/-!
# The H.263 encoder's packets

The encoder of RFC 2429 leaves out the two bytes of zeros that a frame begins with: the first packet
says so in its header of two bytes, and the decoder puts them in front again. The rest of the frame
is cut into payloads, of which each but the last is as long as it can be.
-/

namespace McuMediaServer

open ByteSeq ByteWriter VideoFrame
open H264Depacketizer (Sends sendPackets_eq_marked)
open RTPSmoother (marked map_marked)
open VP8Encoder (rtpPayloadSize marksLast_marked)

namespace H263Encoder

/-- The packets of what is left of a frame that is shorter than an `int` can count. Reference:
`h263codec.cpp:228`. -/
def addPackets (frame : VideoFrame) (header : List UInt8) (ini bufLen : Nat) : Option VideoFrame :=
  if ini < bufLen then do
    let len := rtpPayloadSize - 2
    let len := if bufLen < len + ini then bufLen - ini else len
    let frame ← frame.addRtpPacket ini len header
    let header := if ini = 2 then [0x00, 0x00] else header
    addPackets frame header (ini + len) bufLen
  else
    some frame
termination_by bufLen - ini
decreasing_by
  rw [rtpPayloadSize]
  split <;> omega

/-- The codec writes what it has encoded to the frame, where there is room for it. Reference:
`h263codec.cpp:167`. -/
def encodeFrame (frame : VideoFrame) (encoded : List UInt8) (isIntra : Bool) :
    Option VideoFrame := do
  let buffer ← putAt 0 encoded frame.buffer
  addPackets ⟨buffer, encoded.length, [], isIntra⟩ [0x04, 0x00] 2 encoded.length

end H263Encoder

/-- The payloads of a frame go to the decoder in order, none of them lost. -/
def H263Decoder.decodePackets (ffmpeg : FFmpeg) (dec : H263Decoder) :
    List RTPPacketSched → Option (List (List UInt8) × H263Decoder)
  | [] => some ([], dec)
  | packet :: packets => do
    let (bitstream, dec) ← dec.decodePacket ffmpeg packet.mediaData packet.mark
    let (rest, dec) ← dec.decodePackets ffmpeg packets
    return (bitstream.toList ++ rest, dec)

namespace H263Encoder

/-- What a codec encodes: a picture start code of two bytes of zeros and something behind it. -/
structure Encoded where
  bytes : List UInt8
  three_le : 3 ≤ bytes.length
  begins : bytes.take 2 = [0, 0]
  length_lt : bytes.length < 2 ^ 31

/-- Whether a payload says that it starts a picture. -/
def startsPicture (payload : List UInt8) : Option Bool :=
  (get1 payload 0).map fun first => first / 2 ^ 2 % 2 = 1

/-- The frame is in the payloads behind their headers without its first two bytes, no payload is too
long, only the first one says that it starts a picture, and only the last one has the mark. -/
structure Lists (bytes : List UInt8) (sent : List RTPPacketSched) : Prop where
  bodies : (sent.map (·.mediaData.drop 2)).flatten = bytes.drop 2
  limit : ∀ packet ∈ sent, 2 < packet.mediaData.length ∧ packet.mediaData.length ≤ rtpPayloadSize
  starts : ∀ i, (h : i < sent.length) → startsPicture sent[i].mediaData = some (decide (i = 0))
  marks : Smoothing.MarksLast (sent.map (·.mark))

/-- A decoder between two frames. -/
structure Ready (ffmpeg : FFmpeg) (dec : H263Decoder) : Prop where
  inv : dec.Inv ffmpeg
  bufLen : dec.bufLen = 0

/-- The frame fits the buffer with the padding behind it, and four bytes more, which the decoder
counts for the header and the zeros of each packet. -/
def FitsBuffer (ffmpeg : FFmpeg) (bytes : List UInt8) : Prop :=
  bytes.length + 4 + ffmpeg.inputBufferPaddingSize ≤ H263Decoder.bufSize

/-! ## The payloads -/

/-- The payloads of what is left of a frame. -/
def payloads (header : UInt8) (data : List UInt8) : List (List UInt8) :=
  if data = [] then []
  else (header :: 0 :: data.take 1348) :: payloads 0 (data.drop 1348)
termination_by data.length
decreasing_by
  rename_i h
  have := List.length_pos_iff.2 h
  rw [List.length_drop]
  omega

section Payloads

variable {header : UInt8} {data : List UInt8}

theorem payloads_nil : payloads header [] = [] := by
  rw [payloads, if_pos rfl]

theorem payloads_of_ne_nil (h : data ≠ []) :
    payloads header data = (header :: 0 :: data.take 1348) :: payloads 0 (data.drop 1348) := by
  rw [payloads, if_neg h]

theorem cuts_induction {P : List UInt8 → Prop} (nil : P [])
    (cut : ∀ data, data ≠ [] → P (data.drop 1348) → P data) (data : List UInt8) : P data := by
  induction hn : data.length using Nat.strong_induction_on generalizing data with
  | h n ih =>
    by_cases hdata : data = []
    · rw [hdata]
      exact nil
    · have hpos := List.length_pos_iff.2 hdata
      refine cut data hdata (ih _ ?_ _ rfl)
      rw [List.length_drop]
      omega

theorem bodies_payloads (header : UInt8) (data : List UInt8) :
    ((payloads header data).map (·.drop 2)).flatten = data := by
  induction data using cuts_induction generalizing header with
  | nil =>
    rw [payloads_nil]
    rfl
  | cut data hdata ih =>
    rw [payloads_of_ne_nil hdata, List.map_cons, List.flatten_cons, ih]
    exact List.take_append_drop 1348 data

theorem length_payloads (header : UInt8) (data : List UInt8) :
    ∀ p ∈ payloads header data, 2 < p.length ∧ p.length ≤ rtpPayloadSize := by
  induction data using cuts_induction generalizing header with
  | nil =>
    rw [payloads_nil]
    intro p hp
    cases hp
  | cut data hdata ih =>
    rw [payloads_of_ne_nil hdata, List.forall_mem_cons]
    refine ⟨?_, ih 0⟩
    have hpos := List.length_pos_iff.2 hdata
    rw [List.length_cons, List.length_cons, List.length_take, rtpPayloadSize]
    omega

theorem startsPicture_payloads (data : List UInt8) :
    ∀ p ∈ payloads 0 data, startsPicture p = some false := by
  induction data using cuts_induction with
  | nil =>
    rw [payloads_nil]
    intro p hp
    cases hp
  | cut data hdata ih =>
    rw [payloads_of_ne_nil hdata, List.forall_mem_cons]
    exact ⟨rfl, ih⟩

theorem lists_payloads {bytes : List UInt8} (h : 3 ≤ bytes.length) :
    Lists bytes (marked (payloads 4 (bytes.drop 2))) where
  bodies := by
    have hmap : (marked (payloads 4 (bytes.drop 2))).map (·.mediaData.drop 2) =
        (payloads 4 (bytes.drop 2)).map (·.drop 2) := by
      rw [← map_marked (payloads 4 (bytes.drop 2)), List.map_map, map_marked]
      rfl
    rw [hmap, bodies_payloads]
  limit packet hpacket := by
    refine length_payloads 4 (bytes.drop 2) packet.mediaData ?_
    rw [← map_marked (payloads 4 (bytes.drop 2))]
    exact List.mem_map_of_mem hpacket
  starts i hi := by
    have hne : bytes.drop 2 ≠ [] := by
      rw [Ne, List.drop_eq_nil_iff]
      omega
    have hlen : i < (payloads 4 (bytes.drop 2)).length := by
      rw [← map_marked (payloads 4 (bytes.drop 2)), List.length_map]
      exact hi
    have hget : (marked (payloads 4 (bytes.drop 2)))[i].mediaData =
        (payloads 4 (bytes.drop 2))[i] := by
      rw [← List.getElem_map RTPPacketSched.mediaData (h := by rw [List.length_map]; exact hi)]
      congr 1
      exact map_marked _
    rw [hget]
    have hcut := @payloads_of_ne_nil 4 _ hne
    cases i with
    | zero => simp [hcut, startsPicture, get1]
    | succ i =>
      simp only [hcut, List.getElem_cons_succ]
      exact startsPicture_payloads _ _ (List.getElem_mem _)
  marks := marksLast_marked _

end Payloads

/-! ## The frame -/

section Frame

variable {frame : VideoFrame} {bytes : List UInt8}

theorem addPackets_spec {header : UInt8} {ini bufLen : Nat} (h : ini = 2 ∨ header = 0) :
    ∃ notes, addPackets frame [header, 0] ini bufLen =
        some { frame with rtpInfo := frame.rtpInfo ++ notes } ∧
      ∀ media : List UInt8, media.length = bufLen →
        List.Forall₂ (Sends media) notes (payloads header (media.drop ini)) := by
  induction hn : bufLen - ini using Nat.strong_induction_on generalizing frame header ini with
  | h n ih =>
    subst hn
    rw [addPackets]
    by_cases hini : ini < bufLen
    · rw [if_pos hini]
      dsimp only
      generalize hlen : (if bufLen < rtpPayloadSize - 2 + ini then bufLen - ini
        else rtpPayloadSize - 2) = len
      have hlen' : len = min 1348 (bufLen - ini) := by
        rw [← hlen, rtpPayloadSize]
        split <;> omega
      have hheader : (if ini = 2 then [0x00, 0x00] else [header, 0]) = [(0 : UInt8), 0] := by
        rcases h with htwo | hzero
        · rw [if_pos htwo]
        · rw [hzero, ite_self]
      obtain ⟨notes, hadd, hsends⟩ := @ih (bufLen - (ini + len)) (by omega)
        { frame with rtpInfo := frame.rtpInfo ++ [⟨ini, len, [header, 0], by simp⟩] } 0 (ini + len)
        (.inr rfl) rfl
      refine ⟨⟨ini, len, [header, 0], by simp⟩ :: notes, ?_, ?_⟩
      · have hnote : frame.addRtpPacket ini len [header, 0] = some { frame with
            rtpInfo := frame.rtpInfo ++ [⟨ini, len, [header, 0], by simp⟩] } := by
          rw [VideoFrame.addRtpPacket, RtpPacketization.new, dif_pos (by simp)]
          rfl
        rw [hnote, Option.bind_eq_bind, Option.bind_some, hheader, hadd, List.append_assoc]
        rfl
      · intro media hmedia
        have hne : media.drop ini ≠ [] := by
          rw [Ne, List.drop_eq_nil_iff]
          omega
        have hfirst : (media.drop ini).take 1348 = (media.drop ini).take len := by
          rw [List.take_eq_take_iff, List.length_drop]
          omega
        have hrest : (media.drop ini).drop 1348 = media.drop (ini + len) := by
          rw [List.drop_drop]
          rcases Nat.lt_or_ge (bufLen - ini) 1348 with hshort | hlong
          · rw [List.drop_eq_nil_of_le (by omega), List.drop_eq_nil_of_le (by omega)]
          · rw [hlen', Nat.min_eq_left hlong]
        rw [payloads_of_ne_nil hne, hfirst, hrest]
        refine .cons ⟨?_, rfl⟩ (hsends media hmedia)
        show ini + len ≤ media.length
        omega
    · rw [if_neg hini]
      refine ⟨[], by rw [List.append_nil], ?_⟩
      intro media hmedia
      rw [List.drop_eq_nil_of_le (by omega), payloads_nil]
      exact .nil

theorem sendFrame_encodeFrame (hframe : frame.Inv) (hroom : bytes.length ≤ frame.buffer.length)
    (isIntra : Bool) : ∃ frame', encodeFrame frame bytes isIntra = some frame' ∧
      frame'.media = bytes ∧
        RTPSmoother.sendFrame frame' = some (marked (payloads 4 (bytes.drop 2))) := by
  have hput := @putAt_eq_some 0 bytes frame.buffer (by omega)
  rw [List.take_zero, List.nil_append, Nat.zero_add] at hput
  obtain ⟨notes, hadd, hsends⟩ := @addPackets_spec
    ⟨bytes ++ frame.buffer.drop bytes.length, bytes.length, [], isIntra⟩ 4 2 bytes.length (.inl rfl)
  rw [List.nil_append] at hadd
  have hmedia : VideoFrame.media ⟨bytes ++ frame.buffer.drop bytes.length, bytes.length, notes,
      isIntra⟩ = bytes := List.take_left' rfl
  refine ⟨_, ?_, hmedia, ?_⟩
  · rw [encodeFrame, hput]
    exact hadd
  · refine sendPackets_eq_marked ⟨?_, ?_⟩ ?_ ?_
    · rw [List.length_append]
      exact Nat.le_add_right _ _
    · have hsize := hframe.size_lt
      rw [List.length_append, List.length_drop]
      omega
    · rw [hmedia]
      exact hsends bytes rfl
    · intro payload hpayload
      have hle := (length_payloads _ _ payload hpayload).2
      rw [rtpPayloadSize] at hle
      rw [RTPSmoother.maxMediaLength]
      omega

end Frame

/-! ## The decoder -/

variable {dec' : H263Decoder}

section Decoder

variable {ffmpeg : FFmpeg} {dec : H263Decoder} {acc piece data : List UInt8} {header : UInt8}

/-- The zeros that go in front of a payload. -/
def startCode (header : UInt8) : List UInt8 := if header.toNat / 2 ^ 2 % 2 = 1 then [0, 0] else []

/-- The beginning of a frame is in the buffer. -/
structure Holds (dec : H263Decoder) (acc : List UInt8) : Prop where
  length_buffer : dec.buffer.length = H263Decoder.bufSize
  bufLen : dec.bufLen = acc.length
  buffer : dec.buffer.take acc.length = acc

theorem addPayload_holds (h : Holds dec acc) (hheader : header = 4 ∨ header = 0)
    (hfits : acc.length + piece.length + 2 ≤ H263Decoder.bufSize) :
    ∃ dec', dec.addPayload (header :: 0 :: piece) = some dec' ∧
      Holds dec' (acc ++ startCode header ++ piece) := by
  have hsize : H263Decoder.headerSize header.toNat 0 = 2 := by
    rcases hheader with rfl | rfl <;> rfl
  have hzeros : (startCode header).length ≤ 2 := by
    rcases hheader with rfl | rfl <;> decide
  have hslice : slice (header :: 0 :: piece) 2 (dwordSub (header :: 0 :: piece).length 2) =
      some piece := by
    rw [dwordSub, if_pos (by simp), slice, if_pos (by rw [List.length_cons, List.length_cons]; omega)]
    simp
  have hput := @putAt_eq_some dec.bufLen (startCode header) dec.buffer
    (by rw [h.length_buffer, h.bufLen]; omega)
  have hroom := length_of_putAt hput
  have htake := take_of_putAt hput
  generalize dec.buffer.take dec.bufLen ++ startCode header ++
    dec.buffer.drop (dec.bufLen + (startCode header).length) = buffer at hput hroom htake
  have hput' := @putAt_eq_some (dec.bufLen + (startCode header).length) piece buffer
    (by rw [hroom, h.length_buffer, h.bufLen]; omega)
  have hroom' := length_of_putAt hput'
  have htake' := take_of_putAt hput'
  refine ⟨⟨_, dec.bufLen + (startCode header).length + piece.length⟩, ?_,
    ⟨hroom'.trans (hroom.trans h.length_buffer), ?_, ?_⟩⟩
  · rw [H263Decoder.addPayload]
    change (do
      let zeros := startCode header
      let buffer ← putAt dec.bufLen zeros dec.buffer
      let data ← slice (header :: 0 :: piece) (H263Decoder.headerSize header.toNat 0)
        (dwordSub (header :: 0 :: piece).length (H263Decoder.headerSize header.toNat 0))
      let buffer ← putAt (dec.bufLen + zeros.length) data buffer
      return (⟨buffer, dec.bufLen + zeros.length + data.length⟩ : H263Decoder)) = _
    dsimp only
    rw [hsize, hslice, hput]
    simp only [Option.bind_eq_bind, Option.bind_some, hput']
    rfl
  · rw [h.bufLen, List.length_append, List.length_append]
  · rw [h.bufLen] at htake htake'
    rw [List.length_append, List.length_append, h.bufLen, htake', htake, h.buffer]

theorem decodePacket_holds (h : Holds dec acc) (hheader : header = 4 ∨ header = 0)
    (hfits : acc.length + piece.length + 4 + ffmpeg.inputBufferPaddingSize ≤ H263Decoder.bufSize) :
    ∃ dec', dec.decodePacket ffmpeg (header :: 0 :: piece) false = some (none, dec') ∧
      Holds dec' (acc ++ startCode header ++ piece) := by
  obtain ⟨dec', hadd, hdec'⟩ := @addPayload_holds dec acc piece header h hheader (by omega)
  refine ⟨dec', ?_, hdec'⟩
  rw [H263Decoder.decodePacket, h.bufLen, List.length_cons, List.length_cons,
    if_neg (by omega), if_pos (List.cons_ne_nil _ _), hadd]
  rfl

theorem decodePacket_last (h : Holds dec acc) (hheader : header = 4 ∨ header = 0)
    (hfits : acc.length + piece.length + 4 + ffmpeg.inputBufferPaddingSize ≤ H263Decoder.bufSize) :
    ∃ dec', dec.decodePacket ffmpeg (header :: 0 :: piece) true =
        some (some (acc ++ startCode header ++ piece), dec') ∧ Ready ffmpeg dec' := by
  obtain ⟨dec', hadd, hdec'⟩ := @addPayload_holds dec acc piece header h hheader (by omega)
  have hzeros : (startCode header).length ≤ 2 := by
    rcases hheader with rfl | rfl <;> decide
  have hbufLen := hdec'.bufLen
  rw [List.length_append, List.length_append] at hbufLen
  have hput := @putAt_eq_some dec'.bufLen (List.replicate ffmpeg.inputBufferPaddingSize 0)
    dec'.buffer (by rw [hdec'.length_buffer, List.length_replicate, hbufLen]; omega)
  have hlength := length_of_putAt hput
  have hkept := take_of_putAt_of_le hput (Nat.le_refl _)
  have hpadding := ffmpeg.padding_le
  refine ⟨⟨_, 0⟩, ?_, ⟨hlength.trans hdec'.length_buffer, ?_⟩, rfl⟩
  · rw [H263Decoder.decodePacket, h.bufLen, List.length_cons, List.length_cons,
      if_neg (by omega), if_pos (List.cons_ne_nil _ _), hadd]
    simp only [Option.bind_eq_bind, Option.bind_some, if_true, hput]
    rw [hkept, hdec'.bufLen, hdec'.buffer]
    rfl
  · rw [H263Decoder.bufSize]
    dsimp only
    omega

theorem decodePackets_marked (hheader : header = 4 ∨ header = 0) (h : Holds dec acc)
    (hdata : data ≠ []) (hfits : (acc ++ startCode header ++ data).length + 4 +
      ffmpeg.inputBufferPaddingSize ≤ H263Decoder.bufSize) :
    ∃ dec', dec.decodePackets ffmpeg (marked (payloads header data)) =
        some ([acc ++ startCode header ++ data], dec') ∧ Ready ffmpeg dec' := by
  induction data using cuts_induction generalizing dec acc header with
  | nil => exact absurd rfl hdata
  | cut data hne ih =>
    have hsplit := List.take_append_drop 1348 data
    have hlengths := congrArg List.length hsplit
    simp only [List.length_append] at hfits hlengths
    rw [payloads_of_ne_nil hne, marked, H263Decoder.decodePackets]
    by_cases hrest : data.drop 1348 = []
    · rw [hrest, List.append_nil] at hsplit
      obtain ⟨dec', hdecode, hready⟩ :=
        @decodePacket_last ffmpeg dec acc (data.take 1348) header h hheader (by omega)
      rw [hrest, payloads_nil, List.isEmpty_nil, hdecode, hsplit]
      exact ⟨dec', rfl, hready⟩
    · obtain ⟨dec₁, hdecode, h₁⟩ :=
        @decodePacket_holds ffmpeg dec acc (data.take 1348) header h hheader (by omega)
      obtain ⟨dec', hdecodes, hready⟩ := ih (.inr rfl) h₁ hrest (by
        simp only [List.length_append, show startCode 0 = [] from rfl, List.length_nil]
        omega)
      refine ⟨dec', ?_, hready⟩
      rw [payloads_of_ne_nil hrest, List.isEmpty_cons, ← payloads_of_ne_nil hrest, hdecode,
        Option.bind_eq_bind, Option.bind_some]
      dsimp only
      rw [hdecodes]
      have hall : acc ++ startCode header ++ data.take 1348 ++ startCode 0 ++ data.drop 1348 =
          acc ++ startCode header ++ data := by
        rw [show startCode 0 = [] from rfl, List.append_nil, List.append_assoc, hsplit]
      rw [hall]
      rfl

theorem decodePacket_false {payload : List UInt8} {bitstream : Option (List UInt8)}
    (h : dec.decodePacket ffmpeg payload false = some (bitstream, dec')) : bitstream = none := by
  rw [H263Decoder.decodePacket] at h
  split at h
  · cases h
    rfl
  · dsimp only at h
    split at h
    all_goals
      obtain ⟨d, -, h⟩ := Option.bind_eq_some_iff.1 h
      rw [if_neg Bool.false_ne_true] at h
      cases h
      rfl

theorem decodePacket_true {bytes : List UInt8}
    (h : dec.decodePacket ffmpeg (0 :: 0 :: piece) true = some (some bytes, dec')) :
    FitsBuffer ffmpeg bytes := by
  rw [H263Decoder.decodePacket] at h
  split at h
  case isTrue => cases h
  case isFalse hsize =>
    rw [if_pos (List.cons_ne_nil _ _)] at h
    obtain ⟨d, hadd, h⟩ := Option.bind_eq_some_iff.1 h
    obtain ⟨buffer, -, h⟩ := Option.bind_eq_some_iff.1 h
    cases h
    have hdrop : slice (0 :: 0 :: piece) 2 (dwordSub (0 :: 0 :: piece).length 2) = some piece := by
      rw [dwordSub, if_pos (by simp), slice,
        if_pos (by rw [List.length_cons, List.length_cons]; omega)]
      simp
    change (do
      let buffer ← putAt dec.bufLen [] dec.buffer
      let data ← slice (0 :: 0 :: piece) 2 (dwordSub (0 :: 0 :: piece).length 2)
      let buffer ← putAt dec.bufLen data buffer
      return (⟨buffer, dec.bufLen + data.length⟩ : H263Decoder)) = some d at hadd
    rw [hdrop] at hadd
    obtain ⟨buffer', -, hadd⟩ := Option.bind_eq_some_iff.1 hadd
    obtain ⟨data, hdata, hadd⟩ := Option.bind_eq_some_iff.1 hadd
    obtain ⟨buffer'', -, hadd⟩ := Option.bind_eq_some_iff.1 hadd
    cases hdata
    cases hadd
    rw [List.length_cons, List.length_cons] at hsize
    rw [FitsBuffer, List.length_take]
    dsimp only
    omega

theorem decodePackets_fits {handed : List (List UInt8)}
    (h : dec.decodePackets ffmpeg (marked (payloads 0 data)) = some (handed, dec')) :
    ∀ bytes ∈ handed, FitsBuffer ffmpeg bytes := by
  induction data using cuts_induction generalizing dec handed with
  | nil =>
    rw [payloads_nil] at h
    cases h
    intro bytes hbytes
    cases hbytes
  | cut data hne ih =>
    rw [payloads_of_ne_nil hne, marked, H263Decoder.decodePackets] at h
    obtain ⟨⟨bitstream, d⟩, hdecode, h⟩ := Option.bind_eq_some_iff.1 h
    obtain ⟨⟨rest, d'⟩, hrest, h⟩ := Option.bind_eq_some_iff.1 h
    cases h
    intro bytes hbytes
    rcases List.mem_append.1 hbytes with hfirst | hlater
    · dsimp only at hdecode
      rw [Option.mem_toList] at hfirst
      rw [Option.mem_def.1 hfirst] at hdecode
      cases hempty : (payloads 0 (data.drop 1348)).isEmpty with
      | false =>
        rw [hempty] at hdecode
        cases decodePacket_false hdecode
      | true =>
        rw [hempty] at hdecode
        exact decodePacket_true hdecode
    · exact ih hrest bytes hlater

end Decoder

theorem decodePackets_iff {ffmpeg : FFmpeg} {dec : H263Decoder} (hdec : Ready ffmpeg dec)
    (encoded : Encoded) :
    (∃ dec', dec.decodePackets ffmpeg (marked (payloads 4 (encoded.bytes.drop 2))) =
      some ([encoded.bytes], dec') ∧ Ready ffmpeg dec') ↔ FitsBuffer ffmpeg encoded.bytes := by
  have hlen := encoded.three_le
  have hne : encoded.bytes.drop 2 ≠ [] := by
    rw [Ne, List.drop_eq_nil_iff]
    omega
  have hwhole : [] ++ startCode 4 ++ encoded.bytes.drop 2 = encoded.bytes := by
    rw [show startCode 4 = encoded.bytes.take 2 from encoded.begins.symm, List.nil_append,
      List.take_append_drop]
  constructor
  · rintro ⟨dec', h, -⟩
    by_cases hshort : (encoded.bytes.drop 2).drop 1348 = []
    · -- A frame of one packet is far shorter than the buffer.
      have hpadding := ffmpeg.padding_le
      rw [List.drop_drop, List.drop_eq_nil_iff] at hshort
      rw [FitsBuffer, H263Decoder.bufSize]
      omega
    · rw [payloads_of_ne_nil hne, marked, payloads_of_ne_nil hshort, List.isEmpty_cons,
        ← payloads_of_ne_nil hshort, H263Decoder.decodePackets] at h
      obtain ⟨⟨bitstream, d⟩, hdecode, h⟩ := Option.bind_eq_some_iff.1 h
      obtain ⟨⟨rest, d'⟩, hrest, h⟩ := Option.bind_eq_some_iff.1 h
      have hnone := decodePacket_false hdecode
      subst hnone
      cases h
      exact decodePackets_fits hrest _ List.mem_cons_self
  · intro hfits
    have hholds : Holds dec [] := ⟨hdec.inv.length_buffer, hdec.bufLen, rfl⟩
    have h := decodePackets_marked (.inl rfl) hholds hne (by rw [hwhole]; exact hfits)
    rwa [hwhole] at h

/-- **Any frame is listed, and given to the decoder exactly when it fits the decoder's buffer.** -/
theorem roundTrips {ffmpeg : FFmpeg} {dec : H263Decoder} (hdec : Ready ffmpeg dec)
    {frame : VideoFrame} (hframe : frame.Inv) (encoded : Encoded)
    (hroom : encoded.bytes.length ≤ frame.buffer.length) (isIntra : Bool) :
    ∃ frame' sent, encodeFrame frame encoded.bytes isIntra = some frame' ∧
      RTPSmoother.sendFrame frame' = some sent ∧ Lists encoded.bytes sent ∧
        ((∃ dec', dec.decodePackets ffmpeg sent = some ([encoded.bytes], dec') ∧
          Ready ffmpeg dec') ↔ FitsBuffer ffmpeg encoded.bytes) := by
  obtain ⟨frame', hencode, -, hsend⟩ := sendFrame_encodeFrame hframe hroom isIntra
  exact ⟨frame', _, hencode, hsend, lists_payloads encoded.three_le, decodePackets_iff hdec encoded⟩

/-- A frame of one byte behind its zeros, and a decoder that has just been made. -/
theorem roundTrips_three : ∃ frame' sent,
    encodeFrame (VideoFrame.new 3) [0, 0, 0x80] true = some frame' ∧
      RTPSmoother.sendFrame frame' = some sent ∧ Lists [0, 0, 0x80] sent ∧
        ((∃ dec', H263Decoder.new.decodePackets ⟨64, Nat.le_refl 64⟩ sent =
          some ([[0, 0, 0x80]], dec') ∧ Ready ⟨64, Nat.le_refl 64⟩ dec') ↔
            FitsBuffer ⟨64, Nat.le_refl 64⟩ [0, 0, 0x80]) :=
  roundTrips ⟨H263Decoder.inv_new _, rfl⟩ ⟨Nat.zero_le _, by decide⟩
    ⟨[0, 0, 0x80], by decide, by decide, by decide⟩ (by decide) true

end H263Encoder

end McuMediaServer
