import McuMediaServer.Video.Smoothing
import McuMediaServer.Video.VP8Descriptor

/-!
# The VP8 encoder's packets

The codec hands over the partitions of a frame. Each of them is appended to the frame and cut into
packets that start with a descriptor of one byte. The smoother makes payloads of them, and of these
the decoder puts the partitions together again, as long as the frame has room for the partitions.
-/

namespace McuMediaServer

open ByteSeq ByteWriter VideoFrame
open H264Depacketizer (Sends sends_append sendPackets_eq_marked)
open RTPSmoother (marked map_marked)

/-- What the codec hands over: the contents of a frame packet are a partition. Reference:
`vp8encoder.cpp:295`. -/
structure CxPacket where
  isFrame : Bool
  isKey : Bool
  isDroppable : Bool
  buf : List UInt8

namespace VP8Encoder

/-- Reference: `config.h:42`. -/
def rtpPayloadSize : Nat := 1350

theorem getSize_lt (desc : VP8PayloadDescriptor) : desc.getSize < rtpPayloadSize := by
  rw [VP8PayloadDescriptor.getSize, rtpPayloadSize]
  split
  · split <;> split <;> split <;> (try split) <;> omega
  · decide

/-- The packets of what is left of a partition that starts at `pos`. A partition is far shorter than
a `DWORD` can count. Reference: `vp8encoder.cpp:312`. -/
def addPackets (frame : VideoFrame) (desc : VP8PayloadDescriptor) (pos sz cur : Nat) :
    Option VideoFrame :=
  if cur < sz then do
    let aux := desc.serialize 6
    let len := rtpPayloadSize - desc.getSize
    let len := if sz < cur + len then sz - cur else len
    let frame ← frame.addRtpPacket ((pos + cur) % 2 ^ 32) len aux
    addPackets frame { desc with startOfPartition := false } pos sz (cur + len)
  else
    some frame
termination_by sz - cur
decreasing_by
  have := getSize_lt desc
  split <;> omega

/-- Reference: `vp8encoder.cpp:303`. -/
def descriptor (packet : CxPacket) (partitionIndex : Nat) : VP8PayloadDescriptor :=
  { VP8PayloadDescriptor.new with
    extendedControlBitsPresent := false
    nonReferencePicture := packet.isDroppable
    startOfPartition := true
    partitionIndex := partitionIndex % 2 ^ 8 }

/-- Reference: `vp8encoder.cpp:300`. -/
def addCxPackets (frame : VideoFrame) (partitionIndex : Nat) : List CxPacket → Option VideoFrame
  | [] => some frame
  | packet :: packets =>
    let frame := { frame with isIntra := packet.isKey }
    if packet.isFrame then do
      let pos := frame.length
      let frame ← frame.appendMedia packet.buf
      let frame ← addPackets frame (descriptor packet partitionIndex) pos packet.buf.length 0
      addCxPackets frame (partitionIndex + 1) packets
    else
      addCxPackets frame partitionIndex packets

/-- The frame is used again and again. Reference: `vp8encoder.cpp:274`. -/
def getFrame (frame : Option VideoFrame) : VideoFrame :=
  frame.getD (VideoFrame.new 262143)

/-- What the encoder makes of the packets of the codec. There is no value when media is written
outside the buffer. Reference: `vp8encoder.cpp:283`. -/
def encodeFrame (frame : Option VideoFrame) (packets : List CxPacket) : Option VideoFrame :=
  addCxPackets { getFrame frame with rtpInfo := [], length := 0 } 0 packets

end VP8Encoder

/-- The payloads of a frame go to the decoder in order, none of them lost. -/
def VP8Decoder.decodePackets (dec : VP8Decoder) :
    List RTPPacketSched → Option (List (List UInt8) × VP8Decoder)
  | [] => some ([], dec)
  | packet :: packets => do
    let (partitions, dec) ← dec.decodePacket packet.mediaData false packet.mark
    let (rest, dec) ← dec.decodePackets packets
    return (partitions ++ rest, dec)

namespace VP8Encoder

/-! ## What is asked of the payloads -/

/-- The partitions of a frame. -/
def partitions (packets : List CxPacket) : List (List UInt8) :=
  (packets.filter (·.isFrame)).map (·.buf)

/-- The bytes of a payload behind its descriptor. -/
def body (payload : List UInt8) : List UInt8 :=
  payload.drop (VP8PayloadDescriptor.size payload)

/-- Whether a payload says that it starts a partition. -/
def starts (payload : List UInt8) : Option Bool :=
  (VP8PayloadDescriptor.new.parse payload).map (·.2.startOfPartition)

/-- The payloads carry a partition, and the first of them only says that it starts one. -/
structure Carries (partition : List UInt8) (payloads : List (List UInt8)) : Prop where
  bodies : (payloads.map body).flatten = partition
  first : ∀ i, (h : i < payloads.length) → starts payloads[i] = some (decide (i = 0))

/-- No payload is too long, each partition is carried by payloads of its own, in order, the last
packet only has the mark, and the decoder hands over the partitions that are not empty and is
ready for the next frame. -/
structure RoundTrips (dec : VP8Decoder) (partitions : List (List UInt8))
    (sent : List RTPPacketSched) : Prop where
  limit : ∀ packet ∈ sent, packet.mediaData.length ≤ rtpPayloadSize
  groups : ∃ groups : List (List (List UInt8)), sent.map (·.mediaData) = groups.flatten ∧
    List.Forall₂ Carries partitions groups
  marks : Smoothing.MarksLast (sent.map (·.mark))
  decoded : ∃ dec', dec.decodePackets sent = some (partitions.filter (· ≠ []), dec') ∧
    dec'.Inv ∧ dec'.bufLen = 0 ∧ dec'.completeFrame = true ∧ dec'.first = true

/-- The frame of some packets is sent and decoded as it should. -/
def Faithful (dec : VP8Decoder) (frame : Option VideoFrame) (packets : List CxPacket) : Prop :=
  ∃ frame' sent, encodeFrame frame packets = some frame' ∧
    RTPSmoother.sendFrame frame' = some sent ∧ frame'.media = (partitions packets).flatten ∧
    RoundTrips dec (partitions packets) sent

/-! ## The payloads of a partition -/

/-- What a partition becomes. -/
def payloads (desc : VP8PayloadDescriptor) (data : List UInt8) : List (List UInt8) :=
  if data = [] then []
  else (desc.firstByte :: data.take 1349) ::
    payloads { desc with startOfPartition := false } (data.drop 1349)
termination_by data.length
decreasing_by
  rename_i h
  have := List.length_pos_iff.2 h
  rw [List.length_drop]
  omega

section Payloads

variable {desc : VP8PayloadDescriptor} {data : List UInt8}

theorem payloads_nil : payloads desc [] = [] := by
  rw [payloads, if_pos rfl]

theorem payloads_of_ne_nil (h : data ≠ []) : payloads desc data =
    (desc.firstByte :: data.take 1349) ::
      payloads { desc with startOfPartition := false } (data.drop 1349) := by
  rw [payloads, if_neg h]

theorem pieces_induction {P : List UInt8 → Prop} (nil : P [])
    (cut : ∀ data, data ≠ [] → P (data.drop 1349) → P data) (data : List UInt8) : P data := by
  induction hn : data.length using Nat.strong_induction_on generalizing data with
  | h n ih =>
    by_cases hdata : data = []
    · rw [hdata]
      exact nil
    · have hpos := List.length_pos_iff.2 hdata
      refine cut data hdata (ih _ ?_ _ rfl)
      rw [List.length_drop]
      omega

theorem getSize_short (h : desc.extendedControlBitsPresent = false) : desc.getSize = 1 := by
  rw [VP8PayloadDescriptor.getSize, h]
  rfl

theorem serialize_short (h : desc.extendedControlBitsPresent = false) :
    desc.serialize 6 = [desc.firstByte] := by
  rw [VP8PayloadDescriptor.serialize, getSize_short h, VP8PayloadDescriptor.bytes, h]
  rfl

theorem firstByte_bits (desc : VP8PayloadDescriptor) :
    VP8PayloadDescriptor.bit desc.firstByte.toNat 7 = desc.extendedControlBitsPresent ∧
      VP8PayloadDescriptor.bit desc.firstByte.toNat 4 = desc.startOfPartition := by
  have hmask : desc.partitionIndex &&& 0x0F < 2 ^ 4 := by
    rw [Nat.and_two_pow_sub_one_eq_mod desc.partitionIndex 4]
    exact Nat.mod_lt _ (by decide)
  have hbyte : desc.firstByte =
      { desc with partitionIndex := desc.partitionIndex &&& 0x0F }.firstByte := by
    simp only [VP8PayloadDescriptor.firstByte, Nat.and_assoc, Nat.and_self]
  have hbits := @VP8PayloadDescriptor.firstByte_bits
    { desc with partitionIndex := desc.partitionIndex &&& 0x0F } hmask
  rw [hbyte]
  exact ⟨hbits.1, hbits.2.2.1⟩

theorem parse_short {byte : UInt8} {piece : List UInt8}
    (h : VP8PayloadDescriptor.bit byte.toNat 7 = false) :
    ∃ desc, VP8PayloadDescriptor.new.parse (byte :: piece) = some (1, desc) ∧
      desc.startOfPartition = VP8PayloadDescriptor.bit byte.toNat 4 := by
  simp [VP8PayloadDescriptor.parse, get1, h]

theorem size_short {byte : UInt8} {piece : List UInt8}
    (h : VP8PayloadDescriptor.bit byte.toNat 7 = false) :
    VP8PayloadDescriptor.size (byte :: piece) = 1 := by
  simp [VP8PayloadDescriptor.size, get1, h]

theorem carries_payloads (h : desc.extendedControlBitsPresent = false)
    (hstart : desc.startOfPartition = true) (data : List UInt8) :
    Carries data (payloads desc data) := by
  -- The first payload apart, which may be missing, no payload starts a partition.
  have hrest : ∀ (data : List UInt8) (desc : VP8PayloadDescriptor),
      desc.extendedControlBitsPresent = false →
      ((payloads desc data).map body).flatten = data ∧
        (desc.startOfPartition = false → ∀ p ∈ payloads desc data, starts p = some false) := by
    intro data
    induction data using pieces_induction with
    | nil =>
      intro desc _
      rw [payloads_nil]
      exact ⟨rfl, fun _ p hp => absurd hp List.not_mem_nil⟩
    | cut data hdata ih =>
      intro desc h
      obtain ⟨hbodies, hstarts⟩ := ih { desc with startOfPartition := false } h
      obtain ⟨hX, hS⟩ := firstByte_bits desc
      rw [h] at hX
      obtain ⟨read, hparse, hread⟩ := @parse_short _ (data.take 1349) hX
      rw [payloads_of_ne_nil hdata]
      constructor
      · rw [List.map_cons, List.flatten_cons, hbodies, body, size_short hX]
        exact List.take_append_drop 1349 data
      · intro hno
        rw [List.forall_mem_cons]
        refine ⟨?_, hstarts rfl⟩
        rw [starts, hparse, Option.map_some, hread, hS, hno]
  refine ⟨(hrest data desc h).1, ?_⟩
  intro i hi
  by_cases hdata : data = []
  · subst hdata
    rw [payloads_nil] at hi
    exact absurd hi (Nat.not_lt_zero i)
  obtain ⟨hX, hS⟩ := firstByte_bits desc
  rw [h] at hX
  obtain ⟨read, hparse, hread⟩ := @parse_short _ (data.take 1349) hX
  have hcut := @payloads_of_ne_nil desc data hdata
  cases i with
  | zero =>
    have hfirst : (payloads desc data)[0] = desc.firstByte :: data.take 1349 := by
      simp only [hcut, List.getElem_cons_zero]
    rw [hfirst, starts, hparse, Option.map_some, hread, hS, hstart]
    rfl
  | succ i =>
    have hlater := (hrest (data.drop 1349) { desc with startOfPartition := false } h).2 rfl
    refine hlater _ ?_
    simp only [hcut, List.getElem_cons_succ]
    exact List.getElem_mem _

theorem length_payloads_le (h : desc.extendedControlBitsPresent = false) :
    ∀ p ∈ payloads desc data, p.length ≤ rtpPayloadSize := by
  induction data using pieces_induction generalizing desc with
  | nil =>
    rw [payloads_nil]
    intro p hp
    cases hp
  | cut data hdata ih =>
    rw [payloads_of_ne_nil hdata, List.forall_mem_cons]
    refine ⟨?_, @ih { desc with startOfPartition := false } h⟩
    rw [List.length_cons, List.length_take, rtpPayloadSize]
    omega

end Payloads

/-! ## The frame -/

section Frame

variable {frame : VideoFrame} {desc : VP8PayloadDescriptor} {pos sz cur : Nat}

theorem addPackets_spec (h : desc.extendedControlBitsPresent = false) (hlt : pos + sz < 2 ^ 32) :
    ∃ notes, addPackets frame desc pos sz cur =
        some { frame with rtpInfo := frame.rtpInfo ++ notes } ∧
      ∀ media : List UInt8, pos + sz ≤ media.length →
        List.Forall₂ (Sends media) notes (payloads desc ((media.drop (pos + cur)).take (sz - cur))) := by
  induction hn : sz - cur using Nat.strong_induction_on generalizing frame desc cur with
  | h n ih =>
    subst hn
    rw [addPackets]
    by_cases hcur : cur < sz
    · rw [if_pos hcur]
      dsimp only
      rw [getSize_short h, serialize_short h]
      generalize hlen : (if sz < cur + (rtpPayloadSize - 1) then sz - cur
        else rtpPayloadSize - 1) = len
      have hlen' : len = min 1349 (sz - cur) := by
        rw [← hlen, rtpPayloadSize]
        split <;> omega
      have hpos : (pos + cur) % 2 ^ 32 = pos + cur := Nat.mod_eq_of_lt (by omega)
      obtain ⟨notes, hadd, hsends⟩ := @ih (sz - (cur + len)) (by omega)
        { frame with rtpInfo := frame.rtpInfo ++ [⟨pos + cur, len, [desc.firstByte], by simp⟩] }
        { desc with startOfPartition := false } (cur + len) h rfl
      refine ⟨⟨pos + cur, len, [desc.firstByte], by simp⟩ :: notes, ?_, ?_⟩
      · have hnote : frame.addRtpPacket (pos + cur) len [desc.firstByte] = some { frame with
            rtpInfo := frame.rtpInfo ++ [⟨pos + cur, len, [desc.firstByte], by simp⟩] } := by
          rw [VideoFrame.addRtpPacket, RtpPacketization.new, dif_pos (by simp)]
          rfl
        rw [hpos, hnote, Option.bind_eq_bind, Option.bind_some, hadd, List.append_assoc]
        rfl
      · intro media hmedia
        have hpiece : ((media.drop (pos + cur)).take (sz - cur)).length = sz - cur := by
          rw [List.length_take, List.length_drop]
          omega
        have hne : (media.drop (pos + cur)).take (sz - cur) ≠ [] := by
          intro hnil
          rw [hnil, List.length_nil] at hpiece
          omega
        have hfirst : ((media.drop (pos + cur)).take (sz - cur)).take 1349 =
            (media.drop (pos + cur)).take len := by
          rw [List.take_take, hlen']
        have hrest : ((media.drop (pos + cur)).take (sz - cur)).drop 1349 =
            (media.drop (pos + (cur + len))).take (sz - (cur + len)) := by
          by_cases hlong : 1349 ≤ sz - cur
          · have hlen'' : len = 1349 := by omega
            rw [List.drop_take, List.drop_drop, hlen'', Nat.add_assoc, Nat.sub_sub]
          · rw [List.drop_eq_nil_of_le (by omega), show sz - (cur + len) = 0 by omega,
              List.take_zero]
        rw [payloads_of_ne_nil hne, hfirst, hrest]
        refine .cons ⟨?_, rfl⟩ (hsends media hmedia)
        show pos + cur + len ≤ media.length
        omega
    · rw [if_neg hcur, show sz - cur = 0 by omega]
      refine ⟨[], by rw [List.append_nil], ?_⟩
      intro media _
      rw [List.take_zero, payloads_nil]
      exact .nil

theorem appended_addPackets {data : List UInt8} {f f' : VideoFrame} (hf : f.Inv)
    (happended : Appended f f' [data] []) (h : desc.extendedControlBitsPresent = false) :
    ∃ f'' notes, addPackets f' desc f.length data.length 0 = some f'' ∧
      Appended f f'' [data] notes ∧ List.Forall₂ (Sends f''.media) notes (payloads desc data) := by
  have hlength := happended.length
  rw [List.flatten_singleton] at hlength
  have hinside := happended.inv.length_le
  have hsize := happended.inv.size_lt
  obtain ⟨notes, hadd, hsends⟩ := @addPackets_spec f' desc f.length data.length 0 h (by omega)
  refine ⟨_, notes, hadd, ⟨⟨hinside, hsize⟩, happended.media, happended.length, happended.room, ?_⟩,
    ?_⟩
  · rw [happended.rtpInfo, List.append_nil]
  · have hmedia : f'.media.drop (f.length + 0) = data := by
      rw [Nat.add_zero, happended.media, List.flatten_singleton, List.drop_left' hf.length_media]
    have hnotes := hsends f'.media (by rw [happended.inv.length_media]; omega)
    rwa [hmedia, Nat.sub_zero, List.take_length] at hnotes

/-- The payloads of the partitions. -/
def groups (partitionIndex : Nat) : List CxPacket → List (List (List UInt8))
  | [] => []
  | packet :: packets =>
    if packet.isFrame then
      payloads (descriptor packet partitionIndex) packet.buf :: groups (partitionIndex + 1) packets
    else groups partitionIndex packets

theorem addCxPackets_spec {packets : List CxPacket} (partitionIndex : Nat) (hframe : frame.Inv)
    (hcan : CanAppend frame.buffer.length frame.length (partitions packets)) :
    ∃ frame' notes, addCxPackets frame partitionIndex packets = some frame' ∧
      Appended frame frame' (partitions packets) notes ∧
      List.Forall₂ (Sends frame'.media) notes (groups partitionIndex packets).flatten := by
  induction packets generalizing frame partitionIndex with
  | nil => exact ⟨frame, [], rfl, .refl hframe, .nil⟩
  | cons packet packets ih =>
    rw [addCxPackets, groups]
    dsimp only
    cases hkind : packet.isFrame with
    | false =>
      rw [partitions, List.filter_cons_of_neg (by simp [hkind]), ← partitions] at hcan ⊢
      obtain ⟨frame', notes, hadd, happended, hsends⟩ :=
        @ih { frame with isIntra := packet.isKey } partitionIndex ⟨hframe.length_le, hframe.size_lt⟩
          hcan
      exact ⟨frame', notes, hadd, ⟨happended.inv, happended.media, happended.length, happended.room,
        happended.rtpInfo⟩, hsends⟩
    | true =>
      rw [partitions, List.filter_cons_of_pos hkind, List.map_cons, ← partitions] at hcan ⊢
      have hframe' : Inv { frame with isIntra := packet.isKey } :=
        ⟨hframe.length_le, hframe.size_lt⟩
      obtain ⟨f', hf', happended⟩ := appendMedia_appended hframe' hcan.1
      obtain ⟨f'', notes, hf'', happended', hsends⟩ :=
        @appended_addPackets (descriptor packet partitionIndex) _ _ _ hframe' happended rfl
      have hroom : CanAppend f''.buffer.length f''.length (partitions packets) := by
        have hcan' := (canAppend_append [packet.buf] _).1 hcan
        rw [happended'.room, happended'.length]
        exact hcan'.2
      obtain ⟨frame', others, hadd, happended'', hsends'⟩ :=
        ih (partitionIndex + 1) happended'.inv hroom
      refine ⟨frame', notes ++ others, ?_, ?_, ?_⟩
      · rw [if_pos rfl, hf', Option.bind_eq_bind, Option.bind_some, hf'', Option.bind_some,
          hadd]
      · have hall := happended'.trans happended''
        exact ⟨hall.inv, hall.media, hall.length, hall.room, hall.rtpInfo⟩
      · rw [if_pos rfl, List.flatten_cons]
        refine List.rel_append ?_ hsends'
        rw [happended''.media]
        exact sends_append hsends _

theorem canAppend_of_addCxPackets {packets : List CxPacket} {partitionIndex : Nat}
    (hframe : frame.Inv) (hfits : ∀ partition ∈ partitions packets, partition.length < 2 ^ 31)
    (hsome : (addCxPackets frame partitionIndex packets).isSome) :
    CanAppend frame.buffer.length frame.length (partitions packets) := by
  induction packets generalizing frame partitionIndex with
  | nil => trivial
  | cons packet packets ih =>
    rw [addCxPackets] at hsome
    dsimp only at hsome
    cases hkind : packet.isFrame with
    | false =>
      rw [partitions, List.filter_cons_of_neg (by simp [hkind]), ← partitions] at hfits ⊢
      rw [hkind] at hsome
      exact @ih { frame with isIntra := packet.isKey } partitionIndex
        ⟨hframe.length_le, hframe.size_lt⟩ hfits hsome
    | true =>
      rw [partitions, List.filter_cons_of_pos hkind, List.map_cons, ← partitions] at hfits ⊢
      rw [List.forall_mem_cons] at hfits
      rw [hkind, if_pos rfl] at hsome
      have hframe' : Inv { frame with isIntra := packet.isKey } :=
        ⟨hframe.length_le, hframe.size_lt⟩
      have hroom := room_of_appendMedia hframe' hfits.1 (isSome_of_bind hsome)
      obtain ⟨f', hf', happended⟩ := appendMedia_appended hframe' hroom
      obtain ⟨f'', notes, hf'', happended', -⟩ :=
        @appended_addPackets (descriptor packet partitionIndex) _ _ _ hframe' happended rfl
      rw [hf', Option.bind_eq_bind, Option.bind_some, hf'', Option.bind_some] at hsome
      have hrest := ih happended'.inv hfits.2 hsome
      rw [happended'.room, happended'.length] at hrest
      exact (canAppend_append [packet.buf] _).2 ⟨⟨hroom, trivial⟩, hrest⟩

end Frame

/-! ## The smoother -/

theorem marksLast_marked (sent : List (List UInt8)) :
    Smoothing.MarksLast ((marked sent).map (·.mark)) := by
  induction sent with
  | nil =>
    intro i hi
    exact absurd hi (Nat.not_lt_zero i)
  | cons payload sent ih =>
    intro i hi
    cases i with
    | zero => cases sent <;> simp [marked]
    | succ i =>
      have hlater := ih i (by simpa [marked] using hi)
      simpa [marked] using hlater

/-! ## The decoder -/

section Decoder

variable {dec dec' dec'' : VP8Decoder} {acc piece data : List UInt8} {byte : UInt8}
  {desc : VP8PayloadDescriptor}

/-- The beginning of a partition is in the buffer, and nothing of the frame is missing. -/
structure Holds (dec : VP8Decoder) (acc : List UInt8) : Prop where
  inv : dec.Inv
  bufLen : dec.bufLen = acc.length
  buffer : dec.buffer.take acc.length = acc
  complete : dec.completeFrame = true

/-- What is handed over of a partition when it ends. -/
def pending (acc : List UInt8) : List (List UInt8) := if acc = [] then [] else [acc]

theorem pending_nil : pending [] = [] := rfl

theorem addPayload_holds (h : Holds dec acc)
    (hX : VP8PayloadDescriptor.bit byte.toNat 7 = false) {start : Bool}
    (hstart : VP8PayloadDescriptor.bit byte.toNat 4 = start) (hfirst : dec.first = true → start = true)
    (hfits : ((if start then [] else acc) ++ piece).length ≤ VP8Decoder.bufSize) :
    ∃ dec', dec.addPayload (byte :: piece) = some (if start then pending acc else [], dec') ∧
      Holds dec' ((if start then [] else acc) ++ piece) ∧ dec'.first = false := by
  obtain ⟨desc, hparse, hdesc⟩ := @parse_short byte piece hX
  have hcomplete : (!(dec.first && !start)) = true := by
    cases hf : dec.first with
    | false => rfl
    | true => rw [hfirst hf]; rfl
  have hhands : (if (start && decide (dec.bufLen ≠ 0)) = true ∧ true = true then
      [dec.buffer.take dec.bufLen] else []) = if start then pending acc else [] := by
    rw [h.bufLen, h.buffer, pending]
    cases start <;> cases acc <;> simp
  have hbufLen : (if (start && decide (dec.bufLen ≠ 0)) = true then 0 else dec.bufLen) =
      (if start then [] else acc : List UInt8).length := by
    rw [h.bufLen]
    cases start <;> cases acc <;> simp
  have hkept : dec.buffer.take (if start then [] else acc : List UInt8).length =
      if start then [] else acc := by
    cases start with
    | false => exact h.buffer
    | true => rfl
  generalize (if start then [] else acc : List UInt8) = kept at hfits hbufLen hkept ⊢
  rw [List.length_append] at hfits
  have hslice : slice (byte :: piece) 1 ((byte :: piece).length - 1) = some piece := by
    rw [slice, if_pos (by rw [List.length_cons]; omega)]
    simp
  have hroom : kept.length + piece.length ≤ dec.buffer.length := by
    rw [h.inv.length_buffer]
    exact hfits
  have hput := @putAt_eq_some kept.length piece dec.buffer hroom
  have hlength := length_of_putAt hput
  refine ⟨⟨dec.buffer.take kept.length ++ piece ++ dec.buffer.drop (kept.length + piece.length),
    kept.length + piece.length, true, false⟩, ?_, ⟨⟨?_, ?_⟩, ?_, ?_, rfl⟩, rfl⟩
  · rw [VP8Decoder.addPayload, hparse, Option.bind_eq_bind, Option.bind_some]
    dsimp only
    rw [hdesc, hstart, hcomplete, hbufLen, Bool.and_true, hslice, if_pos (by simpa using hfits)]
    rw [Option.bind_eq_bind, Option.bind_some, hput, Option.bind_some, ← hhands]
    simp
  · exact hlength.trans h.inv.length_buffer
  · exact hfits
  · exact (List.length_append ..).symm
  · have hlen : (dec.buffer.take kept.length ++ piece).length = (kept ++ piece).length := by
      rw [hkept]
    rw [List.take_left' hlen, hkept]

theorem decodePacket_holds (h : Holds dec acc)
    (hX : VP8PayloadDescriptor.bit byte.toNat 7 = false) {start : Bool}
    (hstart : VP8PayloadDescriptor.bit byte.toNat 4 = start) (hfirst : dec.first = true → start = true)
    (hfits : ((if start then [] else acc) ++ piece).length ≤ VP8Decoder.bufSize) :
    ∃ dec', dec.decodePacket (byte :: piece) false false =
        some (if start then pending acc else [], dec') ∧
      Holds dec' ((if start then [] else acc) ++ piece) ∧ dec'.first = false := by
  obtain ⟨dec', hadd, hdec'⟩ := addPayload_holds h hX hstart hfirst hfits
  refine ⟨dec', ?_, hdec'⟩
  have hsame : { dec with completeFrame := dec.completeFrame && !false } = dec := by
    rw [Bool.not_false, Bool.and_true]
  rw [VP8Decoder.decodePacket]
  dsimp only
  rw [if_pos ⟨List.cons_ne_nil _ _, by rw [h.complete]; rfl⟩, hsame, hadd]
  rfl

theorem decodePacket_last {payload : List UInt8} {lost : Bool} {handed : List (List UInt8)}
    (h : dec.decodePacket payload lost false = some (handed, dec')) :
    dec.decodePacket payload lost true = some (handed ++ dec'.endFrame.1, dec'.endFrame.2) := by
  rw [VP8Decoder.decodePacket] at h ⊢
  dsimp only at h ⊢
  by_cases hlook : payload ≠ [] ∧ (dec.completeFrame && !lost) = true
  · rw [if_pos hlook] at h ⊢
    obtain ⟨⟨partitions, d⟩, hadd, h⟩ := Option.bind_eq_some_iff.1 h
    cases h
    rw [hadd]
    rfl
  · rw [if_neg hlook] at h ⊢
    cases h
    rfl

/-- Payloads none of which is the last one of a frame. -/
def feed (dec : VP8Decoder) : List (List UInt8) → Option (List (List UInt8) × VP8Decoder)
  | [] => some ([], dec)
  | payload :: payloads => do
    let (partitions, dec) ← dec.decodePacket payload false false
    let (rest, dec) ← feed dec payloads
    return (partitions ++ rest, dec)

theorem feed_cons {payload : List UInt8} {payloads handed others : List (List UInt8)}
    (h : dec.decodePacket payload false false = some (handed, dec'))
    (h' : feed dec' payloads = some (others, dec'')) :
    feed dec (payload :: payloads) = some (handed ++ others, dec'') := by
  rw [feed, h, Option.bind_eq_bind, Option.bind_some]
  dsimp only
  rw [h']
  rfl

theorem feed_append {payloads payloads' handed others : List (List UInt8)}
    (h : feed dec payloads = some (handed, dec'))
    (h' : feed dec' payloads' = some (others, dec'')) :
    feed dec (payloads ++ payloads') = some (handed ++ others, dec'') := by
  induction payloads generalizing dec handed with
  | nil =>
    cases h
    exact h'
  | cons payload payloads ih =>
    obtain ⟨⟨first, d⟩, hdecode, h⟩ := Option.bind_eq_some_iff.1 h
    obtain ⟨⟨rest, d'⟩, hfeed, h⟩ := Option.bind_eq_some_iff.1 h
    cases h
    rw [List.append_assoc]
    exact feed_cons hdecode (ih hfeed)

theorem decodePackets_marked {payloads handed : List (List UInt8)} (hne : payloads ≠ [])
    (h : feed dec payloads = some (handed, dec')) :
    dec.decodePackets (marked payloads) =
      some (handed ++ dec'.endFrame.1, dec'.endFrame.2) := by
  induction payloads generalizing dec handed with
  | nil => exact absurd rfl hne
  | cons payload payloads ih =>
    obtain ⟨⟨first, d⟩, hdecode, h⟩ := Option.bind_eq_some_iff.1 h
    obtain ⟨⟨rest, d'⟩, hfeed, h⟩ := Option.bind_eq_some_iff.1 h
    cases h
    rw [marked, VP8Decoder.decodePackets]
    cases payloads with
    | nil =>
      cases hfeed
      rw [List.isEmpty_nil, decodePacket_last hdecode]
      simp [marked, VP8Decoder.decodePackets]
    | cons next payloads =>
      rw [List.isEmpty_cons, hdecode, Option.bind_eq_bind, Option.bind_some]
      dsimp only
      rw [ih (List.cons_ne_nil _ _) hfeed, List.append_assoc]
      rfl

theorem feed_rest (hX : desc.extendedControlBitsPresent = false)
    (hS : desc.startOfPartition = false) (h : Holds dec acc) (hfirst : dec.first = false)
    (hfits : (acc ++ data).length ≤ VP8Decoder.bufSize) :
    ∃ dec', feed dec (payloads desc data) = some ([], dec') ∧ Holds dec' (acc ++ data) ∧
      dec'.first = false := by
  induction data using pieces_induction generalizing dec desc acc with
  | nil =>
    rw [payloads_nil, List.append_nil]
    exact ⟨dec, rfl, h, hfirst⟩
  | cut data hdata ih =>
    rw [payloads_of_ne_nil hdata]
    obtain ⟨hbit, hbit'⟩ := firstByte_bits desc
    rw [hX] at hbit
    rw [hS] at hbit'
    have hsplit : acc ++ data.take 1349 ++ data.drop 1349 = acc ++ data := by
      rw [List.append_assoc, List.take_append_drop]
    have hpiece : (acc ++ data.take 1349).length ≤ VP8Decoder.bufSize := by
      rw [List.length_append, List.length_take] at *
      omega
    obtain ⟨dec₁, hdecode, h₁, hfirst₁⟩ :=
      @decodePacket_holds dec acc (data.take 1349) _ h hbit false hbit'
        (by rw [hfirst]; exact id) hpiece
    obtain ⟨dec₂, hfeed, h₂, hfirst₂⟩ :=
      @ih dec₁ _ { desc with startOfPartition := false } hX rfl h₁ hfirst₁
        (by rw [if_neg Bool.false_ne_true, hsplit]; exact hfits)
    rw [if_neg Bool.false_ne_true, hsplit] at h₂
    exact ⟨dec₂, feed_cons hdecode hfeed, h₂, hfirst₂⟩

theorem feed_partition (hX : desc.extendedControlBitsPresent = false)
    (hS : desc.startOfPartition = true) (hdata : data ≠ []) (h : Holds dec acc)
    (hfits : data.length ≤ VP8Decoder.bufSize) :
    ∃ dec', feed dec (payloads desc data) = some (pending acc, dec') ∧ Holds dec' data := by
  obtain ⟨hbit, hbit'⟩ := firstByte_bits desc
  rw [hX] at hbit
  rw [hS] at hbit'
  have hpiece : (data.take 1349).length ≤ VP8Decoder.bufSize := by
    rw [List.length_take]
    omega
  obtain ⟨dec₁, hdecode, h₁, hfirst₁⟩ :=
    @decodePacket_holds dec acc (data.take 1349) _ h hbit true hbit' (fun _ => rfl) hpiece
  rw [if_pos rfl] at hdecode h₁
  obtain ⟨dec₂, hfeed, h₂, -⟩ :=
    @feed_rest _ _ (data.drop 1349) { desc with startOfPartition := false } hX rfl h₁ hfirst₁
      (by rw [List.nil_append, List.take_append_drop]; exact hfits)
  rw [List.nil_append, List.take_append_drop] at h₂
  rw [payloads_of_ne_nil hdata, ← List.append_nil (pending acc)]
  exact ⟨dec₂, feed_cons hdecode hfeed, h₂⟩

theorem feed_groups {packets : List CxPacket} (partitionIndex : Nat) (h : Holds dec acc)
    (hfits : ∀ partition ∈ partitions packets, partition.length ≤ VP8Decoder.bufSize) :
    ∃ handed dec' acc', feed dec (groups partitionIndex packets).flatten = some (handed, dec') ∧
      Holds dec' acc' ∧
      handed ++ pending acc' = pending acc ++ (partitions packets).filter (· ≠ []) := by
  induction packets generalizing dec acc partitionIndex with
  | nil => exact ⟨[], dec, acc, rfl, h, (List.append_nil _).symm⟩
  | cons packet packets ih =>
    rw [groups]
    cases hkind : packet.isFrame with
    | false =>
      rw [partitions, List.filter_cons_of_neg (by simp [hkind]), ← partitions] at hfits ⊢
      exact ih partitionIndex h hfits
    | true =>
      rw [partitions, List.filter_cons_of_pos hkind, List.map_cons, ← partitions] at hfits ⊢
      rw [List.forall_mem_cons] at hfits
      rw [if_pos rfl, List.flatten_cons]
      by_cases hbuf : packet.buf = []
      · rw [hbuf, payloads_nil, List.nil_append, List.filter_cons_of_neg (by simp)]
        exact ih (partitionIndex + 1) h hfits.2
      · obtain ⟨dec₁, hfeed, h₁⟩ :=
          @feed_partition _ _ _ (descriptor packet partitionIndex) rfl rfl hbuf h hfits.1
        obtain ⟨handed, dec₂, acc', hfeed', h₂, heq⟩ := ih (partitionIndex + 1) h₁ hfits.2
        refine ⟨pending acc ++ handed, dec₂, acc', feed_append hfeed hfeed', h₂, ?_⟩
        rw [List.append_assoc, heq, List.filter_cons_of_pos (by simp [hbuf]), pending, pending,
          if_neg hbuf]
        rfl

end Decoder

/-! ## The claim about a whole frame -/

section Whole

variable {frame : Option VideoFrame} {packets : List CxPacket} {dec : VP8Decoder}

theorem forall₂_groups (partitionIndex : Nat) (packets : List CxPacket) :
    List.Forall₂ Carries (partitions packets) (groups partitionIndex packets) := by
  induction packets generalizing partitionIndex with
  | nil => exact .nil
  | cons packet packets ih =>
    rw [groups]
    cases hkind : packet.isFrame with
    | false =>
      rw [partitions, List.filter_cons_of_neg (by simp [hkind]), ← partitions]
      exact ih partitionIndex
    | true =>
      rw [partitions, List.filter_cons_of_pos hkind, List.map_cons, ← partitions, if_pos rfl]
      exact .cons (carries_payloads rfl rfl _) (ih _)

theorem length_groups_le (partitionIndex : Nat) (packets : List CxPacket) :
    ∀ p ∈ (groups partitionIndex packets).flatten, p.length ≤ rtpPayloadSize := by
  induction packets generalizing partitionIndex with
  | nil =>
    intro p hp
    cases hp
  | cons packet packets ih =>
    rw [groups]
    cases packet.isFrame with
    | false => exact ih partitionIndex
    | true =>
      rw [if_pos rfl, List.flatten_cons]
      intro p hp
      rcases List.mem_append.1 hp with hp | hp
      · exact length_payloads_le rfl p hp
      · exact ih (partitionIndex + 1) p hp

theorem decodePackets_groups (hdec : Holds dec []) (hfirst : dec.first = true)
    (hfits : ∀ partition ∈ partitions packets, partition.length ≤ VP8Decoder.bufSize) :
    ∃ dec', dec.decodePackets (marked (groups 0 packets).flatten) =
        some ((partitions packets).filter (· ≠ []), dec') ∧
      dec'.Inv ∧ dec'.bufLen = 0 ∧ dec'.completeFrame = true ∧ dec'.first = true := by
  obtain ⟨handed, dec', acc, hfeed, hacc, hall⟩ := feed_groups 0 hdec hfits
  rw [pending_nil, List.nil_append] at hall
  by_cases hnone : (groups 0 packets).flatten = []
  · rw [hnone] at hfeed ⊢
    cases hfeed
    have hempty : acc = [] := by
      rw [← hacc.buffer, List.take_eq_nil_iff, ← hacc.bufLen, hdec.bufLen]
      exact .inl rfl
    rw [hempty, pending_nil, List.append_nil] at hall
    rw [← hall]
    exact ⟨dec, rfl, hdec.inv, hdec.bufLen, hdec.complete, hfirst⟩
  · have hend : dec'.endFrame.1 = pending acc := by
      rw [VP8Decoder.endFrame, hacc.complete, hacc.bufLen, hacc.buffer, pending]
      cases acc <;> simp
    rw [decodePackets_marked hnone hfeed, hend, hall]
    exact ⟨_, rfl, hacc.inv.endFrame, rfl, rfl, rfl⟩

theorem inv_getFrame (hframe : ∀ f ∈ frame, f.Inv) :
    Inv { getFrame frame with rtpInfo := [], length := 0 } := by
  refine ⟨Nat.zero_le _, ?_⟩
  cases frame with
  | none =>
    show (List.replicate 262143 (0 : UInt8)).length < 2 ^ 32
    rw [List.length_replicate]
    decide
  | some f => exact (hframe f rfl).size_lt

end Whole

/-- Whatever frame is used again and whatever the codec hands over, as long as a partition fits the
buffer of the decoder: the frame is sent and decoded as it should if and only if it has room for the
partitions. -/
theorem faithful_iff_canAppend {frame : Option VideoFrame} {packets : List CxPacket}
    {dec : VP8Decoder} (hframe : ∀ f ∈ frame, f.Inv)
    (hfits : ∀ partition ∈ partitions packets, partition.length ≤ VP8Decoder.bufSize)
    (hdec : dec.Inv ∧ dec.bufLen = 0 ∧ dec.completeFrame = true ∧ dec.first = true) :
    Faithful dec frame packets ↔
      CanAppend (getFrame frame).buffer.length 0 (partitions packets) := by
  have hinv := inv_getFrame hframe
  constructor
  · rintro ⟨frame', sent, hencode, -⟩
    have hbuf : VP8Decoder.bufSize < 2 ^ 31 := by decide
    refine canAppend_of_addCxPackets hinv ?_ (by rw [encodeFrame] at hencode; rw [hencode]; rfl)
    intro partition hpartition
    exact Nat.lt_of_le_of_lt (hfits partition hpartition) hbuf
  · intro hcan
    obtain ⟨frame', notes, hadd, happended, hsends⟩ := addCxPackets_spec 0 hinv hcan
    have hnotes : frame'.rtpInfo = notes := happended.rtpInfo
    have hmedia : frame'.media = (partitions packets).flatten := happended.media
    have hmax : ∀ p ∈ (groups 0 packets).flatten, p.length ≤ RTPSmoother.maxMediaLength := by
      intro p hp
      have hle := length_groups_le 0 packets p hp
      rw [rtpPayloadSize] at hle
      rw [RTPSmoother.maxMediaLength]
      omega
    have hsent := sendPackets_eq_marked happended.inv hsends hmax
    refine ⟨frame', marked (groups 0 packets).flatten, hadd, ?_, hmedia, ?_, ?_, ?_, ?_⟩
    · rw [RTPSmoother.sendFrame, hnotes, hsent]
    · intro packet hpacket
      refine length_groups_le 0 packets _ ?_
      have hmem := List.mem_map_of_mem (f := RTPPacketSched.mediaData) hpacket
      rwa [map_marked] at hmem
    · exact ⟨groups 0 packets, map_marked _, forall₂_groups 0 packets⟩
    · exact marksLast_marked _
    · obtain ⟨hdecinv, hbufLen, hcomplete, hfirst⟩ := hdec
      exact decodePackets_groups ⟨hdecinv, hbufLen, rfl, hcomplete⟩ hfirst hfits

/-- A frame of three partitions, one of them empty. -/
def threePartitions : List CxPacket :=
  [⟨true, true, false, [1, 2]⟩, ⟨true, true, false, []⟩, ⟨true, true, false, [3]⟩]

theorem threePartitions_faithful : Faithful .new none threePartitions := by
  have hnone : ∀ f ∈ (none : Option VideoFrame), f.Inv := by
    intro f hf
    cases hf
  have hfits : ∀ partition ∈ partitions threePartitions,
      partition.length ≤ VP8Decoder.bufSize := by
    decide
  exact (faithful_iff_canAppend hnone hfits ⟨VP8Decoder.inv_new, rfl, rfl, rfl⟩).2
    (canAppend_of_lt (by decide))

/-- A frame never holds more than half of what a `DWORD` can count. -/
theorem lt_of_canAppend {room length : Nat} {pieces : List (List UInt8)}
    (hlength : length ≤ room) (hroom : room < 2 ^ 31) (h : CanAppend room length pieces) :
    length + pieces.flatten.length < 2 ^ 31 := by
  induction pieces generalizing room length with
  | nil => exact Nat.lt_of_le_of_lt hlength hroom
  | cons piece pieces ih =>
    obtain ⟨hfirst, hrest⟩ := h
    rw [List.flatten_cons, List.length_append, ← Nat.add_assoc]
    refine ih ?_ ?_ hrest
    · rw [grown]
      split <;> omega
    · rw [grown]
      split <;> omega

/-- A frame of two thousand partitions that fill the buffer of the decoder. -/
def tooLong : List CxPacket :=
  List.replicate 2000 ⟨true, true, false, List.replicate VP8Decoder.bufSize 0⟩

theorem partitions_tooLong :
    partitions tooLong = List.replicate 2000 (List.replicate VP8Decoder.bufSize 0) := by
  rw [partitions, tooLong, List.filter_replicate_of_pos rfl, List.map_replicate]

/-- The frame cannot be enlarged for it. -/
theorem not_faithful_tooLong :
    ¬((∀ partition ∈ partitions tooLong, partition.length ≤ VP8Decoder.bufSize) →
      Faithful .new none tooLong) := by
  intro h
  have hlength : ∀ partition ∈ partitions tooLong, partition.length = VP8Decoder.bufSize := by
    intro partition hpartition
    rw [partitions_tooLong] at hpartition
    rw [List.eq_of_mem_replicate hpartition, List.length_replicate]
  obtain ⟨frame', -, hencode, -⟩ := h fun partition hp => (hlength partition hp).le
  have hnone : ∀ f ∈ (none : Option VideoFrame), f.Inv := by
    intro f hf
    cases hf
  have hbuf : VP8Decoder.bufSize < 2 ^ 31 := by decide
  have hcan := @canAppend_of_addCxPackets _ tooLong 0 (inv_getFrame hnone)
    (fun partition hp => by rw [hlength partition hp]; exact hbuf)
    (by rw [encodeFrame] at hencode; rw [hencode]; rfl)
  have hroom : (getFrame none).buffer.length < 2 ^ 31 := by
    show (List.replicate 262143 (0 : UInt8)).length < 2 ^ 31
    rw [List.length_replicate]
    decide
  have hlt := lt_of_canAppend (Nat.zero_le _) hroom hcan
  have hflatten (n : Nat) :
      (List.replicate n (List.replicate VP8Decoder.bufSize (0 : UInt8))).flatten.length =
        n * VP8Decoder.bufSize := by
    simp
  rw [partitions_tooLong, hflatten, VP8Decoder.bufSize] at hlt
  omega

end VP8Encoder

end McuMediaServer
