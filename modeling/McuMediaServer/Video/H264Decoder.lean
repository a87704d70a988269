import McuMediaServer.Video.H264Frame

/-!
# The H.264 decoder's own depacketizer

The decoder puts the NAL units of the payloads it is given into its buffer, each behind a start code,
and hands the buffer to the codec after the last payload of a frame. The second part compares this with
the frames of `H264Depacketizer`.
-/

namespace McuMediaServer

open ByteSeq ByteWriter H264

/-- What the server relies on of the codec library: how many bytes it wants behind a bitstream, 64
at most. -/
structure FFmpeg where
  inputBufferPaddingSize : Nat
  padding_le : inputBufferPaddingSize ≤ 64

/-- The decoder's buffer and how much of it is bitstream. Reference: `h264decoder.cpp:18`. -/
structure H264Decoder where
  buffer : List UInt8
  bufLen : Nat

namespace H264Decoder

/-- Reference: `h264decoder.cpp:44`. -/
def bufSize : Nat := 1024 * 756 * 3 / 2

/-- Reference: `h264decoder.cpp:74`. -/
def syncBytes : List UInt8 := [0, 0, 0, 1]

/-- The loop over the NAL units of an aggregate, behind its header; a unit that is longer than what
is left is cut. The size is 0 when a unit does not fit. Reference: `h264decoder.cpp:160`. -/
def appendAggregate (destSize destLen outsize : Nat) (dest payload : List UInt8) :
    Option (Nat × List UInt8) :=
  match payload with
  | high :: low :: first :: rest =>
    let naluSize := min (high.toNat * 2 ^ 8 + low.toNat) (first :: rest).length
    if destSize < outsize + (naluSize + 4) + destLen then
      some (0, dest)
    else do
      let dest ← putAt (destLen + outsize) syncBytes dest
      let dest ← putAt (destLen + outsize + 4) ((first :: rest).take naluSize) dest
      appendAggregate destSize destLen (outsize + (naluSize + 4)) dest ((first :: rest).drop naluSize)
  | _ => some (outsize, dest)
termination_by payload.length
decreasing_by
  rw [List.length_drop]
  simp only [List.length_cons]
  omega

/-- A NAL unit behind a start code. Reference: `h264decoder.cpp:277`. -/
def appendNal (destSize destLen : Nat) (dest nal : List UInt8) : Option (Nat × List UInt8) :=
  if destSize < nal.length + 4 + destLen then
    some (0, dest)
  else do
    let dest ← putAt destLen syncBytes dest
    let dest ← putAt (destLen + 4) nal dest
    return (nal.length + 4, dest)

/-- The rest of a fragmented NAL unit. Reference: `h264decoder.cpp:256`. -/
def appendRest (destSize destLen : Nat) (dest body : List UInt8) : Option (Nat × List UInt8) :=
  if destSize < body.length + destLen then
    some (0, dest)
  else do
    let dest ← putAt destLen body dest
    return (body.length, dest)

/-- The NAL units of a payload are written behind what is in the buffer, and their size is returned.
The byte in front of the first fragment's own bytes is its FU header, and is replaced by the header
of the NAL unit. There is no value when a byte is read outside the payload or written outside the
buffer. Reference: `h264decoder.cpp:78`. -/
def appendNals (dest : List UInt8) (destLen destSize : Nat) (payload : List UInt8) :
    Option (Nat × List UInt8) :=
  match payload with
  | [] => some (0, dest)
  | header :: rest =>
    match packetType header, rest with
    | .unsupported, _ => some (0, dest)
    | .aggregate, _ => appendAggregate destSize destLen 0 dest rest
    | .fragment, [] => none
    | .fragment, fuHeader :: body =>
      if isStart fuHeader then
        appendNal destSize destLen dest (reconstruct header fuHeader :: body)
      else
        appendRest destSize destLen dest body
    | .single, _ => appendNal destSize destLen dest (header :: rest)

variable (ffmpeg : FFmpeg) (dec : H264Decoder)

/-- A payload is put into the buffer; after the last one the bitstream is handed to the codec.
Reference: `h264decoder.cpp:309`. -/
def decodePacket (payload : List UInt8) (last : Bool) : Option (Option (List UInt8) × H264Decoder) :=
  if bufSize < dec.bufLen + payload.length + ffmpeg.inputBufferPaddingSize then
    some (none, { dec with bufLen := 0 })
  else do
    let (size, buffer) ← appendNals dec.buffer dec.bufLen
      (bufSize - ffmpeg.inputBufferPaddingSize) payload
    let bufLen := dec.bufLen + size
    if last then
      let buffer ← putAt bufLen (List.replicate ffmpeg.inputBufferPaddingSize 0) buffer
      return (some (buffer.take bufLen), ⟨buffer, 0⟩)
    else
      return (none, ⟨buffer, bufLen⟩)

/-- The payloads of a frame, and the bitstream that is handed to the codec at its end. -/
def decodePackets (dec : H264Decoder) : List (List UInt8) → Option (Option (List UInt8))
  | [] => some none
  | [payload] => do
    let (bitstream, _) ← dec.decodePacket ffmpeg payload true
    return bitstream
  | payload :: next :: payloads => do
    let (_, dec) ← dec.decodePacket ffmpeg payload false
    decodePackets dec (next :: payloads)

/-- The bitstream. -/
def bitstream : List UInt8 := dec.buffer.take dec.bufLen

/-- The buffer has its size, and the bitstream leaves room for the padding. -/
structure Inv : Prop where
  length_buffer : dec.buffer.length = bufSize
  bufLen_le : dec.bufLen + ffmpeg.inputBufferPaddingSize ≤ bufSize

/-! ## What is written -/

/-- The NAL units of an aggregate, the last one cut where the aggregate ends. -/
def aggregates (payload : List UInt8) : List (List UInt8) :=
  match payload with
  | high :: low :: first :: rest =>
    let naluSize := min (high.toNat * 2 ^ 8 + low.toNat) (first :: rest).length
    (first :: rest).take naluSize :: aggregates ((first :: rest).drop naluSize)
  | _ => []
termination_by payload.length
decreasing_by
  rw [List.length_drop]
  simp only [List.length_cons]
  omega

/-- NAL units one after the other, each behind a start code. -/
def startCoded (nals : List (List UInt8)) : List UInt8 := nals.flatMap fun nal => syncBytes ++ nal

/-- What a payload adds to the bitstream. -/
def decoded (payload : List UInt8) : List UInt8 :=
  match payload with
  | [] => []
  | header :: rest =>
    match packetType header, rest with
    | .unsupported, _ => []
    | .aggregate, _ => startCoded (aggregates rest)
    | .fragment, [] => []
    | .fragment, fuHeader :: body =>
      if isStart fuHeader then syncBytes ++ (reconstruct header fuHeader :: body) else body
    | .single, _ => syncBytes ++ (header :: rest)

/-- A fragment has an FU header. -/
def HasFuHeader : List UInt8 → Prop
  | [header] => packetType header ≠ .fragment
  | _ => True

section Lemmas

variable {dest dest' dest'' payload : List UInt8} {destLen destSize outsize off : Nat}

/-- Bytes are written from an offset on, behind which the buffer holds nothing that counts. -/
def Extends (dest dest' : List UInt8) (off : Nat) (bytes : List UInt8) : Prop :=
  dest'.length = dest.length ∧ dest'.take (off + bytes.length) = dest.take off ++ bytes

theorem Extends.refl (dest : List UInt8) (off : Nat) : Extends dest dest off [] :=
  ⟨rfl, (List.append_nil _).symm⟩

theorem Extends.trans {xs ys : List UInt8} (h : Extends dest dest' off xs)
    (h' : Extends dest' dest'' (off + xs.length) ys) : Extends dest dest'' off (xs ++ ys) := by
  refine ⟨h'.1.trans h.1, ?_⟩
  rw [List.length_append, ← Nat.add_assoc, h'.2, h.2, List.append_assoc]

theorem exists_putAt {bytes : List UInt8} (h : off + bytes.length ≤ dest.length) :
    ∃ dest', putAt off bytes dest = some dest' ∧ Extends dest dest' off bytes :=
  ⟨_, putAt_eq_some h, length_of_putAt (putAt_eq_some h), take_of_putAt (putAt_eq_some h)⟩

theorem exists_putAt_nal {nal : List UInt8} (h : off + (nal.length + 4) ≤ dest.length) :
    ∃ dest₁, putAt off syncBytes dest = some dest₁ ∧
      ∃ dest₂, putAt (off + 4) nal dest₁ = some dest₂ ∧
        Extends dest dest₂ off (syncBytes ++ nal) := by
  obtain ⟨dest₁, hdest₁, h₁⟩ := @exists_putAt dest off syncBytes
    (by rw [show syncBytes.length = 4 from rfl]; omega)
  obtain ⟨dest₂, hdest₂, h₂⟩ := @exists_putAt dest₁ (off + 4) nal (by rw [h₁.1]; omega)
  exact ⟨dest₁, hdest₁, dest₂, hdest₂, h₁.trans h₂⟩

/-- What an append function returns when it has written `outsize` bytes before: the size of all it
has to write, or 0 when that does not fit, and a buffer in which it is written when it fits. -/
def Appends (result : Option (Nat × List UInt8)) (dest : List UInt8) (off destSize outsize : Nat)
    (bytes : List UInt8) : Prop :=
  ∃ dest', result =
      some (if off + bytes.length ≤ destSize then outsize + bytes.length else 0, dest') ∧
    dest'.length = dest.length ∧ (off + bytes.length ≤ destSize → Extends dest dest' off bytes)

theorem appends_nil (h : off ≤ destSize) :
    Appends (some (outsize, dest)) dest off destSize outsize [] :=
  ⟨dest, by rw [List.length_nil, if_pos (by omega)]; rfl, rfl, fun _ => .refl dest off⟩

theorem appends_refused {bytes : List UInt8} (h : destSize < off + bytes.length) :
    Appends (some (0, dest)) dest off destSize outsize bytes :=
  ⟨dest, by rw [if_neg (Nat.not_le.2 h)], rfl, fun hfits => absurd hfits (Nat.not_le.2 h)⟩

theorem Appends.after {result : Option (Nat × List UInt8)} {xs ys : List UInt8}
    (h : Extends dest dest' off xs)
    (h' : Appends result dest' (off + xs.length) destSize (outsize + xs.length) ys) :
    Appends result dest off destSize outsize (xs ++ ys) := by
  obtain ⟨dest'', hresult, hlength, hextends⟩ := h'
  refine ⟨dest'', ?_, hlength.trans h.1, ?_⟩
  · rw [hresult, List.length_append, Nat.add_assoc, Nat.add_assoc]
  · rw [List.length_append, ← Nat.add_assoc]
    intro hfits
    exact h.trans (hextends hfits)

theorem length_startCode (nal : List UInt8) : (syncBytes ++ nal).length = nal.length + 4 := by
  rw [List.length_append, Nat.add_comm]
  rfl

theorem appends_appendNal (hdest : destSize ≤ dest.length) (nal : List UInt8) :
    Appends (appendNal destSize off dest nal) dest off destSize 0 (syncBytes ++ nal) := by
  rw [appendNal]
  by_cases hfits : destSize < nal.length + 4 + off
  · rw [if_pos hfits]
    exact appends_refused (by rw [length_startCode]; omega)
  · obtain ⟨dest₁, hdest₁, dest₂, hdest₂, hextends⟩ := @exists_putAt_nal dest off nal (by omega)
    rw [if_neg hfits, hdest₁, Option.bind_eq_bind, Option.bind_some, hdest₂]
    refine ⟨dest₂, ?_, hextends.1, fun _ => hextends⟩
    rw [length_startCode, if_pos (by omega), Nat.zero_add]
    rfl

theorem appends_appendRest (hdest : destSize ≤ dest.length) (body : List UInt8) :
    Appends (appendRest destSize off dest body) dest off destSize 0 body := by
  rw [appendRest]
  by_cases hfits : destSize < body.length + off
  · rw [if_pos hfits]
    exact appends_refused (by omega)
  · obtain ⟨dest₁, hdest₁, hextends⟩ := @exists_putAt dest off body (by omega)
    rw [if_neg hfits, hdest₁]
    refine ⟨dest₁, ?_, hextends.1, fun _ => hextends⟩
    rw [if_pos (by omega), Nat.zero_add]
    rfl

/-- The loop, after `outsize` bytes. -/
theorem appends_appendAggregate (hdest : destSize ≤ dest.length)
    (hoff : destLen + outsize ≤ destSize) :
    Appends (appendAggregate destSize destLen outsize dest payload) dest (destLen + outsize) destSize
      outsize (startCoded (aggregates payload)) := by
  fun_induction appendAggregate destSize destLen outsize dest payload with
  | case1 outsize dest high low first rest naluSize hfits =>
    refine appends_refused ?_
    rw [aggregates, startCoded, List.flatMap_cons, List.length_append, length_startCode,
      List.length_take]
    omega
  | case2 outsize dest high low first rest naluSize hfits ih =>
    have hnal : ((first :: rest).take naluSize).length = naluSize := by
      rw [List.length_take]
      omega
    obtain ⟨dest₁, hdest₁, dest₂, hdest₂, hextends⟩ :=
      @exists_putAt_nal dest (destLen + outsize) ((first :: rest).take naluSize) (by omega)
    rw [hdest₁, Option.bind_eq_bind, Option.bind_some, hdest₂, Option.bind_some, aggregates,
      startCoded, List.flatMap_cons]
    refine Appends.after hextends ?_
    rw [length_startCode, hnal, Nat.add_assoc]
    exact ih dest₂ (by rw [hextends.1]; exact hdest) (by omega)
  | case3 outsize dest payload hshort =>
    have hnone : aggregates payload = [] := by
      rw [aggregates]
      exact hshort
    rw [hnone]
    exact appends_nil hoff

theorem appends_appendNals (hdest : destSize ≤ dest.length) (hoff : destLen ≤ destSize)
    (hheader : HasFuHeader payload) :
    Appends (appendNals dest destLen destSize payload) dest destLen destSize 0 (decoded payload) := by
  cases payload with
  | nil => exact appends_nil hoff
  | cons header rest =>
    cases htype : packetType header with
    | unsupported =>
      simp only [appendNals, decoded, htype]
      exact appends_nil hoff
    | aggregate =>
      simp only [appendNals, decoded, htype]
      exact appends_appendAggregate hdest hoff
    | fragment =>
      cases rest with
      | nil => exact absurd htype hheader
      | cons fuHeader body =>
        simp only [appendNals, decoded, htype]
        by_cases hstart : isStart fuHeader = true
        · rw [if_pos hstart, if_pos hstart]
          exact appends_appendNal hdest _
        · rw [if_neg hstart, if_neg hstart]
          exact appends_appendRest hdest _
    | single =>
      simp only [appendNals, decoded, htype]
      exact appends_appendNal hdest _

theorem hasFuHeader_of_isSome (h : (appendNals dest destLen destSize payload).isSome) :
    HasFuHeader payload := by
  cases payload with
  | nil => trivial
  | cons header rest =>
    cases rest with
    | nil =>
      intro htype
      simp [appendNals, htype] at h
    | cons _ _ => trivial

/-! ## Payloads of a frame -/

variable {ffmpeg} {dec dec' : H264Decoder}

/-- A payload that is looked at: how much is added to the bitstream, and what is handed to the
codec. -/
structure Decodes (ffmpeg : FFmpeg) (dec : H264Decoder) (payload : List UInt8) (n : Nat)
    (bitstream : List UInt8) : Prop where
  bufLen_le : dec.bufLen + n + ffmpeg.inputBufferPaddingSize ≤ bufSize
  goesOn : ∃ dec', dec.decodePacket ffmpeg payload false = some (none, dec') ∧ dec'.Inv ffmpeg ∧
    dec'.bufLen = dec.bufLen + n ∧ dec'.bitstream = bitstream
  ends : ∃ dec', dec.decodePacket ffmpeg payload true = some (some bitstream, dec') ∧
    dec'.Inv ffmpeg ∧ dec'.bufLen = 0

theorem exists_decodes (h : dec.Inv ffmpeg)
    (hsize : dec.bufLen + payload.length + ffmpeg.inputBufferPaddingSize ≤ bufSize)
    (hheader : HasFuHeader payload) :
    ∃ n bitstream, Decodes ffmpeg dec payload n bitstream ∧
      (dec.bufLen + (decoded payload).length + ffmpeg.inputBufferPaddingSize ≤ bufSize →
        n = (decoded payload).length ∧ bitstream = dec.bitstream ++ decoded payload) := by
  obtain ⟨hlength, hbufLen⟩ := h
  obtain ⟨buffer, hbuffer, hroom, hextends⟩ := @appends_appendNals dec.buffer payload dec.bufLen
    (bufSize - ffmpeg.inputBufferPaddingSize) (by omega) (by omega) hheader
  generalize hn : (if dec.bufLen + (decoded payload).length ≤
    bufSize - ffmpeg.inputBufferPaddingSize then 0 + (decoded payload).length else 0) = n at hbuffer
  have hle : dec.bufLen + n + ffmpeg.inputBufferPaddingSize ≤ bufSize := by
    rw [← hn]
    split <;> omega
  refine ⟨n, buffer.take (dec.bufLen + n), ⟨hle, ?_, ?_⟩, ?_⟩
  · refine ⟨⟨buffer, dec.bufLen + n⟩, ?_, ⟨hroom.trans hlength, hle⟩, rfl, rfl⟩
    rw [decodePacket, if_neg (Nat.not_lt.2 hsize), hbuffer]
    rfl
  · obtain ⟨buffer', hbuffer', hextends'⟩ := @exists_putAt buffer (dec.bufLen + n)
      (List.replicate ffmpeg.inputBufferPaddingSize 0) (by rw [List.length_replicate]; omega)
    have hkept := take_of_putAt_of_le hbuffer' (Nat.le_refl _)
    refine ⟨⟨buffer', 0⟩, ?_, ⟨hextends'.1.trans (hroom.trans hlength), by
      show 0 + ffmpeg.inputBufferPaddingSize ≤ bufSize
      omega⟩, rfl⟩
    rw [decodePacket, if_neg (Nat.not_lt.2 hsize), hbuffer, ← hkept]
    simp only [Option.bind_eq_bind, Option.bind_some, if_true]
    rw [hbuffer']
    rfl
  · intro hfits
    rw [if_pos (by omega), Nat.zero_add] at hn
    subst hn
    exact ⟨rfl, (hextends (by omega)).2⟩

theorem decodePacket_of_lt {last : Bool}
    (hsize : bufSize < dec.bufLen + payload.length + ffmpeg.inputBufferPaddingSize) :
    dec.decodePacket ffmpeg payload last = some (none, { dec with bufLen := 0 }) := by
  rw [decodePacket, if_pos hsize]

theorem isSome_decodePacket (h : dec.Inv ffmpeg) {last : Bool} :
    (dec.decodePacket ffmpeg payload last).isSome ↔
      (dec.bufLen + payload.length + ffmpeg.inputBufferPaddingSize ≤ bufSize →
        HasFuHeader payload) := by
  by_cases hsize : dec.bufLen + payload.length + ffmpeg.inputBufferPaddingSize ≤ bufSize
  · rw [imp_iff_right hsize]
    constructor
    · intro hsome
      rw [decodePacket, if_neg (Nat.not_lt.2 hsize)] at hsome
      exact hasFuHeader_of_isSome (isSome_of_bind hsome)
    · intro hheader
      obtain ⟨n, bitstream, hdecodes, -⟩ := exists_decodes h hsize hheader
      cases last with
      | false =>
        obtain ⟨dec', hdec', -⟩ := hdecodes.goesOn
        rw [hdec']
        rfl
      | true =>
        obtain ⟨dec', hdec', -⟩ := hdecodes.ends
        rw [hdec']
        rfl
  · rw [decodePacket_of_lt (Nat.lt_of_not_le hsize)]
    exact iff_of_true rfl fun hle => absurd hle hsize

theorem Inv.decodePacket (h : dec.Inv ffmpeg) {last : Bool} {bitstream : Option (List UInt8)}
    (hdecode : dec.decodePacket ffmpeg payload last = some (bitstream, dec')) : dec'.Inv ffmpeg := by
  by_cases hsize : dec.bufLen + payload.length + ffmpeg.inputBufferPaddingSize ≤ bufSize
  · have hheader := (isSome_decodePacket h).1 (by rw [hdecode]; rfl) hsize
    obtain ⟨n, bitstream', hdecodes, -⟩ := exists_decodes h hsize hheader
    cases last with
    | false =>
      obtain ⟨dec₁, hdec₁, hinv, -⟩ := hdecodes.goesOn
      obtain ⟨-, rfl⟩ := Prod.mk.inj (Option.some.inj (hdec₁.symm.trans hdecode))
      exact hinv
    | true =>
      obtain ⟨dec₁, hdec₁, hinv, -⟩ := hdecodes.ends
      obtain ⟨-, rfl⟩ := Prod.mk.inj (Option.some.inj (hdec₁.symm.trans hdecode))
      exact hinv
  · rw [decodePacket_of_lt (Nat.lt_of_not_le hsize)] at hdecode
    obtain ⟨-, rfl⟩ := Prod.mk.inj (Option.some.inj hdecode)
    have hpadding := h.bufLen_le
    exact ⟨h.length_buffer, by show 0 + ffmpeg.inputBufferPaddingSize ≤ bufSize; omega⟩

/-- The payloads pass the decoder's checks of lengths. -/
def Fits (ffmpeg : FFmpeg) : (bufLen : Nat) → List (List UInt8) → Prop
  | _, [] => True
  | bufLen, payload :: payloads =>
    bufLen + payload.length + ffmpeg.inputBufferPaddingSize ≤ bufSize ∧
      bufLen + (decoded payload).length + ffmpeg.inputBufferPaddingSize ≤ bufSize ∧
        Fits ffmpeg (bufLen + (decoded payload).length) payloads

theorem Fits.length_le {payloads : List (List UInt8)} {bufLen : Nat} (h : Fits ffmpeg bufLen payloads)
    (hbufLen : bufLen ≤ bufSize) : bufLen + (payloads.flatMap decoded).length ≤ bufSize := by
  induction payloads generalizing bufLen with
  | nil => exact hbufLen
  | cons payload payloads ih =>
    obtain ⟨-, hfits, hrest⟩ := h
    have hle := ih hrest (by omega)
    rw [List.flatMap_cons, List.length_append]
    omega

theorem decodePackets_of_fits (h : dec.Inv ffmpeg) {payloads : List (List UInt8)} (hne : payloads ≠ [])
    (hfits : Fits ffmpeg dec.bufLen payloads) (hheader : ∀ payload ∈ payloads, HasFuHeader payload) :
    dec.decodePackets ffmpeg payloads = some (some (dec.bitstream ++ payloads.flatMap decoded)) := by
  induction payloads generalizing dec with
  | nil => exact absurd rfl hne
  | cons payload payloads ih =>
    rw [List.forall_mem_cons] at hheader
    obtain ⟨hsize, hfits, hrest⟩ := hfits
    obtain ⟨n, bitstream, hdecodes, hn⟩ := exists_decodes h hsize hheader.1
    obtain ⟨rfl, rfl⟩ := hn hfits
    cases payloads with
    | nil =>
      obtain ⟨dec₁, hdec₁, -⟩ := hdecodes.ends
      rw [decodePackets, hdec₁, List.flatMap_singleton]
      rfl
    | cons next payloads =>
      obtain ⟨dec₁, hdec₁, hinv, hbufLen, hbitstream⟩ := hdecodes.goesOn
      rw [← hbufLen] at hrest
      have hdecode := ih hinv (by simp) hrest hheader.2
      rw [decodePackets, hdec₁, Option.bind_eq_bind, Option.bind_some]
      dsimp only
      rw [hdecode, hbitstream, List.append_assoc]
      rfl

/-! ## Both depacketizers -/

theorem aggregates_eq {nals : List (List UInt8)}
    (h : H264Depacketizer.aggregates payload = some nals) : aggregates payload = nals := by
  fun_induction aggregates payload generalizing nals with
  | case1 high low first rest naluSize =>
    rename_i ih
    rw [H264Depacketizer.aggregates] at h
    simp only [Option.bind_eq_bind, Option.bind_eq_some_iff] at h
    obtain ⟨nal, hnal, nals', hnals', hnals⟩ := h
    have hfits : high.toNat * 2 ^ 8 + low.toNat ≤ (first :: rest).length := by
      by_contra hno
      rw [slice, Nat.zero_add, if_neg hno] at hnal
      cases hnal
    rw [slice, Nat.zero_add, if_pos hfits] at hnal
    have hsize : naluSize = high.toNat * 2 ^ 8 + low.toNat := Nat.min_eq_left hfits
    rw [hsize] at ih ⊢
    rw [ih hnals']
    obtain rfl := Option.some.inj hnal
    exact Option.some.inj hnals
  | case2 payload hshort =>
    rw [H264Depacketizer.aggregates] at h
    · exact Option.some.inj h
    · exact hshort

theorem startCoded_cons (nal : List UInt8) (nals : List (List UInt8)) :
    startCoded (nal :: nals) = syncBytes ++ nal ++ startCoded nals :=
  List.flatMap_cons

theorem startCoded_append (xs ys : List (List UInt8)) :
    startCoded (xs ++ ys) = startCoded xs ++ startCoded ys :=
  List.flatMap_append

theorem length_startCoded (nals : List (List UInt8)) :
    (startCoded nals).length = (framed nals).length := by
  induction nals with
  | nil => rfl
  | cons nal nals ih =>
    rw [startCoded_cons, framed_cons, List.length_append, length_startCode, List.length_append,
      List.length_append, length_be4, ih, Nat.add_comm 4]

theorem length_decoded {data : List (List UInt8)} (h : H264Depacketizer.pieces payload = some data) :
    data.flatten.length = (decoded payload).length := by
  cases payload with
  | nil =>
    obtain rfl := Option.some.inj h
    rfl
  | cons header rest =>
    cases htype : packetType header with
    | unsupported =>
      simp only [H264Depacketizer.pieces, htype] at h
      obtain rfl := Option.some.inj h
      simp only [decoded, htype]
      rfl
    | aggregate =>
      simp only [H264Depacketizer.pieces, htype] at h
      obtain ⟨nals, hnals, rfl⟩ := Option.map_eq_some_iff.1 h
      simp only [decoded, htype, aggregates_eq hnals, length_startCoded]
      rw [flatten_lengthPrefixed]
    | fragment =>
      cases rest with
      | nil => simp [H264Depacketizer.pieces, htype] at h
      | cons fuHeader body =>
        simp only [H264Depacketizer.pieces, htype] at h
        obtain rfl := Option.some.inj h
        simp only [decoded, htype, H264Depacketizer.startPieces]
        by_cases hstart : isStart fuHeader = true
        · rw [if_pos hstart, if_pos hstart, length_startCode]
          simp
          omega
        · rw [if_neg hstart, if_neg hstart]
          simp
    | single =>
      simp only [H264Depacketizer.pieces, htype] at h
      obtain rfl := Option.some.inj h
      simp only [decoded, htype, length_startCode]
      simp [H264Depacketizer.lengthPrefixed]
      omega

theorem length_allPieces {payloads : List (List UInt8)} {started : Prop}
    (h : H264Depacketizer.Ready started payloads) :
    (H264Depacketizer.allPieces payloads).flatten.length = (payloads.flatMap decoded).length := by
  induction payloads generalizing started with
  | nil => rfl
  | cons payload payloads ih =>
    obtain ⟨hpieces, -, hrest⟩ := h
    obtain ⟨data, hdata⟩ := Option.isSome_iff_exists.1 hpieces
    have hall : H264Depacketizer.allPieces (payload :: payloads) =
        data ++ H264Depacketizer.allPieces payloads := by
      rw [H264Depacketizer.allPieces, List.flatMap_cons, hdata]
      rfl
    rw [hall, List.flatten_append, List.length_append, length_decoded hdata, ih hrest,
      List.flatMap_cons, List.length_append]

theorem hasFuHeader_of_ready {payloads : List (List UInt8)} {started : Prop}
    (h : H264Depacketizer.Ready started payloads) : ∀ payload ∈ payloads, HasFuHeader payload := by
  induction payloads generalizing started with
  | nil => exact List.forall_mem_nil _
  | cons payload payloads ih =>
    obtain ⟨hpieces, -, hrest⟩ := h
    refine List.forall_mem_cons.2 ⟨?_, ih hrest⟩
    match payload with
    | [] => trivial
    | [header] =>
      intro htype
      simp [H264Depacketizer.pieces, htype] at hpieces
    | _ :: _ :: _ => trivial

theorem decoded_of_fuA {indicator fuHeader : UInt8} (htype : nalUnitType indicator = 28)
    (body : List UInt8) :
    decoded (indicator :: fuHeader :: body) =
      if isStart fuHeader then syncBytes ++ (reconstruct indicator fuHeader :: body) else body := by
  simp only [decoded, packetType_of_fuA htype]

theorem decoded_of_fragments {fragments : List (List UInt8)} {rest : List UInt8}
    (h : Fragments fragments rest) : fragments.flatMap decoded = rest := by
  induction h with
  | last htype hstart =>
    rw [List.flatMap_singleton, decoded_of_fuA htype, if_neg hstart]
  | more htype hstart _ _ ih =>
    rw [List.flatMap_cons, decoded_of_fuA htype, if_neg hstart, ih]

theorem decoded_of_carry {payloads nals : List (List UInt8)} (h : Carry payloads nals) :
    payloads.flatMap decoded = startCoded nals := by
  induction h with
  | nil => rfl
  | @single header body payloads nals htype _ ih =>
    rw [List.flatMap_cons, ih, startCoded_cons]
    simp only [decoded, htype]
  | @stapA header units payloads nals htype hunits _ ih =>
    rw [List.flatMap_cons, ih, startCoded_append]
    simp only [decoded, htype, aggregates_eq (aggregates_aggregated hunits)]
  | @fuA fragments payloads nals nal hfragments _ ih =>
    rw [List.flatMap_append, ih, startCoded_cons]
    congr 1
    cases hfragments with
    | whole htype hstart => rw [List.flatMap_singleton, decoded_of_fuA htype, if_pos hstart]
    | split htype hstart _ hrest =>
      rw [List.flatMap_cons, decoded_of_fuA htype, if_pos hstart, decoded_of_fragments hrest]
      simp

end Lemmas

/-- The NAL units of a frame, each behind its length. -/
def nalUnits (data : List UInt8) : Option (List (List UInt8)) :=
  if h : data = [] then
    some []
  else do
    let size ← get4 data 0
    let nal ← slice data 4 size
    let nals ← nalUnits (data.drop (4 + size))
    return nal :: nals
termination_by data.length
decreasing_by
  have hpos := List.length_pos_iff.2 h
  rw [List.length_drop]
  omega

theorem nalUnits_framed {nals : List (List UInt8)} (h : (framed nals).length < 2 ^ 32) :
    nalUnits (framed nals) = some nals := by
  induction nals with
  | nil =>
    rw [nalUnits]
    exact dif_pos rfl
  | cons nal nals ih =>
    rw [framed_cons, List.append_assoc] at h ⊢
    simp only [List.length_append, length_be4] at h
    have hne : be4 nal.length ++ (nal ++ framed nals) ≠ [] := by
      intro hnil
      simpa using congrArg List.length hnil
    have hsize : get4 (be4 nal.length ++ (nal ++ framed nals)) 0 = some nal.length := by
      rw [get4_be4, Nat.mod_eq_of_lt (by omega)]
    have hnal : slice (be4 nal.length ++ (nal ++ framed nals)) 4 nal.length = some nal := by
      rw [slice_append (by rw [length_be4]), length_be4]
      exact slice_left
    have hrest : (be4 nal.length ++ (nal ++ framed nals)).drop (4 + nal.length) = framed nals := by
      rw [← List.append_assoc]
      exact List.drop_left' (by rw [List.length_append, length_be4])
    rw [nalUnits, dif_neg hne, hsize, Option.bind_eq_bind, Option.bind_some, hnal, Option.bind_eq_bind,
      Option.bind_some, hrest, ih (by omega)]
    rfl

/-- The NAL units that `H264Depacketizer` makes of the payloads of a frame. -/
def depacketized (d : H264Depacketizer) (payloads : List (List UInt8)) :
    Option (List (List UInt8)) := do
  let d ← d.resetFrame.addPayloads payloads
  nalUnits d.frame.media

/-- Both make the same NAL units of the payloads of a frame. -/
def Agrees (ffmpeg : FFmpeg) (dec : H264Decoder) (d : H264Depacketizer)
    (payloads : List (List UInt8)) : Prop :=
  ∃ nals, depacketized d payloads = some nals ∧
    dec.decodePackets ffmpeg payloads = some (some (startCoded nals))

section Agrees

variable {ffmpeg : FFmpeg} {dec : H264Decoder} {d : H264Depacketizer} {payloads : List RTPPayload}
  {nals : List (List UInt8)}

theorem Agrees.isSome (h : Agrees ffmpeg dec d (payloads.map RTPPayload.data)) :
    (d.resetFrame.addPayloads (payloads.map RTPPayload.data)).isSome := by
  obtain ⟨nals, hnals, -⟩ := h
  rw [depacketized] at hnals
  exact isSome_of_bind (by rw [hnals]; rfl)

/-- The two depacketizers agree on the payloads of a frame that fits the decoder's buffer exactly
when every aggregate fits the 16 bytes of a prefix. -/
theorem agrees_iff (hdec : dec.Inv ffmpeg) (hstart : dec.bufLen = 0) (hd : d.Reachable)
    (hne : payloads ≠ []) (hcarry : Carry (payloads.map RTPPayload.data) nals)
    (hfits : Fits ffmpeg 0 (payloads.map RTPPayload.data)) :
    Agrees ffmpeg dec d (payloads.map RTPPayload.data) ↔
      ∀ payload ∈ payloads, H264Depacketizer.IsAggregate payload.data →
        payload.data.length ≤ 16 := by
  have hready := ready_of_carry hcarry True
  have htotal := hfits.length_le (Nat.zero_le _)
  have hcan : VideoFrame.CanAppend d.frame.buffer.length 0
      (H264Depacketizer.allPieces (payloads.map RTPPayload.data)) := by
    refine VideoFrame.canAppend_of_lt ?_
    rw [length_allPieces hready]
    rw [bufSize] at htotal
    omega
  have hsome := H264Depacketizer.isSome_addFrame hd hcarry
  rw [and_iff_left hcan] at hsome
  rw [← hsome]
  constructor
  · exact Agrees.isSome
  · intro hsome
    obtain ⟨d', hd'⟩ := Option.isSome_iff_exists.1 hsome
    have hbuilt := H264Depacketizer.built_of_addFrame hd hcarry hd'
    have hdecode := decodePackets_of_fits hdec (by simpa using hne) (by rw [hstart]; exact hfits)
      (hasFuHeader_of_ready hready)
    rw [decoded_of_carry hcarry, bitstream, hstart, List.take_zero, List.nil_append] at hdecode
    refine ⟨nals, ?_, hdecode⟩
    rw [depacketized, hd', Option.bind_eq_bind, Option.bind_some, hbuilt.media]
    refine nalUnits_framed ?_
    rw [decoded_of_carry hcarry, length_startCoded, bufSize] at htotal
    omega

end Agrees

/-- A library that wants 32 bytes behind a bitstream. -/
def padding32 : FFmpeg := ⟨32, by decide⟩

/-- Reference: `h264decoder.cpp:18`. -/
def new : H264Decoder := ⟨List.replicate bufSize 0, 0⟩

theorem inv_new (ffmpeg : FFmpeg) : new.Inv ffmpeg := by
  refine ⟨List.length_replicate, ?_⟩
  have hle := ffmpeg.padding_le
  show 0 + ffmpeg.inputBufferPaddingSize ≤ bufSize
  rw [bufSize]
  omega

/-- A slice of an intra picture. -/
theorem idrSlice_agrees :
    Agrees padding32 new H264Depacketizer.new [H264Depacketizer.idrSlice.data] ↔
      ∀ payload ∈ [H264Depacketizer.idrSlice], H264Depacketizer.IsAggregate payload.data →
        payload.data.length ≤ 16 :=
  @agrees_iff padding32 new H264Depacketizer.new [H264Depacketizer.idrSlice] _
    (inv_new padding32) rfl .new (List.cons_ne_nil _ _) H264Depacketizer.carry_idrSlice
    ⟨by decide, by decide, trivial⟩

/-- Only the decoder takes an aggregate of 18 bytes. -/
theorem not_agrees_parameterSets :
    ¬ Agrees padding32 new H264Depacketizer.new [H264Depacketizer.parameterSets.data] := by
  intro h
  have hcarry : Carry ([H264Depacketizer.parameterSets].map RTPPayload.data) _ :=
    H264Depacketizer.carry_parameterSets
  have hsmall := ((H264Depacketizer.isSome_addFrame .new hcarry).1
    (Agrees.isSome h)).1
  exact absurd (hsmall _ (List.mem_singleton_self _)) (by decide)

end H264Decoder

end McuMediaServer
