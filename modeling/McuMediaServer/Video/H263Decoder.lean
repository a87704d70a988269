import McuMediaServer.Video.H264Decoder

/-!
# The H.263 decoders' depacketizers

The decoder of RFC 2429 skips a header, an extra picture header and a byte of redundancy coding; the one
of RFC 2190 also joins a byte that is split between two packets, and masks the bits of a payload that
belong to another packet.
-/

namespace McuMediaServer

open ByteSeq ByteWriter

/-- Reference: `h263codec.cpp:282`. -/
structure H263Decoder where
  buffer : List UInt8
  bufLen : Nat

namespace H263Decoder

/-- Reference: `h263codec.cpp:308`. -/
def bufSize : Nat := 1024 * 756 * 3 / 2

def new : H263Decoder := ⟨List.replicate bufSize 0, 0⟩

variable (ffmpeg : FFmpeg) (dec : H263Decoder)

/-- What is in front of the bitstream of a payload: the header of two bytes, the extra picture
header (`plen`) and the byte of redundancy coding (`v`). Reference: `h263codec.cpp:396`. -/
def headerSize (first second : Nat) : Nat :=
  2 + (first % 2 * 2 ^ 5 + second / 2 ^ 3) + first / 2 % 2

/-- A start code's two bytes of zeros are put in front when the first byte says so. Reference:
`h263codec.cpp:353`. -/
def addPayload (payload : List UInt8) : Option H263Decoder := do
  let first ← get1 payload 0
  let second ← get1 payload 1
  let start := headerSize first second
  let zeros : List UInt8 := if first / 2 ^ 2 % 2 = 1 then [0, 0] else []
  let buffer ← putAt dec.bufLen zeros dec.buffer
  let data ← slice payload start (dwordSub payload.length start)
  let buffer ← putAt (dec.bufLen + zeros.length) data buffer
  return ⟨buffer, dec.bufLen + zeros.length + data.length⟩

/-- A payload is put into the buffer; after the last one the bitstream is handed to the codec. There
is no value when a byte is read outside the payload or written outside the buffer. Reference:
`h263codec.cpp:336`. -/
def decodePacket (payload : List UInt8) (last : Bool) : Option (Option (List UInt8) × H263Decoder) :=
  if bufSize < dec.bufLen + payload.length + ffmpeg.inputBufferPaddingSize + 2 then
    some (none, { dec with bufLen := 0 })
  else do
    let dec ← if payload ≠ [] then dec.addPayload payload else some dec
    if last then
      let buffer ← putAt dec.bufLen (List.replicate ffmpeg.inputBufferPaddingSize 0) dec.buffer
      return (some (buffer.take dec.bufLen), ⟨buffer, 0⟩)
    else
      return (none, dec)

/-- The buffer has its size, and the bitstream leaves room for the padding. -/
structure Inv : Prop where
  length_buffer : dec.buffer.length = bufSize
  bufLen_le : dec.bufLen + ffmpeg.inputBufferPaddingSize ≤ bufSize

/-- The headers of a payload are inside it; bytes that are missing count as 0. -/
def HeadersInside (payload : List UInt8) : Prop :=
  headerSize ((get1 payload 0).getD 0) ((get1 payload 1).getD 0) ≤ payload.length

/-- The headers of a payload are inside it, when the payload is looked at. -/
def Safe (payload : List UInt8) : Prop :=
  dec.bufLen + payload.length + ffmpeg.inputBufferPaddingSize + 2 ≤ bufSize ∧ payload ≠ [] →
    HeadersInside payload

section Lemmas

variable {ffmpeg} {dec} {dec' : H263Decoder} {payload : List UInt8}

theorem inv_new (ffmpeg : FFmpeg) : new.Inv ffmpeg := by
  refine ⟨List.length_replicate, ?_⟩
  have hle := ffmpeg.padding_le
  show 0 + ffmpeg.inputBufferPaddingSize ≤ bufSize
  rw [bufSize]
  omega

theorem addPayload_spec (h : dec.Inv ffmpeg)
    (hsize : dec.bufLen + payload.length + ffmpeg.inputBufferPaddingSize + 2 ≤ bufSize)
    (hne : payload ≠ []) :
    (HeadersInside payload → ∃ dec', dec.addPayload payload = some dec' ∧ dec'.Inv ffmpeg) ∧
    (¬ HeadersInside payload → dec.addPayload payload = none) := by
  rw [HeadersInside, addPayload]
  match payload with
  | [] => exact absurd rfl hne
  | [first] =>
    refine ⟨?_, fun _ => by simp [get1]⟩
    intro hinside
    simp [headerSize, get1] at hinside
    omega
  | first :: second :: rest =>
    have hfirst : get1 (first :: second :: rest) 0 = some first.toNat := rfl
    have hsecond : get1 (first :: second :: rest) 1 = some second.toNat := rfl
    have hstart : 2 ≤ headerSize first.toNat second.toNat := by
      rw [headerSize]
      omega
    have hlt : headerSize first.toNat second.toNat < 2 ^ 31 := by
      have h₁ := first.toNat_lt
      have h₂ := second.toNat_lt
      rw [headerSize]
      omega
    rw [hfirst, hsecond, Option.getD_some, Option.getD_some]
    simp only [Option.bind_eq_bind, Option.bind_some]
    generalize headerSize first.toNat second.toNat = start at hstart hlt
    generalize first :: second :: rest = payload at hsize
    generalize hzeros : (if first.toNat / 2 ^ 2 % 2 = 1 then ([0, 0] : List UInt8) else []) = zeros
    have hlength := h.length_buffer
    have hle : zeros.length ≤ 2 := by
      rw [← hzeros]
      split <;> decide
    have hput := @putAt_eq_some dec.bufLen zeros dec.buffer (by omega)
    rw [hput, Option.bind_some]
    have hroom := length_of_putAt hput
    generalize dec.buffer.take dec.bufLen ++ zeros ++ dec.buffer.drop (dec.bufLen + zeros.length) =
      buffer at hroom
    constructor
    · intro hinside
      have hdata : slice payload start (dwordSub payload.length start) =
          some (payload.drop start) := by
        rw [dwordSub, if_pos hinside, slice, if_pos (by omega),
          List.take_of_length_le (by rw [List.length_drop])]
      have hput₁ := @putAt_eq_some (dec.bufLen + zeros.length) (payload.drop start) buffer
        (by rw [List.length_drop]; omega)
      rw [hdata, Option.bind_some, hput₁, Option.bind_some]
      refine ⟨_, rfl, (length_of_putAt hput₁).trans (hroom.trans hlength), ?_⟩
      show dec.bufLen + zeros.length + (payload.drop start).length +
        ffmpeg.inputBufferPaddingSize ≤ bufSize
      rw [List.length_drop]
      omega
    · intro houtside
      have hbufSize : bufSize = 1161216 := rfl
      have hdata : slice payload start (dwordSub payload.length start) = none := by
        rw [dwordSub, if_neg houtside, slice, if_neg (by omega)]
      rw [hdata]
      rfl

theorem decodePacket_spec (h : dec.Inv ffmpeg) {last : Bool} :
    (dec.Safe ffmpeg payload → ∃ bitstream dec',
      dec.decodePacket ffmpeg payload last = some (bitstream, dec') ∧ dec'.Inv ffmpeg) ∧
    (¬ dec.Safe ffmpeg payload → dec.decodePacket ffmpeg payload last = none) := by
  -- After the payload comes what is done at the end of a frame, for which there is room.
  have hends {dec' : H263Decoder} (h' : dec'.Inv ffmpeg) :
      ∃ result : Option (List UInt8) × H263Decoder,
        (if last then do
            let buffer ← putAt dec'.bufLen (List.replicate ffmpeg.inputBufferPaddingSize 0)
              dec'.buffer
            return (some (buffer.take dec'.bufLen), ⟨buffer, 0⟩)
          else some (none, dec')) = some result ∧ result.2.Inv ffmpeg := by
    obtain ⟨hlength, hbufLen⟩ := h'
    cases last with
    | true =>
      have hput := @putAt_eq_some dec'.bufLen (List.replicate ffmpeg.inputBufferPaddingSize 0)
        dec'.buffer (by rw [List.length_replicate, hlength]; exact hbufLen)
      rw [if_pos rfl, hput]
      exact ⟨_, rfl, (length_of_putAt hput).trans hlength, by dsimp only; omega⟩
    | false => exact ⟨_, rfl, hlength, hbufLen⟩
  rw [decodePacket]
  by_cases hsize : dec.bufLen + payload.length + ffmpeg.inputBufferPaddingSize + 2 ≤ bufSize
  · rw [if_neg (Nat.not_lt.2 hsize)]
    by_cases hne : payload ≠ []
    · obtain ⟨hinside, houtside⟩ := addPayload_spec h hsize hne
      have hlooks : dec.Safe ffmpeg payload ↔ HeadersInside payload :=
        imp_iff_right ⟨hsize, hne⟩
      rw [if_pos hne, hlooks]
      constructor
      · intro hsafe
        obtain ⟨dec', hadd, hdec'⟩ := hinside hsafe
        obtain ⟨result, hresult, hkeeps⟩ := hends hdec'
        exact ⟨result.1, result.2, by rw [hadd]; exact hresult, hkeeps⟩
      · intro hnot
        rw [houtside hnot]
        rfl
    · rw [if_neg hne]
      refine ⟨fun _ => ?_, fun hno => absurd (fun hlook => absurd hlook.2 hne) hno⟩
      obtain ⟨result, hresult, hkeeps⟩ := hends h
      exact ⟨result.1, result.2, hresult, hkeeps⟩
  · rw [if_pos (Nat.lt_of_not_le hsize)]
    have hpadding := h.bufLen_le
    refine ⟨fun _ => ⟨_, _, rfl, h.length_buffer, by dsimp only; omega⟩, ?_⟩
    intro hno
    exact absurd (fun hlook => absurd hlook.1 hsize) hno

theorem isSome_decodePacket (h : dec.Inv ffmpeg) {last : Bool} :
    (dec.decodePacket ffmpeg payload last).isSome ↔ dec.Safe ffmpeg payload := by
  obtain ⟨hsafe, houtside⟩ := @decodePacket_spec _ _ payload h last
  by_cases hcase : dec.Safe ffmpeg payload
  · obtain ⟨bitstream, dec', hdecode, -⟩ := hsafe hcase
    rw [hdecode]
    exact iff_of_true rfl hcase
  · rw [houtside hcase]
    exact iff_of_false (by simp) hcase

theorem Inv.decodePacket (h : dec.Inv ffmpeg) {last : Bool} {bitstream : Option (List UInt8)}
    (hdecode : dec.decodePacket ffmpeg payload last = some (bitstream, dec')) :
    dec'.Inv ffmpeg := by
  have hcase := (isSome_decodePacket h).1 (by rw [hdecode]; rfl)
  obtain ⟨_, dec₁, hdec₁, hinv⟩ := (decodePacket_spec h).1 hcase
  obtain ⟨-, rfl⟩ := Prod.mk.inj (Option.some.inj (hdec₁.symm.trans hdecode))
  exact hinv

end Lemmas

end H263Decoder

/-- The fields of an RFC 2190 header that the decoder uses. Reference: `h263.h:79`. -/
structure H263HeadersBasic where
  sbits : UInt8
  ebits : UInt8
  src : UInt8

namespace H263HeadersBasic

/-- The size of a header: mode A has 4 bytes, mode B has 8. Reference: `h263.cpp:283`. -/
def headersSize (payload : List UInt8) : Nat :=
  if (payload.headD 0) >>> 7 = 0 then 4 else 8

/-- The size is 0 when the payload is shorter. Reference: `h263.cpp:339` and `h263.cpp:418`. -/
def parse (payload : List UInt8) : Nat × H263HeadersBasic :=
  match payload with
  | first :: second :: _ =>
    (if payload.length < headersSize payload then 0 else headersSize payload,
      ⟨first >>> 3 &&& 7, first &&& 7, second >>> 5⟩)
  | _ => (0, ⟨0, 0, 0⟩)

end H263HeadersBasic

/-- The format is 0 before the first packet. Reference: `h263codec.h:98`. -/
structure H263Decoder1996 where
  buffer : List UInt8
  bufLen : Nat
  src : UInt8

namespace H263Decoder1996

/-- Reference: `h263-1996codec.cpp:44`. -/
def bufSize : Nat := 1024 * 756 * 3 / 2

def new : H263Decoder1996 := ⟨List.replicate bufSize 0, 0, 0⟩

/-- What is done with a packet: what is handed to the codec, and whether the payload itself is
written to. -/
structure Outcome where
  bitstream : Option (List UInt8)
  writesPayload : Bool
  decoder : H263Decoder1996

variable (ffmpeg : FFmpeg) (dec : H263Decoder1996)

/-- The bits at both ends that belong to other packets are masked in the payload. Reference:
`h263-1996codec.cpp:119`. -/
def mask (headers : H263HeadersBasic) (data : List UInt8) : List UInt8 :=
  (data.modify 0 (· &&& 0xFF >>> headers.sbits)).modify (data.length - 1)
    (· &&& 0xFF <<< headers.ebits)

/-- A format that changes empties the buffer. Reference: `h263-1996codec.cpp:94`. -/
def setFormat (src : UInt8) : H263Decoder1996 :=
  if dec.src = 0 then { dec with src := src }
  else if dec.src ≠ src then { dec with src := src, bufLen := 0 }
  else dec

/-- A byte that is split between two packets is joined with the last one in the buffer. Reference:
`h263-1996codec.cpp:126`. -/
def join (headers : H263HeadersBasic) (data : List UInt8) : Option (List UInt8 × H263Decoder1996) :=
  if headers.sbits ≠ 0 ∧ 0 < dec.bufLen then
    match data with
    | [] => none
    | first :: data => do
      let last ← dec.buffer[dec.bufLen - 1]?
      let buffer ← putAt (dec.bufLen - 1) [last ||| first] dec.buffer
      return (data, { dec with buffer := buffer })
  else
    some (data, dec)

/-- What follows the headers is put into the buffer; the payload is too long for it when there is no
decoder. The first byte is masked also when there is none. Reference: `h263-1996codec.cpp:113`. -/
def addData (headers : H263HeadersBasic) (data : List UInt8) :
    Option (Bool × H263Decoder1996) := do
  let dec := dec.setFormat headers.src
  if data = [] then none
  let (data, dec) ← dec.join headers (mask headers data)
  if bufSize < dec.bufLen + data.length + ffmpeg.inputBufferPaddingSize then
    return (false, dec)
  else
    let buffer ← putAt dec.bufLen data dec.buffer
    return (true, { dec with buffer := buffer, bufLen := dec.bufLen + data.length })

/-- The end of a frame. Reference: `h263-1996codec.cpp:151`. -/
def endFrame : Option (List UInt8 × H263Decoder1996) := do
  let buffer ← putAt dec.bufLen (List.replicate ffmpeg.inputBufferPaddingSize 0) dec.buffer
  return (buffer.take dec.bufLen, { dec with buffer := buffer, bufLen := 0 })

/-- A packet that is too short or too long is refused, and is then not the last one of a frame
either. There is no value when a byte is touched that is neither in the payload nor in the buffer.
Reference: `h263-1996codec.cpp:72`. -/
def decodePacket (payload : List UInt8) (last : Bool) : Option Outcome := do
  let headers := H263HeadersBasic.parse payload
  if payload ≠ [] ∧ (payload.length < 4 ∨ headers.1 = 0) then
    return ⟨none, false, dec⟩
  else
    let (goesOn, dec) ←
      if payload = [] then some (true, dec)
      else dec.addData ffmpeg headers.2 (payload.drop headers.1)
    let writesPayload := payload ≠ []
    if goesOn && last then
      let (bitstream, dec) ← dec.endFrame ffmpeg
      return ⟨some bitstream, writesPayload, dec⟩
    else
      return ⟨none, writesPayload, dec⟩

/-- The buffer has its size, and the bitstream leaves room for the padding. -/
structure Inv : Prop where
  length_buffer : dec.buffer.length = bufSize
  bufLen_le : dec.bufLen + ffmpeg.inputBufferPaddingSize ≤ bufSize

section Lemmas

open H263HeadersBasic

variable {ffmpeg} {dec} {dec' : H263Decoder1996} {payload data : List UInt8}
  {headers : H263HeadersBasic}

theorem inv_new (ffmpeg : FFmpeg) : new.Inv ffmpeg := by
  refine ⟨List.length_replicate, ?_⟩
  have hle := ffmpeg.padding_le
  show 0 + ffmpeg.inputBufferPaddingSize ≤ bufSize
  rw [bufSize]
  omega

theorem four_le_headersSize (payload : List UInt8) : 4 ≤ headersSize payload := by
  rw [headersSize]
  split <;> decide

theorem refused_iff (hne : payload ≠ []) :
    payload.length < 4 ∨ (parse payload).1 = 0 ↔ payload.length < headersSize payload := by
  have hle := four_le_headersSize payload
  match payload with
  | [] => exact absurd rfl hne
  | [first] =>
    refine iff_of_true (.inl (by simp)) ?_
    simp only [List.length_singleton]
    omega
  | first :: second :: rest =>
    simp only [parse]
    split <;> omega

theorem Inv.setFormat (h : dec.Inv ffmpeg) (src : UInt8) : (dec.setFormat src).Inv ffmpeg := by
  have hbufLen := h.bufLen_le
  rw [H263Decoder1996.setFormat]
  split
  · exact ⟨h.length_buffer, hbufLen⟩
  · split
    · exact ⟨h.length_buffer, by dsimp only; omega⟩
    · exact h

theorem join_spec (h : dec.Inv ffmpeg) (hne : data ≠ []) :
    ∃ data' dec', dec.join headers data = some (data', dec') ∧ dec'.Inv ffmpeg := by
  unfold join
  by_cases hjoins : headers.sbits ≠ 0 ∧ 0 < dec.bufLen
  · rw [if_pos hjoins]
    obtain ⟨first, data, rfl⟩ := List.exists_cons_of_ne_nil hne
    obtain ⟨hlength, hbufLen⟩ := h
    have hlast := List.getElem?_eq_getElem (l := dec.buffer) (i := dec.bufLen - 1) (by omega)
    have hput := @putAt_eq_some (dec.bufLen - 1) [dec.buffer[dec.bufLen - 1] ||| first] dec.buffer
      (by rw [List.length_singleton]; omega)
    dsimp only
    rw [hlast, Option.bind_eq_bind, Option.bind_some, hput]
    exact ⟨_, _, rfl, (length_of_putAt hput).trans hlength, hbufLen⟩
  · rw [if_neg hjoins]
    exact ⟨data, dec, rfl, h⟩

theorem addData_spec (h : dec.Inv ffmpeg) :
    (data ≠ [] → ∃ goesOn dec', dec.addData ffmpeg headers data = some (goesOn, dec') ∧
      dec'.Inv ffmpeg) ∧
    (data = [] → dec.addData ffmpeg headers data = none) := by
  rw [addData]
  constructor
  · intro hne
    have hmask : mask headers data ≠ [] := by
      rw [← List.length_pos_iff, mask, List.length_modify, List.length_modify]
      exact List.length_pos_iff.2 hne
    obtain ⟨data', dec₁, hjoin, hlength, hbufLen⟩ :=
      @join_spec _ _ _ headers (h.setFormat headers.src) hmask
    simp only [if_neg hne, Option.bind_eq_bind, Option.pure_def]
    rw [hjoin]
    dsimp only [Option.bind_some]
    by_cases hlong : bufSize < dec₁.bufLen + data'.length + ffmpeg.inputBufferPaddingSize
    · rw [if_pos hlong]
      exact ⟨_, _, rfl, hlength, hbufLen⟩
    · have hput := @putAt_eq_some dec₁.bufLen data' dec₁.buffer (by omega)
      rw [if_neg hlong, hput]
      exact ⟨_, _, rfl, (length_of_putAt hput).trans hlength, by dsimp only; omega⟩
  · intro hempty
    simp [hempty]

theorem endFrame_spec (h : dec.Inv ffmpeg) :
    ∃ bitstream dec', dec.endFrame ffmpeg = some (bitstream, dec') ∧ dec'.Inv ffmpeg := by
  obtain ⟨hlength, hbufLen⟩ := h
  have hput := @putAt_eq_some dec.bufLen (List.replicate ffmpeg.inputBufferPaddingSize 0)
    dec.buffer (by rw [List.length_replicate, hlength]; exact hbufLen)
  rw [endFrame, hput]
  exact ⟨_, _, rfl, (length_of_putAt hput).trans hlength, by dsimp only; omega⟩

theorem decodePacket_spec (h : dec.Inv ffmpeg) {last : Bool} :
    (payload.length ≠ headersSize payload → ∃ outcome,
      dec.decodePacket ffmpeg payload last = some outcome ∧ outcome.decoder.Inv ffmpeg ∧
        (outcome.writesPayload = true ↔ headersSize payload ≤ payload.length)) ∧
    (payload.length = headersSize payload → dec.decodePacket ffmpeg payload last = none) := by
  have hfour := four_le_headersSize payload
  -- After the payload comes what is done at the end of a frame, for which there is room.
  have hends {dec' : H263Decoder1996} (h' : dec'.Inv ffmpeg) (goesOn writes : Bool) :
      ∃ outcome : Outcome,
        (if (goesOn && last) = true then do
            let (bitstream, dec) ← dec'.endFrame ffmpeg
            return ⟨some bitstream, writes, dec⟩
          else some ⟨none, writes, dec'⟩) = some outcome ∧
        outcome.decoder.Inv ffmpeg ∧ outcome.writesPayload = writes := by
    by_cases hlast : (goesOn && last) = true
    · obtain ⟨bitstream, dec₁, hend, hdec₁⟩ := endFrame_spec h'
      rw [if_pos hlast, hend]
      exact ⟨_, rfl, hdec₁, rfl⟩
    · rw [if_neg hlast]
      exact ⟨_, rfl, h', rfl⟩
  rw [decodePacket]
  by_cases hne : payload = []
  · obtain ⟨outcome, houtcome, hinv, hwrites⟩ := hends h true false
    subst hne
    refine ⟨fun _ => ⟨outcome, ?_, hinv, ?_⟩, fun hlength => ?_⟩
    · rw [if_neg (by simp)]
      simpa using houtcome
    · simp only [hwrites, List.length_nil, Bool.false_eq_true, false_iff]
      omega
    · rw [List.length_nil] at hlength
      omega
  · by_cases hrefused : payload.length < headersSize payload
    · rw [if_pos ⟨hne, (refused_iff hne).2 hrefused⟩]
      refine ⟨fun _ => ⟨_, rfl, h, ?_⟩, fun hlength => absurd hrefused (by omega)⟩
      simp only [Bool.false_eq_true, false_iff]
      omega
    · have hparsed : (parse payload).1 = headersSize payload := by
        match payload with
        | [] => exact absurd rfl hne
        | [first] =>
          simp only [List.length_singleton] at hrefused
          omega
        | first :: second :: rest =>
          simp only [parse]
          rw [if_neg hrefused]
      rw [if_neg (fun hchecks => hrefused ((refused_iff hne).1 hchecks.2)), if_neg hne, hparsed]
      obtain ⟨hdata, hnone⟩ := @addData_spec ffmpeg dec (payload.drop (headersSize payload))
        (parse payload).2 h
      rw [List.drop_eq_nil_iff] at hnone
      rw [Ne, List.drop_eq_nil_iff] at hdata
      constructor
      · intro hlength
        obtain ⟨goesOn, dec₁, hadd, hdec₁⟩ := hdata (by omega)
        obtain ⟨outcome, houtcome, hinv, hwrites⟩ := hends hdec₁ goesOn true
        refine ⟨outcome, ?_, hinv, ?_⟩
        · rw [hadd, Option.bind_eq_bind, Option.bind_some]
          simpa [hne] using houtcome
        · rw [hwrites]
          exact iff_of_true rfl (Nat.le_of_not_lt hrefused)
      · intro hlength
        rw [hnone (by omega)]
        rfl

end Lemmas

end H263Decoder1996

end McuMediaServer
