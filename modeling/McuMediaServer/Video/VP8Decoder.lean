import McuMediaServer.Base.Writer

/-!
# The VP8 decoder's depacketizer

A payload starts with a descriptor whose first bytes say how long it is. What follows goes into the
decoder's buffer, which is handed to the codec when a partition starts and after the last packet.
-/

namespace McuMediaServer

open ByteSeq ByteWriter

/-- Reference: `vp8.h:15`. -/
structure VP8PayloadDescriptor where
  extendedControlBitsPresent : Bool
  nonReferencePicture : Bool
  startOfPartition : Bool
  partitionIndex : Nat
  pictureIdPresent : Bool
  temporalLevelZeroIndexPresent : Bool
  temporalLayerIndexPreset : Bool
  keyIndexPresent : Bool
  layerSync : Bool
  pictureId : Nat
  temporalLevelZeroIndex : Nat
  temporalLayerIndex : Nat
  keyIndex : Nat

namespace VP8PayloadDescriptor

/-- Reference: `vp8.h:30`. -/
def new : VP8PayloadDescriptor :=
  ⟨false, false, false, 0, false, false, false, false, false, 0, 0, 0, 0⟩

variable (desc : VP8PayloadDescriptor)

/-- The bit of a byte. -/
def bit (byte i : Nat) : Bool := byte / 2 ^ i % 2 = 1

/-- A picture number has 7 or 15 bits. Reference: `vp8.h:113`. -/
def parsePictureId (data : List UInt8) (len : Nat) : Option (Nat × VP8PayloadDescriptor) := do
  let byte ← get1 data len
  if bit byte 7 then
    let low ← get1 data (len + 1)
    return (len + 2, { desc with pictureId := byte % 2 ^ 7 * 2 ^ 8 + low })
  else
    return (len + 1, { desc with pictureId := byte })

/-- Reference: `vp8.h:128`. -/
def parseTemporalLevel (data : List UInt8) (len : Nat) : Option (Nat × VP8PayloadDescriptor) := do
  let byte ← get1 data len
  return (len + 1, { desc with temporalLevelZeroIndex := byte })

/-- Reference: `vp8.h:136`. -/
def parseLayer (data : List UInt8) (len : Nat) : Option (Nat × VP8PayloadDescriptor) := do
  let byte ← get1 data len
  return (len + 1, { desc with
    temporalLevelZeroIndex := byte / 2 ^ 6
    layerSync := bit byte 5
    keyIndex := byte % 2 ^ 5 })

/-- The size of the descriptor. The bits that say whether there is a layer byte go into other
fields, so the flags of that byte are never set. Reference: `vp8.h:91`. -/
def parse (data : List UInt8) : Option (Nat × VP8PayloadDescriptor) := do
  let first ← get1 data 0
  let desc := { desc with
    extendedControlBitsPresent := bit first 7
    nonReferencePicture := bit first 5
    startOfPartition := bit first 4
    partitionIndex := first % 2 ^ 4 }
  if desc.extendedControlBitsPresent then
    let second ← get1 data 1
    let desc := { desc with
      pictureIdPresent := bit second 7
      temporalLevelZeroIndexPresent := bit second 6
      temporalLayerIndex := second / 2 ^ 5 % 2
      keyIndex := second / 2 ^ 4 % 2 }
    let (len, desc) ← if desc.pictureIdPresent then desc.parsePictureId data 2 else some (2, desc)
    let (len, desc) ←
      if desc.temporalLevelZeroIndexPresent then desc.parseTemporalLevel data len
      else some (len, desc)
    if desc.temporalLayerIndexPreset || desc.keyIndexPresent then desc.parseLayer data len
    else some (len, desc)
  else
    return (1, desc)

/-- How long the descriptor of a payload is: bytes that are missing count as 0. -/
def size (data : List UInt8) : Nat :=
  let byte (i : Nat) := (get1 data i).getD 0
  if bit (byte 0) 7 then
    2 + (if bit (byte 1) 7 then if bit (byte 2) 7 then 2 else 1 else 0) +
      if bit (byte 1) 6 then 1 else 0
  else
    1

end VP8PayloadDescriptor

/-- Reference: `vp8decoder.cpp:18`. -/
structure VP8Decoder where
  buffer : List UInt8
  bufLen : Nat
  completeFrame : Bool
  first : Bool

namespace VP8Decoder

/-- Reference: `vp8decoder.cpp:28`. -/
def bufSize : Nat := 1024 * 756 * 3 / 2

def new : VP8Decoder := ⟨List.replicate bufSize 0, 0, true, true⟩

variable (dec : VP8Decoder)

/-- A payload of a frame that is complete so far; a partition that has ended is handed to the codec.
A descriptor never has size 0, for which the source has a branch of its own. Reference:
`vp8decoder.cpp:101`. -/
def addPayload (payload : List UInt8) : Option (List (List UInt8) × VP8Decoder) := do
  let (pos, desc) ← VP8PayloadDescriptor.new.parse payload
  let completeFrame := !(dec.first && !desc.startOfPartition)
  let ends := desc.startOfPartition && dec.bufLen ≠ 0
  let partitions := if ends && completeFrame then [dec.buffer.take dec.bufLen] else []
  let bufLen := if ends then 0 else dec.bufLen
  if bufLen + payload.length - pos ≤ bufSize then
    let data ← slice payload pos (payload.length - pos)
    let buffer ← putAt bufLen data dec.buffer
    return (partitions, ⟨buffer, bufLen + (payload.length - pos), completeFrame, false⟩)
  else
    return (partitions, ⟨dec.buffer, bufLen, false, false⟩)

/-- The end of a frame: the last partition is handed to the codec. Reference: `vp8decoder.cpp:163`.
-/
def endFrame : List (List UInt8) × VP8Decoder :=
  (if dec.completeFrame && dec.bufLen ≠ 0 then [dec.buffer.take dec.bufLen] else [],
    ⟨dec.buffer, 0, true, true⟩)

/-- The partitions that are handed to the codec. There is no value when a byte is read outside the
payload or written outside the buffer. Reference: `vp8decoder.cpp:88`. -/
def decodePacket (payload : List UInt8) (lost last : Bool) :
    Option (List (List UInt8) × VP8Decoder) := do
  let dec := { dec with completeFrame := dec.completeFrame && !lost }
  let (partitions, dec) ←
    if payload ≠ [] ∧ dec.completeFrame then dec.addPayload payload else some ([], dec)
  if last then
    let (rest, dec) := dec.endFrame
    return (partitions ++ rest, dec)
  else
    return (partitions, dec)

/-- The buffer has its size, and the partition is inside it. -/
structure Inv : Prop where
  length_buffer : dec.buffer.length = bufSize
  bufLen_le : dec.bufLen ≤ bufSize

/-- The descriptor of a payload is inside it, when the payload is looked at. -/
def Safe (payload : List UInt8) (lost : Bool) : Prop :=
  payload ≠ [] ∧ dec.completeFrame = true ∧ lost = false →
    VP8PayloadDescriptor.size payload ≤ payload.length

end VP8Decoder

section Lemmas

namespace VP8PayloadDescriptor

variable {desc : VP8PayloadDescriptor} {data : List UInt8}

theorem bit_zero (i : Nat) : bit 0 i = false := by
  simp [bit]

theorem fst_parse_extended {b0 b1 : UInt8} {rest : List UInt8} (hX : bit b0.toNat 7 = true) :
    (new.parse (b0 :: b1 :: rest)).map Prod.fst =
      if size (b0 :: b1 :: rest) ≤ (b0 :: b1 :: rest).length then some (size (b0 :: b1 :: rest))
      else none := by
  cases hI : bit b1.toNat 7 with
  | false =>
    cases hL : bit b1.toNat 6 <;> cases rest <;>
      simp [parse, parseTemporalLevel, new, size, get1, hX, hI, hL]
  | true =>
    cases rest with
    | nil =>
      cases hL : bit b1.toNat 6 <;> simp [parse, parsePictureId, size, get1, hX, hI, hL, bit_zero]
    | cons b2 rest =>
      cases hM : bit b2.toNat 7 with
      | false =>
        cases hL : bit b1.toNat 6 <;> cases rest <;>
          simp [parse, parsePictureId, parseTemporalLevel, new, size, get1, hX, hI, hL, hM]
      | true =>
        cases rest with
        | nil =>
          cases hL : bit b1.toNat 6 <;> simp [parse, parsePictureId, size, get1, hX, hI, hL, hM]
        | cons b3 rest =>
          cases hL : bit b1.toNat 6 <;> cases rest <;>
            simp [parse, parsePictureId, parseTemporalLevel, new, size, get1, hX, hI, hL, hM]

theorem fst_parse (data : List UInt8) :
    (new.parse data).map Prod.fst = if size data ≤ data.length then some (size data) else none := by
  match data with
  | [] => simp [parse, size, get1, bit_zero]
  | b0 :: rest =>
    cases hX : bit b0.toNat 7 with
    | false => simp [parse, size, get1, hX]
    | true =>
      match rest with
      | [] => simp [parse, size, get1, hX, bit_zero]
      | b1 :: rest => exact fst_parse_extended hX

end VP8PayloadDescriptor

namespace VP8Decoder

variable {dec dec' : VP8Decoder} {payload : List UInt8} {partitions : List (List UInt8)}

theorem addPayload_spec (h : dec.Inv) :
    (VP8PayloadDescriptor.size payload ≤ payload.length →
      ∃ partitions dec', dec.addPayload payload = some (partitions, dec') ∧ dec'.Inv) ∧
    (payload.length < VP8PayloadDescriptor.size payload → dec.addPayload payload = none) := by
  have hparse := VP8PayloadDescriptor.fst_parse payload
  rw [addPayload]
  constructor
  · intro hinside
    rw [if_pos hinside, Option.map_eq_some_iff] at hparse
    obtain ⟨⟨pos, desc⟩, hdesc, rfl⟩ := hparse
    rw [hdesc, Option.bind_eq_bind, Option.bind_some]
    dsimp only
    generalize hbufLen : (if (desc.startOfPartition && decide (dec.bufLen ≠ 0)) = true then 0
      else dec.bufLen) = bufLen
    have hle : bufLen ≤ bufSize := by
      have hbound := h.bufLen_le
      rw [← hbufLen]
      split <;> omega
    by_cases hfits : bufLen + payload.length - VP8PayloadDescriptor.size payload ≤ bufSize
    · have hdata : slice payload (VP8PayloadDescriptor.size payload)
          (payload.length - VP8PayloadDescriptor.size payload) =
          some (payload.drop (VP8PayloadDescriptor.size payload)) := by
        rw [slice, if_pos (by omega), List.take_of_length_le (by rw [List.length_drop])]
      have hlength := h.length_buffer
      have hput := @putAt_eq_some bufLen (payload.drop (VP8PayloadDescriptor.size payload)) dec.buffer
        (by rw [List.length_drop]; omega)
      rw [if_pos hfits, hdata, Option.bind_eq_bind, Option.bind_some, hput]
      refine ⟨_, _, rfl, (length_of_putAt hput).trans hlength, ?_⟩
      show bufLen + (payload.length - VP8PayloadDescriptor.size payload) ≤ bufSize
      omega
    · rw [if_neg hfits]
      exact ⟨_, _, rfl, h.length_buffer, hle⟩
  · intro houtside
    rw [if_neg (Nat.not_le.2 houtside), Option.map_eq_none_iff] at hparse
    rw [hparse]
    rfl

theorem Inv.endFrame (h : dec.Inv) : dec.endFrame.2.Inv := ⟨h.length_buffer, Nat.zero_le _⟩

theorem decodePacket_spec (h : dec.Inv) {lost last : Bool} :
    (dec.Safe payload lost →
      ∃ partitions dec', dec.decodePacket payload lost last = some (partitions, dec') ∧ dec'.Inv) ∧
    (¬ dec.Safe payload lost → dec.decodePacket payload lost last = none) := by
  have hinv : Inv { dec with completeFrame := dec.completeFrame && !lost } :=
    ⟨h.length_buffer, h.bufLen_le⟩
  -- After the payload comes what is done at the end of a frame, which cannot fail.
  have hends {partitions : List (List UInt8)} {dec' : VP8Decoder} (h' : dec'.Inv) :
      ∃ result : List (List UInt8) × VP8Decoder,
        (if last then some (partitions ++ dec'.endFrame.1, dec'.endFrame.2)
          else some (partitions, dec')) = some result ∧ result.2.Inv := by
    cases last with
    | true => exact ⟨_, rfl, h'.endFrame⟩
    | false => exact ⟨_, rfl, h'⟩
  have hlooks : (payload ≠ [] ∧ (dec.completeFrame && !lost) = true) ↔
      payload ≠ [] ∧ dec.completeFrame = true ∧ lost = false := by
    simp
  obtain ⟨hinside, houtside⟩ := @addPayload_spec _ payload hinv
  rw [Safe, ← hlooks, VP8Decoder.decodePacket]
  dsimp only
  by_cases hlook : payload ≠ [] ∧ (dec.completeFrame && !lost) = true
  · rw [if_pos hlook, imp_iff_right hlook]
    constructor
    · intro hsize
      obtain ⟨partitions, dec', hadd, hdec'⟩ := hinside hsize
      obtain ⟨result, hresult, hkeeps⟩ := @hends partitions dec' hdec'
      exact ⟨result.1, result.2, by rw [hadd]; exact hresult, hkeeps⟩
    · intro hsize
      rw [houtside (Nat.lt_of_not_le hsize)]
      rfl
  · rw [if_neg hlook]
    refine ⟨fun _ => ?_, fun hno => absurd (fun h => absurd h hlook) hno⟩
    obtain ⟨result, hresult, hkeeps⟩ := @hends [] _ hinv
    exact ⟨result.1, result.2, hresult, hkeeps⟩

theorem isSome_decodePacket (h : dec.Inv) {lost last : Bool} :
    (dec.decodePacket payload lost last).isSome ↔ dec.Safe payload lost := by
  obtain ⟨hsafe, houtside⟩ := @decodePacket_spec dec payload h lost last
  by_cases hcase : dec.Safe payload lost
  · obtain ⟨partitions, dec', hdecode, -⟩ := hsafe hcase
    rw [hdecode]
    exact iff_of_true rfl hcase
  · rw [houtside hcase]
    exact iff_of_false (by simp) hcase

theorem Inv.decodePacket (h : dec.Inv) {lost last : Bool}
    (hdecode : dec.decodePacket payload lost last = some (partitions, dec')) : dec'.Inv := by
  have hcase := (isSome_decodePacket h).1 (by rw [hdecode]; rfl)
  obtain ⟨_, dec₁, hdec₁, hinv⟩ := (decodePacket_spec h).1 hcase
  obtain ⟨-, rfl⟩ := Prod.mk.inj (Option.some.inj (hdec₁.symm.trans hdecode))
  exact hinv

theorem inv_new : new.Inv := ⟨List.length_replicate, Nat.zero_le _⟩

end VP8Decoder

end Lemmas

end McuMediaServer
