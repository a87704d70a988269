import McuMediaServer.Base.Writer
import McuMediaServer.Base.Parser
import McuMediaServer.Tools

/-!
# The fields of RTCP feedback packets

The fields that transport-layer and payload-specific feedback packets carry. `serialize` writes a
field into what is left of a buffer. `parse` is given a pointer, that is the rest of the datagram,
and the size it is told it may use, and has no value when it reads past the datagram.
-/

namespace McuMediaServer

open ByteSeq ByteWriter

/-- Lost packets: one by number and, in a mask, those among the 16 after it. Reference:
`rtp.h:978`, `NACKField`. -/
structure NACKField where
  pid : UInt16
  blp : UInt16
  deriving DecidableEq, Repr

namespace NACKField

/-- Reference: `rtp.h:1008`. -/
def getSize (_ : NACKField) : Nat := 4

def bytes (f : NACKField) : List UInt8 :=
  be2 f.pid.toNat ++ be2 f.blp.toNat

/-- Reference: `rtp.h:1016`. -/
def serialize (f : NACKField) : ByteWriter :=
  check 4 (put f.bytes)

/-- Reference: `rtp.h:1009`. -/
def parse (data : List UInt8) (size : Nat) : Option (Parsed NACKField) :=
  if size < 4 then
    some none
  else do
    let pid ← get2 data 0
    let blp ← get2 data 2
    return some (⟨.ofNat pid, .ofNat blp⟩, 4)

section Lemmas

variable (f : NACKField)

theorem length_bytes : f.bytes.length = f.getSize := by
  simp [bytes, getSize]

theorem encodes_serialize : Encodes f.serialize f.bytes :=
  (encodes_put _).check f.length_bytes.ge

theorem parse_bytes (rest : List UInt8) {size : Nat} (h : f.getSize ≤ size) :
    parse (f.bytes ++ rest) size = some (some (f, f.getSize)) := by
  rw [getSize] at h
  rw [parse, if_neg (Nat.not_lt.2 h)]
  simp [bytes, get2_append, getSize]

variable {f} {data : List UInt8} {size n : Nat}

theorem isSome_parse (h : size ≤ data.length) : (parse data size).isSome := by
  unfold parse
  split
  · rfl
  · refine isSome_bind ((isSome_get2 data 0).2 (by omega)) fun pid => ?_
    exact isSome_bind ((isSome_get2 data 2).2 (by omega)) fun blp => rfl

end Lemmas

end NACKField

/-- A bound on the bitrate of a stream, as an exponent of 6 bits, a mantissa of 17 and an overhead
of 9. Reference: `rtp.h:1025`. -/
structure TempMaxMediaStreamBitrateField where
  ssrc : UInt32
  maxTotalBitrateExp : UInt8
  maxTotalBitrateMantissa : UInt32
  overhead : UInt16
  deriving DecidableEq, Repr

namespace TempMaxMediaStreamBitrateField

/-- Reference: `rtp.h:1054`. -/
def getSize (_ : TempMaxMediaStreamBitrateField) : Nat := 8

def bytes (f : TempMaxMediaStreamBitrateField) : List UInt8 :=
  be4 f.ssrc.toNat ++
  be1 (f.maxTotalBitrateExp.toNat <<< 2 ||| (f.maxTotalBitrateMantissa.toNat >>> 15 &&& 0x03)) ++
  be1 (f.maxTotalBitrateMantissa.toNat >>> 7) ++
  be1 (f.maxTotalBitrateMantissa.toNat <<< 1 ||| (f.overhead.toNat >>> 8 &&& 0x01)) ++
  be1 f.overhead.toNat

/-- Reference: `rtp.h:1067`. -/
def serialize (f : TempMaxMediaStreamBitrateField) : ByteWriter :=
  check 8 (put f.bytes)

/-- Reference: `rtp.h:1055`. -/
def parse (data : List UInt8) (size : Nat) : Option (Parsed TempMaxMediaStreamBitrateField) :=
  if size < 8 then
    some none
  else do
    let ssrc ← get4 data 0
    let b4 ← get1 data 4
    let b5 ← get1 data 5
    let b6 ← get1 data 6
    let b7 ← get1 data 7
    let mantissa := ((b4 &&& 0x03) <<< 8 ||| b5) <<< 7 ||| b6 >>> 1
    let overhead := (b6 &&& 0x01) <<< 8 ||| b7
    return some (⟨.ofNat ssrc, .ofNat (b4 >>> 2), .ofNat mantissa, .ofNat overhead⟩, 8)

/-- The field as the wire carries it. -/
def onWire (f : TempMaxMediaStreamBitrateField) : TempMaxMediaStreamBitrateField :=
  ⟨f.ssrc, .ofNat (f.maxTotalBitrateExp.toNat % 2 ^ 6),
    .ofNat (f.maxTotalBitrateMantissa.toNat % 2 ^ 17), .ofNat (f.overhead.toNat % 2 ^ 9)⟩

section Lemmas

variable (f : TempMaxMediaStreamBitrateField)

theorem length_bytes : f.bytes.length = f.getSize := by
  simp [bytes, getSize]

theorem encodes_serialize : Encodes f.serialize f.bytes :=
  (encodes_put _).check f.length_bytes.ge

theorem and_three (n : Nat) : n &&& 0x03 = n % 2 ^ 2 :=
  Nat.and_two_pow_sub_one_eq_mod n 2

theorem parse_of_reads {data : List UInt8} {size ssrc b4 b5 b6 b7 : Nat} (h : 8 ≤ size)
    (hssrc : get4 data 0 = some ssrc) (h4 : get1 data 4 = some b4) (h5 : get1 data 5 = some b5)
    (h6 : get1 data 6 = some b6) (h7 : get1 data 7 = some b7) :
    parse data size = some (some (⟨.ofNat ssrc, .ofNat (b4 / 2 ^ 2),
      .ofNat ((b4 % 2 ^ 2 * 2 ^ 8 + b5) * 2 ^ 7 + b6 / 2 ^ 1), .ofNat (b6 % 2 * 2 ^ 8 + b7)⟩,
      8)) := by
  have hb5 := get1_lt h5
  have hb6 := get1_lt h6
  have hb7 := get1_lt h7
  rw [parse, if_neg (Nat.not_lt.2 h), hssrc, h4, h5, h6, h7]
  simp only [Option.bind_eq_bind, Option.bind_some, pure, and_three, Nat.and_one_is_mod,
    Nat.shiftRight_eq_div_pow]
  rw [shiftLeft_or_of_lt hb5, shiftLeft_or_of_lt hb7, shiftLeft_or_of_lt (by omega)]

theorem parse_bytes (rest : List UInt8) {size : Nat} (h : f.getSize ≤ size) :
    parse (f.bytes ++ rest) size = some (some (f.onWire, f.getSize)) := by
  have hm : f.maxTotalBitrateMantissa.toNat / 2 ^ 15 % 2 ^ 2 < 2 ^ 2 := Nat.mod_lt _ (by omega)
  have ho : f.overhead.toNat / 2 ^ 8 % 2 < 2 ^ 1 := Nat.mod_lt _ (by omega)
  simp only [bytes, and_three, Nat.and_one_is_mod, Nat.shiftRight_eq_div_pow,
    shiftLeft_or_of_lt hm, shiftLeft_or_of_lt ho, List.append_assoc]
  rw [parse_of_reads h (get4_be4 _) (by simp [get1_append]; rfl) (by simp [get1_append]; rfl)
    (by simp [get1_append]; rfl) (by simp [get1_append]; rfl)]
  simp only [onWire, getSize, Option.some.injEq, Prod.mk.injEq, mk.injEq, and_true]
  refine ⟨by simp, ?_, ?_, ?_⟩
  · congr 1
    omega
  · congr 1
    omega
  · congr 1
    omega

theorem onWire_eq_self_iff :
    f.onWire = f ↔ f.maxTotalBitrateExp.toNat < 2 ^ 6 ∧
      f.maxTotalBitrateMantissa.toNat < 2 ^ 17 ∧ f.overhead.toNat < 2 ^ 9 := by
  cases f with
  | mk ssrc exp mantissa overhead =>
    have := exp.toNat_lt
    have := mantissa.toNat_lt
    have := overhead.toNat_lt
    simp only [onWire, mk.injEq, true_and, ← UInt8.toNat_inj, ← UInt32.toNat_inj,
      ← UInt16.toNat_inj, UInt8.toNat_ofNat', UInt16.toNat_ofNat', UInt32.toNat_ofNat']
    omega

variable {f} {data : List UInt8} {size n : Nat}

theorem isSome_parse (h : size ≤ data.length) : (parse data size).isSome := by
  unfold parse
  split
  · rfl
  · refine isSome_bind ((isSome_get4 data 0).2 (by omega)) fun ssrc => ?_
    refine isSome_bind ((isSome_get1 data 4).2 (by omega)) fun b4 => ?_
    refine isSome_bind ((isSome_get1 data 5).2 (by omega)) fun b5 => ?_
    refine isSome_bind ((isSome_get1 data 6).2 (by omega)) fun b6 => ?_
    exact isSome_bind ((isSome_get1 data 7).2 (by omega)) fun b7 => rfl

end Lemmas

end TempMaxMediaStreamBitrateField

/-- Slices of a picture that were lost. Reference: `rtp.h:1195`. -/
structure SliceLossIndicationField where
  first : UInt16
  number : UInt16
  pictureId : UInt8
  deriving DecidableEq, Repr

namespace SliceLossIndicationField

/-- Reference: `rtp.h:1207`. -/
def getSize (_ : SliceLossIndicationField) : Nat := 4

def bytes (f : SliceLossIndicationField) : List UInt8 :=
  be1 (f.first.toNat >>> 5) ++
  be1 (f.first.toNat <<< 3 ||| f.number.toNat >>> 10) ++
  be1 (f.number.toNat >>> 2) ++
  be1 (f.number.toNat <<< 6 ||| f.pictureId.toNat)

/-- Reference: `rtp.h:1219`. -/
def serialize (f : SliceLossIndicationField) : ByteWriter :=
  check 4 (put f.bytes)

/-- The picture is read one byte behind the field. Reference: `rtp.h:1208`. -/
def parse (data : List UInt8) (size : Nat) : Option (Parsed SliceLossIndicationField) :=
  if size < 4 then
    some none
  else do
    let b0 ← get1 data 0
    let b1 ← get1 data 1
    let b2 ← get1 data 2
    let b3 ← get1 data 3
    let b4 ← get1 data 4
    let number := ((b1 &&& 0x07) <<< 8 ||| b2) <<< 2 ||| b3 >>> 6
    return some (⟨.ofNat (b0 <<< 5 ||| b1 >>> 3), .ofNat number, .ofNat (b4 &&& 0x3F)⟩, 4)

section Lemmas

variable (f : SliceLossIndicationField)

theorem length_bytes : f.bytes.length = f.getSize := by
  simp [bytes, getSize]

theorem encodes_serialize : Encodes f.serialize f.bytes :=
  (encodes_put _).check f.length_bytes.ge

variable {f} {data : List UInt8} {size n : Nat}

theorem isSome_parse (h : size < data.length) : (parse data size).isSome := by
  unfold parse
  split
  · rfl
  · refine isSome_bind ((isSome_get1 data 0).2 (by omega)) fun b0 => ?_
    refine isSome_bind ((isSome_get1 data 1).2 (by omega)) fun b1 => ?_
    refine isSome_bind ((isSome_get1 data 2).2 (by omega)) fun b2 => ?_
    refine isSome_bind ((isSome_get1 data 3).2 (by omega)) fun b3 => ?_
    exact isSome_bind ((isSome_get1 data 4).2 (by omega)) fun b4 => rfl

theorem parse_eq_none (hsize : 4 ≤ size) (hlen : data.length ≤ 4) : parse data size = none := by
  rw [parse, if_neg (Nat.not_lt.2 hsize)]
  have h4 : get1 data 4 = none := by
    rw [get1, List.getElem?_eq_none hlen, Option.map_none]
  simp [h4]

theorem le_of_parse (h : parse data size = some (some (f, n))) : n = 4 ∧ n ≤ size := by
  unfold parse at h
  split at h
  · cases h
  · simp only [Option.bind_eq_bind, Option.bind_eq_some_iff, pure, Option.some.injEq,
      Prod.mk.injEq] at h
    obtain ⟨b0, -, b1, -, b2, -, b3, -, b4, -, -, rfl⟩ := h
    exact ⟨rfl, by omega⟩

end Lemmas

end SliceLossIndicationField

/-- A codec's own reference picture selection, its length being that of the payload. Reference:
`rtp.h:1230`. -/
structure ReferencePictureSelectionField where
  padding : UInt8
  type : UInt8
  payload : List UInt8
  deriving DecidableEq, Repr

namespace ReferencePictureSelectionField

/-- Reference: `rtp.h:1258`. -/
def getSize (f : ReferencePictureSelectionField) : Nat :=
  (2 + f.payload.length + f.padding.toNat) % 2 ^ 32

def bytes (f : ReferencePictureSelectionField) : List UInt8 :=
  be1 f.padding.toNat ++ be1 (f.type.toNat &&& 0x7F) ++ f.payload ++
    List.replicate f.padding.toNat 0

/-- The length is written at offset 6, where the payload, the padding or what follows the field
overwrites it. Reference: `rtp.h:1275`. -/
def serialize (f : ReferencePictureSelectionField) : ByteWriter :=
  check f.getSize fun buf => do
    let buf ← putAt 0 (be1 f.padding.toNat ++ be1 (f.type.toNat &&& 0x7F)) buf
    let buf ← putAt 6 (be2 f.payload.length) buf
    let buf ← putAt 2 f.payload buf
    let buf ← putAt (2 + f.payload.length) (List.replicate f.padding.toNat 0) buf
    return (2 + f.payload.length + f.padding.toNat, buf)

/-- Reference: `rtp.h:1259`. -/
def parse (data : List UInt8) (size : Nat) : Option (Parsed ReferencePictureSelectionField) :=
  if size < 2 then
    some none
  else do
    let padding ← get1 data 0
    let type ← get1 data 1
    if size < 2 + padding then
      return none
    let payload ← slice data 2 (size - padding - 2)
    return some (⟨.ofNat padding, .ofNat type, payload⟩, 2 + padding + payload.length)

/-- The field as the wire carries it, with a type of 7 bits. -/
def onWire (f : ReferencePictureSelectionField) : ReferencePictureSelectionField :=
  { f with type := .ofNat (f.type.toNat % 2 ^ 7) }

section Lemmas

variable (f : ReferencePictureSelectionField)

theorem length_bytes : f.bytes.length = 2 + f.payload.length + f.padding.toNat := by
  simp [bytes]
  omega

theorem encodes_serialize (h : 8 ≤ f.bytes.length) : Encodes f.serialize f.bytes := by
  rw [f.length_bytes] at h
  refine Encodes.check ?_ (f.length_bytes ▸ Nat.mod_le _ _)
  intro buf hlen
  rw [f.length_bytes] at hlen ⊢
  have hhead : (be1 f.padding.toNat ++ be1 (f.type.toNat &&& 0x7F)).length = 2 := by simp
  have hpad := List.length_replicate (n := f.padding.toNat) (a := (0 : UInt8))
  obtain ⟨b1, h1⟩ : ∃ b, putAt 0 (be1 f.padding.toNat ++ be1 (f.type.toNat &&& 0x7F)) buf =
      some b := ⟨_, putAt_eq_some (by omega)⟩
  have l1 := length_of_putAt h1
  obtain ⟨b2, h2⟩ : ∃ b, putAt 6 (be2 f.payload.length) b1 = some b :=
    ⟨_, putAt_eq_some (by rw [length_be2]; omega)⟩
  have l2 := length_of_putAt h2
  obtain ⟨b3, h3⟩ : ∃ b, putAt 2 f.payload b2 = some b := ⟨_, putAt_eq_some (by omega)⟩
  have l3 := length_of_putAt h3
  obtain ⟨b4, h4⟩ : ∃ b, putAt (2 + f.payload.length) (List.replicate f.padding.toNat 0) b3 =
      some b := ⟨_, putAt_eq_some (by omega)⟩
  have htake : b4.take (2 + f.payload.length + f.padding.toNat) = f.bytes := by
    have t1 := take_of_putAt h1
    have t2 := take_of_putAt_of_le h2 (show 2 ≤ 6 by omega)
    have t3 := take_of_putAt h3
    have t4 := take_of_putAt h4
    rw [hhead] at t1
    rw [hpad] at t4
    rw [t4, t3, t2, t1, bytes, List.take_zero, List.nil_append]
  have hdrop : b4.drop (2 + f.payload.length + f.padding.toNat) =
      buf.drop (2 + f.payload.length + f.padding.toNat) := by
    rw [drop_of_putAt h4 (by omega), drop_of_putAt h3 (by omega),
      drop_of_putAt h2 (by rw [length_be2]; omega), drop_of_putAt h1 (by omega)]
  simp only [h1, h2, h3, h4, Option.bind_eq_bind, Option.bind_some, pure, Option.some.injEq,
    Prod.mk.injEq, true_and]
  rw [← htake, ← hdrop, List.take_append_drop]

theorem serialize_eq_none {buf : List UInt8} (hsize : f.getSize ≤ buf.length)
    (hlen : buf.length < 8) : f.serialize buf = none := by
  rw [serialize, check_of_le hsize]
  cases h1 : putAt 0 (be1 f.padding.toNat ++ be1 (f.type.toNat &&& 0x7F)) buf with
  | none => rfl
  | some b1 =>
    have h2 : putAt 6 (be2 f.payload.length) b1 = none :=
      if_neg (by rw [length_of_putAt h1, length_be2]; omega)
    simp only [Option.bind_eq_bind, Option.bind_some, h2, Option.bind_none]

theorem parse_bytes : parse f.bytes f.bytes.length = some (some (f.onWire, f.bytes.length)) := by
  have htype : f.type.toNat &&& 0x7F = f.type.toNat % 2 ^ 7 :=
    Nat.and_two_pow_sub_one_eq_mod _ 7
  have hsize := f.length_bytes
  have hlen : f.bytes.length - f.padding.toNat - 2 = f.payload.length := by omega
  have h0 : get1 f.bytes 0 = some f.padding.toNat := by
    simp [bytes]
  have h1 : get1 f.bytes 1 = some (f.type.toNat % 2 ^ 7) := by
    simp [bytes, htype, get1_append]
    omega
  have h2 : slice f.bytes 2 f.payload.length = some f.payload := by
    simp [bytes, slice_append]
  rw [parse, if_neg (by omega)]
  simp only [h0, h1, hlen, h2, Option.bind_eq_bind, Option.bind_some]
  rw [if_neg (by omega)]
  simp only [pure, onWire, UInt8.ofNat_toNat]
  rw [hsize, Nat.add_right_comm]

theorem onWire_eq_self_iff : f.onWire = f ↔ f.type.toNat < 2 ^ 7 := by
  cases f with
  | mk padding type payload =>
    simp only [onWire, mk.injEq, true_and, and_true, ← UInt8.toNat_inj, UInt8.toNat_ofNat']
    omega

variable {f} {data : List UInt8} {size n : Nat}

theorem isSome_parse (h : size ≤ data.length) : (parse data size).isSome := by
  unfold parse
  split
  · rfl
  · refine isSome_bind ((isSome_get1 data 0).2 (by omega)) fun padding => ?_
    refine isSome_bind ((isSome_get1 data 1).2 (by omega)) fun type => ?_
    split
    · rfl
    · exact isSome_bind ((isSome_slice data 2 _).2 (by omega)) fun payload => rfl

theorem eq_of_parse (h : parse data size = some (some (f, n))) :
    n = size ∧ f.bytes.length = size := by
  rw [f.length_bytes]
  unfold parse at h
  split at h
  · cases h
  · simp only [Option.bind_eq_bind, Option.bind_eq_some_iff] at h
    obtain ⟨padding, hp, type, -, h⟩ := h
    split at h
    · cases h
    · simp only [Option.bind_eq_some_iff, pure, Option.some.injEq, Prod.mk.injEq] at h
      obtain ⟨payload, hpayload, rfl, rfl⟩ := h
      have hlen := length_of_slice hpayload
      have hpad : (UInt8.ofNat padding).toNat = padding :=
        UInt8.toNat_ofNat_of_lt' (get1_lt hp)
      change _ ∧ 2 + payload.length + (UInt8.ofNat padding).toNat = size
      omega

end Lemmas

end ReferencePictureSelectionField

/-- A request for an intra picture with its number. Reference: `rtp.h:1291`. -/
structure FullIntraRequestField where
  ssrc : UInt32
  seq : UInt8
  deriving DecidableEq, Repr

namespace FullIntraRequestField

/-- Reference: `rtp.h:1317`. -/
def getSize (_ : FullIntraRequestField) : Nat := 8

def bytes (f : FullIntraRequestField) : List UInt8 :=
  be4 f.ssrc.toNat ++ be1 f.seq.toNat ++ be1 0 ++ be1 0 ++ be1 0

/-- Reference: `rtp.h:1325`. -/
def serialize (f : FullIntraRequestField) : ByteWriter :=
  check 8 (put f.bytes)

/-- The number is read one byte behind the one it is written to. Reference: `rtp.h:1318`. -/
def parse (data : List UInt8) (size : Nat) : Option (Parsed FullIntraRequestField) :=
  if size < 8 then
    some none
  else do
    let ssrc ← get4 data 0
    let seq ← get1 data 5
    return some (⟨.ofNat ssrc, .ofNat seq⟩, 8)

/-- The field as it is read back, without its number. -/
def onWire (f : FullIntraRequestField) : FullIntraRequestField :=
  { f with seq := 0 }

section Lemmas

variable (f : FullIntraRequestField)

theorem length_bytes : f.bytes.length = f.getSize := by
  simp [bytes, getSize]

theorem encodes_serialize : Encodes f.serialize f.bytes :=
  (encodes_put _).check f.length_bytes.ge

theorem parse_bytes (rest : List UInt8) {size : Nat} (h : f.getSize ≤ size) :
    parse (f.bytes ++ rest) size = some (some (f.onWire, f.getSize)) := by
  rw [getSize] at h
  rw [parse, if_neg (Nat.not_lt.2 h)]
  simp [bytes, get1_append, getSize, onWire]

theorem onWire_eq_self_iff : f.onWire = f ↔ f.seq = 0 := by
  cases f with
  | mk ssrc seq =>
    simp only [onWire, mk.injEq, true_and]
    exact eq_comm

variable {f} {data : List UInt8} {size n : Nat}

theorem isSome_parse (h : size ≤ data.length) : (parse data size).isSome := by
  unfold parse
  split
  · rfl
  · refine isSome_bind ((isSome_get4 data 0).2 (by omega)) fun ssrc => ?_
    exact isSome_bind ((isSome_get1 data 5).2 (by omega)) fun seq => rfl

end Lemmas

end FullIntraRequestField

/-- A trade-off between sharpness and rate. Reference: `rtp.h:1337`. -/
structure TemporalSpatialTradeOffField where
  ssrc : UInt32
  seq : UInt8
  index : UInt8
  deriving DecidableEq, Repr

namespace TemporalSpatialTradeOffField

/-- Reference: `rtp.h:1351`. -/
def getSize (_ : TemporalSpatialTradeOffField) : Nat := 8

def bytes (f : TemporalSpatialTradeOffField) : List UInt8 :=
  be4 f.ssrc.toNat ++ be1 f.seq.toNat ++ be1 0 ++ be1 0 ++ be1 f.index.toNat

/-- Reference: `rtp.h:1362`. -/
def serialize (f : TemporalSpatialTradeOffField) : ByteWriter :=
  check 8 (put f.bytes)

/-- Reference: `rtp.h:1352`. -/
def parse (data : List UInt8) (size : Nat) : Option (Parsed TemporalSpatialTradeOffField) :=
  if size < 8 then
    some none
  else do
    let ssrc ← get4 data 0
    let seq ← get1 data 4
    let index ← get1 data 7
    return some (⟨.ofNat ssrc, .ofNat seq, .ofNat index⟩, 8)

section Lemmas

variable (f : TemporalSpatialTradeOffField)

theorem length_bytes : f.bytes.length = f.getSize := by
  simp [bytes, getSize]

theorem encodes_serialize : Encodes f.serialize f.bytes :=
  (encodes_put _).check f.length_bytes.ge

theorem parse_bytes (rest : List UInt8) {size : Nat} (h : f.getSize ≤ size) :
    parse (f.bytes ++ rest) size = some (some (f, f.getSize)) := by
  rw [getSize] at h
  rw [parse, if_neg (Nat.not_lt.2 h)]
  simp [bytes, get1_append, getSize]

variable {f} {data : List UInt8} {size n : Nat}

theorem isSome_parse (h : size ≤ data.length) : (parse data size).isSome := by
  unfold parse
  split
  · rfl
  · refine isSome_bind ((isSome_get4 data 0).2 (by omega)) fun ssrc => ?_
    refine isSome_bind ((isSome_get1 data 4).2 (by omega)) fun seq => ?_
    exact isSome_bind ((isSome_get1 data 7).2 (by omega)) fun index => rfl

end Lemmas

end TemporalSpatialTradeOffField

/-- A byte string whose length a number of the code's type can say. -/
structure Payload (bound : Nat) where
  data : List UInt8
  length_lt : data.length < bound
  deriving DecidableEq, Repr

namespace Payload

variable {bound : Nat}

/-- The first bytes from offset `i` on. -/
def read (bound : Nat) (data : List UInt8) (i length : Nat) : Option (Payload bound) :=
  if h : i + length ≤ data.length ∧ length < bound then
    some ⟨(data.drop i).take length, by
      rw [List.length_take]
      omega⟩
  else
    none

/-- The zeros up to the next multiple of four. -/
def padding (p : Payload bound) : List UInt8 :=
  List.replicate (pad32 p.data.length - p.data.length) 0

section Lemmas

variable {p : Payload bound} {data : List UInt8} {i n : Nat}

theorem length_padding : (p.data ++ p.padding).length = pad32 p.data.length := by
  have := le_pad32 p.data.length
  rw [List.length_append, padding, List.length_replicate]
  omega

theorem isSome_read (h : i + n ≤ data.length) (hn : n < bound) : (read bound data i n).isSome := by
  rw [read, dif_pos ⟨h, hn⟩, Option.isSome_some]

theorem length_of_read (h : read bound data i n = some p) : p.data.length = n := by
  unfold read at h
  split at h
  case isTrue hn =>
    cases h
    change ((data.drop i).take n).length = n
    rw [List.length_take, List.length_drop]
    omega
  case isFalse => cases h

theorem read_append (p : Payload bound) (xs rest : List UInt8) :
    read bound (xs ++ (p.data ++ rest)) xs.length p.data.length = some p := by
  have hlen : xs.length + p.data.length ≤ (xs ++ (p.data ++ rest)).length := by
    rw [List.length_append, List.length_append]
    omega
  rw [read, dif_pos ⟨hlen, p.length_lt⟩]
  simp

end Lemmas

end Payload

/-- A message for a codec's back channel. Reference: `rtp.h:1376`. -/
structure VideoBackChannelMessageField where
  ssrc : UInt32
  seq : UInt8
  type : UInt8
  payload : Payload (2 ^ 16)
  deriving DecidableEq, Repr

namespace VideoBackChannelMessageField

/-- The padding is not counted. Reference: `rtp.h:1403`. -/
def getSize (f : VideoBackChannelMessageField) : Nat := 8 + f.payload.data.length

def bytes (f : VideoBackChannelMessageField) : List UInt8 :=
  be4 f.ssrc.toNat ++ be1 f.seq.toNat ++ be1 (f.type.toNat &&& 0x7F) ++
    be2 f.payload.data.length ++ f.payload.data ++ f.payload.padding

/-- Reference: `rtp.h:1420`. -/
def serialize (f : VideoBackChannelMessageField) : ByteWriter :=
  check (8 + pad32 f.payload.data.length) (put f.bytes)

/-- Reference: `rtp.h:1404`. -/
def parse (data : List UInt8) (size : Nat) : Option (Parsed VideoBackChannelMessageField) :=
  if size < 8 then
    some none
  else do
    let ssrc ← get4 data 0
    let seq ← get1 data 4
    let type ← get1 data 5
    let length ← get2 data 6
    if size < 8 + pad32 length then
      return none
    let payload ← Payload.read (2 ^ 16) data 8 length
    return some (⟨.ofNat ssrc, .ofNat seq, .ofNat type, payload⟩, 8 + pad32 length)

/-- The field as the wire carries it, with a type of 7 bits. -/
def onWire (f : VideoBackChannelMessageField) : VideoBackChannelMessageField :=
  { f with type := .ofNat (f.type.toNat % 2 ^ 7) }

section Lemmas

variable (f : VideoBackChannelMessageField)

theorem length_bytes : f.bytes.length = 8 + pad32 f.payload.data.length := by
  rw [bytes, List.append_assoc, List.length_append, Payload.length_padding]
  simp

theorem encodes_serialize : Encodes f.serialize f.bytes :=
  (encodes_put _).check f.length_bytes.ge

theorem parse_bytes (rest : List UInt8) {size : Nat} (h : f.bytes.length ≤ size) :
    parse (f.bytes ++ rest) size = some (some (f.onWire, f.bytes.length)) := by
  have htype : f.type.toNat &&& 0x7F = f.type.toNat % 2 ^ 7 :=
    Nat.and_two_pow_sub_one_eq_mod _ 7
  have hread := f.payload.read_append (be4 f.ssrc.toNat ++ be1 f.seq.toNat ++
    be1 (f.type.toNat &&& 0x7F) ++ be2 f.payload.data.length) (f.payload.padding ++ rest)
  have hmod : f.type.toNat % 2 ^ 7 % 2 ^ 8 = f.type.toNat % 2 ^ 7 := by omega
  have hlen : f.payload.data.length % 2 ^ 16 = f.payload.data.length :=
    Nat.mod_eq_of_lt f.payload.length_lt
  rw [f.length_bytes] at h ⊢
  have h8 : ¬ size < 8 := by omega
  simp only [List.append_assoc, List.length_append, length_be4, length_be2, length_be1, htype]
    at hread
  simp only [parse, bytes, h8, if_false, List.append_assoc, htype]
  simp only [get4_be4, Option.bind_eq_bind, Option.bind_some, get1_append, get2_append,
    length_be4, length_be1, Nat.le_refl, Nat.reduceLeDiff, Nat.reduceSub, Nat.sub_self, get1_be1,
    get2_be2, hlen, hmod]
  rw [if_neg (Nat.not_lt.2 h), hread]
  simp [onWire]

theorem onWire_eq_self_iff : f.onWire = f ↔ f.type.toNat < 2 ^ 7 := by
  cases f with
  | mk ssrc seq type payload =>
    simp only [onWire, mk.injEq, true_and, and_true, ← UInt8.toNat_inj, UInt8.toNat_ofNat']
    omega

variable {f} {data : List UInt8} {size n : Nat}

theorem isSome_parse (h : size ≤ data.length) : (parse data size).isSome := by
  unfold parse
  split
  · rfl
  · refine isSome_bind ((isSome_get4 data 0).2 (by omega)) fun ssrc => ?_
    refine isSome_bind ((isSome_get1 data 4).2 (by omega)) fun seq => ?_
    refine isSome_bind ((isSome_get1 data 5).2 (by omega)) fun type => ?_
    obtain ⟨length, hlength⟩ := Option.isSome_iff_exists.1 ((isSome_get2 data 6).2 (by omega))
    rw [hlength]
    change Option.isSome (if _ then _ else _)
    split
    · rfl
    · have := le_pad32 length
      exact isSome_bind (Payload.isSome_read (by omega) (get2_lt hlength)) fun payload => rfl

end Lemmas

end VideoBackChannelMessageField

/-- A message of the application. Reference: `rtp.h:1437`. -/
structure ApplicationLayerFeeedbackField where
  payload : Payload (2 ^ 16)
  deriving DecidableEq, Repr

namespace ApplicationLayerFeeedbackField

/-- Reference: `rtp.h:1452`. -/
def getSize (f : ApplicationLayerFeeedbackField) : Nat := pad32 f.payload.data.length

def bytes (f : ApplicationLayerFeeedbackField) : List UInt8 :=
  f.payload.data ++ f.payload.padding

/-- Reference: `rtp.h:1465`. -/
def serialize (f : ApplicationLayerFeeedbackField) : ByteWriter :=
  check (pad32 f.payload.data.length) (put f.bytes)

/-- The length is the low 16 bits of the size. Reference: `rtp.h:1453`. -/
def parse (data : List UInt8) (size : Nat) : Option (Parsed ApplicationLayerFeeedbackField) :=
  if size ≠ pad32 size then
    some none
  else do
    let payload ← Payload.read (2 ^ 16) data 0 (size % 2 ^ 16)
    return some (⟨payload⟩, size % 2 ^ 16)

section Lemmas

variable (f : ApplicationLayerFeeedbackField)

theorem length_bytes : f.bytes.length = f.getSize :=
  Payload.length_padding

theorem encodes_serialize : Encodes f.serialize f.bytes :=
  (encodes_put _).check f.length_bytes.ge

theorem parse_bytes (h : f.payload.data.length % 4 = 0) :
    parse f.bytes f.getSize = some (some (f, f.getSize)) := by
  have hpad : pad32 f.payload.data.length = f.payload.data.length := (pad32_eq_self_iff _).2 h
  have hmod : f.payload.data.length % 2 ^ 16 = f.payload.data.length :=
    Nat.mod_eq_of_lt f.payload.length_lt
  have hread := f.payload.read_append [] f.payload.padding
  simp only [List.nil_append, List.length_nil] at hread
  have hsize : f.getSize = f.payload.data.length := hpad
  rw [hsize, parse, hpad, hmod, if_neg (not_ne_iff.2 rfl), bytes, hread]
  rfl

variable {f} {data : List UInt8} {size n : Nat}

theorem isSome_parse (h : size ≤ data.length) : (parse data size).isSome := by
  unfold parse
  split
  · rfl
  · refine isSome_bind (Payload.isSome_read ?_ (Nat.mod_lt _ (by omega))) fun payload => rfl
    have := Nat.mod_le size (2 ^ 16)
    omega

theorem eq_of_parse (h : parse data size = some (some (f, n))) :
    size % 4 = 0 ∧ n = size % 2 ^ 16 ∧ f.payload.data.length = n := by
  unfold parse at h
  split at h
  case isTrue => cases h
  case isFalse hsize =>
    simp only [Option.bind_eq_bind, Option.bind_eq_some_iff, pure, Option.some.injEq,
      Prod.mk.injEq] at h
    obtain ⟨payload, hpayload, rfl, rfl⟩ := h
    exact ⟨(pad32_eq_self_iff _).1 (not_ne_iff.1 hsize).symm, rfl,
      Payload.length_of_read hpayload⟩

end Lemmas

end ApplicationLayerFeeedbackField

end McuMediaServer
