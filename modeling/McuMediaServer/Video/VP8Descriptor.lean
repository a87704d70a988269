import McuMediaServer.Video.VP8Decoder

/-!
# The VP8 payload descriptor

`Serialize` writes the index of a key where the flag for it belongs, the flag of the temporal level
where its index belongs, and of a long picture number not all bits; `GetSize` counts a picture number
as long from 8 on, `Serialize` from 128 on. So few descriptors come back as they were: those that
are `Plain`.
-/

namespace McuMediaServer

namespace VP8PayloadDescriptor

variable (d : VP8PayloadDescriptor)

/-- Reference: `vp8.h:69`. -/
def getSize : Nat :=
  if d.extendedControlBitsPresent then
    2 + (if d.pictureIdPresent then if 7 < d.pictureId then 2 else 1 else 0) +
      (if d.temporalLevelZeroIndexPresent then 1 else 0) +
      if d.temporalLayerIndexPreset || d.keyIndexPresent then 1 else 0
  else
    1

/-- Reference: `vp8.h:176`. -/
def firstByte : UInt8 :=
  .ofNat (((d.extendedControlBitsPresent.toNat <<< 2 ||| d.nonReferencePicture.toNat) <<< 1 |||
    d.startOfPartition.toNat) <<< 4 ||| (d.partitionIndex &&& 0x0F))

/-- The low bits of the index of the key go into the place of the flags. Reference: `vp8.h:185`. -/
def secondByte : UInt8 :=
  .ofNat ((((d.pictureIdPresent.toNat <<< 1 ||| d.temporalLevelZeroIndexPresent.toNat) <<< 1 |||
    d.temporalLayerIndexPreset.toNat) <<< 1 ||| d.keyIndex) <<< 4)

/-- Reference: `vp8.h:194`. -/
def pictureIdBytes : List UInt8 :=
  if d.pictureIdPresent then
    if d.pictureId >>> 7 ≠ 0 then
      [.ofNat (d.pictureId >>> 8 ||| 0x80), .ofNat (d.pictureId &&& 0x7F)]
    else
      [.ofNat (d.pictureId &&& 0x7F)]
  else
    []

/-- The flag is written, not the index. Reference: `vp8.h:212`. -/
def temporalLevelBytes : List UInt8 :=
  if d.temporalLevelZeroIndexPresent then
    [.ofNat d.temporalLevelZeroIndexPresent.toNat]
  else
    []

/-- The byte is there where the index of the layer is not zero. Reference: `vp8.h:220`. -/
def layerBytes : List UInt8 :=
  if d.temporalLayerIndex ≠ 0 ∨ d.keyIndexPresent then
    [.ofNat ((d.temporalLayerIndex <<< 2 ||| d.layerSync.toNat) <<< 1 ||| (d.keyIndex &&& 0x1F))]
  else
    []

/-- What is written. -/
def bytes : List UInt8 :=
  if d.extendedControlBitsPresent then
    d.firstByte :: d.secondByte :: (d.pictureIdBytes ++ d.temporalLevelBytes ++ d.layerBytes)
  else
    [d.firstByte]

/-- Nothing is written where there is not room enough for what `GetSize` says. Reference:
`vp8.h:151`. -/
def serialize (size : Nat) : List UInt8 :=
  if size < d.getSize then [] else d.bytes

/-! ## Round trips -/

/-- The fields have the widths that the format gives them. -/
structure Fits : Prop where
  partitionIndex : d.partitionIndex < 2 ^ 4
  pictureId : d.pictureId < 2 ^ 15
  temporalLevelZeroIndex : d.temporalLevelZeroIndex < 2 ^ 8
  temporalLayerIndex : d.temporalLayerIndex < 2 ^ 2
  keyIndex : d.keyIndex < 2 ^ 5

/-- Wherever there is room, as many bytes are written as `GetSize` says, and all of them are read as
this descriptor. -/
def RoundTrips : Prop :=
  ∀ size, d.getSize ≤ size → (d.serialize size).length = d.getSize ∧
    new.parse (d.serialize size) = some (d.getSize, d)

/-- There is no layer byte and nothing of it, the index of a key is at most 1, a picture number is
of one digit (to the base 8) or has its eighth bit clear and a higher one set, and the index of the
temporal level is its flag. What is not written is zero. -/
structure Plain : Prop where
  temporalLayerIndexPreset : d.temporalLayerIndexPreset = false
  keyIndexPresent : d.keyIndexPresent = false
  layerSync : d.layerSync = false
  temporalLayerIndex : d.temporalLayerIndex = 0
  short : d.extendedControlBitsPresent = false → d.pictureIdPresent = false ∧
    d.temporalLevelZeroIndexPresent = false ∧ d.keyIndex = 0
  keyIndex : d.keyIndex ≤ 1
  pictureId : if d.pictureIdPresent then
      d.pictureId ≤ 7 ∨ 128 ≤ d.pictureId ∧ d.pictureId % 2 ^ 8 < 2 ^ 7
    else d.pictureId = 0
  temporalLevelZeroIndex : d.temporalLevelZeroIndex = d.temporalLevelZeroIndexPresent.toNat

variable {d}

theorem firstByte_bits (h : d.partitionIndex < 2 ^ 4) :
    bit d.firstByte.toNat 7 = d.extendedControlBitsPresent ∧
      bit d.firstByte.toNat 5 = d.nonReferencePicture ∧
      bit d.firstByte.toNat 4 = d.startOfPartition ∧
      d.firstByte.toNat % 2 ^ 4 = d.partitionIndex := by
  have hall : ∀ X N S : Bool, ∀ p : Fin 16,
      let byte := (UInt8.ofNat (((X.toNat <<< 2 ||| N.toNat) <<< 1 ||| S.toNat) <<< 4 |||
        (p.val &&& 0x0F))).toNat
      bit byte 7 = X ∧ bit byte 5 = N ∧ bit byte 4 = S ∧ byte % 2 ^ 4 = p.val := by
    decide
  exact hall _ _ _ ⟨d.partitionIndex, h⟩

theorem secondByte_bits (h : d.keyIndex < 2 ^ 5) :
    bit d.secondByte.toNat 7 = (d.pictureIdPresent || bit d.keyIndex 3) ∧
      bit d.secondByte.toNat 6 = (d.temporalLevelZeroIndexPresent || bit d.keyIndex 2) ∧
      d.secondByte.toNat / 2 ^ 5 % 2 = (d.temporalLayerIndexPreset || bit d.keyIndex 1).toNat ∧
      d.secondByte.toNat / 2 ^ 4 % 2 = d.keyIndex % 2 := by
  have hall : ∀ I L T : Bool, ∀ k : Fin 32,
      let byte := (UInt8.ofNat ((((I.toNat <<< 1 ||| L.toNat) <<< 1 ||| T.toNat) <<< 1 |||
        k.val) <<< 4)).toNat
      bit byte 7 = (I || bit k.val 3) ∧ bit byte 6 = (L || bit k.val 2) ∧
        byte / 2 ^ 5 % 2 = (T || bit k.val 1).toNat ∧ byte / 2 ^ 4 % 2 = k.val % 2 := by
    decide
  exact hall _ _ _ ⟨d.keyIndex, h⟩

theorem parsePictureId_short {e : VP8PayloadDescriptor} {data : List UInt8} {n : Nat}
    {byte : UInt8} (h : data[n]? = some byte) (hshort : byte.toNat < 2 ^ 7) :
    e.parsePictureId data n = some (n + 1, { e with pictureId := byte.toNat }) := by
  have hbit : bit byte.toNat 7 = false := by
    simp only [bit, decide_eq_false_iff_not]
    omega
  simp [parsePictureId, ByteSeq.get1, h, hbit]

theorem parsePictureId_long {e : VP8PayloadDescriptor} {data : List UInt8} {n : Nat}
    {high low : UInt8} (h : data[n]? = some high) (h' : data[n + 1]? = some low)
    (hlong : 2 ^ 7 ≤ high.toNat) :
    e.parsePictureId data n =
      some (n + 2, { e with pictureId := high.toNat % 2 ^ 7 * 2 ^ 8 + low.toNat }) := by
  have hlt := high.toNat_lt
  have hbit : bit high.toNat 7 = true := by
    simp only [bit, decide_eq_true_eq]
    omega
  simp [parsePictureId, ByteSeq.get1, h, h', hbit]

theorem pictureIdBytes_long (hfits : d.pictureId < 2 ^ 15) (hlong : 2 ^ 7 ≤ d.pictureId) :
    ∃ high low : UInt8, [high, low] = [UInt8.ofNat (d.pictureId >>> 8 ||| 0x80),
        UInt8.ofNat (d.pictureId &&& 0x7F)] ∧
      2 ^ 7 ≤ high.toNat ∧ high.toNat % 2 ^ 7 = d.pictureId / 2 ^ 8 ∧
      low.toNat = d.pictureId % 2 ^ 7 := by
  have hlow : d.pictureId &&& 0x7F = d.pictureId % 2 ^ 7 :=
    Nat.and_two_pow_sub_one_eq_mod d.pictureId 7
  have hhigh : d.pictureId >>> 8 ||| 0x80 = d.pictureId / 2 ^ 8 + 2 ^ 7 := by
    have hlt : d.pictureId / 2 ^ 8 < 2 ^ 7 := by omega
    rw [Nat.shiftRight_eq_div_pow, Nat.lor_comm]
    exact (Nat.two_pow_add_eq_or_of_lt hlt 1).symm.trans (by omega)
  refine ⟨_, _, rfl, ?_, ?_, ?_⟩
  · rw [hhigh, UInt8.toNat_ofNat']
    omega
  · rw [hhigh, UInt8.toNat_ofNat']
    omega
  · rw [hlow, UInt8.toNat_ofNat']
    omega

theorem parsePictureId_frame {e e' : VP8PayloadDescriptor} {data : List UInt8} {n m : Nat}
    (h : e.parsePictureId data n = some (m, e')) : ∃ id, e' = { e with pictureId := id } := by
  simp only [parsePictureId, Option.bind_eq_bind, Option.bind_eq_some_iff] at h
  obtain ⟨byte, -, h⟩ := h
  split at h
  · obtain ⟨low, -, h⟩ := Option.bind_eq_some_iff.1 h
    cases h
    exact ⟨_, rfl⟩
  · cases h
    exact ⟨_, rfl⟩

theorem parseTemporalLevel_frame {e e' : VP8PayloadDescriptor} {data : List UInt8} {n m : Nat}
    (h : e.parseTemporalLevel data n = some (m, e')) :
    ∃ level, e' = { e with temporalLevelZeroIndex := level } := by
  simp only [parseTemporalLevel, Option.bind_eq_bind, Option.bind_eq_some_iff] at h
  obtain ⟨byte, -, h⟩ := h
  cases h
  exact ⟨_, rfl⟩

theorem parse_extended {b0 b1 : UInt8} {rest : List UInt8} {n : Nat}
    (hX : bit b0.toNat 7 = true) (h : new.parse (b0 :: b1 :: rest) = some (n, d)) :
    d.temporalLayerIndexPreset = false ∧ d.keyIndexPresent = false ∧ d.layerSync = false ∧
      d.temporalLayerIndex = b1.toNat / 2 ^ 5 % 2 ∧ d.keyIndex = b1.toNat / 2 ^ 4 % 2 := by
  simp only [parse, ByteSeq.get1, List.getElem?_cons_zero, List.getElem?_cons_succ, Option.map_some,
    Option.bind_eq_bind, Option.bind_some, hX, if_true] at h
  cases hI : bit b1.toNat 7 <;> cases hL : bit b1.toNat 6 <;>
    simp only [hI, hL, if_true, Bool.false_eq_true, if_false] at h
  · cases h
    exact ⟨rfl, rfl, rfl, rfl, rfl⟩
  · obtain ⟨⟨m, e⟩, hlevel, h⟩ := Option.bind_eq_some_iff.1 h
    obtain ⟨level, rfl⟩ := parseTemporalLevel_frame hlevel
    cases h
    exact ⟨rfl, rfl, rfl, rfl, rfl⟩
  · obtain ⟨⟨m, e⟩, hpicture, h⟩ := Option.bind_eq_some_iff.1 h
    obtain ⟨id, rfl⟩ := parsePictureId_frame hpicture
    cases h
    exact ⟨rfl, rfl, rfl, rfl, rfl⟩
  · obtain ⟨⟨m, e⟩, hpicture, h⟩ := Option.bind_eq_some_iff.1 h
    obtain ⟨id, rfl⟩ := parsePictureId_frame hpicture
    obtain ⟨⟨m', e'⟩, hlevel, h⟩ := Option.bind_eq_some_iff.1 h
    obtain ⟨level, rfl⟩ := parseTemporalLevel_frame hlevel
    cases h
    exact ⟨rfl, rfl, rfl, rfl, rfl⟩

/-- What a descriptor without a layer byte comes back as. -/
def back (d : VP8PayloadDescriptor) : VP8PayloadDescriptor :=
  { d with
    pictureId := if d.pictureIdPresent then
        if 2 ^ 7 ≤ d.pictureId then d.pictureId / 2 ^ 8 * 2 ^ 8 + d.pictureId % 2 ^ 7
        else d.pictureId
      else 0
    temporalLevelZeroIndex := d.temporalLevelZeroIndexPresent.toNat }

theorem parsePictureId_bytes (hid : d.pictureId < 2 ^ 15) (hpresent : d.pictureIdPresent = true)
    (e : VP8PayloadDescriptor) (b0 b1 : UInt8) (rest : List UInt8) :
    e.parsePictureId (b0 :: b1 :: (d.pictureIdBytes ++ rest)) 2 =
      some (2 + d.pictureIdBytes.length, { e with pictureId := d.back.pictureId }) := by
  by_cases hlong : 2 ^ 7 ≤ d.pictureId
  · obtain ⟨high, low, hbytes, hhigh, hhigh', hlow⟩ := pictureIdBytes_long hid hlong
    have hshift : d.pictureId >>> 7 ≠ 0 := by
      rw [Nat.shiftRight_eq_div_pow]
      omega
    have hback : d.back.pictureId = d.pictureId / 2 ^ 8 * 2 ^ 8 + d.pictureId % 2 ^ 7 := by
      simp only [back, if_pos hpresent, if_pos hlong]
    rw [hback, pictureIdBytes, if_pos hpresent, if_pos hshift, ← hbytes]
    have hread := @parsePictureId_long e (b0 :: b1 :: ([high, low] ++ rest)) 2 high low rfl rfl hhigh
    rw [hread, hhigh', hlow]
    rfl
  · have hshift : ¬(d.pictureId >>> 7 ≠ 0) := by
      rw [Nat.shiftRight_eq_div_pow]
      omega
    have hlow : (UInt8.ofNat (d.pictureId &&& 0x7F)).toNat = d.pictureId := by
      have hand : d.pictureId &&& 0x7F = d.pictureId % 2 ^ 7 :=
        Nat.and_two_pow_sub_one_eq_mod d.pictureId 7
      rw [hand, UInt8.toNat_ofNat']
      omega
    have hback : d.back.pictureId = d.pictureId := by
      simp only [back, if_pos hpresent, if_neg hlong]
    rw [hback, pictureIdBytes, if_pos hpresent, if_neg hshift]
    have hread := @parsePictureId_short e
      (b0 :: b1 :: ([UInt8.ofNat (d.pictureId &&& 0x7F)] ++ rest)) 2 _ rfl (by rw [hlow]; omega)
    rw [hread, hlow]
    rfl

theorem parseTemporalLevel_bytes (e : VP8PayloadDescriptor) {data : List UInt8} {n : Nat}
    (h : data[n]? = some (UInt8.ofNat 1)) :
    e.parseTemporalLevel data n = some (n + 1, { e with temporalLevelZeroIndex := 1 }) := by
  simp [parseTemporalLevel, ByteSeq.get1, h]

theorem parse_bytes (hfits : d.Fits) (hX : d.extendedControlBitsPresent = true)
    (hT : d.temporalLayerIndexPreset = false) (hK : d.keyIndexPresent = false)
    (hY : d.layerSync = false) (hlayer : d.temporalLayerIndex = 0) (hkey : d.keyIndex ≤ 1) :
    new.parse d.bytes = some (d.bytes.length, d.back) := by
  obtain ⟨hX7, hN, hS, hP⟩ := firstByte_bits hfits.partitionIndex
  obtain ⟨hI, hL, htid, hk⟩ := secondByte_bits hfits.keyIndex
  have hbits : bit d.keyIndex 3 = false ∧ bit d.keyIndex 2 = false ∧ bit d.keyIndex 1 = false ∧
      d.keyIndex % 2 = d.keyIndex := by
    rcases Nat.le_one_iff_eq_zero_or_eq_one.1 hkey with h | h <;> rw [h] <;> decide
  rw [hbits.1, Bool.or_false] at hI
  rw [hbits.2.1, Bool.or_false] at hL
  rw [hbits.2.2.1, hT] at htid
  rw [hbits.2.2.2] at hk
  rw [hX] at hX7
  have hlayerBytes : d.layerBytes = [] := by simp [layerBytes, hlayer, hK]
  have hback : d.back = ⟨true, d.nonReferencePicture, d.startOfPartition, d.partitionIndex,
      d.pictureIdPresent, d.temporalLevelZeroIndexPresent, false, false, false, d.back.pictureId,
      d.temporalLevelZeroIndexPresent.toNat, 0, d.keyIndex⟩ := by
    simp only [back, hX, hT, hK, hY, hlayer]
  rw [bytes, if_pos hX, hlayerBytes, List.append_nil, hback]
  simp only [parse, ByteSeq.get1, List.getElem?_cons_zero, List.getElem?_cons_succ, Option.map_some,
    Option.bind_eq_bind, Option.bind_some, hX7, if_true, hN, hS, hP, hI, hL, htid, hk]
  cases hpresent : d.pictureIdPresent <;> cases hzero : d.temporalLevelZeroIndexPresent
  · simp [pictureIdBytes, temporalLevelBytes, hpresent, hzero, back, new]
  · have htl : d.temporalLevelBytes = [UInt8.ofNat 1] := by simp [temporalLevelBytes, hzero]
    have hpic : d.pictureIdBytes = [] := by simp [pictureIdBytes, hpresent]
    rw [hpic, htl]
    simp only [Bool.false_eq_true, if_false, if_true, List.nil_append]
    rw [parseTemporalLevel_bytes _ rfl]
    simp [back, hpresent, new]
  · have htl : d.temporalLevelBytes = [] := by simp [temporalLevelBytes, hzero]
    rw [htl]
    simp only [Bool.false_eq_true, if_false, if_true]
    rw [parsePictureId_bytes hfits.pictureId hpresent]
    simp [new]
    omega
  · have htl : d.temporalLevelBytes = [UInt8.ofNat 1] := by simp [temporalLevelBytes, hzero]
    rw [htl]
    simp only [if_true]
    rw [parsePictureId_bytes hfits.pictureId hpresent, Option.bind_some]
    have hnext : (d.firstByte :: d.secondByte :: (d.pictureIdBytes ++ [UInt8.ofNat 1]))[
        2 + d.pictureIdBytes.length]? = some (UInt8.ofNat 1) := by
      rw [Nat.add_comm]
      simp
    rw [parseTemporalLevel_bytes _ hnext]
    simp [new]
    omega

/-! ## When a descriptor comes back -/

theorem roundTrips_iff_bytes : d.RoundTrips ↔
    d.bytes.length = d.getSize ∧ new.parse d.bytes = some (d.getSize, d) := by
  constructor
  · intro h
    have hsize := h d.getSize (le_refl _)
    rwa [serialize, if_neg (lt_irrefl _)] at hsize
  · intro h size hsize
    rwa [serialize, if_neg (not_lt.2 hsize)]

theorem roundTrips_short (hfits : d.Fits) (hX : d.extendedControlBitsPresent = false) :
    d.RoundTrips ↔ d.Plain := by
  obtain ⟨hX7, hN, hS, hP⟩ := firstByte_bits hfits.partitionIndex
  rw [hX] at hX7
  have hbytes : d.bytes = [d.firstByte] := by simp [bytes, hX]
  have hparse : new.parse d.bytes = some (1, { new with
      nonReferencePicture := d.nonReferencePicture
      startOfPartition := d.startOfPartition
      partitionIndex := d.partitionIndex }) := by
    rw [hbytes]
    simp [parse, ByteSeq.get1, hX7, hN, hS, new]
    exact hP
  have hsize : d.getSize = 1 := by simp [getSize, hX]
  rw [roundTrips_iff_bytes, hparse, hsize, hbytes]
  constructor
  · rintro ⟨-, h⟩
    obtain ⟨-, h⟩ := Prod.mk.inj (Option.some.inj h)
    rw [← h]
    exact ⟨rfl, rfl, rfl, rfl, fun _ => ⟨rfl, rfl, rfl⟩, Nat.zero_le _, rfl, rfl⟩
  · intro h
    obtain ⟨hI, hL, hk⟩ := h.short hX
    have hid : d.pictureId = 0 := by simpa [hI] using h.pictureId
    have hlevel : d.temporalLevelZeroIndex = 0 := by simpa [hL] using h.temporalLevelZeroIndex
    refine ⟨rfl, ?_⟩
    obtain ⟨hT, hK, hY, hlayer, -, -, -, -⟩ := h
    cases d
    simp_all [new]

theorem back_eq_iff (hfits : d.Fits) (hX : d.extendedControlBitsPresent = true)
    (hT : d.temporalLayerIndexPreset = false) (hK : d.keyIndexPresent = false)
    (hlayer : d.temporalLayerIndex = 0) :
    (d.bytes.length = d.getSize ∧ d.back = d) ↔
      (if d.pictureIdPresent then
        d.pictureId ≤ 7 ∨ 128 ≤ d.pictureId ∧ d.pictureId % 2 ^ 8 < 2 ^ 7
      else d.pictureId = 0) ∧ d.temporalLevelZeroIndex = d.temporalLevelZeroIndexPresent.toNat := by
  have hid := hfits.pictureId
  have hback : d.back = d ↔ d.back.pictureId = d.pictureId ∧
      d.temporalLevelZeroIndexPresent.toNat = d.temporalLevelZeroIndex := by
    constructor
    · intro h
      refine ⟨congrArg pictureId h, ?_⟩
      exact congrArg temporalLevelZeroIndex h
    · rintro ⟨h, h'⟩
      cases d
      simp only [back, mk.injEq, true_and, and_true] at h h' ⊢
      exact ⟨h, h'⟩
  have hlayerBytes : d.layerBytes.length = 0 := by simp [layerBytes, hlayer, hK]
  have hlevelBytes : d.temporalLevelBytes.length =
      if d.temporalLevelZeroIndexPresent then 1 else 0 := by
    rw [temporalLevelBytes]
    split <;> rfl
  have hlength : d.bytes.length = d.getSize ↔
      d.pictureIdBytes.length = if d.pictureIdPresent then if 7 < d.pictureId then 2 else 1 else 0 := by
    rw [bytes, if_pos hX, getSize, if_pos hX, hT, hK]
    simp only [List.length_cons, List.length_append, hlevelBytes, hlayerBytes, Bool.or_false,
      Bool.false_eq_true, if_false]
    omega
  rw [hlength, hback, eq_comm (a := d.temporalLevelZeroIndexPresent.toNat), ← and_assoc]
  refine and_congr_left fun _ => ?_
  cases hpresent : d.pictureIdPresent with
  | false => simp [pictureIdBytes, back, hpresent, eq_comm]
  | true =>
    have hshift : d.pictureId >>> 7 ≠ 0 ↔ 2 ^ 7 ≤ d.pictureId := by
      rw [Nat.shiftRight_eq_div_pow]
      omega
    simp only [pictureIdBytes, back, hpresent, if_true, hshift]
    by_cases hlong : 2 ^ 7 ≤ d.pictureId
    · have hlong' : 7 < d.pictureId := by omega
      simp only [if_pos hlong, if_pos hlong', List.length_cons, List.length_nil, true_and]
      omega
    · simp only [if_neg hlong, List.length_cons, List.length_nil, and_true]
      split <;> omega

theorem roundTrips_extended (hfits : d.Fits) (hX : d.extendedControlBitsPresent = true) :
    d.RoundTrips ↔ d.Plain := by
  obtain ⟨hX7, -⟩ := firstByte_bits hfits.partitionIndex
  obtain ⟨-, -, htid, hk⟩ := secondByte_bits hfits.keyIndex
  rw [hX] at hX7
  rw [roundTrips_iff_bytes]
  constructor
  · rintro ⟨hlength, hparse⟩
    have hread := hparse
    rw [bytes, if_pos hX] at hread
    obtain ⟨hT, hK, hY, hlayer, hkey⟩ := parse_extended hX7 hread
    rw [hk] at hkey
    have hkey' : d.keyIndex ≤ 1 := by omega
    have hbit : bit d.keyIndex 1 = false := by
      rcases Nat.le_one_iff_eq_zero_or_eq_one.1 hkey' with h | h <;> rw [h] <;> decide
    rw [htid, hT, hbit] at hlayer
    rw [parse_bytes hfits hX hT hK hY hlayer hkey'] at hparse
    obtain ⟨-, hback⟩ := Prod.mk.inj (Option.some.inj hparse)
    obtain ⟨hid, hlevel⟩ := (back_eq_iff hfits hX hT hK hlayer).1 ⟨hlength, hback⟩
    exact ⟨hT, hK, hY, hlayer, fun h => absurd (h.symm.trans hX) Bool.false_ne_true, hkey', hid,
      hlevel⟩
  · intro h
    obtain ⟨hlength, hback⟩ := (back_eq_iff hfits hX h.temporalLayerIndexPreset h.keyIndexPresent
      h.temporalLayerIndex).2 ⟨h.pictureId, h.temporalLevelZeroIndex⟩
    refine ⟨hlength, ?_⟩
    rw [parse_bytes hfits hX h.temporalLayerIndexPreset h.keyIndexPresent h.layerSync
      h.temporalLayerIndex h.keyIndex, hback, hlength]

/-- A descriptor whose fields fit comes back if and only if it is plain, and reading stays inside
a payload if and only if the payload is as long as its first bytes say. -/
theorem descriptors_iff (d : VP8PayloadDescriptor) (payload : List UInt8) :
    (d.Fits → (d.RoundTrips ↔ d.Plain)) ∧
      ((new.parse payload).isSome ↔ size payload ≤ payload.length) := by
  refine ⟨?_, ?_⟩
  · intro hfits
    cases hX : d.extendedControlBitsPresent with
    | false => exact roundTrips_short hfits hX
    | true => exact roundTrips_extended hfits hX
  · have hparse := congrArg Option.isSome (fst_parse payload)
    rw [Option.isSome_map] at hparse
    rw [hparse]
    split
    · exact iff_of_true rfl ‹_›
    · exact iff_of_false Bool.false_ne_true ‹_›

/-- The descriptor of a packet within a partition. -/
theorem roundTrips_partition :
    ({ new with startOfPartition := true, partitionIndex := 3 } :
      VP8PayloadDescriptor).RoundTrips :=
  ((descriptors_iff _ []).1 ⟨by decide, by decide, by decide, by decide, by decide⟩).2
    ⟨rfl, rfl, rfl, rfl, fun _ => ⟨rfl, rfl, rfl⟩, by decide, rfl, rfl⟩

/-- A picture number of 100 is written in one byte, where `GetSize` counts two; and the one byte of
a payload that says that more follows is all there is. -/
theorem not_descriptors :
    ¬({ new with extendedControlBitsPresent := true, pictureIdPresent := true, pictureId := 100 } :
        VP8PayloadDescriptor).RoundTrips ∧
      ¬(new.parse [0x80]).isSome := by
  refine ⟨?_, by decide⟩
  intro h
  exact absurd (h 4 (by decide)).1 (by decide)

end VP8PayloadDescriptor

end McuMediaServer
