import McuMediaServer.Video.ExpGolomb

/-!
# The sequence parameter set

`Decode` takes the emulation prevention bytes out of the set and reads its fields one after the
other. `Escape` is the inverse of the emulation prevention. The fields are read as they were written
only in few sets: no code may be the one of zero, the dimensions are kept in a byte each, and the
offsets of the second type of picture order count are never stored.
-/

namespace McuMediaServer

open ByteSeq

/-- What is kept of a set. Reference: `h264.h:103`. -/
structure H264SeqParameterSet where
  profileIdc : Nat
  constraintSet0Flag : Nat
  constraintSet1Flag : Nat
  constraintSet2Flag : Nat
  reservedZero5Bits : Nat
  levelIdc : Nat
  seqParameterSetId : Nat
  log2MaxFrameNumMinus4 : Nat
  picOrderCntType : Nat
  log2MaxPicOrderCntLsbMinus4 : Nat
  deltaPicOrderAlwaysZeroFlag : Nat
  offsetForNonRefPic : Int
  offsetForTopToBottomField : Int
  numRefFramesInPicOrderCntCycle : Nat
  offsetForRefFrame : List Int
  numRefFrames : Nat
  gapsInFrameNumValueAllowedFlag : Nat
  picWidthInMbsMinus1 : Nat
  picHeightInMapUnitsMinus1 : Nat
  frameMbsOnlyFlag : Nat
  deriving Inhabited

namespace H264SeqParameterSet

/-! ## Emulation prevention -/

/-- Reference: `h264.h:63`. -/
def isEscape (src : List UInt8) (i : Nat) : Option Bool :=
  if i + 2 < src.length then (get3 src i).map (· = 3) else some false

/-- The destination has as many bytes as the source. Reference: `h264.h:66`. -/
def copyByte (src dst : List UInt8) (i : Nat) : Option (List UInt8) := do
  let b ← src[i]?
  if dst.length < src.length then return dst ++ [b] else none

/-- Reference: `h264.h:60`. -/
def escapeLoop (src dst : List UInt8) (i : Nat) : Option (List UInt8) :=
  if i < src.length then do
    let found ← isEscape src i
    if found then do
      let dst ← copyByte src dst i
      let dst ← copyByte src dst (i + 1)
      escapeLoop src dst (i + 3)
    else do
      let dst ← copyByte src dst i
      escapeLoop src dst (i + 1)
  else
    some dst
termination_by src.length - i

/-- There is no value when a byte is read or written outside the buffers. Reference: `h264.h:56`. -/
def escape (src : List UInt8) : Option (List UInt8) :=
  escapeLoop src [] 0

/-- The bytes of a unit with the emulation prevention bytes, behind some zeros: no two zeros are
followed by a byte below four, nor by the end. -/
def emulate : Nat → List UInt8 → List UInt8
  | zeros, [] => if zeros = 2 then [3] else []
  | zeros, b :: bytes =>
    if zeros = 2 ∧ b ≤ 3 then 3 :: b :: emulate (if b = 0 then 1 else 0) bytes
    else b :: emulate (if b = 0 then zeros + 1 else 0) bytes

/-- The bytes without those behind two zeros. -/
def unescape : List UInt8 → List UInt8
  | 0 :: 0 :: 3 :: bytes => 0 :: 0 :: unescape bytes
  | b :: bytes => b :: unescape bytes
  | [] => []

section Escape

variable {src dst bytes : List UInt8} {b : UInt8} {i : Nat}

attribute [local simp] unescape in
theorem unescape_cons (hb : b ≠ 0) : unescape (b :: bytes) = b :: unescape bytes := by
  simp [hb]

theorem unescape_zero_cons (hb : b ≠ 0) :
    unescape (0 :: b :: bytes) = 0 :: b :: unescape bytes := by
  rw [unescape, unescape_cons hb]
  rintro bytes' - h
  exact hb (List.cons.inj h).1

theorem unescape_zero_zero_cons (hb : b ≠ 0) (hb3 : b ≠ 3) :
    unescape (0 :: 0 :: b :: bytes) = 0 :: 0 :: b :: unescape bytes := by
  rw [unescape, unescape_zero_cons hb]
  rintro bytes' - h
  exact hb3 (List.cons.inj (List.cons.inj h).2).1

theorem unescape_emulate (zeros : Nat) (hz : zeros ≤ 2) (bytes : List UInt8) :
    unescape (List.replicate zeros 0 ++ emulate zeros bytes) = List.replicate zeros 0 ++ bytes := by
  induction bytes generalizing zeros with
  | nil =>
    obtain rfl | rfl | rfl : zeros = 0 ∨ zeros = 1 ∨ zeros = 2 := by omega
    · rfl
    · rfl
    · rfl
  | cons b bytes ih =>
    have hzero := ih 0 (by decide)
    have hone := ih 1 (by decide)
    have htwo := ih 2 (by decide)
    simp only [List.replicate_zero, List.nil_append, List.replicate_succ, List.cons_append]
      at hzero hone htwo
    have hshort (z : Nat) (h : z ≠ 2) : emulate z (b :: bytes) =
        b :: emulate (if b = 0 then z + 1 else 0) bytes := by
      rw [emulate, if_neg fun h' => h h'.1]
    obtain rfl | rfl | rfl : zeros = 0 ∨ zeros = 1 ∨ zeros = 2 := by omega
    · rw [hshort 0 (by decide)]
      by_cases hb : b = 0
      · rw [if_pos hb, hb]
        exact hone
      · rw [if_neg hb, List.replicate_zero, List.nil_append, unescape_cons hb, hzero]
        rfl
    · rw [hshort 1 (by decide)]
      by_cases hb : b = 0
      · rw [if_pos hb, hb]
        exact htwo
      · rw [if_neg hb, List.replicate_one, List.singleton_append, unescape_zero_cons hb, hzero]
        rfl
    · rw [emulate]
      by_cases hb3 : b ≤ 3
      · rw [if_pos ⟨rfl, hb3⟩]
        change unescape (0 :: 0 :: 3 :: b :: emulate (if b = 0 then 1 else 0) bytes) =
          0 :: 0 :: b :: bytes
        rw [unescape]
        by_cases hb : b = 0
        · rw [if_pos hb, hb, hone]
        · rw [if_neg hb, unescape_cons hb, hzero]
      · have hb : b ≠ 0 := by
          rintro rfl
          exact hb3 (by decide)
        have hb' : b ≠ 3 := by
          rintro rfl
          exact hb3 (by decide)
        rw [if_neg fun h => hb3 h.2, if_neg hb]
        change unescape (0 :: 0 :: b :: emulate 0 bytes) = 0 :: 0 :: b :: bytes
        rw [unescape_zero_zero_cons hb hb', hzero]

theorem copyByte_of_le {b : UInt8} (hb : src[i]? = some b) (hle : dst.length ≤ i) :
    copyByte src dst i = some (dst ++ [b]) := by
  obtain ⟨hi, -⟩ := List.getElem?_eq_some_iff.1 hb
  rw [copyByte, hb, Option.bind_eq_bind, Option.bind_some, if_pos (by omega)]
  rfl

theorem isEscape_of_le (h : src.length ≤ i + 2) : isEscape src i = some false := by
  rw [isEscape, if_neg (by omega)]

theorem isEscape_of_drop {a b c : UInt8} (h : src.drop i = a :: b :: c :: bytes) :
    isEscape src i = some (decide (a = 0 ∧ b = 0 ∧ c = 3)) := by
  have hlen := congrArg List.length h
  have hget (k : Nat) : src[i + k]? = (a :: b :: c :: bytes)[k]? := by rw [← h, List.getElem?_drop]
  have h0 : src[i]? = some a := hget 0
  have h1 : src[i + 1]? = some b := hget 1
  have h2 : src[i + 1 + 1]? = some c := hget 2
  have ha := a.toNat_lt
  have hb := b.toNat_lt
  have hc := c.toNat_lt
  rw [List.length_drop, List.length_cons, List.length_cons, List.length_cons] at hlen
  rw [isEscape, if_pos (by omega), get3, get2, get1, get1, get1, h0, h1, h2]
  simp only [Option.map_some, bind, Option.bind, pure, Option.some.injEq, decide_eq_decide,
    ← UInt8.toNat_inj, UInt8.toNat_ofNat]
  omega

theorem isEscape_cases {a : UInt8} {tail : List UInt8} (h : src.drop i = a :: tail) :
    (∃ bytes, a = 0 ∧ tail = 0 :: 3 :: bytes ∧ isEscape src i = some true) ∨
      (isEscape src i = some false ∧ unescape (a :: tail) = a :: unescape tail) := by
  have hlen := congrArg List.length h
  rw [List.length_drop] at hlen
  match tail, h, hlen with
  | [], _, hlen =>
    rw [List.length_singleton] at hlen
    exact .inr ⟨isEscape_of_le (by omega), by simp [unescape]⟩
  | [b], _, hlen =>
    rw [List.length_cons, List.length_singleton] at hlen
    exact .inr ⟨isEscape_of_le (by omega), by simp [unescape]⟩
  | b :: c :: bytes, h, _ =>
    by_cases habc : a = 0 ∧ b = 0 ∧ c = 3
    · obtain ⟨rfl, rfl, rfl⟩ := habc
      exact .inl ⟨bytes, rfl, rfl, by rw [isEscape_of_drop h]; rfl⟩
    · refine .inr ⟨by rw [isEscape_of_drop h, decide_eq_false habc], ?_⟩
      rw [unescape]
      rintro bytes' ha htail
      obtain ⟨hb, hrest⟩ := List.cons.inj htail
      exact habc ⟨ha, hb, (List.cons.inj hrest).1⟩

theorem escapeLoop_eq (hle : dst.length ≤ i) (hi : i ≤ src.length) :
    escapeLoop src dst i = some (dst ++ unescape (src.drop i)) := by
  induction hn : src.length - i using Nat.strong_induction_on generalizing dst i with
  | _ n ih =>
    rw [escapeLoop]
    cases hdrop : src.drop i with
    | nil =>
      rw [if_neg (by rw [List.drop_eq_nil_iff] at hdrop; omega), unescape, List.append_nil]
    | cons a tail =>
      have hlen := congrArg List.length hdrop
      have hget (k : Nat) : src[i + k]? = (a :: tail)[k]? := by rw [← hdrop, List.getElem?_drop]
      have hfirst : src[i]? = some a := hget 0
      rw [List.length_drop, List.length_cons] at hlen
      rw [if_pos (by omega)]
      rcases isEscape_cases hdrop with ⟨bytes, rfl, rfl, hescape⟩ | ⟨hescape, hunescape⟩
      · have hdrop' : src.drop (i + 3) = bytes := by
          rw [← List.drop_drop, hdrop]
          rfl
        rw [List.length_cons, List.length_cons] at hlen
        rw [hescape, Option.bind_eq_bind, Option.bind_some, if_pos rfl,
          copyByte_of_le hfirst hle, Option.bind_eq_bind, Option.bind_some,
          copyByte_of_le (hget 1) (by simp; omega), Option.bind_some,
          ih (src.length - (i + 3)) (by omega) (by simp; omega) (by omega) rfl,
          hdrop', unescape]
        simp
      · have hdrop' : src.drop (i + 1) = tail := by
          rw [← List.drop_drop, hdrop]
          rfl
        rw [hescape, Option.bind_eq_bind, Option.bind_some, if_neg Bool.false_ne_true,
          copyByte_of_le hfirst hle, Option.bind_eq_bind, Option.bind_some,
          ih (src.length - (i + 1)) (by omega) (by simp; omega) (by omega) rfl, hdrop', hunescape]
        simp

theorem escape_eq (src : List UInt8) : escape src = some (unescape src) := by
  rw [escape, escapeLoop_eq (Nat.le_refl 0) (Nat.zero_le _)]
  rfl

theorem escape_emulate (bytes : List UInt8) : escape (emulate 0 bytes) = some bytes := by
  rw [escape_eq]
  exact congrArg some (unescape_emulate 0 (by decide) bytes)

end Escape

/-! ## Decoding -/

/-- A `DWORD` as an `int`. -/
def toInt32 (v : Nat) : Int :=
  if v < 2 ^ 31 then v else v - 2 ^ 32

/-- What is read so far of a set, and the reader. -/
abbrev Decoding := Except BitFault (H264SeqParameterSet × BitReader)

/-- Reference: `h264.h:27`. -/
def decodeHeader (s : H264SeqParameterSet) (r : BitReader) : Decoding := do
  let (profileIdc, r) ← r.get 8
  let (constraintSet0Flag, r) ← r.get 1
  let (constraintSet1Flag, r) ← r.get 1
  let (constraintSet2Flag, r) ← r.get 1
  let (reservedZero5Bits, r) ← r.get 5
  let (levelIdc, r) ← r.get 8
  let (seqParameterSetId, r) ← ExpGolombDecoder.decode r
  let (log2MaxFrameNumMinus4, r) ← ExpGolombDecoder.decode r
  let (picOrderCntType, r) ← ExpGolombDecoder.decode r
  return ({ s with
    profileIdc, constraintSet0Flag, constraintSet1Flag, constraintSet2Flag, reservedZero5Bits,
    levelIdc, seqParameterSetId, log2MaxFrameNumMinus4, picOrderCntType }, r)

/-- `assign` makes the vector a number of copies of the value. Reference: `h264.h:43`. -/
def decodeOffsets (s : H264SeqParameterSet) (r : BitReader) (i : Nat) : Decoding :=
  if i < s.numRefFramesInPicOrderCntCycle then do
    let (value, r) ← ExpGolombDecoder.decode r
    decodeOffsets { s with offsetForRefFrame := List.replicate i (toInt32 value) } r (i + 1)
  else
    .ok (s, r)
termination_by s.numRefFramesInPicOrderCntCycle - i

/-- Reference: `h264.h:36`. -/
def decodePicOrderCnt (s : H264SeqParameterSet) (r : BitReader) : Decoding :=
  if s.picOrderCntType = 0 then do
    let (log2MaxPicOrderCntLsbMinus4, r) ← ExpGolombDecoder.decode r
    return ({ s with log2MaxPicOrderCntLsbMinus4 }, r)
  else if s.picOrderCntType = 1 then do
    let (deltaPicOrderAlwaysZeroFlag, r) ← r.get 1
    let (offsetForNonRefPic, r) ← ExpGolombDecoder.decode r
    let (offsetForTopToBottomField, r) ← ExpGolombDecoder.decode r
    let (numRefFramesInPicOrderCntCycle, r) ← ExpGolombDecoder.decode r
    let s := { s with
      deltaPicOrderAlwaysZeroFlag, numRefFramesInPicOrderCntCycle,
      offsetForNonRefPic := toInt32 offsetForNonRefPic,
      offsetForTopToBottomField := toInt32 offsetForTopToBottomField }
    decodeOffsets s r 0
  else
    .ok (s, r)

/-- The dimensions are kept in a byte each. Reference: `h264.h:46`. -/
def decodeFrames (s : H264SeqParameterSet) (r : BitReader) : Decoding := do
  let (numRefFrames, r) ← ExpGolombDecoder.decode r
  let (gapsInFrameNumValueAllowedFlag, r) ← r.get 1
  let (picWidthInMbsMinus1, r) ← ExpGolombDecoder.decode r
  let (picHeightInMapUnitsMinus1, r) ← ExpGolombDecoder.decode r
  let (frameMbsOnlyFlag, r) ← r.get 1
  return ({ s with
    numRefFrames, gapsInFrameNumValueAllowedFlag, frameMbsOnlyFlag,
    picWidthInMbsMinus1 := picWidthInMbsMinus1 % 2 ^ 8,
    picHeightInMapUnitsMinus1 := picHeightInMapUnitsMinus1 % 2 ^ 8 }, r)

def decodeFields (s : H264SeqParameterSet) (r : BitReader) : Decoding := do
  let (s, r) ← decodeHeader s r
  let (s, r) ← decodePicOrderCnt s r
  decodeFrames s r

/-- The set is read into one that may have been used before. Reference: `h264.h:18`. -/
def decode (s : H264SeqParameterSet) (buffer : List UInt8) :
    Option (Except BitFault H264SeqParameterSet) := do
  let aux ← escape buffer
  return (decodeFields s ⟨aux, 0, 0, 0⟩).map (·.1)

/-- Reference: `h264.h:77`. -/
def getWidth (s : H264SeqParameterSet) : Nat :=
  (s.picWidthInMbsMinus1 + 1) * 16

/-- Reference: `h264.h:78`. -/
def getHeight (s : H264SeqParameterSet) : Nat :=
  (s.picHeightInMapUnitsMinus1 + 1) * 16

end H264SeqParameterSet

/-! ## What is written in a set -/

/-- A number that has a code of 63 bits at most. -/
abbrev Ue := Fin 0xFFFFFFFF

/-- An integer that has one. -/
structure Se where
  val : Int
  lower : -2 ^ 31 < val
  upper : val < 2 ^ 31

/-- The picture order count of a set, by its type. -/
inductive PicOrderCnt where
  | lsb (log2MaxPicOrderCntLsbMinus4 : Ue)
  | cycle (deltaPicOrderAlwaysZeroFlag : Bool) (offsetForNonRefPic offsetForTopToBottomField : Se)
      (offsetForRefFrame : List Se) (hlen : offsetForRefFrame.length < 0xFFFFFFFF)
  | other (picOrderCntType : Ue) (htype : 2 ≤ picOrderCntType.val)

/-- The fields of a set without those of the high profiles, up to the last one that is decoded. -/
structure SeqParameterSetData where
  profileIdc : UInt8
  constraintSet0Flag : Bool
  constraintSet1Flag : Bool
  constraintSet2Flag : Bool
  reservedZero5Bits : Fin 32
  levelIdc : UInt8
  seqParameterSetId : Ue
  log2MaxFrameNumMinus4 : Ue
  picOrderCnt : PicOrderCnt
  numRefFrames : Ue
  gapsInFrameNumValueAllowedFlag : Bool
  picWidthInMbsMinus1 : Ue
  picHeightInMapUnitsMinus1 : Ue
  frameMbsOnlyFlag : Bool

def Se.bits (v : Se) : List Bool :=
  ueBits (seNumber v.val)

namespace PicOrderCnt

def type : PicOrderCnt → Nat
  | lsb _ => 0
  | cycle .. => 1
  | other picOrderCntType _ => picOrderCntType.val

/-- The fields behind the type. -/
def bits : PicOrderCnt → List Bool
  | lsb log2 => ueBits log2.val
  | cycle flag nonRef topToBottom offsets _ =>
    toBits 1 flag.toNat ++ (nonRef.bits ++ (topToBottom.bits ++
      (ueBits offsets.length ++ offsets.flatMap Se.bits)))
  | other .. => []

end PicOrderCnt

/-- The fields as they are written. -/
def SeqParameterSetData.bits (d : SeqParameterSetData) : List Bool :=
  toBits 8 d.profileIdc.toNat ++ (toBits 1 d.constraintSet0Flag.toNat ++
    (toBits 1 d.constraintSet1Flag.toNat ++ (toBits 1 d.constraintSet2Flag.toNat ++
      (toBits 5 d.reservedZero5Bits.val ++ (toBits 8 d.levelIdc.toNat ++
        (ueBits d.seqParameterSetId.val ++ (ueBits d.log2MaxFrameNumMinus4.val ++
          (ueBits d.picOrderCnt.type ++ (d.picOrderCnt.bits ++ (ueBits d.numRefFrames.val ++
            (toBits 1 d.gapsInFrameNumValueAllowedFlag.toNat ++
              (ueBits d.picWidthInMbsMinus1.val ++ (ueBits d.picHeightInMapUnitsMinus1.val ++
                toBits 1 d.frameMbsOnlyFlag.toNat)))))))))))))

/-! ## What is asked of the decoder -/

/-- The picture order count is kept as it was written. -/
def PicOrderCnt.Stored (s : H264SeqParameterSet) : PicOrderCnt → Prop
  | lsb log2 => s.log2MaxPicOrderCntLsbMinus4 = log2.val
  | cycle flag nonRef topToBottom offsets _ =>
    s.deltaPicOrderAlwaysZeroFlag = flag.toNat ∧ s.offsetForNonRefPic = nonRef.val ∧
      s.offsetForTopToBottomField = topToBottom.val ∧
      s.numRefFramesInPicOrderCntCycle = offsets.length ∧
      s.offsetForRefFrame = offsets.map (·.val)
  | other .. => True

/-- All fields are kept as they were written, and the picture has the dimensions they say. -/
structure Stores (s : H264SeqParameterSet) (d : SeqParameterSetData) : Prop where
  profileIdc : s.profileIdc = d.profileIdc.toNat
  constraintSet0Flag : s.constraintSet0Flag = d.constraintSet0Flag.toNat
  constraintSet1Flag : s.constraintSet1Flag = d.constraintSet1Flag.toNat
  constraintSet2Flag : s.constraintSet2Flag = d.constraintSet2Flag.toNat
  reservedZero5Bits : s.reservedZero5Bits = d.reservedZero5Bits.val
  levelIdc : s.levelIdc = d.levelIdc.toNat
  seqParameterSetId : s.seqParameterSetId = d.seqParameterSetId.val
  log2MaxFrameNumMinus4 : s.log2MaxFrameNumMinus4 = d.log2MaxFrameNumMinus4.val
  picOrderCntType : s.picOrderCntType = d.picOrderCnt.type
  picOrderCnt : d.picOrderCnt.Stored s
  numRefFrames : s.numRefFrames = d.numRefFrames.val
  gapsInFrameNumValueAllowedFlag :
    s.gapsInFrameNumValueAllowedFlag = d.gapsInFrameNumValueAllowedFlag.toNat
  picWidthInMbsMinus1 : s.picWidthInMbsMinus1 = d.picWidthInMbsMinus1.val
  picHeightInMapUnitsMinus1 : s.picHeightInMapUnitsMinus1 = d.picHeightInMapUnitsMinus1.val
  frameMbsOnlyFlag : s.frameMbsOnlyFlag = d.frameMbsOnlyFlag.toNat
  width : s.getWidth = 16 * (d.picWidthInMbsMinus1.val + 1)
  height : s.getHeight = 16 * (d.picHeightInMapUnitsMinus1.val + 1)

/-- The sets that are decoded: none of the codes is the one of zero, the picture order count is not
of the first two types, and the dimensions fit in a byte. -/
structure Readable (d : SeqParameterSetData) : Prop where
  seqParameterSetId : d.seqParameterSetId.val ≠ 0
  log2MaxFrameNumMinus4 : d.log2MaxFrameNumMinus4.val ≠ 0
  picOrderCnt : 2 ≤ d.picOrderCnt.type
  numRefFrames : d.numRefFrames.val ≠ 0
  picWidthInMbsMinus1 : d.picWidthInMbsMinus1.val ≠ 0 ∧ d.picWidthInMbsMinus1.val < 256
  picHeightInMapUnitsMinus1 :
    d.picHeightInMapUnitsMinus1.val ≠ 0 ∧ d.picHeightInMapUnitsMinus1.val < 256

/-! ## The parts of a set -/

namespace H264SeqParameterSet

section Parts

variable {r : BitReader} {total : Nat} {rest : List Bool} (d : SeqParameterSetData)
  (s : H264SeqParameterSet)

/-- The set with the fields of the header. -/
def withHeader : H264SeqParameterSet :=
  { s with
    profileIdc := d.profileIdc.toNat
    constraintSet0Flag := d.constraintSet0Flag.toNat
    constraintSet1Flag := d.constraintSet1Flag.toNat
    constraintSet2Flag := d.constraintSet2Flag.toNat
    reservedZero5Bits := d.reservedZero5Bits.val
    levelIdc := d.levelIdc.toNat
    seqParameterSetId := d.seqParameterSetId.val
    log2MaxFrameNumMinus4 := d.log2MaxFrameNumMinus4.val
    picOrderCntType := d.picOrderCnt.type }

theorem type_lt (p : PicOrderCnt) : p.type < 2 ^ 32 - 1 := by
  cases p with
  | lsb => exact show (0 : Nat) < 2 ^ 32 - 1 by decide
  | cycle => exact show (1 : Nat) < 2 ^ 32 - 1 by decide
  | other type => exact type.isLt

theorem returns_decodeHeader (h : r.Holds total (toBits 8 d.profileIdc.toNat ++
    (toBits 1 d.constraintSet0Flag.toNat ++ (toBits 1 d.constraintSet1Flag.toNat ++
      (toBits 1 d.constraintSet2Flag.toNat ++ (toBits 5 d.reservedZero5Bits.val ++
        (toBits 8 d.levelIdc.toNat ++ (ueBits d.seqParameterSetId.val ++
          (ueBits d.log2MaxFrameNumMinus4.val ++ (ueBits d.picOrderCnt.type ++ rest)))))))))) :
    ∃ r', r'.Holds total rest ∧ ∀ {α : Type}
      (f : H264SeqParameterSet × BitReader → Except BitFault α) (P : α → Prop),
        Returns (decodeHeader s r >>= f) P ↔
          d.seqParameterSetId.val ≠ 0 ∧ d.log2MaxFrameNumMinus4.val ≠ 0 ∧ d.picOrderCnt.type ≠ 0 ∧
            Returns (f (withHeader d s, r')) P := by
  obtain ⟨r, h, profile⟩ := returns_get h (by decide) (by decide) d.profileIdc.toNat_lt
  obtain ⟨r, h, constraint0⟩ := returns_get h (by decide) (by decide) (Bool.toNat_lt _)
  obtain ⟨r, h, constraint1⟩ := returns_get h (by decide) (by decide) (Bool.toNat_lt _)
  obtain ⟨r, h, constraint2⟩ := returns_get h (by decide) (by decide) (Bool.toNat_lt _)
  obtain ⟨r, h, reserved⟩ := returns_get h (by decide) (by decide) d.reservedZero5Bits.isLt
  obtain ⟨r, h, level⟩ := returns_get h (by decide) (by decide) d.levelIdc.toNat_lt
  obtain ⟨r, h, id⟩ := returns_decode h d.seqParameterSetId.isLt
  obtain ⟨r, h, log2⟩ := returns_decode h d.log2MaxFrameNumMinus4.isLt
  obtain ⟨r, h, type⟩ := returns_decode h (type_lt d.picOrderCnt)
  refine ⟨r, h, ?_⟩
  intro α f P
  simp only [decodeHeader, bind_assoc, pure_bind]
  rw [profile, constraint0, constraint1, constraint2, reserved, level, id, log2, type]
  rfl

/-- The set with the last fields. -/
def withFrames : H264SeqParameterSet :=
  { s with
    numRefFrames := d.numRefFrames.val
    gapsInFrameNumValueAllowedFlag := d.gapsInFrameNumValueAllowedFlag.toNat
    picWidthInMbsMinus1 := d.picWidthInMbsMinus1.val % 2 ^ 8
    picHeightInMapUnitsMinus1 := d.picHeightInMapUnitsMinus1.val % 2 ^ 8
    frameMbsOnlyFlag := d.frameMbsOnlyFlag.toNat }

theorem returns_decodeFrames {P : H264SeqParameterSet → Prop}
    (h : r.Holds total (ueBits d.numRefFrames.val ++
      (toBits 1 d.gapsInFrameNumValueAllowedFlag.toNat ++ (ueBits d.picWidthInMbsMinus1.val ++
        (ueBits d.picHeightInMapUnitsMinus1.val ++
          (toBits 1 d.frameMbsOnlyFlag.toNat ++ rest)))))) :
    Returns (decodeFrames s r) (fun p => P p.1) ↔
      d.numRefFrames.val ≠ 0 ∧ d.picWidthInMbsMinus1.val ≠ 0 ∧
        d.picHeightInMapUnitsMinus1.val ≠ 0 ∧ P (withFrames d s) := by
  obtain ⟨r, h, numRef⟩ := returns_decode h d.numRefFrames.isLt
  obtain ⟨r, h, gaps⟩ := returns_get h (by decide) (by decide) (Bool.toNat_lt _)
  obtain ⟨r, h, width⟩ := returns_decode h d.picWidthInMbsMinus1.isLt
  obtain ⟨r, h, height⟩ := returns_decode h d.picHeightInMapUnitsMinus1.isLt
  obtain ⟨r, h, frameMbs⟩ := returns_get h (by decide) (by decide) (Bool.toNat_lt _)
  rw [decodeFrames, numRef, gaps, width, height, frameMbs]
  simp only [pure, Except.pure, returns_ok]
  rfl

theorem offsets_of_decodeFrames {s' : H264SeqParameterSet} {r r' : BitReader}
    (h : decodeFrames s r = .ok (s', r')) : s'.offsetForRefFrame = s.offsetForRefFrame := by
  have hret : Returns (decodeFrames s r) (· = (s', r')) := ⟨_, h, rfl⟩
  rw [decodeFrames] at hret
  obtain ⟨numRef, -, hret⟩ := returns_bind.1 hret
  obtain ⟨gaps, -, hret⟩ := returns_bind.1 hret
  obtain ⟨width, -, hret⟩ := returns_bind.1 hret
  obtain ⟨height, -, hret⟩ := returns_bind.1 hret
  obtain ⟨frameMbs, -, hret⟩ := returns_bind.1 hret
  obtain ⟨p, hp, rfl⟩ := hret
  cases hp
  rfl

theorem length_of_decodeOffsets {s₁ s₂ : H264SeqParameterSet} {r₁ r₂ : BitReader} {i : Nat}
    (h : decodeOffsets s₁ r₁ i = .ok (s₂, r₂)) (hi : i < s₁.numRefFramesInPicOrderCntCycle) :
    s₂.offsetForRefFrame.length + 1 = s₁.numRefFramesInPicOrderCntCycle := by
  induction hn : s₁.numRefFramesInPicOrderCntCycle - i generalizing s₁ r₁ i with
  | zero => omega
  | succ n ih =>
    rw [decodeOffsets, if_pos hi] at h
    have hret : Returns _ (· = (s₂, r₂)) := ⟨_, h, rfl⟩
    obtain ⟨⟨value, r₃⟩, -, hret⟩ := returns_bind.1 hret
    obtain ⟨p, hp, rfl⟩ := hret
    dsimp only at hp
    by_cases hlast : i + 1 < s₁.numRefFramesInPicOrderCntCycle
    · have hnext : s₁.numRefFramesInPicOrderCntCycle - (i + 1) = n := by omega
      have hlength := ih hp hlast hnext
      exact hlength
    · rw [decodeOffsets, if_neg hlast] at hp
      cases hp
      rw [List.length_replicate]
      omega

theorem seNumber_lt (v : Se) : seNumber v.val < 2 ^ 32 - 1 := by
  have hlower := v.lower
  have hupper := v.upper
  rw [seNumber]
  split <;> omega

theorem not_stores_cycle {flag : Bool} {nonRef topToBottom : Se} {offsets : List Se}
    {hlen : offsets.length < 0xFFFFFFFF}
    (horder : d.picOrderCnt = .cycle flag nonRef topToBottom offsets hlen)
    (htype : s.picOrderCntType = 1) (h : r.Holds total (d.picOrderCnt.bits ++ rest)) :
    ¬ Returns (decodePicOrderCnt s r >>= fun p => decodeFrames p.1 p.2)
      fun p => Stores p.1 d := by
  intro hret
  rw [horder, PicOrderCnt.bits, List.append_assoc, List.append_assoc, List.append_assoc,
    List.append_assoc] at h
  obtain ⟨r, h, hflag⟩ := returns_get h (by decide) (by decide) (Bool.toNat_lt _)
  obtain ⟨r, h, hnonRef⟩ := returns_decode h (seNumber_lt nonRef)
  obtain ⟨r, h, htop⟩ := returns_decode h (seNumber_lt topToBottom)
  obtain ⟨r, h, hnum⟩ := returns_decode h hlen
  rw [decodePicOrderCnt, if_neg (by rw [htype]; decide), if_pos htype] at hret
  simp only [bind_assoc] at hret
  rw [hflag, hnonRef, htop, hnum] at hret
  obtain ⟨-, -, hne, hret⟩ := hret
  obtain ⟨⟨s₁, r₁⟩, hoffsets, hret⟩ := returns_bind.1 hret
  obtain ⟨⟨s₂, r₂⟩, hframes, hstores⟩ := hret
  have hlength := length_of_decodeOffsets hoffsets (Nat.pos_of_ne_zero hne)
  have hkept := offsets_of_decodeFrames s₁ hframes
  have horder' := hstores.picOrderCnt
  rw [horder] at horder'
  obtain ⟨-, -, -, -, heq⟩ := horder'
  dsimp only at heq hlength
  rw [← hkept, heq, List.length_map] at hlength
  omega

theorem stores_withFrames {type : Ue} {htype : 2 ≤ type.val}
    (horder : d.picOrderCnt = .other type htype) :
    Stores (withFrames d (withHeader d s)) d ↔
      d.picWidthInMbsMinus1.val < 256 ∧ d.picHeightInMapUnitsMinus1.val < 256 := by
  constructor
  · intro h
    have hwidth : d.picWidthInMbsMinus1.val % 2 ^ 8 = d.picWidthInMbsMinus1.val :=
      h.picWidthInMbsMinus1
    have hheight : d.picHeightInMapUnitsMinus1.val % 2 ^ 8 = d.picHeightInMapUnitsMinus1.val :=
      h.picHeightInMapUnitsMinus1
    omega
  · rintro ⟨hwidth, hheight⟩
    have hwidth' : d.picWidthInMbsMinus1.val % 2 ^ 8 = d.picWidthInMbsMinus1.val :=
      Nat.mod_eq_of_lt hwidth
    have hheight' : d.picHeightInMapUnitsMinus1.val % 2 ^ 8 = d.picHeightInMapUnitsMinus1.val :=
      Nat.mod_eq_of_lt hheight
    constructor
    case picOrderCnt =>
      rw [horder]
      trivial
    case picWidthInMbsMinus1 => exact hwidth'
    case picHeightInMapUnitsMinus1 => exact hheight'
    case width =>
      rw [getWidth, withFrames, hwidth', Nat.mul_comm]
    case height =>
      rw [getHeight, withFrames, hheight', Nat.mul_comm]
    all_goals rfl

/-- **The exact sets.** The fields of a set are kept exactly if the set is readable. -/
theorem returns_decodeFields (h : r.Holds total (d.bits ++ rest)) :
    Returns (decodeFields s r) (fun p => Stores p.1 d) ↔ Readable d := by
  rw [SeqParameterSetData.bits] at h
  simp only [List.append_assoc] at h
  obtain ⟨r, h, header⟩ := returns_decodeHeader d s h
  rw [decodeFields, header]
  have horder := type_lt d.picOrderCnt
  cases hcase : d.picOrderCnt with
  | lsb log2 =>
    have htype : d.picOrderCnt.type = 0 := by rw [hcase]; rfl
    constructor
    · rintro ⟨-, -, hne, -⟩
      exact absurd rfl hne
    · intro hreadable
      have := hreadable.picOrderCnt
      omega
  | cycle flag nonRef topToBottom offsets hlen =>
    have htype : d.picOrderCnt.type = 1 := by rw [hcase]; rfl
    constructor
    · rintro ⟨-, -, -, hret⟩
      exact absurd hret (not_stores_cycle d (withHeader d s) hcase htype h)
    · intro hreadable
      have := hreadable.picOrderCnt
      omega
  | other type htype =>
    have htype' : 2 ≤ d.picOrderCnt.type := by rw [hcase]; exact htype
    rw [hcase, PicOrderCnt.bits, List.nil_append] at h
    have hskip : decodePicOrderCnt (withHeader d s) r = .ok (withHeader d s, r) := by
      have hzero : ¬ (withHeader d s).picOrderCntType = 0 := by
        rw [withHeader]
        dsimp only
        omega
      have hone : ¬ (withHeader d s).picOrderCntType = 1 := by
        rw [withHeader]
        dsimp only
        omega
      rw [decodePicOrderCnt, if_neg hzero, if_neg hone]
    dsimp only
    rw [hskip]
    have hframes := returns_decodeFrames (P := fun s => Stores s d) d (withHeader d s) h
    constructor
    · rintro ⟨hid, hlog2, -, hret⟩
      obtain ⟨hnum, hwidth, hheight, hstores⟩ := hframes.1 hret
      obtain ⟨hwidth', hheight'⟩ := (stores_withFrames d s hcase).1 hstores
      exact ⟨hid, hlog2, htype', hnum, ⟨hwidth, hwidth'⟩, ⟨hheight, hheight'⟩⟩
    · rintro ⟨hid, hlog2, -, hnum, ⟨hwidth, hwidth'⟩, ⟨hheight, hheight'⟩⟩
      have hstores := (stores_withFrames d s hcase).2 ⟨hwidth', hheight'⟩
      exact ⟨hid, hlog2, Nat.ne_of_gt (Nat.zero_lt_of_lt htype), hframes.2
        ⟨hnum, hwidth, hheight, hstores⟩⟩

end Parts

end H264SeqParameterSet

/-! ## Few sets are decoded -/

open H264SeqParameterSet

/-- The set is decoded from its unit, whatever the object was used for before. -/
def Decodes (d : SeqParameterSetData) (unit : List UInt8) : Prop :=
  ∀ s, ∃ s', decode s unit = some (.ok s') ∧ Stores s' d

theorem decodes_emulate {d : SeqParameterSetData} {bytes : List UInt8} {rest : List Bool}
    (h : byteBits bytes = d.bits ++ rest) : Decodes d (emulate 0 bytes) ↔ Readable d := by
  have hbits := BitReader.holds_new bytes
  rw [h] at hbits
  have hdecode (s : H264SeqParameterSet) :
      (∃ s', decode s (emulate 0 bytes) = some (.ok s') ∧ Stores s' d) ↔ Readable d := by
    rw [← returns_decodeFields d s hbits, decode, escape_emulate, Option.bind_eq_bind,
      Option.bind_some]
    cases decodeFields s ⟨bytes, 0, 0, 0⟩ with
    | error e => simp [Returns, Except.map, pure]
    | ok p => simp [Returns, Except.map, pure]
  constructor
  · intro hall
    exact (hdecode default).1 (hall default)
  · intro hreadable s
    exact (hdecode s).2 hreadable

/-- The emulation prevention is always undone, no byte is read or written outside the buffers, and
a set is decoded exactly if it is readable. -/
theorem parameterSets_iff (src bytes : List UInt8) (d : SeqParameterSetData) (rest : List Bool) :
    escape (emulate 0 bytes) = some bytes ∧ (escape src).isSome ∧
      (byteBits bytes = d.bits ++ rest → (Decodes d (emulate 0 bytes) ↔ Readable d)) := by
  refine ⟨escape_emulate bytes, ?_, ?_⟩
  · rw [escape_eq]
    rfl
  · intro h
    exact decodes_emulate h

/-- A set of the baseline profile for pictures of 352 by 288. -/
def cifSet (seqParameterSetId : Ue) : SeqParameterSetData where
  profileIdc := 66
  constraintSet0Flag := false
  constraintSet1Flag := false
  constraintSet2Flag := false
  reservedZero5Bits := 0
  levelIdc := 30
  seqParameterSetId := seqParameterSetId
  log2MaxFrameNumMinus4 := 1
  picOrderCnt := .other 2 (Nat.le_refl 2)
  numRefFrames := 1
  gapsInFrameNumValueAllowedFlag := false
  picWidthInMbsMinus1 := 21
  picHeightInMapUnitsMinus1 := 17
  frameMbsOnlyFlag := true

/-- The set with the number one. -/
theorem decodes_one :
    Decodes (cifSet 1) (emulate 0 [0x42, 0x00, 0x1e, 0x49, 0xa0, 0x58, 0x25, 0x80]) := by
  refine ((parameterSets_iff [] [0x42, 0x00, 0x1e, 0x49, 0xa0, 0x58, 0x25, 0x80] (cifSet 1)
    [true, false, false, false, false, false, false, false]).2.2 (by decide)).2 ?_
  exact ⟨by decide, by decide, by decide, by decide, by decide, by decide⟩

/-- The set with the number zero, which nearly all encoders send. -/
theorem not_decodes_zero :
    ¬ Decodes (cifSet 0) (emulate 0 [0x42, 0x00, 0x1e, 0xa6, 0x81, 0x60, 0x96]) := by
  intro h
  have hbits : byteBits [0x42, 0x00, 0x1e, 0xa6, 0x81, 0x60, 0x96] =
      (cifSet 0).bits ++ [true, false] := by decide
  exact ((decodes_emulate hbits).1 h).seqParameterSetId rfl

end McuMediaServer
