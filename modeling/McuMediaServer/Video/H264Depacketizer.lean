import McuMediaServer.Video.Frame
import McuMediaServer.Tools

/-!
# The H.264 depacketizer

The payloads of RFC 6184: a NAL unit, an aggregate of NAL units (STAP-A) and the fragments of one
(FU-A). The depacketizer of recordings and of the relay puts each NAL unit into the frame behind a
length of four bytes, and notes how the packet it came in can be made again.
-/

namespace McuMediaServer

open ByteSeq ByteWriter

namespace H264

/-- The type of a NAL unit is in the low five bits of its first byte. Reference:
`h264depacketizer.cpp:71`. -/
def nalUnitType (header : UInt8) : UInt8 := header &&& 0x1f

/-- What a packet is: of a type that is not taken, an aggregate (STAP-A), a fragment (FU-A or FU-B)
or a NAL unit. -/
inductive PacketType
  | unsupported
  | aggregate
  | fragment
  | single
  deriving DecidableEq

/-- Reference: `h264depacketizer.cpp:76`. -/
def packetType (header : UInt8) : PacketType :=
  if nalUnitType header ∈ [0, 30, 31, 25, 26, 27] then .unsupported
  else if nalUnitType header = 24 then .aggregate
  else if nalUnitType header ∈ [28, 29] then .fragment
  else .single

/-- The start bit of an FU header. Reference: `h264depacketizer.cpp:172`. -/
def isStart (fuHeader : UInt8) : Bool := fuHeader &&& 0x80 = 0x80

/-- The end bit of an FU header. Reference: `h264depacketizer.cpp:173`. -/
def isEnd (fuHeader : UInt8) : Bool := fuHeader &&& 0x40 = 0x40

/-- The header of a fragmented NAL unit. Reference: `h264depacketizer.cpp:184`. -/
def reconstruct (indicator fuHeader : UInt8) : UInt8 :=
  (indicator &&& 0xe0) ||| (fuHeader &&& 0x1f)

end H264

open H264

/-- The frame that is put together, and where in it the NAL unit of the last fragment with a start
bit begins; that field has no value before there has been one. Reference: `h264depacketizer.h:23`.
-/
structure H264Depacketizer where
  frame : VideoFrame
  iniFragNALU : Option Nat

namespace H264Depacketizer

/-- Reference: `h264depacketizer.cpp:18`. -/
def new : H264Depacketizer := ⟨VideoFrame.new 0, none⟩

variable (d : H264Depacketizer)

/-- Reference: `h264depacketizer.cpp:31`. -/
def resetFrame : H264Depacketizer :=
  { d with frame := { d.frame with
      rtpInfo := [], buffer := List.replicate d.frame.buffer.length 0, length := 0 } }

/-- A frame with a NAL unit of type 5 is intra coded. -/
def checkIntra (f : VideoFrame) (header : UInt8) : VideoFrame :=
  if nalUnitType header = 5 then f.setIntra else f

/-- The loop over the NAL units of an aggregate, behind its header. Reference:
`h264depacketizer.cpp:123`. -/
def addAggregate (f : VideoFrame) (payload : List UInt8) : Option VideoFrame :=
  match payload with
  | high :: low :: first :: rest => do
    let naluSize := high.toNat * 2 ^ 8 + low.toNat
    let f ← (checkIntra f first).appendMedia (be4 naluSize)
    let nal ← slice (first :: rest) 0 naluSize
    let f ← f.appendMedia nal
    addAggregate f ((first :: rest).drop naluSize)
  | _ => some f
termination_by payload.length
decreasing_by
  rw [List.length_drop]
  simp only [List.length_cons]
  omega

/-- An aggregate goes into a prefix as a whole. Reference: `h264depacketizer.cpp:116`. -/
def addStapA (payload : List UInt8) : Option H264Depacketizer := do
  let f ← d.frame.addRtpPacket 0 0 payload
  let f ← addAggregate f payload.tail
  return { d with frame := f }

/-- The start of a fragmented NAL unit, whose size is not known yet. Reference:
`h264depacketizer.cpp:178`. -/
def startFragment (nalHeader : UInt8) : Option H264Depacketizer := do
  let f ← (checkIntra d.frame nalHeader).appendMedia (be4 1)
  let f ← f.appendMedia [nalHeader]
  return ⟨f, some d.frame.length⟩

/-- The size of the fragmented NAL unit is written in front of it. Reference:
`h264depacketizer.cpp:210`. -/
def endFragment : Option H264Depacketizer := do
  let iniFragNALU ← d.iniFragNALU
  let nalSize := dwordSub (dwordSub d.frame.length iniFragNALU) 4
  let buffer ← putAt iniFragNALU (be4 nalSize) d.frame.buffer
  return { d with frame := { d.frame with buffer := buffer } }

/-- A fragment with a start bit starts a NAL unit. -/
def openFragment (indicator fuHeader : UInt8) : Option H264Depacketizer :=
  if isStart fuHeader then d.startFragment (reconstruct indicator fuHeader) else some d

/-- Reference: `h264depacketizer.cpp:158`. -/
def addFragment (indicator fuHeader : UInt8) (body : List UInt8) : Option H264Depacketizer := do
  let d ← d.openFragment indicator fuHeader
  let f ← d.frame.appendMedia body
  let f ← f.addRtpPacket d.frame.length body.length [indicator, fuHeader]
  if isEnd fuHeader then endFragment { d with frame := f } else some { d with frame := f }

/-- A packet that is a NAL unit. Reference: `h264depacketizer.cpp:219`. -/
def addSingle (header : UInt8) (payload : List UInt8) : Option H264Depacketizer := do
  let f ← (checkIntra d.frame header).appendMedia (be4 payload.length)
  let pos := f.length
  let f ← f.appendMedia payload
  let f ← f.addRtpPacket pos payload.length []
  return { d with frame := f }

/-- The frame is returned. -/
def returned : Option VideoFrame × H264Depacketizer := (some d.frame, d)

/-- The payload is put into the frame, which is returned when the payload is of a type that is
taken. There is no value when a byte is read outside the payload, or written outside the frame or
the prefix of a packetization. Reference: `h264depacketizer.cpp:49`. -/
def addPayload (payload : List UInt8) : Option (Option VideoFrame × H264Depacketizer) :=
  match payload with
  | [] => some (none, d)
  | header :: rest =>
    match packetType header, rest with
    | .unsupported, _ => some (none, d)
    | .aggregate, _ => (d.addStapA (header :: rest)).map returned
    | .fragment, [] => none
    | .fragment, fuHeader :: body => (d.addFragment header fuHeader body).map returned
    | .single, _ => (d.addSingle header (header :: rest)).map returned

/-- The payloads of packets that come one after the other. -/
def addPayloads (d : H264Depacketizer) : List (List UInt8) → Option H264Depacketizer
  | [] => some d
  | payload :: payloads => do
    let (_, d) ← d.addPayload payload
    addPayloads d payloads

/-! ## What a payload needs -/

/-- The NAL units of an aggregate, if they are inside it. -/
def aggregates (payload : List UInt8) : Option (List (List UInt8)) :=
  match payload with
  | high :: low :: first :: rest => do
    let naluSize := high.toNat * 2 ^ 8 + low.toNat
    let nal ← slice (first :: rest) 0 naluSize
    let nals ← aggregates ((first :: rest).drop naluSize)
    return nal :: nals
  | _ => some []
termination_by payload.length
decreasing_by
  rw [List.length_drop]
  simp only [List.length_cons]
  omega

/-- A NAL unit in a frame: its length and the unit. -/
def lengthPrefixed (nal : List UInt8) : List (List UInt8) := [be4 nal.length, nal]

/-- What a fragment puts into the frame before its own bytes. -/
def startPieces (indicator fuHeader : UInt8) : List (List UInt8) :=
  if isStart fuHeader then [be4 1, [reconstruct indicator fuHeader]] else []

/-- What a payload puts into the frame, if what it says is in it is there. -/
def pieces (payload : List UInt8) : Option (List (List UInt8)) :=
  match payload with
  | [] => some []
  | header :: rest =>
    match packetType header, rest with
    | .unsupported, _ => some []
    | .aggregate, _ => (aggregates rest).map (List.flatMap lengthPrefixed)
    | .fragment, [] => none
    | .fragment, fuHeader :: body => some (startPieces header fuHeader ++ [body])
    | .single, _ => some (lengthPrefixed (header :: rest))

/-- An aggregate has to fit the prefix of a packetization. -/
def IsAggregate : List UInt8 → Prop
  | [] => False
  | header :: _ => packetType header = .aggregate

/-- The last fragment of a NAL unit, when it is not the first one too. -/
def EndsOnly : List UInt8 → Prop
  | header :: fuHeader :: _ =>
    packetType header = .fragment ∧ isEnd fuHeader ∧ ¬ isStart fuHeader
  | _ => False

/-- The first fragment of a NAL unit. -/
def Starts : List UInt8 → Prop
  | header :: fuHeader :: _ => packetType header = .fragment ∧ isStart fuHeader
  | _ => False

instance : DecidablePred IsAggregate
  | [] => isFalse not_false
  | _ :: _ => inferInstanceAs (Decidable (_ = _))

instance : DecidablePred EndsOnly
  | [] => isFalse not_false
  | [_] => isFalse not_false
  | _ :: _ :: _ => inferInstanceAs (Decidable (_ ∧ _))

/-- The payloads that are taken without a byte read outside the payload or written outside the frame
or a prefix. -/
def Safe (payload : List UInt8) : Prop :=
  (IsAggregate payload → payload.length ≤ 16) ∧ (EndsOnly payload → d.iniFragNALU.isSome) ∧
    ∃ data, pieces payload = some data ∧
      VideoFrame.CanAppend d.frame.buffer.length d.frame.length data

/-- The states of a depacketizer that has been given the payloads of packets and whose frame has
been reset in between. -/
inductive Reachable : H264Depacketizer → Prop
  | new : Reachable new
  | addPayload {d d' : H264Depacketizer} {r : Option VideoFrame} (payload : RTPPayload)
      (h : Reachable d) (hadd : d.addPayload payload.data = some (r, d')) : Reachable d'
  | resetFrame {d : H264Depacketizer} (h : Reachable d) : Reachable d.resetFrame

/-- The frame keeps its invariant, and the size of a fragmented NAL unit is written inside it. -/
structure Inv : Prop where
  frame : d.frame.Inv
  room : ∀ ini ∈ d.iniFragNALU, ini + 4 ≤ d.frame.buffer.length

variable {payload : List UInt8} {notes : List RtpPacketization} {payloads : List (List UInt8)}
  {data : List (List UInt8)}

section Lemmas

open VideoFrame

variable {d} {f : VideoFrame}

theorem checkIntra_eq (f : VideoFrame) (header : UInt8) :
    checkIntra f header = f ∨ checkIntra f header = f.setIntra := by
  rw [checkIntra]
  split
  · exact .inr rfl
  · exact .inl rfl

theorem inv_checkIntra (h : f.Inv) (header : UInt8) : (checkIntra f header).Inv := by
  rcases checkIntra_eq f header with heq | heq <;> rw [heq]
  · exact h
  · exact h.setIntra

@[simp]
theorem buffer_checkIntra (header : UInt8) : (checkIntra f header).buffer = f.buffer := by
  rcases checkIntra_eq f header with heq | heq <;> rw [heq]
  rfl

@[simp]
theorem length_checkIntra (header : UInt8) : (checkIntra f header).length = f.length := by
  rcases checkIntra_eq f header with heq | heq <;> rw [heq]
  rfl

theorem appended_of_checkIntra {f' : VideoFrame} {header : UInt8}
    (h : Appended (checkIntra f header) f' data notes) : Appended f f' data notes := by
  rcases checkIntra_eq f header with heq | heq <;> rw [heq] at h
  · exact h
  · exact h.setIntra_left

/-! ### Aggregates -/

theorem size_lt (high low : UInt8) : high.toNat * 2 ^ 8 + low.toNat < 2 ^ 16 := by
  have hhigh := high.toNat_lt
  have hlow := low.toNat_lt
  omega

theorem appended_of_addAggregate (h : f.Inv)
    {f' : VideoFrame} (hadd : addAggregate f payload = some f') :
    ∃ nals, aggregates payload = some nals ∧
      Appended f f' (nals.flatMap lengthPrefixed) [] := by
  fun_induction addAggregate f payload generalizing f' with
  | case1 f high low first rest naluSize ih =>
    simp only [Option.bind_eq_bind, Option.bind_eq_some_iff] at hadd
    obtain ⟨f₁, hf₁, nal, hnal, f₂, hf₂, hadd⟩ := hadd
    have hnaluSize : nal.length = naluSize := length_of_slice hnal
    have hlt := size_lt high low
    have hsize := appended_of_appendMedia (inv_checkIntra h first) (by simp) hf₁
    have hbody := appended_of_appendMedia hsize.inv (by omega) hf₂
    obtain ⟨nals, hnals, hrest⟩ := ih f₂ hbody.inv hadd
    refine ⟨nal :: nals, ?_, ?_⟩
    · rw [aggregates, hnal]
      simp only [Option.bind_eq_bind, Option.bind_some]
      rw [hnals]
      rfl
    · rw [List.flatMap_cons, lengthPrefixed, hnaluSize]
      exact (appended_of_checkIntra hsize).trans (hbody.trans hrest)
  | case2 f payload hshort =>
    obtain rfl := Option.some.inj hadd
    refine ⟨[], ?_, Appended.refl h⟩
    rw [aggregates]
    exact hshort

theorem isSome_addAggregate (h : f.Inv) : (addAggregate f payload).isSome ↔
      CanAppend f.buffer.length f.length (((aggregates payload).getD []).flatMap lengthPrefixed) ∧
        (aggregates payload).isSome := by
  fun_induction addAggregate f payload with
  | case1 f high low first rest naluSize ih =>
    rw [aggregates]
    have hlt := size_lt high low
    cases hnal : slice (first :: rest) 0 naluSize with
    | none =>
      refine iff_of_false ?_ (by simp)
      cases (checkIntra f first).appendMedia (be4 naluSize) <;> simp
    | some nal =>
      have hnaluSize : nal.length = naluSize := length_of_slice hnal
      have hstep := @isSome_appendMedia_bind (checkIntra f first) (be4 naluSize) _
        (fun f => f.appendMedia nal >>= fun f => addAggregate f ((first :: rest).drop naluSize))
        (aggregates ((first :: rest).drop naluSize)).isSome
        (nal :: ((aggregates ((first :: rest).drop naluSize)).getD []).flatMap lengthPrefixed)
        (inv_checkIntra h first) (by simp)
        (fun f₁ h₁ => isSome_appendMedia_bind h₁.inv (by omega) fun f₂ h₂ => ih f₂ h₂.inv)
      rw [buffer_checkIntra, length_checkIntra] at hstep
      simp only [Option.bind_eq_bind, Option.bind_some] at hstep ⊢
      rw [hstep]
      cases aggregates ((first :: rest).drop (high.toNat * 2 ^ 8 + low.toNat)) with
      | none => simp
      | some nals =>
        rw [Option.getD_some, Option.bind_some, Option.pure_def, Option.getD_some,
          List.flatMap_cons, lengthPrefixed, hnaluSize]
        exact Iff.rfl
  | case2 f payload hshort =>
    have hnone : aggregates payload = some [] := by
      rw [aggregates]
      exact hshort
    rw [hnone]
    exact iff_of_true rfl ⟨trivial, rfl⟩

/-! ### Fragments -/

theorem inv_of_appended (h : d.Inv) {f : VideoFrame} (happended : Appended d.frame f data notes) :
    Inv { d with frame := f } := by
  refine ⟨happended.inv, ?_⟩
  intro ini hini
  exact Nat.le_trans (h.room ini hini) happended.le_room

theorem startFragment_spec (h : d.Inv) {nalHeader : UInt8} {d' : H264Depacketizer}
    (hstart : d.startFragment nalHeader = some d') :
    d'.Inv ∧ Appended d.frame d'.frame [be4 1, [nalHeader]] [] ∧
      d'.iniFragNALU = some d.frame.length := by
  simp only [startFragment, Option.bind_eq_bind, Option.bind_eq_some_iff] at hstart
  obtain ⟨f₁, hf₁, f₂, hf₂, hd'⟩ := hstart
  obtain rfl := Option.some.inj hd'
  have hsize := appended_of_appendMedia (inv_checkIntra h.frame nalHeader) (by simp) hf₁
  have hheader := appended_of_appendMedia hsize.inv (by simp) hf₂
  have happended := (appended_of_checkIntra hsize).trans hheader
  refine ⟨⟨happended.inv, ?_⟩, happended, rfl⟩
  intro ini hini
  obtain rfl := Option.some.inj hini
  have hlength := happended.length
  have hle := happended.inv.length_le
  simp only [List.singleton_append, List.flatten_cons, List.length_append, length_be4,
    List.length_singleton, List.flatten_nil] at hlength
  show d.frame.length + 4 ≤ f₂.buffer.length
  omega

theorem isSome_startFragment (h : d.Inv) {nalHeader : UInt8} :
    (d.startFragment nalHeader).isSome ↔
      CanAppend d.frame.buffer.length d.frame.length [be4 1, [nalHeader]] := by
  have hstep := @isSome_appendMedia_bind (checkIntra d.frame nalHeader) (be4 1) _
    (fun f => f.appendMedia [nalHeader] >>= fun f => some (⟨f, some d.frame.length⟩ : H264Depacketizer))
    True [[nalHeader]] (inv_checkIntra h.frame nalHeader) (by simp)
    (fun f₁ h₁ => isSome_appendMedia_bind h₁.inv (by simp) fun f₂ _ => by simp [CanAppend])
  rw [buffer_checkIntra, length_checkIntra, and_true] at hstep
  exact hstep

theorem openFragment_spec (h : d.Inv) {indicator fuHeader : UInt8} {d' : H264Depacketizer}
    (hopen : d.openFragment indicator fuHeader = some d') :
    d'.Inv ∧ Appended d.frame d'.frame (startPieces indicator fuHeader) [] ∧
      d'.iniFragNALU = if isStart fuHeader then some d.frame.length else d.iniFragNALU := by
  rw [openFragment] at hopen
  by_cases hstart : isStart fuHeader = true
  · rw [if_pos hstart] at hopen
    rw [startPieces, if_pos hstart, if_pos hstart]
    exact startFragment_spec h hopen
  · rw [if_neg hstart] at hopen
    rw [startPieces, if_neg hstart, if_neg hstart]
    obtain rfl := Option.some.inj hopen
    exact ⟨h, Appended.refl h.frame, rfl⟩

theorem isSome_openFragment (h : d.Inv) {indicator fuHeader : UInt8} :
    (d.openFragment indicator fuHeader).isSome ↔
      CanAppend d.frame.buffer.length d.frame.length (startPieces indicator fuHeader) := by
  rw [openFragment, startPieces]
  by_cases hstart : isStart fuHeader = true
  · rw [if_pos hstart, if_pos hstart]
    exact isSome_startFragment h
  · rw [if_neg hstart, if_neg hstart]
    exact iff_of_true rfl trivial

theorem isSome_endFragment (h : d.Inv) : d.endFragment.isSome ↔ d.iniFragNALU.isSome := by
  rw [endFragment]
  cases hini : d.iniFragNALU with
  | none => simp
  | some ini =>
    have hroom := h.room ini (by rw [hini]; rfl)
    have hput := @putAt_eq_some ini (be4 (dwordSub (dwordSub d.frame.length ini) 4))
      d.frame.buffer (by rw [length_be4]; exact hroom)
    simp only [Option.bind_eq_bind, Option.bind_some, hput]
    exact iff_of_true rfl rfl

theorem endFragment_spec {d' : H264Depacketizer} (hend : d.endFragment = some d') :
    ∃ ini buffer, d.iniFragNALU = some ini ∧
      putAt ini (be4 (dwordSub (dwordSub d.frame.length ini) 4)) d.frame.buffer = some buffer ∧
        d' = { d with frame := { d.frame with buffer := buffer } } := by
  simp only [endFragment, Option.bind_eq_bind, Option.bind_eq_some_iff] at hend
  obtain ⟨ini, hini, buffer, hbuffer, hd'⟩ := hend
  exact ⟨ini, buffer, hini, hbuffer, (Option.some.inj hd').symm⟩

theorem inv_endFragment (h : d.Inv) {d' : H264Depacketizer} (hend : d.endFragment = some d') :
    d'.Inv ∧ d'.frame.buffer.length = d.frame.buffer.length := by
  obtain ⟨ini, buffer, -, hbuffer, rfl⟩ := endFragment_spec hend
  have hlength := length_of_putAt hbuffer
  refine ⟨⟨⟨?_, ?_⟩, ?_⟩, hlength⟩
  · exact hlength ▸ h.frame.length_le
  · exact hlength ▸ h.frame.size_lt
  · exact hlength ▸ h.room

theorem addFragment_spec (h : d.Inv) {indicator fuHeader : UInt8} {body : List UInt8}
    (hbody : body.length < 2 ^ 31) {d' : H264Depacketizer}
    (hadd : d.addFragment indicator fuHeader body = some d') :
    ∃ d₁ : H264Depacketizer, ∃ hle, d₁.Inv ∧
      Appended d.frame d₁.frame (startPieces indicator fuHeader ++ [body])
        [⟨d.frame.length + (startPieces indicator fuHeader).flatten.length, body.length,
          [indicator, fuHeader], hle⟩] ∧
      d₁.iniFragNALU = (if isStart fuHeader then some d.frame.length else d.iniFragNALU) ∧
      (if isEnd fuHeader then d₁.endFragment else some d₁) = some d' := by
  simp only [addFragment, Option.bind_eq_bind, Option.bind_eq_some_iff] at hadd
  obtain ⟨d₁, hd₁, f₁, hf₁, f₂, hf₂, hd'⟩ := hadd
  obtain ⟨hinv, happended, hini⟩ := openFragment_spec h hd₁
  have hmedia := appended_of_appendMedia hinv.frame hbody hf₁
  obtain ⟨hle, hnote⟩ := appended_of_addRtpPacket hmedia.inv hf₂
  rw [happended.length] at hnote
  have hall := happended.trans (hmedia.trans hnote)
  exact ⟨{ d₁ with frame := f₂ }, hle, inv_of_appended hinv (hmedia.trans hnote), hall, hini, hd'⟩

theorem isSome_addFragment (h : d.Inv) {indicator fuHeader : UInt8} {body : List UInt8}
    (hbody : body.length < 2 ^ 31) :
    (d.addFragment indicator fuHeader body).isSome ↔
      (isEnd fuHeader ∧ ¬ isStart fuHeader → d.iniFragNALU.isSome) ∧
        CanAppend d.frame.buffer.length d.frame.length
          (startPieces indicator fuHeader ++ [body]) := by
  rw [addFragment]
  cases hopen : d.openFragment indicator fuHeader with
  | none =>
    have hno : ¬ CanAppend d.frame.buffer.length d.frame.length
        (startPieces indicator fuHeader) := by
      rw [← isSome_openFragment h, hopen]
      simp
    refine iff_of_false (by simp) ?_
    intro hcan
    exact hno ((canAppend_append _ _).1 hcan.2).1
  | some d₁ =>
    obtain ⟨hinv, happended, hini⟩ := openFragment_spec h hopen
    have hcan := (isSome_openFragment h).1 (by rw [hopen]; rfl)
    have hneeds : (isEnd fuHeader ∧ ¬ isStart fuHeader → d.iniFragNALU.isSome) ↔
        (isEnd fuHeader → d₁.iniFragNALU.isSome) := by
      rw [hini]
      by_cases hstart : isStart fuHeader = true <;> simp [hstart]
    rw [Option.bind_eq_bind, Option.bind_some, happended.canAppend, and_iff_right hcan, hneeds,
      and_comm]
    refine isSome_appendMedia_bind hinv.frame hbody ?_
    intro f₁ h₁
    have hnote := (@isSome_addRtpPacket f₁ d₁.frame.length body.length [indicator, fuHeader]).2
      (by simp)
    obtain ⟨f₂, hf₂⟩ := Option.isSome_iff_exists.1 hnote
    obtain ⟨hle, h₂⟩ := appended_of_addRtpPacket h₁.inv hf₂
    rw [hf₂, Option.bind_eq_bind, Option.bind_some]
    have hinv₂ := inv_of_appended hinv (h₁.trans h₂)
    by_cases hend : isEnd fuHeader = true
    · rw [if_pos hend, isSome_endFragment hinv₂]
      simp [hend, CanAppend]
    · rw [if_neg hend]
      simp [hend, CanAppend]

/-! ### A NAL unit in a packet -/

theorem addSingle_spec (h : d.Inv) {header : UInt8}
    (hlen : payload.length < 2 ^ 31) {d' : H264Depacketizer}
    (hadd : d.addSingle header payload = some d') :
    ∃ hle, d'.Inv ∧ Appended d.frame d'.frame (lengthPrefixed payload)
      [⟨d.frame.length + 4, payload.length, [], hle⟩] ∧ d'.iniFragNALU = d.iniFragNALU := by
  simp only [addSingle, Option.bind_eq_bind, Option.bind_eq_some_iff] at hadd
  obtain ⟨f₁, hf₁, f₂, hf₂, f₃, hf₃, hd'⟩ := hadd
  obtain rfl := Option.some.inj hd'
  have hsize := appended_of_checkIntra
    (appended_of_appendMedia (inv_checkIntra h.frame header) (by simp) hf₁)
  have hbody := appended_of_appendMedia hsize.inv hlen hf₂
  obtain ⟨hle, hnote⟩ := appended_of_addRtpPacket hbody.inv hf₃
  have hpos : f₁.length = d.frame.length + 4 := by
    rw [hsize.length, List.flatten_singleton, length_be4]
  rw [hpos] at hnote
  have hall := hsize.trans (hbody.trans hnote)
  exact ⟨hle, inv_of_appended h hall, hall, rfl⟩

theorem isSome_addSingle (h : d.Inv) {header : UInt8} (hlen : payload.length < 2 ^ 31) :
    (d.addSingle header payload).isSome ↔
      CanAppend d.frame.buffer.length d.frame.length (lengthPrefixed payload) := by
  have hstep := @isSome_appendMedia_bind (checkIntra d.frame header) (be4 payload.length) _
    (fun f₁ => f₁.appendMedia payload >>= fun f₂ =>
      f₂.addRtpPacket f₁.length payload.length [] >>= fun f => some { d with frame := f })
    True [payload] (inv_checkIntra h.frame header) (by simp)
    (fun f₁ h₁ => isSome_appendMedia_bind h₁.inv hlen fun f₂ _ => by
      simp [CanAppend, addRtpPacket, RtpPacketization.new])
  rw [buffer_checkIntra, length_checkIntra, and_true] at hstep
  exact hstep

/-! ### Payloads -/

/-- What a payload does to the sizes that decide whether the next one is safe. -/
structure Stepped (d d' : H264Depacketizer) (payload : List UInt8) (data : List (List UInt8)) :
    Prop where
  inv : d'.Inv
  length : d'.frame.length = d.frame.length + data.flatten.length
  room : d'.frame.buffer.length = roomAfter d.frame.buffer.length d.frame.length data
  ini : d.iniFragNALU.isSome ∨ Starts payload → d'.iniFragNALU.isSome

theorem Stepped.of_appended {d' : H264Depacketizer} (hinv : d'.Inv)
    (h : Appended d.frame d'.frame data notes)
    (hini : d.iniFragNALU.isSome ∨ Starts payload → d'.iniFragNALU.isSome) :
    Stepped d d' payload data :=
  ⟨hinv, h.length, h.room, hini⟩

theorem isSome_addStapA (h : d.Inv) : (d.addStapA payload).isSome ↔ payload.length ≤ 16 ∧
      ∃ nals, aggregates payload.tail = some nals ∧
        CanAppend d.frame.buffer.length d.frame.length (nals.flatMap lengthPrefixed) := by
  rw [addStapA, ← @isSome_addRtpPacket d.frame 0 0]
  cases hnote : d.frame.addRtpPacket 0 0 payload with
  | none => simp
  | some f =>
    obtain ⟨hle, happended⟩ := appended_of_addRtpPacket h.frame hnote
    have hstep := @isSome_addAggregate payload.tail f happended.inv
    have hisSome : (addAggregate f payload.tail >>= fun f =>
        some { d with frame := f }).isSome = (addAggregate f payload.tail).isSome := by
      cases addAggregate f payload.tail <;> rfl
    rw [happended.room, happended.length] at hstep
    rw [Option.bind_eq_bind, Option.bind_some]
    refine (iff_of_eq (congrArg (· = true) hisSome)).trans (hstep.trans ?_)
    cases aggregates payload.tail <;> simp [roomAfter]

theorem addStapA_spec (h : d.Inv) {d' : H264Depacketizer} (hadd : d.addStapA payload = some d') :
    ∃ nals hle, aggregates payload.tail = some nals ∧ d'.Inv ∧
      Appended d.frame d'.frame (nals.flatMap lengthPrefixed) [⟨0, 0, payload, hle⟩] ∧
      d'.iniFragNALU = d.iniFragNALU := by
  simp only [addStapA, Option.bind_eq_bind, Option.bind_eq_some_iff] at hadd
  obtain ⟨f₁, hf₁, f₂, hf₂, hd'⟩ := hadd
  obtain rfl := Option.some.inj hd'
  obtain ⟨hle, hnote⟩ := appended_of_addRtpPacket h.frame hf₁
  obtain ⟨nals, hnals, hmedia⟩ := appended_of_addAggregate hnote.inv hf₂
  have hall := hnote.trans hmedia
  exact ⟨nals, hle, hnals, inv_of_appended h hall, hall, rfl⟩

attribute [local simp] addPayload pieces in
theorem isSome_addPayload (h : d.Inv) (hlen : payload.length < 2 ^ 31) :
    (d.addPayload payload).isSome ↔ d.Safe payload := by
  rw [Safe]
  cases payload with
  | nil => simp [IsAggregate, EndsOnly, CanAppend]
  | cons header rest =>
    cases htype : packetType header with
    | unsupported => cases rest <;> simp [IsAggregate, EndsOnly, CanAppend, htype]
    | aggregate =>
      have hends : ¬ EndsOnly (header :: rest) := by cases rest <;> simp [EndsOnly, htype]
      have hadd : (d.addPayload (header :: rest)).isSome = (d.addStapA (header :: rest)).isSome := by
        simp [htype]
      rw [hadd, isSome_addStapA h]
      simp [hends, IsAggregate, htype]
    | fragment =>
      cases rest with
      | nil => simp [htype]
      | cons fuHeader body =>
        have hadd : (d.addPayload (header :: fuHeader :: body)).isSome =
            (d.addFragment header fuHeader body).isSome := by
          simp [htype]
        simp only [List.length_cons] at hlen
        rw [hadd, isSome_addFragment h (by omega)]
        simp [IsAggregate, EndsOnly, htype]
    | single =>
      have hadd : (d.addPayload (header :: rest)).isSome =
          (d.addSingle header (header :: rest)).isSome := by
        simp [htype]
      rw [hadd, isSome_addSingle h hlen]
      cases rest <;> simp [IsAggregate, EndsOnly, htype]

theorem of_returned {x : Option H264Depacketizer} {d' : H264Depacketizer} {r : Option VideoFrame}
    (h : x.map returned = some (r, d')) : x = some d' := by
  rw [Option.map_eq_some_iff] at h
  obtain ⟨d₁, hd₁, hreturned⟩ := h
  rw [hd₁, ← (Prod.mk.inj hreturned).2]

theorem stepped_of_addPayload (h : d.Inv) (hlen : payload.length < 2 ^ 31)
    {d' : H264Depacketizer} {r : Option VideoFrame} (hadd : d.addPayload payload = some (r, d')) :
    ∃ data, pieces payload = some data ∧ Stepped d d' payload data := by
  cases payload with
  | nil =>
    obtain ⟨-, rfl⟩ := Prod.mk.inj (Option.some.inj hadd)
    exact ⟨[], rfl, .of_appended h (.refl h.frame) (by simp [Starts])⟩
  | cons header rest =>
    have hnot (hne : packetType header ≠ .fragment) : ¬ Starts (header :: rest) := by
      cases rest <;> simp [Starts, hne]
    cases htype : packetType header with
    | unsupported =>
      have hd' : d = d' := by
        simp only [addPayload, htype] at hadd
        exact (Prod.mk.inj (Option.some.inj hadd)).2
      rw [← hd']
      have hstarts := hnot (by simp [htype])
      exact ⟨[], by simp [pieces, htype], .of_appended h (.refl h.frame) (by simp [hstarts])⟩
    | aggregate =>
      simp only [addPayload, htype] at hadd
      obtain ⟨nals, hle, hnals, hinv, happended, hini⟩ := addStapA_spec h (of_returned hadd)
      have hstarts := hnot (by simp [htype])
      refine ⟨nals.flatMap lengthPrefixed, ?_, .of_appended hinv happended (by simp [hini, hstarts])⟩
      simp only [pieces, htype]
      exact congrArg (Option.map _) hnals
    | fragment =>
      cases rest with
      | nil => simp [addPayload, htype] at hadd
      | cons fuHeader body =>
        simp only [addPayload, htype] at hadd
        simp only [List.length_cons] at hlen
        obtain ⟨d₁, hle, hinv, happended, hini, hend⟩ :=
          addFragment_spec h (by omega) (of_returned hadd)
        have hkeeps : d.iniFragNALU.isSome ∨ Starts (header :: fuHeader :: body) →
            d₁.iniFragNALU.isSome := by
          rw [hini, Starts]
          split <;> simp_all
        refine ⟨startPieces header fuHeader ++ [body], by simp only [pieces, htype], ?_⟩
        by_cases hisEnd : isEnd fuHeader = true
        · rw [if_pos hisEnd] at hend
          obtain ⟨hinv', hroom⟩ := inv_endFragment hinv hend
          obtain ⟨ini, buffer, -, -, rfl⟩ := endFragment_spec hend
          exact ⟨hinv', happended.length, hroom.trans happended.room, hkeeps⟩
        · rw [if_neg hisEnd] at hend
          obtain rfl := Option.some.inj hend
          exact .of_appended hinv happended hkeeps
    | single =>
      simp only [addPayload, htype] at hadd
      obtain ⟨hle, hinv, happended, hini⟩ := addSingle_spec h hlen (of_returned hadd)
      refine ⟨lengthPrefixed (header :: rest), by simp only [pieces, htype], ?_⟩
      have hstarts := hnot (by simp [htype])
      exact .of_appended hinv happended (by simp [hini, hstarts])

/-! ## Sequences of payloads -/

/-- Payloads that say nothing that is not there: what they contain is inside them, and the last
fragment of a NAL unit comes after a first one. -/
def Ready : (started : Prop) → List (List UInt8) → Prop
  | _, [] => True
  | started, payload :: payloads =>
    (pieces payload).isSome ∧ (EndsOnly payload → started) ∧
      Ready (started ∨ Starts payload) payloads

theorem Ready.mono {started started' : Prop} (hstarted : started → started')
    (h : Ready started payloads) : Ready started' payloads := by
  induction payloads generalizing started started' with
  | nil => trivial
  | cons payload payloads ih =>
    obtain ⟨hpieces, hends, hrest⟩ := h
    exact ⟨hpieces, fun h => hstarted (hends h), ih (Or.imp_left hstarted) hrest⟩

/-- What payloads put into the frame. -/
def allPieces (payloads : List (List UInt8)) : List (List UInt8) :=
  payloads.flatMap fun payload => (pieces payload).getD []

theorem isSome_addPayloads (h : d.Inv) (hlen : ∀ payload ∈ payloads, payload.length < 2 ^ 31)
    (hready : Ready d.iniFragNALU.isSome payloads) :
    (d.addPayloads payloads).isSome ↔
      (∀ payload ∈ payloads, IsAggregate payload → payload.length ≤ 16) ∧
        CanAppend d.frame.buffer.length d.frame.length (allPieces payloads) := by
  induction payloads generalizing d with
  | nil => simp [addPayloads, allPieces, CanAppend]
  | cons payload payloads ih =>
    obtain ⟨hpieces, hends, hready⟩ := hready
    rw [List.forall_mem_cons] at hlen
    obtain ⟨data, hdata⟩ := Option.isSome_iff_exists.1 hpieces
    have hall : allPieces (payload :: payloads) = data ++ allPieces payloads := by
      rw [allPieces, List.flatMap_cons, hdata]
      rfl
    have hsafe : d.Safe payload ↔ (IsAggregate payload → payload.length ≤ 16) ∧
        CanAppend d.frame.buffer.length d.frame.length data := by
      constructor
      · rintro ⟨hsmall, -, data', hdata', hcan⟩
        obtain rfl := Option.some.inj (hdata.symm.trans hdata')
        exact ⟨hsmall, hcan⟩
      · rintro ⟨hsmall, hcan⟩
        exact ⟨hsmall, hends, data, hdata, hcan⟩
    rw [addPayloads, List.forall_mem_cons, hall, canAppend_append]
    rw [← isSome_addPayload h hlen.1] at hsafe
    cases hadd : d.addPayload payload with
    | none =>
      rw [hadd] at hsafe
      refine iff_of_false (by simp) ?_
      rintro ⟨⟨hsmall, -⟩, hcan, -⟩
      exact absurd (hsafe.2 ⟨hsmall, hcan⟩) (by simp)
    | some result =>
      obtain ⟨r, d'⟩ := result
      obtain ⟨data', hdata', hstep⟩ := stepped_of_addPayload h hlen.1 hadd
      obtain rfl := Option.some.inj (hdata.symm.trans hdata')
      obtain ⟨hsmall, hcan⟩ := hsafe.1 (by rw [hadd]; rfl)
      have hrest := ih hstep.inv hlen.2 (hready.mono hstep.ini)
      rw [hstep.room, hstep.length] at hrest
      rw [Option.bind_eq_bind, Option.bind_some, hrest, and_iff_right hsmall, and_iff_right hcan]

theorem addPayloads_cons
    {d' : H264Depacketizer} (hadd : d.addPayloads (payload :: payloads) = some d') :
    ∃ d₁ r, d.addPayload payload = some (r, d₁) ∧ d₁.addPayloads payloads = some d' := by
  simp only [addPayloads, Option.bind_eq_bind, Option.bind_eq_some_iff] at hadd
  obtain ⟨⟨r, d₁⟩, hd₁, hrest⟩ := hadd
  exact ⟨d₁, r, hd₁, hrest⟩

section Kinds

variable {header fuHeader : UInt8} {body : List UInt8} {d' : H264Depacketizer}
  {r : Option VideoFrame}

theorem addStapA_of_addPayload (htype : packetType header = .aggregate)
    (hadd : d.addPayload (header :: body) = some (r, d')) :
    d.addStapA (header :: body) = some d' := by
  simp only [addPayload, htype] at hadd
  exact of_returned hadd

theorem addFragment_of_addPayload (htype : packetType header = .fragment)
    (hadd : d.addPayload (header :: fuHeader :: body) = some (r, d')) :
    d.addFragment header fuHeader body = some d' := by
  simp only [addPayload, htype] at hadd
  exact of_returned hadd

theorem addSingle_of_addPayload (htype : packetType header = .single)
    (hadd : d.addPayload (header :: body) = some (r, d')) :
    d.addSingle header (header :: body) = some d' := by
  simp only [addPayload, htype] at hadd
  exact of_returned hadd

end Kinds

theorem Inv.new : new.Inv := by
  refine ⟨⟨Nat.zero_le _, by decide⟩, ?_⟩
  intro ini hini
  cases hini

theorem Inv.resetFrame (h : d.Inv) : d.resetFrame.Inv := by
  have hlength : d.resetFrame.frame.buffer.length = d.frame.buffer.length := List.length_replicate
  refine ⟨⟨Nat.zero_le _, ?_⟩, ?_⟩
  · rw [hlength]
    exact h.frame.size_lt
  · rw [hlength]
    exact h.room

theorem Reachable.inv (h : d.Reachable) : d.Inv := by
  induction h with
  | new => exact .new
  | addPayload payload _ hadd ih =>
    obtain ⟨data, -, hstep⟩ := stepped_of_addPayload ih payload.length_lt hadd
    exact hstep.inv
  | resetFrame _ ih => exact ih.resetFrame

end Lemmas

end H264Depacketizer

end McuMediaServer
