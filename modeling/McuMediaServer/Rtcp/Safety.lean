import McuMediaServer.Rtcp.Compound

/-!
# The reads of the RTCP parsers

For which datagrams every read of the parsers stays inside. The loops over reports, fields, items
and descriptions test the size before they read; the reads before and outside these loops do not,
so it is the fixed part of each packet that decides, except where a field reads one byte too many.
That a parser has a value says also that its loops end.
-/

namespace McuMediaServer

open ByteSeq ByteParser

/-! ## The loops -/

section Loops

variable {data : List UInt8} {size : Nat}

theorem RtcpCommon.isSome_read : (RtcpCommon.read data).isSome ↔ 4 ≤ data.length := by
  constructor
  · intro h
    obtain ⟨header, h⟩ := Option.isSome_iff_exists.1 h
    simp only [read, Option.bind_eq_bind, Option.bind_eq_some_iff] at h
    obtain ⟨_, -, _, -, length, hlength, -⟩ := h
    exact (isSome_get2 data 2).1 (Option.isSome_of_eq_some hlength)
  · intro h
    refine isSome_bind ((isSome_get1 data 0).2 (by omega)) fun first => ?_
    refine isSome_bind ((isSome_get1 data 1).2 (by omega)) fun pt => ?_
    exact isSome_bind ((isSome_get2 data 2).2 (by omega)) fun length => rfl

theorem isSome_getWords (count : Nat) :
    (getWords count data).isSome ↔ 4 * count ≤ data.length := by
  induction count generalizing data with
  | zero => simp [getWords]
  | succ count ih =>
    constructor
    · intro h
      obtain ⟨words, h⟩ := Option.isSome_iff_exists.1 h
      simp only [getWords, Option.bind_eq_bind, Option.bind_eq_some_iff] at h
      obtain ⟨word, hword, words', hwords, -⟩ := h
      have h0 := (isSome_get4 data 0).1 (Option.isSome_of_eq_some hword)
      have hrest := ih.1 (Option.isSome_of_eq_some hwords)
      rw [List.length_drop] at hrest
      omega
    · intro h
      refine isSome_bind ((isSome_get4 data 0).2 (by omega)) fun word => ?_
      refine isSome_bind (ih.2 ?_) fun words => rfl
      rw [List.length_drop]
      omega

theorem Octets.isSome_read (n i : Nat) : (Octets.read n data i).isSome ↔ i + n ≤ data.length := by
  unfold Octets.read
  split <;> simp_all

theorem RTCPReport.isSome_parseReports (count : Nat) (h : size ≤ data.length) :
    (parseReports count data size).isSome := by
  induction count generalizing data size with
  | zero => rfl
  | succ count ih =>
    rw [parseReports, parse]
    split
    · rfl
    case isFalse hsize =>
      have hread : (Octets.read 24 data 0).isSome := (Octets.isSome_read 24 0).2 (by omega)
      obtain ⟨buffer, hbuffer⟩ := Option.isSome_iff_exists.1 hread
      have hrest : (parseReports count (data.drop 24) (size - 24)).isSome := by
        refine ih ?_
        rw [List.length_drop]
        omega
      rw [hbuffer]
      change ((parseReports count (data.drop 24) (size - 24)) >>= _).isSome
      exact isSome_bind hrest fun reports => rfl

theorem RTCPSDES.Description.isSome_parseItems {fuel : Nat} (hfuel : size < fuel)
    (h : size ≤ data.length) : (parseItems fuel data size).isSome := by
  induction fuel generalizing data size with
  | zero => exact absurd hfuel (Nat.not_lt_zero _)
  | succ fuel ih =>
    rw [parseItems]
    split
    · rfl
    case isFalse hsize =>
      refine isSome_bind ((isSome_get1 data 0).2 (by omega)) fun type => ?_
      split
      · rfl
      · obtain ⟨length, hlength⟩ := Option.isSome_iff_exists.1
          ((isSome_get1 data 1).2 (by omega))
        rw [hlength]
        change Option.isSome (if _ then _ else _)
        split
        · rfl
        · refine isSome_bind (Payload.isSome_read (by omega) (get1_lt hlength)) fun payload => ?_
          have hrest : (parseItems fuel (data.drop (2 + length)) (size - (2 + length))).isSome := by
            refine ih (by omega) ?_
            rw [List.length_drop]
            omega
          obtain ⟨r, hr⟩ := Option.isSome_iff_exists.1 hrest
          rw [hr]
          cases r <;> rfl

theorem RTCPSDES.Description.isSome_parse (h : size ≤ data.length) :
    (parse data size).isSome := by
  unfold parse
  split
  · rfl
  · refine isSome_bind ((isSome_get4 data 0).2 (by omega)) fun ssrc => ?_
    have hitems : (parseItems (size + 1) (data.drop 4) (size - 4)).isSome := by
      refine isSome_parseItems (by omega) ?_
      rw [List.length_drop]
      omega
    obtain ⟨r, hr⟩ := Option.isSome_iff_exists.1 hitems
    rw [hr]
    cases r <;> rfl

end Loops

/-! ## The parsers of each packet -/

section Packets

variable {data : List UInt8} {size : Nat} {header : RtcpCommon}

theorem RTCPSenderReport.isSome_parse_iff (hread : RtcpCommon.read data = some header)
    (hle : header.headerLength ≤ size) (hlen : size ≤ data.length) :
    (parse data size).isSome ↔ 28 ≤ data.length := by
  rw [parse, hread]
  simp only [Option.bind_eq_bind, Option.bind_some, if_neg (Nat.not_lt.2 hle)]
  constructor
  · intro h
    obtain ⟨r, h⟩ := Option.isSome_iff_exists.1 h
    simp only [Option.bind_eq_some_iff] at h
    obtain ⟨_, -, _, -, _, -, _, -, _, -, octects, hoctects, -⟩ := h
    exact (isSome_get4 data 24).1 (Option.isSome_of_eq_some hoctects)
  · intro h
    refine isSome_bind ((isSome_get4 data 4).2 (by omega)) fun ssrc => ?_
    refine isSome_bind ((isSome_get4 data 8).2 (by omega)) fun ntpSec => ?_
    refine isSome_bind ((isSome_get4 data 12).2 (by omega)) fun ntpFrac => ?_
    refine isSome_bind ((isSome_get4 data 16).2 (by omega)) fun rtpTimestamp => ?_
    refine isSome_bind ((isSome_get4 data 20).2 (by omega)) fun packetsSent => ?_
    refine isSome_bind ((isSome_get4 data 24).2 (by omega)) fun octectsSent => ?_
    refine isSome_bind (RTCPReport.isSome_parseReports _ ?_) fun reports => rfl
    rw [List.length_drop]
    omega

theorem RTCPReceiverReport.isSome_parse_iff (hread : RtcpCommon.read data = some header)
    (hle : header.headerLength ≤ size) (hlen : size ≤ data.length) :
    (parse data size).isSome ↔ 8 ≤ data.length := by
  rw [parse, hread]
  simp only [Option.bind_eq_bind, Option.bind_some, if_neg (Nat.not_lt.2 hle)]
  constructor
  · intro h
    exact (isSome_get4 data 4).1 (isSome_of_bind h)
  · intro h
    refine isSome_bind ((isSome_get4 data 4).2 (by omega)) fun ssrc => ?_
    refine isSome_bind (RTCPReport.isSome_parseReports _ ?_) fun reports => rfl
    rw [List.length_drop]
    omega

theorem RTCPSDES.isSome_parse (hread : RtcpCommon.read data = some header)
    (hlen : size ≤ data.length) : (parse data size).isSome := by
  rw [parse, hread]
  simp only [Option.bind_eq_bind, Option.bind_some]
  split
  · rfl
  · split
    · rfl
    · have h4 := RtcpCommon.isSome_read.1 (Option.isSome_of_eq_some hread)
      have hall : (parseAll Description.parse size (data.drop 4) (size - 4)).isSome := by
        have hparse (data : List UInt8) (size : Nat) (h : size + 0 ≤ data.length) :
            (Description.parse data size).isSome := Description.isSome_parse h
        refine isSome_parseAll hparse (by omega) ?_
        rw [List.length_drop]
        omega
      obtain ⟨r, hr⟩ := Option.isSome_iff_exists.1 hall
      rw [hr]
      cases r <;> rfl

theorem RTCPBye.isSome_parse_iff (hread : RtcpCommon.read data = some header)
    (hle : header.headerLength ≤ size) (hlen : size ≤ data.length) :
    (parse data size).isSome ↔ 4 + 4 * header.count ≤ data.length ∧
      (4 + 4 * header.count < header.headerLength → ∀ n,
        get1 data (4 + 4 * header.count) = some n →
          4 + 4 * header.count + 1 + n ≤ data.length) := by
  have h4 := RtcpCommon.isSome_read.1 (Option.isSome_of_eq_some hread)
  have hwords : (getWords header.count (data.drop 4)).isSome ↔
      4 * header.count ≤ data.length - 4 := by
    rw [isSome_getWords, List.length_drop]
  rw [parse, hread]
  simp only [Option.bind_eq_bind, Option.bind_some, if_neg (Nat.not_lt.2 hle)]
  constructor
  · intro h
    refine ⟨by have := hwords.1 (isSome_of_bind h); omega, fun hreason n hn => ?_⟩
    obtain ⟨r, h⟩ := Option.isSome_iff_exists.1 h
    simp only [Option.bind_eq_some_iff, if_pos hreason, hn, Option.some.injEq] at h
    obtain ⟨_, -, _, rfl, reason, hslice, -⟩ := h
    exact (isSome_slice data _ _).1 (Option.isSome_of_eq_some hslice)
  · intro ⟨hcount, hreason⟩
    refine isSome_bind (hwords.2 (by omega)) fun ssrcs => ?_
    split
    case isTrue hlt =>
      obtain ⟨n, hn⟩ := Option.isSome_iff_exists.1
        ((isSome_get1 data (4 + 4 * header.count)).2 (by omega))
      rw [hn, Option.bind_some]
      exact isSome_bind ((isSome_slice data _ _).2 (hreason hlt n hn)) fun reason => rfl
    case isFalse => rfl

theorem RTCPExtendedJitterReport.isSome_parse_iff (hread : RtcpCommon.read data = some header)
    (hle : header.headerLength ≤ size) :
    (parse data size).isSome ↔ 4 + 4 * header.count ≤ data.length := by
  have h4 := RtcpCommon.isSome_read.1 (Option.isSome_of_eq_some hread)
  have hwords : (getWords header.count (data.drop 4)).isSome ↔
      4 * header.count ≤ data.length - 4 := by
    rw [isSome_getWords, List.length_drop]
  rw [parse, hread]
  simp only [Option.bind_eq_bind, Option.bind_some, if_neg (Nat.not_lt.2 hle)]
  constructor
  · intro h
    have := hwords.1 (isSome_of_bind h)
    omega
  · intro h
    exact isSome_bind (hwords.2 (by omega)) fun jitters => rfl

theorem RTCPApp.isSome_parse_iff (hread : RtcpCommon.read data = some header)
    (hle : header.headerLength ≤ size) (hlen : size ≤ data.length)
    (hdata : data.length < 2 ^ 32) : (parse data size).isSome ↔ 12 ≤ header.headerLength := by
  have hpos : 4 ≤ header.headerLength := by
    rw [RtcpCommon.headerLength]
    omega
  rw [parse, hread]
  simp only [Option.bind_eq_bind, Option.bind_some, if_neg (Nat.not_lt.2 hle)]
  constructor
  · intro h
    obtain ⟨r, h⟩ := Option.isSome_iff_exists.1 h
    simp only [Option.bind_eq_some_iff] at h
    obtain ⟨_, -, _, -, payload, hslice, -⟩ := h
    have hfit := (isSome_slice data _ _).1 (Option.isSome_of_eq_some hslice)
    refine Nat.not_lt.1 fun hlt => ?_
    rw [dwordSub, if_neg (by omega)] at hfit
    omega
  · intro h
    refine isSome_bind ((isSome_get4 data 4).2 (by omega)) fun ssrc => ?_
    refine isSome_bind ((Octets.isSome_read 4 8).2 (by omega)) fun name => ?_
    refine isSome_bind ((isSome_slice data _ _).2 ?_) fun payload => rfl
    rw [dwordSub, if_pos h]
    omega

theorem RTCPFullIntraRequest.isSome_parse_iff (hread : RtcpCommon.read data = some header)
    (hle : header.headerLength ≤ size) : (parse data size).isSome ↔ 8 ≤ data.length := by
  rw [parse, hread]
  simp only [Option.bind_eq_bind, Option.bind_some, if_neg (Nat.not_lt.2 hle)]
  constructor
  · intro h
    exact (isSome_get4 data 4).1 (isSome_of_bind h)
  · intro h
    exact isSome_bind ((isSome_get4 data 4).2 (by omega)) fun ssrc => rfl

theorem RTCPNACK.isSome_parse_iff (hread : RtcpCommon.read data = some header)
    (hle : header.headerLength ≤ size) : (parse data size).isSome ↔ 10 ≤ data.length := by
  rw [parse, hread]
  simp only [Option.bind_eq_bind, Option.bind_some, if_neg (Nat.not_lt.2 hle)]
  constructor
  · intro h
    obtain ⟨r, h⟩ := Option.isSome_iff_exists.1 h
    simp only [Option.bind_eq_some_iff] at h
    obtain ⟨_, -, fsn, hfsn, -⟩ := h
    exact (isSome_get2 data 8).1 (Option.isSome_of_eq_some hfsn)
  · intro h
    refine isSome_bind ((isSome_get4 data 4).2 (by omega)) fun ssrc => ?_
    refine isSome_bind ((isSome_get2 data 8).2 (by omega)) fun fsn => ?_
    exact isSome_bind ((isSome_get2 data 6).2 (by omega)) fun blp => rfl

theorem Feedback.isSome_parse_iff {F : Type} [FeedbackField F] {spare : Nat}
    (hread : RtcpCommon.read data = some header) (hle : header.headerLength ≤ size) (hspare : 12 < header.headerLength →
      header.headerLength + spare ≤ data.length)
    (hF : ∀ data size, size + spare ≤ data.length →
      (FeedbackField.parse (F := F) header.count data size).isSome) :
    (parse (F := F) data size).isSome ↔ 12 ≤ data.length := by
  rw [parse, hread]
  simp only [Option.bind_eq_bind, Option.bind_some, if_neg (Nat.not_lt.2 hle)]
  constructor
  · intro h
    obtain ⟨r, h⟩ := Option.isSome_iff_exists.1 h
    simp only [Option.bind_eq_some_iff] at h
    obtain ⟨_, -, media, hmedia, -⟩ := h
    exact (isSome_get4 data 8).1 (Option.isSome_of_eq_some hmedia)
  · intro h
    refine isSome_bind ((isSome_get4 data 4).2 (by omega)) fun sender => ?_
    refine isSome_bind ((isSome_get4 data 8).2 (by omega)) fun media => ?_
    have hall : (parseAll (FeedbackField.parse (F := F) header.count) header.headerLength
        (data.drop 12) (header.headerLength - 12)).isSome := by
      rcases Nat.lt_or_ge 12 header.headerLength with hlt | hge
      · refine isSome_parseAll hF (by omega) ?_
        have := hspare hlt
        rw [List.length_drop]
        omega
      · rw [Nat.sub_eq_zero_of_le hge, parseAll_zero]
        rfl
    obtain ⟨r, hr⟩ := Option.isSome_iff_exists.1 hall
    rw [hr]
    cases r <;> rfl

theorem RTPFeedbackField.isSome_parse (feedbackType : Nat) (h : size ≤ data.length) :
    (parse feedbackType data size).isSome := by
  unfold parse
  split_ifs
  · rw [Option.isSome_map]
    exact NACKField.isSome_parse h
  · rw [Option.isSome_map]
    exact TempMaxMediaStreamBitrateField.isSome_parse h
  · rfl

theorem PayloadFeedbackField.isSome_parse {feedbackType : Nat}
    (htype : feedbackType ≠ SliceLossIndication) (h : size ≤ data.length) :
    (parse feedbackType data size).isSome := by
  rw [parse, if_neg htype]
  split_ifs
  · rw [Option.isSome_map]
    exact ReferencePictureSelectionField.isSome_parse h
  · rw [Option.isSome_map]
    exact FullIntraRequestField.isSome_parse h
  · rw [Option.isSome_map]
    exact TemporalSpatialTradeOffField.isSome_parse h
  · rw [Option.isSome_map]
    exact VideoBackChannelMessageField.isSome_parse h
  · rw [Option.isSome_map]
    exact ApplicationLayerFeeedbackField.isSome_parse h
  · rfl

theorem PayloadFeedbackField.isSome_parse_slices (h : size + 1 ≤ data.length) :
    (parse SliceLossIndication data size).isSome := by
  rw [parse, if_pos rfl, Option.isSome_map]
  exact SliceLossIndicationField.isSome_parse h

theorem PayloadFeedbackField.parseAll_slices_eq_none (fuel : Nat) (hpos : 0 < size)
    (hmod : size % 4 = 0) (hlen : data.length = size) :
    parseAll (parse SliceLossIndication) fuel data size = none := by
  induction fuel generalizing data size with
  | zero =>
    cases size with
    | zero => exact absurd hpos (Nat.lt_irrefl 0)
    | succ size => rfl
  | succ fuel ih =>
    obtain ⟨size, rfl⟩ := Nat.exists_eq_succ_of_ne_zero (Nat.ne_of_gt hpos)
    rw [parseAll]
    cases hparse : parse SliceLossIndication data (size + 1) with
    | none => rfl
    | some r =>
      cases r with
      | none =>
        -- with four bytes or more the parser returns a field or reads past the end
        rw [parse, if_pos rfl] at hparse
        obtain ⟨r, hr, hnone⟩ := Option.map_eq_some_iff.1 hparse
        obtain rfl := Option.map_eq_none_iff.1 hnone
        rw [SliceLossIndicationField.parse, if_neg (by omega)] at hr
        simp [Option.bind_eq_some_iff] at hr
      | some r =>
        obtain ⟨f, n⟩ := r
        rw [parse, if_pos rfl] at hparse
        obtain ⟨field, -, hfield⟩ := map_parsed_eq_some hparse
        obtain ⟨rfl, -⟩ := SliceLossIndicationField.le_of_parse hfield
        rcases Nat.lt_or_ge 4 (size + 1) with hlt | hge
        · have hlen' : (data.drop 4).length = size + 1 - 4 := by
            rw [List.length_drop]
            omega
          have hrest := ih (by omega) (by omega) hlen'
          simp only [Option.bind_eq_bind, Option.bind_some, if_neg (Nat.succ_ne_zero 3), hrest]
          rfl
        · rw [SliceLossIndicationField.parse_eq_none (by omega) (by omega)] at hfield
          cases hfield

theorem RTCPPayloadFeedback.isSome_parse_iff (hread : RtcpCommon.read data = some header)
    (hle : header.headerLength ≤ size) (hlen : size ≤ data.length) :
    (parse data size).isSome ↔ 12 ≤ data.length ∧
      (header.count = PayloadFeedbackField.SliceLossIndication → 12 < header.headerLength →
        header.headerLength < data.length) := by
  by_cases htype : header.count = PayloadFeedbackField.SliceLossIndication
  · by_cases hspare : 12 < header.headerLength → header.headerLength < data.length
    · have hiff := Feedback.isSome_parse_iff (F := PayloadFeedbackField) hread hle hspare
        fun data size h => htype ▸ PayloadFeedbackField.isSome_parse_slices h
      exact hiff.trans (and_iff_left fun _ => hspare).symm
    · refine iff_of_false (fun h => ?_) fun h => hspare (h.2 htype)
      obtain ⟨hlong, hend⟩ := Classical.not_imp.1 hspare
      have hlength : header.headerLength % 4 = 0 := Nat.mul_mod_left _ _
      obtain ⟨r, h⟩ := Option.isSome_iff_exists.1 h
      simp only [parse, Feedback.parse, hread, Option.bind_eq_bind, Option.bind_some,
        if_neg (Nat.not_lt.2 hle), Option.bind_eq_some_iff] at h
      obtain ⟨_, -, _, -, fields, hfields, -⟩ := h
      rw [htype] at hfields
      have hlen' : (data.drop 12).length = header.headerLength - 12 := by
        rw [List.length_drop]
        omega
      have hnone := PayloadFeedbackField.parseAll_slices_eq_none header.headerLength
        (show 0 < header.headerLength - 12 by omega) (by omega) hlen'
      cases hnone.symm.trans hfields
  · have hF (data : List UInt8) (size : Nat) (h : size + 0 ≤ data.length) :
        (FeedbackField.parse (F := PayloadFeedbackField) header.count data size).isSome :=
      PayloadFeedbackField.isSome_parse htype h
    have hiff := Feedback.isSome_parse_iff hread hle (fun _ => hle.trans hlen) hF
    exact hiff.trans (and_iff_left fun h => absurd h htype).symm

end Packets

/-! ## The datagram -/

namespace RTCPPacket

/-- The parser of a type stays inside the data: its fixed part is there, and the reason of a
goodbye, the data of an application packet and the byte behind the last lost slice. -/
def Inside (type : Nat) (header : RtcpCommon) (data : List UInt8) : Prop :=
  match type with
  | 200 => 28 ≤ data.length
  | 201 => 8 ≤ data.length
  | 203 => 4 + 4 * header.count ≤ data.length ∧
      (4 + 4 * header.count < header.headerLength → ∀ n,
        get1 data (4 + 4 * header.count) = some n → 4 + 4 * header.count + 1 + n ≤ data.length)
  | 204 => 12 ≤ header.headerLength
  | 205 => 12 ≤ data.length
  | 206 => 12 ≤ data.length ∧
      (header.count = PayloadFeedbackField.SliceLossIndication → 12 < header.headerLength →
        header.headerLength < data.length)
  | 192 => 8 ≤ data.length
  | 193 => 10 ≤ data.length
  | 195 => 4 + 4 * header.count ≤ data.length
  | _ => True

theorem isSome_parse_iff {data : List UInt8} {size : Nat} {header : RtcpCommon} (type : Nat)
    (hread : RtcpCommon.read data = some header) (hle : header.headerLength ≤ size)
    (hlen : size ≤ data.length) (hdata : data.length < 2 ^ 32) :
    (parse type data size).isSome ↔ Inside type header data := by
  unfold parse Inside
  split
  · rw [Option.isSome_map]
    exact RTCPSenderReport.isSome_parse_iff hread hle hlen
  · rw [Option.isSome_map]
    exact RTCPReceiverReport.isSome_parse_iff hread hle hlen
  · rw [Option.isSome_map]
    exact iff_true_intro (RTCPSDES.isSome_parse hread hlen)
  · rw [Option.isSome_map]
    exact RTCPBye.isSome_parse_iff hread hle hlen
  · rw [Option.isSome_map]
    exact RTCPApp.isSome_parse_iff hread hle hlen hdata
  · rw [Option.isSome_map, RTCPRTPFeedback.parse, Option.isSome_map]
    have hF (data : List UInt8) (size : Nat) (h : size + 0 ≤ data.length) :
        (FeedbackField.parse (F := RTPFeedbackField) header.count data size).isSome :=
      RTPFeedbackField.isSome_parse _ h
    exact Feedback.isSome_parse_iff hread hle (fun _ => hle.trans hlen) hF
  · rw [Option.isSome_map]
    exact RTCPPayloadFeedback.isSome_parse_iff hread hle hlen
  · rw [Option.isSome_map]
    exact RTCPFullIntraRequest.isSome_parse_iff hread hle
  · rw [Option.isSome_map]
    exact RTCPNACK.isSome_parse_iff hread hle
  · rw [Option.isSome_map]
    exact RTCPExtendedJitterReport.isSome_parse_iff hread hle
  · split <;> first | contradiction | exact iff_true_intro rfl

/-- The types that have a parser. -/
def Known (type : Nat) : Prop :=
  type ∈ [192, 193, 195, 200, 201, 202, 203, 204, 205, 206]

theorem parse_of_read_none {data : List UInt8} {size type : Nat} (htype : Known type)
    (hread : RtcpCommon.read data = none) : parse type data size = none := by
  simp only [Known, List.mem_cons, List.not_mem_nil, or_false] at htype
  rcases htype with rfl | rfl | rfl | rfl | rfl | rfl | rfl | rfl | rfl | rfl <;>
    simp [parse, RTCPFullIntraRequest.parse, RTCPNACK.parse, RTCPExtendedJitterReport.parse,
      RTCPSenderReport.parse, RTCPReceiverReport.parse, RTCPSDES.parse, RTCPBye.parse,
      RTCPApp.parse, RTCPRTPFeedback.parse, RTCPPayloadFeedback.parse, Feedback.parse, hread]

theorem parse_of_short {data : List UInt8} {size type : Nat} {header : RtcpCommon}
    (htype : Known type) (hread : RtcpCommon.read data = some header)
    (hlt : size < header.headerLength) : parse type data size = some none := by
  simp only [Known, List.mem_cons, List.not_mem_nil, or_false] at htype
  rcases htype with rfl | rfl | rfl | rfl | rfl | rfl | rfl | rfl | rfl | rfl <;>
    simp [parse, RTCPFullIntraRequest.parse, RTCPNACK.parse, RTCPExtendedJitterReport.parse,
      RTCPSenderReport.parse, RTCPReceiverReport.parse, RTCPSDES.parse, RTCPBye.parse,
      RTCPApp.parse, RTCPRTPFeedback.parse, RTCPPayloadFeedback.parse, Feedback.parse, hread, hlt]

theorem isSome_parse_self_iff {data : List UInt8} (type : Nat) (hdata : data.length < 2 ^ 32) :
    (parse type data data.length).isSome ↔ (Known type → ∃ header,
      RtcpCommon.read data = some header ∧
        (header.headerLength ≤ data.length → Inside type header data)) := by
  by_cases htype : Known type
  · rw [imp_iff_right htype]
    cases hread : RtcpCommon.read data with
    | none => simp [parse_of_read_none htype hread]
    | some header =>
      simp only [Option.some.injEq, exists_eq_left']
      by_cases hle : header.headerLength ≤ data.length
      · rw [imp_iff_right hle]
        exact isSome_parse_iff type hread hle (Nat.le_refl _) hdata
      · rw [parse_of_short htype hread (Nat.lt_of_not_le hle)]
        exact iff_of_true rfl fun h => absurd h hle
  · refine iff_of_true ?_ fun h => absurd h htype
    unfold parse
    split <;> first | rfl | exact absurd (by simp [Known]) htype

end RTCPPacket

namespace RTCPCompoundPacket

/-- The rests of a datagram at which the loop over its packets arrives. -/
def rests : Nat → List UInt8 → List (List UInt8)
  | _, [] => []
  | 0, _ :: _ => []
  | fuel + 1, byte :: bytes =>
    (byte :: bytes) :: ((RtcpCommon.read (byte :: bytes)).elim [] fun header =>
      if header.headerLength ≤ (byte :: bytes).length then
        rests fuel ((byte :: bytes).drop header.headerLength)
      else
        [])

/-- A rest holds a header, and if the packet with this header is complete its parser stays inside
the rest. -/
def RestInside (buffer : List UInt8) : Prop :=
  ∃ header, RtcpCommon.read buffer = some header ∧
    (header.headerLength ≤ buffer.length → RTCPPacket.Inside header.pt header buffer)

/-- Every read of the parser stays inside the datagram. -/
def Inside (data : List UInt8) : Prop :=
  isRTCP data → ∀ buffer ∈ rests data.length data, RestInside buffer

theorem isSome_parsePackets_iff {fuel : Nat} {buffer : List UInt8} (hfuel : buffer.length ≤ fuel)
    (hlen : buffer.length < 2 ^ 32) :
    (parsePackets fuel buffer).isSome ↔ ∀ rest ∈ rests fuel buffer, RestInside rest := by
  induction fuel generalizing buffer with
  | zero =>
    cases buffer with
    | nil => exact iff_of_true rfl fun rest h => nomatch h
    | cons byte bytes => exact absurd hfuel (Nat.not_succ_le_zero _)
  | succ fuel ih =>
    cases buffer with
    | nil => exact iff_of_true rfl fun rest h => nomatch h
    | cons byte bytes =>
      rw [parsePackets, rests]
      cases hread : RtcpCommon.read (byte :: bytes) with
      | none =>
        refine iff_of_false (fun h => nomatch h) fun h => ?_
        obtain ⟨header, hheader, -⟩ := h _ List.mem_cons_self
        cases hread.symm.trans hheader
      | some header =>
        have hself : RestInside (byte :: bytes) ↔ (header.headerLength ≤ (byte :: bytes).length →
            RTCPPacket.Inside header.pt header (byte :: bytes)) := by
          constructor
          · intro ⟨header', hheader, h⟩
            obtain rfl := Option.some.inj (hread.symm.trans hheader)
            exact h
          · exact fun h => ⟨header, hread, h⟩
        simp only [Option.bind_eq_bind, Option.bind_some, Option.elim_some, List.forall_mem_cons,
          hself]
        by_cases hle : header.headerLength ≤ (byte :: bytes).length
        · have hdrop : ((byte :: bytes).drop header.headerLength).length ≤ fuel := by
            have hpos : 0 < header.headerLength := Nat.mul_pos (Nat.succ_pos _) (by decide)
            rw [List.length_drop]
            omega
          have hrest := ih hdrop (by rw [List.length_drop]; omega)
          have hfirst := RTCPPacket.isSome_parse_iff header.pt hread (Nat.le_refl _) hle hlen
          rw [if_neg (Nat.not_lt.2 hle), if_pos hle, imp_iff_right hle, ← hfirst, ← hrest]
          constructor
          · intro h
            refine ⟨isSome_of_bind h, ?_⟩
            obtain ⟨r, h⟩ := Option.isSome_iff_exists.1 h
            simp only [Option.bind_eq_some_iff] at h
            obtain ⟨_, -, rs, hrs, -⟩ := h
            exact Option.isSome_of_eq_some hrs
          · intro ⟨h1, h2⟩
            refine isSome_bind h1 fun packet => ?_
            obtain ⟨rs, hrs⟩ := Option.isSome_iff_exists.1 h2
            rw [hrs]
            cases rs <;> rfl
        · rw [if_pos (Nat.lt_of_not_le hle), if_neg hle]
          exact iff_of_true rfl ⟨fun h => absurd h hle, fun rest h => nomatch h⟩

/-- The parser of datagrams returns without a read outside exactly for the datagrams that are
`Inside`, and so does the parser of each type given data of its own. -/
theorem parse_inside_iff (type : Nat) (data : List UInt8) (hlen : data.length < 2 ^ 32) :
    ((parse data).isSome ↔ Inside data) ∧
      ((RTCPPacket.parse type data data.length).isSome ↔
        (RTCPPacket.Known type → ∃ header, RtcpCommon.read data = some header ∧
          (header.headerLength ≤ data.length → RTCPPacket.Inside type header data))) := by
  refine ⟨?_, RTCPPacket.isSome_parse_self_iff type hlen⟩
  unfold parse Inside
  split
  case isTrue h =>
    rw [isSome_parsePackets_iff (Nat.le_refl _) hlen]
    exact (imp_iff_right h).symm
  case isFalse h => exact iff_of_true rfl fun hrtcp => absurd hrtcp h

/-- A goodbye without sources is read inside its four bytes, as a datagram and by its parser. -/
theorem parse_inside_goodbye :
    Inside [0x80, 203, 0, 0] ∧ ∃ header, RtcpCommon.read [0x80, 203, 0, 0] = some header ∧
      (header.headerLength ≤ 4 → RTCPPacket.Inside 203 header [0x80, 203, 0, 0]) :=
  have h := parse_inside_iff 203 [0x80, 203, 0, 0] (by decide)
  ⟨h.1.1 (by decide), h.2.1 (by decide) (by simp [RTCPPacket.Known])⟩

/-- A datagram of just the header of a sender report is read past its end. -/
theorem parse_short_senderReport : parse [0x80, 200, 0, 0] = none := by
  decide

end RTCPCompoundPacket

end McuMediaServer
