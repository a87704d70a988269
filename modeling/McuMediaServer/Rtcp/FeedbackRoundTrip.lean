import McuMediaServer.Rtcp.RoundTrip

/-!
# The round trip of RTCP feedback packets

The fields of a feedback packet are written one after the other and read by a loop that has no count
but the length of the packet, so that the packet comes back exactly if this loop gives its fields.
With the packets without fields this says of every packet when it makes the round trip.
-/

namespace McuMediaServer

open ByteSeq ByteWriter ByteParser

/-! ## Feedback over any fields -/

namespace Feedback

variable {F : Type} [FeedbackField F] {bytes : F → List UInt8} (p : Feedback F)

/-- The sources of a feedback packet. -/
def ssrcs : List UInt8 := be4 p.senderSSRC.toNat ++ be4 p.mediaSSRC.toNat

theorem encodes_serialize {pt size : Nat}
    (h : ∀ f ∈ p.fields, Encodes (FeedbackField.serialize f) (bytes f)) :
    Encodes (seq (put (rtcpHeader p.feedbackType pt size ++
      (be4 p.senderSSRC.toNat ++ be4 p.mediaSSRC.toNat)) ::
        p.fields.map FeedbackField.serialize))
      (rtcpHeader p.feedbackType pt size ++ (p.ssrcs ++ p.fields.flatMap bytes)) := by
  rw [← List.append_assoc]
  exact (encodes_put _).andThen (Encodes.seq_map h)

theorem of_parse {data : List UInt8} {size n : Nat} {p : Feedback F}
    (h : parse data size = some (some (p, n))) :
    ∃ header len, RtcpCommon.read data = some header ∧ header.headerLength ≤ size ∧
      p.feedbackType = header.count ∧
      parseAll (FeedbackField.parse p.feedbackType) header.headerLength (data.drop 12)
        (header.headerLength - 12) = some (some (p.fields, len)) := by
  simp only [parse, Option.bind_eq_bind, Option.bind_eq_some_iff] at h
  obtain ⟨header, hheader, h⟩ := h
  split at h
  case isTrue => cases h
  case isFalse hle =>
    simp only [Option.bind_eq_some_iff] at h
    obtain ⟨sender, -, media, -, r, hr, h⟩ := h
    cases r with
    | none => cases h
    | some r =>
      cases h
      exact ⟨header, r.2, hheader, Nat.not_lt.1 hle, rfl, hr⟩

theorem parse_bytes_iff {pt size : Nat} {body : List UInt8}
    (hfit : (lengthField size % 2 ^ 16 + 1) * 4 = size) (hsize : 12 + body.length = size) :
    (∃ n, parse (rtcpHeader p.feedbackType pt size ++ (p.ssrcs ++ body)) size =
      some (some (p, n))) ↔ p.feedbackType < 2 ^ 5 ∧
        ∃ n, parseAll (FeedbackField.parse p.feedbackType) size body body.length =
          some (some (p.fields, n)) := by
  have hfront : (rtcpHeader p.feedbackType pt size ++ p.ssrcs).length = 12 := by
    simp [ssrcs]
  have hdrop : (rtcpHeader p.feedbackType pt size ++ (p.ssrcs ++ body)).drop 12 = body := by
    rw [← List.append_assoc]
    exact List.drop_left' hfront
  have hheader (count : Nat) : RtcpCommon.headerLength ⟨count, 0, 2, pt % 2 ^ 8,
      lengthField size % 2 ^ 16⟩ = size := hfit
  have hrest : size - 12 = body.length := by omega
  constructor
  · intro ⟨n, h⟩
    obtain ⟨header, len, hread, -, htype, hfields⟩ := of_parse h
    rw [read_rtcpHeader] at hread
    cases hread
    dsimp only at htype
    rw [hheader, hdrop, hrest] at hfields
    exact ⟨by omega, len, hfields⟩
  · intro ⟨htype, n, h⟩
    refine ⟨12 + n, ?_⟩
    rw [parse, read_rtcpHeader]
    simp only [Option.bind_eq_bind, Option.bind_some, hheader, Nat.lt_irrefl, if_false, hdrop,
      hrest, Nat.mod_eq_of_lt htype, h]
    simp [ssrcs, get4_append]

theorem roundTripsVia_iff {pt : Nat}
    (h : ∀ f ∈ p.fields, Encodes (FeedbackField.serialize f) (bytes f)) :
    RoundTripsVia p.getSize (p.serialize pt) parse p ↔
      12 + (p.fields.flatMap bytes).length = p.getSize ∧ p.getSize % 4 = 0 ∧
        p.getSize ≤ 2 ^ 18 ∧ p.feedbackType < 2 ^ 5 ∧
          ∃ n, parseAll (FeedbackField.parse p.feedbackType) p.getSize
            (p.fields.flatMap bytes) (p.fields.flatMap bytes).length =
              some (some (p.fields, n)) := by
  have hlen : (p.ssrcs ++ p.fields.flatMap bytes).length =
      8 + (p.fields.flatMap bytes).length := by
    rw [List.length_append, ssrcs, List.length_append, length_be4, length_be4]
  rw [serialize, McuMediaServer.roundTripsVia_iff (p.encodes_serialize h), hlen]
  constructor
  · intro ⟨hsize, hmod, hle, hparse⟩
    have hfit := (headerLength_eq_iff p.getSize).2 ⟨by omega, hmod, hle⟩
    exact ⟨by omega, hmod, hle, (p.parse_bytes_iff hfit (by omega)).1 hparse⟩
  · intro ⟨hsize, hmod, hle, hparse⟩
    have hfit := (headerLength_eq_iff p.getSize).2 ⟨by omega, hmod, hle⟩
    exact ⟨by omega, hmod, hle, (p.parse_bytes_iff hfit (by omega)).2 hparse⟩

end Feedback

/-! ## Transport-layer feedback -/

namespace RTPFeedbackField

def bytes : RTPFeedbackField → List UInt8
  | nack field => field.bytes
  | tempMaxMediaStreamBitrate field => field.bytes

theorem encodes_serialize (f : RTPFeedbackField) :
    Encodes (FeedbackField.serialize f) f.bytes := by
  cases f with
  | nack field => exact field.encodes_serialize
  | tempMaxMediaStreamBitrate field => exact field.encodes_serialize

theorem length_bytes (f : RTPFeedbackField) : f.bytes.length = f.getSize := by
  cases f with
  | nack field => exact field.length_bytes
  | tempMaxMediaStreamBitrate field => exact field.length_bytes

/-- The field is of the packet's type and its numbers fit their bits. -/
def Faithful (feedbackType : Nat) : RTPFeedbackField → Prop
  | nack _ => feedbackType = NACK
  | tempMaxMediaStreamBitrate field =>
    (feedbackType = TempMaxMediaStreamBitrateRequest ∨
      feedbackType = TempMaxMediaStreamBitrateNotification) ∧
    field.maxTotalBitrateExp.toNat < 2 ^ 6 ∧ field.maxTotalBitrateMantissa.toNat < 2 ^ 17 ∧
      field.overhead.toNat < 2 ^ 9

/-- The field the parser of a type creates. -/
def OfType (feedbackType : Nat) : RTPFeedbackField → Prop
  | nack _ => feedbackType = NACK
  | tempMaxMediaStreamBitrate _ => feedbackType = TempMaxMediaStreamBitrateRequest ∨
      feedbackType = TempMaxMediaStreamBitrateNotification

/-- The field as it is read back. -/
def onWire : RTPFeedbackField → RTPFeedbackField
  | nack field => nack field
  | tempMaxMediaStreamBitrate field => tempMaxMediaStreamBitrate field.onWire

theorem ofType_of_parse (feedbackType : Nat) (data : List UInt8) (size : Nat)
    (f : RTPFeedbackField) (n : Nat) (h : parse feedbackType data size = some (some (f, n))) :
    f.OfType feedbackType := by
  unfold parse at h
  split at h
  case isTrue htype =>
    obtain ⟨field, rfl, -⟩ := map_parsed_eq_some h
    exact htype
  case isFalse =>
    split at h
    case isTrue htype =>
      obtain ⟨field, rfl, -⟩ := map_parsed_eq_some h
      exact htype
    case isFalse => cases h

theorem parse_bytes {feedbackType : Nat} (f : RTPFeedbackField) (h : f.OfType feedbackType) :
    0 < f.bytes.length ∧ ∀ rest size, f.bytes.length ≤ size →
      parse feedbackType (f.bytes ++ rest) size = some (some (f.onWire, f.bytes.length)) := by
  rw [f.length_bytes]
  cases f with
  | nack field =>
    have htype : feedbackType = NACK := h
    refine ⟨Nat.succ_pos 3, fun rest size hsize => ?_⟩
    rw [parse, if_pos htype]
    change ((NACKField.parse (field.bytes ++ rest) size).map _) = _
    rw [field.parse_bytes rest hsize]
    rfl
  | tempMaxMediaStreamBitrate field =>
    have htype : feedbackType = TempMaxMediaStreamBitrateRequest ∨
      feedbackType = TempMaxMediaStreamBitrateNotification := h
    have hne : feedbackType ≠ NACK := by
      rcases h with rfl | rfl <;> decide
    refine ⟨Nat.succ_pos 7, fun rest size hsize => ?_⟩
    rw [parse, if_neg hne, if_pos htype]
    change ((TempMaxMediaStreamBitrateField.parse (field.bytes ++ rest) size).map _) = _
    rw [field.parse_bytes rest hsize]
    rfl

theorem faithful_iff (feedbackType : Nat) (f : RTPFeedbackField) :
    f.OfType feedbackType ∧ f.onWire = f ↔ f.Faithful feedbackType := by
  cases f with
  | nack field => exact and_iff_left rfl
  | tempMaxMediaStreamBitrate field =>
    rw [onWire, tempMaxMediaStreamBitrate.injEq, field.onWire_eq_self_iff]
    rfl

theorem getSize_mod (f : RTPFeedbackField) : f.getSize % 4 = 0 := by
  cases f with
  | nack field => exact Nat.mod_self 4
  | tempMaxMediaStreamBitrate field => exact (rfl : 8 % 4 = 0)

end RTPFeedbackField

namespace RTCPRTPFeedback

variable (p : RTCPRTPFeedback)

/-- The fields are of the packet's type and fit their bits, and the length field states the size. -/
def Faithful : Prop :=
  p.feedbackType < 2 ^ 5 ∧ (∀ f ∈ p.fields, f.Faithful p.feedbackType) ∧
    12 + (p.fields.map RTPFeedbackField.getSize).sum ≤ 2 ^ 18

theorem length_flatMap (fields : List RTPFeedbackField) :
    (fields.flatMap RTPFeedbackField.bytes).length =
      (fields.map RTPFeedbackField.getSize).sum := by
  rw [List.length_flatMap]
  simp only [RTPFeedbackField.length_bytes]

theorem sum_mod {F : Type} {getSize : F → Nat} {fields : List F}
    (h : ∀ f ∈ fields, getSize f % 4 = 0) : (fields.map getSize).sum % 4 = 0 := by
  induction fields with
  | nil => rfl
  | cons f fields ih =>
    have hf := h f List.mem_cons_self
    have hrest := ih fun g hg => h g (List.mem_cons_of_mem f hg)
    rw [List.map_cons, List.sum_cons]
    omega

theorem roundTripsVia_iff :
    RoundTripsVia (getSize p) (serialize p) parse p ↔ Faithful p := by
  have hvia : RoundTripsVia (getSize p) (serialize p) parse p ↔
      RoundTripsVia (Feedback.getSize p) (Feedback.serialize 205 p) Feedback.parse p := by
    have hmap : ∀ (x : Option (Parsed RTCPRTPFeedback)),
        (∃ n, (x.map fun r => r.map (Prod.map id (· + 12))) = some (some (p, n))) ↔
          ∃ n, x = some (some (p, n)) := by
      intro x
      constructor
      · rintro ⟨n, h⟩
        obtain ⟨r, rfl, hr⟩ := Option.map_eq_some_iff.1 h
        obtain ⟨⟨q, m⟩, rfl, hq⟩ := Option.map_eq_some_iff.1 hr
        obtain rfl : q = p := (Prod.mk.inj hq).1
        exact ⟨m, rfl⟩
      · rintro ⟨n, h⟩
        exact ⟨n + 12, by rw [h]; rfl⟩
    simp only [RoundTripsVia, parse, exists_and_left, hmap]
    rfl
  rw [hvia, Feedback.roundTripsVia_iff p fun f _ => f.encodes_serialize, length_flatMap]
  have hsum : Feedback.getSize p =
      (12 + (p.fields.map RTPFeedbackField.getSize).sum) % 2 ^ 32 := rfl
  have hmod : (p.fields.map RTPFeedbackField.getSize).sum % 4 = 0 :=
    sum_mod fun f _ => f.getSize_mod
  have hloop (hsize : 12 + (p.fields.map RTPFeedbackField.getSize).sum = Feedback.getSize p) :=
    have hfuel : (p.fields.flatMap RTPFeedbackField.bytes).length ≤ Feedback.getSize p := by
      rw [length_flatMap]
      omega
    parseAll_flatMap_iff (RTPFeedbackField.ofType_of_parse p.feedbackType)
      RTPFeedbackField.parse_bytes hfuel
  simp only [length_flatMap, RTPFeedbackField.faithful_iff] at hloop
  constructor
  · rintro ⟨hsize, _, hle, htype, hparse⟩
    exact ⟨htype, (hloop hsize).1 hparse, by omega⟩
  · rintro ⟨htype, hfields, hle⟩
    have hsize : 12 + (p.fields.map RTPFeedbackField.getSize).sum = Feedback.getSize p := by omega
    exact ⟨hsize, by omega, by omega, htype, (hloop hsize).2 hfields⟩

end RTCPRTPFeedback

/-! ## Payload-specific feedback -/

namespace PayloadFeedbackField

def bytes : PayloadFeedbackField → List UInt8
  | sliceLossIndication field => field.bytes
  | referencePictureSelection field => field.bytes
  | fullIntraRequest field => field.bytes
  | temporalSpatialTradeOff field => field.bytes
  | videoBackChannelMessage field => field.bytes
  | applicationLayerFeeedback field => field.bytes

/-- The field is written within its bytes. -/
def Writable : PayloadFeedbackField → Prop
  | referencePictureSelection field => 8 ≤ field.bytes.length
  | _ => True

variable {f : PayloadFeedbackField}

theorem encodes_serialize (h : f.Writable) : Encodes (FeedbackField.serialize f) f.bytes := by
  cases f with
  | sliceLossIndication field => exact field.encodes_serialize
  | referencePictureSelection field => exact field.encodes_serialize h
  | fullIntraRequest field => exact field.encodes_serialize
  | temporalSpatialTradeOff field => exact field.encodes_serialize
  | videoBackChannelMessage field => exact field.encodes_serialize
  | applicationLayerFeeedback field => exact field.encodes_serialize

theorem getSize_le (f : PayloadFeedbackField) : f.getSize ≤ f.bytes.length := by
  cases f with
  | sliceLossIndication field => exact field.length_bytes.ge
  | referencePictureSelection field => exact field.length_bytes ▸ Nat.mod_le _ _
  | fullIntraRequest field => exact field.length_bytes.ge
  | temporalSpatialTradeOff field => exact field.length_bytes.ge
  | videoBackChannelMessage field =>
    exact field.length_bytes ▸ Nat.add_le_add_left (le_pad32 _) 8
  | applicationLayerFeeedback field => exact field.length_bytes.ge

/-- The field the parser of a type creates. -/
def OfType (feedbackType : Nat) : PayloadFeedbackField → Prop
  | sliceLossIndication _ => feedbackType = SliceLossIndication
  | referencePictureSelection _ => feedbackType = ReferencePictureSelectionIndication
  | fullIntraRequest _ => feedbackType = FullIntraRequest
  | temporalSpatialTradeOff _ => feedbackType = TemporalSpatialTradeOffRequest ∨
      feedbackType = TemporalSpatialTradeOffNotification
  | videoBackChannelMessage _ => feedbackType = VideoBackChannelMessage
  | applicationLayerFeeedback _ => feedbackType = ApplicationLayerFeeedbackMessage

/-- The field as it is read back. -/
def onWire : PayloadFeedbackField → PayloadFeedbackField
  | referencePictureSelection field => referencePictureSelection field.onWire
  | fullIntraRequest field => fullIntraRequest field.onWire
  | videoBackChannelMessage field => videoBackChannelMessage field.onWire
  | f => f

theorem ofType_of_parse (feedbackType : Nat) (data : List UInt8) (size : Nat)
    (f : PayloadFeedbackField) (n : Nat)
    (h : parse feedbackType data size = some (some (f, n))) : f.OfType feedbackType := by
  unfold parse at h
  split_ifs at h with h2 h3 h4 h5 h7 h15
  · obtain ⟨field, rfl, -⟩ := map_parsed_eq_some h
    exact h2
  · obtain ⟨field, rfl, -⟩ := map_parsed_eq_some h
    exact h3
  · obtain ⟨field, rfl, -⟩ := map_parsed_eq_some h
    exact h4
  · obtain ⟨field, rfl, -⟩ := map_parsed_eq_some h
    exact h5
  · obtain ⟨field, rfl, -⟩ := map_parsed_eq_some h
    exact h7
  · obtain ⟨field, rfl, -⟩ := map_parsed_eq_some h
    exact h15
  · cases h

/-- The types whose fields are parsed one after the other. -/
def Sequential (feedbackType : Nat) : Prop :=
  feedbackType ≠ SliceLossIndication ∧ feedbackType ≠ ReferencePictureSelectionIndication ∧
    feedbackType ≠ ApplicationLayerFeeedbackMessage

variable {feedbackType : Nat}

theorem parse_bytes (hseq : Sequential feedbackType)
    (f : PayloadFeedbackField) (h : f.OfType feedbackType) :
    0 < f.bytes.length ∧ ∀ rest size, f.bytes.length ≤ size →
      parse feedbackType (f.bytes ++ rest) size = some (some (f.onWire, f.bytes.length)) := by
  obtain ⟨h2, h3, h15⟩ := hseq
  cases f with
  | sliceLossIndication field => exact absurd h h2
  | referencePictureSelection field => exact absurd h h3
  | applicationLayerFeeedback field => exact absurd h h15
  | fullIntraRequest field =>
    have htype : feedbackType = FullIntraRequest := h
    have hlen : (fullIntraRequest field).bytes.length = field.getSize := field.length_bytes
    rw [hlen]
    refine ⟨Nat.succ_pos 7, fun rest size hsize => ?_⟩
    rw [parse, if_neg h2, if_neg h3, if_pos htype]
    change (FullIntraRequestField.parse (field.bytes ++ rest) size).map _ = _
    rw [field.parse_bytes rest hsize]
    rfl
  | temporalSpatialTradeOff field =>
    have htype : feedbackType = TemporalSpatialTradeOffRequest ∨
      feedbackType = TemporalSpatialTradeOffNotification := h
    have h4 : feedbackType ≠ FullIntraRequest := by
      rcases htype with rfl | rfl <;> decide
    have hlen : (temporalSpatialTradeOff field).bytes.length = field.getSize :=
      field.length_bytes
    rw [hlen]
    refine ⟨Nat.succ_pos 7, fun rest size hsize => ?_⟩
    rw [parse, if_neg h2, if_neg h3, if_neg h4, if_pos htype]
    change (TemporalSpatialTradeOffField.parse (field.bytes ++ rest) size).map _ = _
    rw [field.parse_bytes rest hsize]
    rfl
  | videoBackChannelMessage field =>
    obtain rfl : feedbackType = VideoBackChannelMessage := h
    have hpos : 0 < field.bytes.length := by
      rw [field.length_bytes]
      omega
    refine ⟨hpos, fun rest size hsize => ?_⟩
    rw [parse, if_neg (by decide), if_neg (by decide), if_neg (by decide), if_neg (by decide),
      if_pos rfl]
    change (VideoBackChannelMessageField.parse (field.bytes ++ rest) size).map _ = _
    rw [field.parse_bytes rest hsize]
    rfl

/-- A field that is read back as it was, alone or, where the type allows it, among others. -/
def ReadBack (feedbackType : Nat) : PayloadFeedbackField → Prop
  | sliceLossIndication _ => False
  | referencePictureSelection field =>
    feedbackType = ReferencePictureSelectionIndication ∧ field.type.toNat < 2 ^ 7
  | fullIntraRequest field => feedbackType = FullIntraRequest ∧ field.seq = 0
  | temporalSpatialTradeOff _ => feedbackType = TemporalSpatialTradeOffRequest ∨
      feedbackType = TemporalSpatialTradeOffNotification
  | videoBackChannelMessage field =>
    feedbackType = VideoBackChannelMessage ∧ field.type.toNat < 2 ^ 7
  | applicationLayerFeeedback field => feedbackType = ApplicationLayerFeeedbackMessage ∧
      0 < field.payload.data.length ∧ field.payload.data.length % 4 = 0

theorem readBack_iff (hseq : Sequential feedbackType) (f : PayloadFeedbackField) :
    f.OfType feedbackType ∧ f.onWire = f ↔ f.ReadBack feedbackType := by
  obtain ⟨h2, h3, h15⟩ := hseq
  cases f with
  | sliceLossIndication field => exact iff_of_false (fun h => h2 h.1) id
  | referencePictureSelection field => exact iff_of_false (fun h => h3 h.1) fun h => h3 h.1
  | applicationLayerFeeedback field => exact iff_of_false (fun h => h15 h.1) fun h => h15 h.1
  | fullIntraRequest field =>
    rw [onWire, fullIntraRequest.injEq, field.onWire_eq_self_iff]
    rfl
  | temporalSpatialTradeOff field => exact and_iff_left rfl
  | videoBackChannelMessage field =>
    rw [onWire, videoBackChannelMessage.injEq, field.onWire_eq_self_iff]
    rfl

section Loop

variable {fuel size len : Nat} {data : List UInt8} {fields : List PayloadFeedbackField}

theorem eq_nil_of_slices (hlen : data.length ≤ size)
    (h : parseAll (parse SliceLossIndication) fuel data size = some (some (fields, len))) :
    fields = [] := by
  induction fuel generalizing data size fields len with
  | zero =>
    cases size with
    | zero =>
      rw [parseAll_zero] at h
      cases h
      rfl
    | succ size => cases h
  | succ fuel ih =>
    cases size with
    | zero =>
      rw [parseAll_zero] at h
      cases h
      rfl
    | succ size =>
      obtain ⟨fuel', f, parsed, fields', len', hf, -, hfirst, hrest, rfl, -⟩ :=
        parseAll_eq_some (Nat.succ_pos size) h
      cases hf
      rw [parse, if_pos rfl] at hfirst
      obtain ⟨field, rfl, hfield⟩ := map_parsed_eq_some hfirst
      obtain ⟨rfl, hsize⟩ := SliceLossIndicationField.le_of_parse hfield
      rcases Nat.lt_or_ge 4 data.length with hlt | hge
      · have hnil := ih
          (by rw [List.length_drop]; omega) hrest
        subst hnil
        -- what is left is not empty, so the loop over it returned a field
        have hpos : 0 < size + 1 - 4 := by omega
        obtain ⟨_, _, _, _, _, _, _, _, _, hcons, _⟩ := parseAll_eq_some hpos hrest
        cases hcons
      · rw [SliceLossIndicationField.parse_eq_none hsize hge] at hfield
        cases hfield

theorem of_applicationLayer (hsize : 0 < size)
    (h : parseAll (parse ApplicationLayerFeeedbackMessage) fuel data size =
      some (some (fields, len))) :
    ∃ field, fields = [applicationLayerFeeedback field] ∧ field.payload.data.length = size ∧
      size % 4 = 0 := by
  obtain ⟨fuel', f, parsed, fields', len', -, hpos, hfirst, hrest, rfl, -⟩ :=
    parseAll_eq_some hsize h
  obtain ⟨field, rfl, hfield⟩ := map_parsed_eq_some hfirst
  obtain ⟨hmod, rfl, hlen⟩ := ApplicationLayerFeeedbackField.eq_of_parse hfield
  rcases Nat.eq_zero_or_pos (size - size % 2 ^ 16) with hzero | hleft
  · rw [hzero, parseAll_zero] at hrest
    cases hrest
    exact ⟨field, rfl, by omega, hmod⟩
  · obtain ⟨-, f', parsed', -, -, -, hpos', hsecond, -, -, -⟩ := parseAll_eq_some hleft hrest
    obtain ⟨field', -, hfield'⟩ := map_parsed_eq_some hsecond
    obtain ⟨-, hparsed, -⟩ := ApplicationLayerFeeedbackField.eq_of_parse hfield'
    omega

theorem parseAll_whole (hpos : 0 < data.length) (hfuel : data.length ≤ fuel)
    (h : parse feedbackType data data.length = some (some (f, data.length))) :
    parseAll (parse feedbackType) fuel data data.length = some (some ([f], data.length)) := by
  cases fuel with
  | zero => exact absurd hfuel (Nat.not_le.2 hpos)
  | succ fuel =>
    have hrest : parseAll (parse feedbackType) fuel (data.drop data.length)
        (data.length - data.length) = some (some ([], 0)) := by
      rw [Nat.sub_self, parseAll_zero]
    exact parseAll_succ hpos hpos h hrest

theorem eq_referencePictureSelection (h : f.OfType ReferencePictureSelectionIndication) :
    ∃ field, f = referencePictureSelection field := by
  cases f with
  | referencePictureSelection field => exact ⟨field, rfl⟩
  | sliceLossIndication field => exact absurd (show 3 = 2 from h) (by decide)
  | fullIntraRequest field => exact absurd (show 3 = 4 from h) (by decide)
  | temporalSpatialTradeOff field => exact absurd (show 3 = 5 ∨ 3 = 6 from h) (by decide)
  | videoBackChannelMessage field => exact absurd (show 3 = 7 from h) (by decide)
  | applicationLayerFeeedback field => exact absurd (show 3 = 15 from h) (by decide)

theorem loop_referencePictureSelection_iff (hfuel : (fields.flatMap bytes).length ≤ fuel) :
    (∃ n, parseAll (parse ReferencePictureSelectionIndication) fuel (fields.flatMap bytes)
      (fields.flatMap bytes).length = some (some (fields, n))) ↔
      (∀ f ∈ fields, f.ReadBack ReferencePictureSelectionIndication) ∧ fields.length ≤ 1 := by
  have hone (field : ReferencePictureSelectionField) (hf : field.bytes.length ≤ fuel) :
      parseAll (parse ReferencePictureSelectionIndication) fuel field.bytes field.bytes.length =
        some (some ([referencePictureSelection field.onWire], field.bytes.length)) := by
    have hparse : parse ReferencePictureSelectionIndication field.bytes field.bytes.length =
        some (some (referencePictureSelection field.onWire, field.bytes.length)) := by
      rw [parse, if_neg (by decide), if_pos rfl, field.parse_bytes]
      rfl
    refine parseAll_whole ?_ hf hparse
    rw [field.length_bytes]
    omega
  constructor
  · intro ⟨n, h⟩
    have hlength := length_le_one_of_parseAll (fun data size v parsed hv => by
      rw [parse, if_neg (by decide), if_pos rfl] at hv
      obtain ⟨field, -, hfield⟩ := map_parsed_eq_some hv
      exact (ReferencePictureSelectionField.eq_of_parse hfield).1.ge) h
    have hkind := forall_mem_of_parseAll (ofType_of_parse _) h
    refine ⟨?_, hlength⟩
    match fields, hlength with
    | [], _ => exact fun f hf => nomatch hf
    | [f], _ =>
      obtain ⟨field, rfl⟩ := eq_referencePictureSelection (hkind f List.mem_cons_self)
      rw [List.flatMap_singleton] at h hfuel
      change parseAll _ _ field.bytes field.bytes.length = _ at h
      rw [hone field hfuel, Option.some.injEq, Option.some.injEq, Prod.mk.injEq,
        List.cons.injEq, referencePictureSelection.injEq] at h
      intro g hg
      rw [List.mem_singleton.1 hg]
      exact ⟨rfl, field.onWire_eq_self_iff.1 h.1.1⟩
  · intro ⟨hback, hlength⟩
    match fields, hlength with
    | [], _ => exact ⟨0, parseAll_zero⟩
    | [f], _ =>
      have hf := hback f List.mem_cons_self
      have htype : f.OfType ReferencePictureSelectionIndication := by
        cases f <;> first | exact hf.1 | exact hf | exact hf.elim
      obtain ⟨field, rfl⟩ := eq_referencePictureSelection htype
      have hwire := hone field (by simpa [bytes] using hfuel)
      rw [field.onWire_eq_self_iff.2 hf.2] at hwire
      rw [List.flatMap_singleton]
      exact ⟨_, hwire⟩

theorem loop_applicationLayer_iff (hfuel : (fields.flatMap bytes).length ≤ fuel) :
    (∃ n, parseAll (parse ApplicationLayerFeeedbackMessage) fuel (fields.flatMap bytes)
      (fields.flatMap bytes).length = some (some (fields, n))) ↔
      (∀ f ∈ fields, f.ReadBack ApplicationLayerFeeedbackMessage) ∧ fields.length ≤ 1 := by
  constructor
  · intro ⟨n, h⟩
    rcases Nat.eq_zero_or_pos (fields.flatMap bytes).length with hzero | hpos
    · rw [hzero, parseAll_zero] at h
      cases h
      exact ⟨(fun f hf => nomatch hf), Nat.zero_le 1⟩
    · obtain ⟨field, rfl, hlen, hmod⟩ := of_applicationLayer hpos h
      rw [List.flatMap_singleton] at hlen hpos
      have hbytes : (bytes (applicationLayerFeeedback field)).length =
          pad32 field.payload.data.length := field.length_bytes
      refine ⟨fun f hf => ?_, Nat.le_refl 1⟩
      rw [List.mem_singleton.1 hf]
      exact ⟨rfl, by omega, (pad32_eq_self_iff _).1 (by omega)⟩
  · intro ⟨hback, hlength⟩
    match fields, hlength with
    | [], _ => exact ⟨0, parseAll_zero⟩
    | [f], _ =>
      have hf := hback f List.mem_cons_self
      cases f with
      | applicationLayerFeeedback field =>
        have hlen : field.bytes.length = field.getSize := field.length_bytes
        have hpos : 0 < field.bytes.length := by
          rw [hlen]
          exact hf.2.1.trans_le (le_pad32 _)
        have hparse : parse ApplicationLayerFeeedbackMessage field.bytes field.bytes.length =
            some (some (applicationLayerFeeedback field, field.bytes.length)) := by
          rw [parse, if_neg (by decide), if_neg (by decide), if_neg (by decide),
            if_neg (by decide), if_neg (by decide), if_pos rfl, hlen, field.parse_bytes hf.2.2]
          rfl
        rw [List.flatMap_singleton] at hfuel ⊢
        exact ⟨_, parseAll_whole hpos hfuel hparse⟩
      | sliceLossIndication field => exact hf.elim
      | referencePictureSelection field => exact absurd (show 15 = 3 from hf.1) (by decide)
      | fullIntraRequest field => exact absurd (show 15 = 4 from hf.1) (by decide)
      | temporalSpatialTradeOff field => exact absurd (show 15 = 5 ∨ 15 = 6 from hf) (by decide)
      | videoBackChannelMessage field => exact absurd (show 15 = 7 from hf.1) (by decide)

theorem loop_iff (feedbackType : Nat) (hfuel : (fields.flatMap bytes).length ≤ fuel) :
    (∃ n, parseAll (parse feedbackType) fuel (fields.flatMap bytes)
      (fields.flatMap bytes).length = some (some (fields, n))) ↔
      (∀ f ∈ fields, f.ReadBack feedbackType) ∧
        (feedbackType = ReferencePictureSelectionIndication ∨
          feedbackType = ApplicationLayerFeeedbackMessage → fields.length ≤ 1) := by
  by_cases h2 : feedbackType = SliceLossIndication
  · subst h2
    have hnil (hback : ∀ f ∈ fields, f.ReadBack SliceLossIndication) : fields = [] := by
      cases fields with
      | nil => rfl
      | cons f fields =>
        have hf := hback f List.mem_cons_self
        cases f <;> simp [ReadBack, SliceLossIndication, ReferencePictureSelectionIndication,
          FullIntraRequest, TemporalSpatialTradeOffRequest, TemporalSpatialTradeOffNotification,
          VideoBackChannelMessage, ApplicationLayerFeeedbackMessage] at hf
    constructor
    · intro ⟨n, h⟩
      rw [eq_nil_of_slices (Nat.le_refl _) h]
      exact ⟨(fun f hf => nomatch hf), fun _ => Nat.zero_le 1⟩
    · intro ⟨hback, _⟩
      rw [hnil hback]
      exact ⟨0, parseAll_zero⟩
  · by_cases h3 : feedbackType = ReferencePictureSelectionIndication
    · subst h3
      rw [loop_referencePictureSelection_iff hfuel, imp_iff_right (Or.inl rfl)]
    · by_cases h15 : feedbackType = ApplicationLayerFeeedbackMessage
      · subst h15
        rw [loop_applicationLayer_iff hfuel, imp_iff_right (Or.inr rfl)]
      · have hseq : Sequential feedbackType := ⟨h2, h3, h15⟩
        have hloop := parseAll_flatMap_iff
          (ofType_of_parse _) (parse_bytes hseq) hfuel
        simp only [readBack_iff hseq] at hloop
        rw [hloop, and_iff_left fun h => absurd h (not_or.2 (And.intro h3 h15))]

end Loop

/-- The size of the field is that of its bytes, a multiple of four, and large enough to be written.
-/
def Aligned : PayloadFeedbackField → Prop
  | referencePictureSelection field =>
    8 ≤ field.bytes.length ∧ field.bytes.length % 4 = 0
  | videoBackChannelMessage field => field.payload.data.length % 4 = 0
  | _ => True

/-- The field is read back as it was and its size fits its bytes. -/
def Faithful (feedbackType : Nat) (f : PayloadFeedbackField) : Prop :=
  f.ReadBack feedbackType ∧ f.Aligned

theorem length_mod (h : f.Aligned) : f.bytes.length % 4 = 0 := by
  cases f with
  | sliceLossIndication field => exact (rfl : 4 % 4 = 0)
  | referencePictureSelection field => exact h.2
  | fullIntraRequest field => exact (rfl : 8 % 4 = 0)
  | temporalSpatialTradeOff field => exact (rfl : 8 % 4 = 0)
  | videoBackChannelMessage field =>
    have := pad32_mod field.payload.data.length
    change field.bytes.length % 4 = 0
    rw [field.length_bytes]
    omega
  | applicationLayerFeeedback field =>
    change field.bytes.length % 4 = 0
    rw [field.length_bytes]
    exact pad32_mod _

theorem getSize_eq (h : f.Aligned) (hle : f.bytes.length < 2 ^ 32) : f.getSize = f.bytes.length := by
  cases f with
  | sliceLossIndication field => exact field.length_bytes.symm
  | referencePictureSelection field =>
    change field.bytes.length < 2 ^ 32 at hle
    change field.getSize = field.bytes.length
    rw [field.length_bytes] at hle ⊢
    exact Nat.mod_eq_of_lt hle
  | fullIntraRequest field => exact field.length_bytes.symm
  | temporalSpatialTradeOff field => exact field.length_bytes.symm
  | videoBackChannelMessage field =>
    change 8 + field.payload.data.length = field.bytes.length
    rw [field.length_bytes, (pad32_eq_self_iff _).2 h]
  | applicationLayerFeeedback field => exact field.length_bytes.symm

end PayloadFeedbackField

namespace RTCPPayloadFeedback

open PayloadFeedbackField

variable (p : RTCPPayloadFeedback)

/-- The fields are of the packet's type, aligned and read back as they were, where the type takes
all there is only one of them, and the length field states the size. -/
def Faithful : Prop :=
  p.feedbackType < 2 ^ 5 ∧ (∀ f ∈ p.fields, f.Faithful p.feedbackType) ∧
    (p.feedbackType = ReferencePictureSelectionIndication ∨
      p.feedbackType = ApplicationLayerFeeedbackMessage → p.fields.length ≤ 1) ∧
    12 + (p.fields.flatMap bytes).length ≤ 2 ^ 18

theorem sum_getSize_le (fields : List PayloadFeedbackField) :
    (fields.map PayloadFeedbackField.getSize).sum ≤ (fields.flatMap bytes).length := by
  induction fields with
  | nil => exact Nat.zero_le _
  | cons f fields ih =>
    rw [List.map_cons, List.sum_cons, List.flatMap_cons, List.length_append]
    exact Nat.add_le_add f.getSize_le ih

theorem getSize_eq_of_sum {fields : List PayloadFeedbackField}
    (h : (fields.flatMap bytes).length ≤ (fields.map PayloadFeedbackField.getSize).sum) :
    ∀ f ∈ fields, f.getSize = f.bytes.length := by
  induction fields with
  | nil => exact fun f hf => nomatch hf
  | cons f fields ih =>
    have hf := f.getSize_le
    have hrest := sum_getSize_le fields
    rw [List.flatMap_cons, List.length_append, List.map_cons, List.sum_cons] at h
    intro g hg
    rcases List.mem_cons.1 hg with rfl | hg
    · omega
    · exact ih (by omega) g hg

theorem sum_getSize {fields : List PayloadFeedbackField}
    (h : ∀ f ∈ fields, f.getSize = f.bytes.length) :
    (fields.map PayloadFeedbackField.getSize).sum = (fields.flatMap bytes).length := by
  rw [List.length_flatMap, List.map_congr_left h]

theorem writable_of_roundTripsVia (h : RoundTripsVia (getSize p) (serialize p) parse p) :
    ∀ f ∈ p.fields, f.Writable := by
  obtain ⟨bytes, header, n, henc, hsize, -, -, -, hparse⟩ := h
  intro f hf
  cases f with
  | referencePictureSelection field =>
    obtain ⟨_, _, -, -, -, hfields⟩ := Feedback.of_parse hparse
    have htype : p.feedbackType = ReferencePictureSelectionIndication :=
      forall_mem_of_parseAll (ofType_of_parse _) hfields _ hf
    rw [htype] at hfields
    have hone := length_le_one_of_parseAll (fun data size v parsed hv => by
      change PayloadFeedbackField.parse _ _ _ = _ at hv
      rw [PayloadFeedbackField.parse, if_neg (by decide), if_pos rfl] at hv
      obtain ⟨field, -, hfield⟩ := map_parsed_eq_some hv
      exact (ReferencePictureSelectionField.eq_of_parse hfield).1.ge) hfields
    obtain ⟨g, hg⟩ := List.length_eq_one_iff.1
      (Nat.le_antisymm hone (List.length_pos_of_mem hf))
    obtain rfl : referencePictureSelection field = g := by
      rw [hg] at hf
      exact List.mem_singleton.1 hf
    refine Nat.not_lt.1 fun hshort => ?_
    -- a buffer of just the size leaves the field no room for the stray length
    have hfield : field.getSize = field.bytes.length := by
      rw [ReferencePictureSelectionField.getSize, ← field.length_bytes,
        Nat.mod_eq_of_lt (by omega)]
    have hget : getSize p = 12 + field.bytes.length := by
      rw [getSize, Feedback.getSize, hg]
      change (12 + (field.getSize + 0)) % 2 ^ 32 = _
      rw [hfield, Nat.add_zero, Nat.mod_eq_of_lt (by omega)]
    have hbuf := henc (List.replicate (getSize p) 0) (by rw [List.length_replicate, hsize])
    have hnone : serialize p (List.replicate (getSize p) 0) = none := by
      rw [serialize, Feedback.serialize, hg,
        check_of_le (by rw [List.length_replicate]; exact Nat.le_refl (getSize p))]
      have hfront : (rtcpHeader p.feedbackType 206 (Feedback.getSize p) ++
          (be4 p.senderSSRC.toNat ++ be4 p.mediaSSRC.toNat)).length = 12 := by simp
      have hrest : ((List.replicate (getSize p) (0 : UInt8)).drop 12).length =
          field.bytes.length := by
        rw [List.length_drop, List.length_replicate]
        omega
      have hnone : field.serialize ((List.replicate (getSize p) 0).drop 12) = none :=
        field.serialize_eq_none (by omega) (by omega)
      refine (encodes_put _).andThen_eq_none ?_ ?_
      · rw [hfront, List.length_replicate]
        omega
      · rw [hfront]
        exact andThen_eq_none hnone
    rw [hnone] at hbuf
    cases hbuf
  | _ => trivial

theorem roundTripsVia_iff :
    RoundTripsVia (getSize p) (serialize p) parse p ↔ Faithful p := by
  have hsum : Feedback.getSize p =
      (12 + (p.fields.map PayloadFeedbackField.getSize).sum) % 2 ^ 32 := rfl
  constructor
  · intro h
    have hwritable := writable_of_roundTripsVia p h
    obtain ⟨hsize, hmod, hle, htype, hparse⟩ :=
      (Feedback.roundTripsVia_iff p fun f hf => encodes_serialize (hwritable f hf)).1 h
    have hsizes : ∀ f ∈ p.fields, f.getSize = f.bytes.length := getSize_eq_of_sum (by omega)
    obtain ⟨hback, hone⟩ := (loop_iff p.feedbackType (by omega)).1 hparse
    refine ⟨htype, fun f hf => ⟨hback f hf, ?_⟩, hone, by omega⟩
    cases f with
    | referencePictureSelection field =>
      refine ⟨hwritable _ hf, ?_⟩
      have hlength := hone (Or.inl (hback _ hf).1)
      obtain ⟨g, hg⟩ := List.length_eq_one_iff.1
        (Nat.le_antisymm hlength (List.length_pos_of_mem hf))
      obtain rfl : referencePictureSelection field = g := by
        rw [hg] at hf
        exact List.mem_singleton.1 hf
      rw [hg, List.flatMap_singleton] at hsize
      change 12 + field.bytes.length = _ at hsize
      omega
    | videoBackChannelMessage field =>
      have hfield := hsizes _ hf
      change 8 + field.payload.data.length = field.bytes.length at hfield
      rw [field.length_bytes] at hfield
      exact (pad32_eq_self_iff _).1 (by omega)
    | _ => trivial
  · intro ⟨htype, hfields, hone, hle⟩
    have hwritable : ∀ f ∈ p.fields, f.Writable := by
      intro f hf
      have haligned := (hfields f hf).2
      cases f with
      | referencePictureSelection field => exact haligned.1
      | _ => trivial
    have hlen : ∀ f ∈ p.fields, f.bytes.length ≤ (p.fields.flatMap bytes).length :=
      fun f hf => (List.sublist_flatten_of_mem (List.mem_map_of_mem hf)).length_le
    have hsizes : ∀ f ∈ p.fields, f.getSize = f.bytes.length := fun f hf =>
      PayloadFeedbackField.getSize_eq (hfields f hf).2 (by have := hlen f hf; omega)
    have hmod := RTCPRTPFeedback.sum_mod fun f hf => length_mod (hfields f hf).2
    rw [← List.length_flatMap] at hmod
    have hsize : 12 + (p.fields.flatMap bytes).length = Feedback.getSize p := by
      rw [hsum, sum_getSize hsizes]
      omega
    refine (Feedback.roundTripsVia_iff p fun f hf => encodes_serialize (hwritable f hf)).2 ?_
    refine ⟨hsize, by omega, by omega, htype, (loop_iff p.feedbackType (by omega)).2 ?_⟩
    exact ⟨fun f hf => (hfields f hf).1, hone⟩

end RTCPPayloadFeedback

/-! ## All packets -/

namespace RTCPPacket

/-- When a packet makes the round trip: the header can count its reports, sources or descriptions
and state its size, what is written fills whole words, and no number is among those that one side
cuts and the other does not expect cut. -/
def Faithful : RTCPPacket → Prop
  | senderReport p => p.reports.length < 2 ^ 5
  | receiverReport p => p.reports.length < 2 ^ 5
  | sdes p => (p.descriptions.length % 2 ^ 5 ≠ 0 ∨ p.descriptions = []) ∧
      (∀ d ∈ p.descriptions, ∀ item ∈ d.items, item.type ≠ 0) ∧
        4 + (p.descriptions.map fun d => pad32 d.length).sum ≤ 2 ^ 18
  | bye p => p.ssrcs.length < 2 ^ 5 ∧
      ∀ r ∈ p.reason, r.chars.length < 2 ^ 8 ∧ (r.chars.length + 1) % 4 = 0
  | app p => p.subtype.toNat < 2 ^ 5 ∧ p.data.length % 4 = 0 ∧ 12 + p.data.length ≤ 2 ^ 18
  | rtpFeedback p => RTCPRTPFeedback.Faithful p
  | payloadFeedback p => RTCPPayloadFeedback.Faithful p
  | fullIntraRequest _ => True
  | nack p => p.blp.toNat = p.ssrc.toNat % 2 ^ 16
  | extendedJitterReport p => p.jitters.length < 2 ^ 5

theorem roundTrips_iff_faithful (p : RTCPPacket) : p.RoundTrips ↔ p.Faithful := by
  cases p with
  | senderReport p =>
    exact (roundTripsVia_map_iff fun _ _ => senderReport.inj).trans p.roundTripsVia_iff
  | receiverReport p =>
    exact (roundTripsVia_map_iff fun _ _ => receiverReport.inj).trans p.roundTripsVia_iff
  | sdes p => exact (roundTripsVia_map_iff fun _ _ => sdes.inj).trans p.roundTripsVia_iff
  | bye p => exact (roundTripsVia_map_iff fun _ _ => bye.inj).trans p.roundTripsVia_iff
  | app p => exact (roundTripsVia_map_iff fun _ _ => app.inj).trans p.roundTripsVia_iff
  | rtpFeedback p =>
    exact (roundTripsVia_map_iff fun _ _ => rtpFeedback.inj).trans
      (RTCPRTPFeedback.roundTripsVia_iff p)
  | payloadFeedback p =>
    exact (roundTripsVia_map_iff fun _ _ => payloadFeedback.inj).trans
      (RTCPPayloadFeedback.roundTripsVia_iff p)
  | fullIntraRequest p =>
    exact (roundTripsVia_map_iff fun _ _ => fullIntraRequest.inj).trans
      (iff_true_intro p.roundTripsVia)
  | nack p => exact (roundTripsVia_map_iff fun _ _ => nack.inj).trans p.roundTripsVia_iff
  | extendedJitterReport p =>
    exact (roundTripsVia_map_iff fun _ _ => extendedJitterReport.inj).trans p.roundTripsVia_iff

/-- **The round trip of RTCP packets.** `Serialize` writes `GetSize()` bytes, a multiple of four
that the length field states, and `Parse` of them returns the packet, exactly for the faithful
packets. -/
theorem roundTrip (p : RTCPPacket) : p.RoundTrips ↔ p.Faithful :=
  p.roundTrips_iff_faithful

/-- A request for an intra picture with a number other than zero comes back with the number zero. -/
theorem not_roundTrips_fullIntraRequest :
    ¬ RoundTrips (.payloadFeedback ⟨PayloadFeedbackField.FullIntraRequest, 1, 2,
      [.fullIntraRequest ⟨2, 1⟩]⟩) := by
  intro h
  obtain ⟨-, hfields, -⟩ := (roundTrips_iff_faithful _).1 h
  exact absurd (hfields _ List.mem_cons_self).1.2 (by decide)

end RTCPPacket

end McuMediaServer
