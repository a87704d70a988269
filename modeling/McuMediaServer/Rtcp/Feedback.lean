import McuMediaServer.Rtcp.Packets

/-!
# RTCP feedback packets

Transport-layer and payload-specific feedback are one kind of packet over two kinds of fields. The
type of a feedback packet says which field the parser creates, but a packet may be built from any.
-/

namespace McuMediaServer

open ByteSeq ByteWriter ByteParser

/-- The functions of a field, with the parser of the field that a feedback type stands for.
Reference: `rtp.h:970`, `rtp.h:1187`, `Field`. -/
class FeedbackField (F : Type) where
  getSize : F → Nat
  serialize : F → ByteWriter
  parse : Nat → List UInt8 → Nat → Option (Parsed F)

/-- A feedback packet. The type is what the code casts the five bits of the header to, without
asking whether it names one. Reference: `rtp.h:1129`, `rtp.h:1554`. -/
structure Feedback (F : Type) where
  feedbackType : Nat
  senderSSRC : UInt32
  mediaSSRC : UInt32
  fields : List F
  deriving DecidableEq, Repr

namespace Feedback

variable {F : Type} [FeedbackField F]

/-- Reference: `rtp.cpp:781`, `rtp.cpp:974`. -/
def getSize (p : Feedback F) : Nat :=
  (8 + 4 + (p.fields.map FeedbackField.getSize).sum) % 2 ^ 32

/-- Reference: `rtp.cpp:875`, `rtp.cpp:1050`. -/
def serialize (pt : Nat) (p : Feedback F) : ByteWriter :=
  check p.getSize <| seq <|
    put (rtcpHeader p.feedbackType pt p.getSize ++
      (be4 p.senderSSRC.toNat ++ be4 p.mediaSSRC.toNat)) ::
      p.fields.map FeedbackField.serialize

/-- Reference: `rtp.cpp:791`, `rtp.cpp:984`. -/
def parse (data : List UInt8) (size : Nat) : Option (Parsed (Feedback F)) := do
  let header ← RtcpCommon.read data
  let packetSize := header.headerLength
  if size < packetSize then
    return none
  let senderSSRC ← get4 data 4
  let mediaSSRC ← get4 data 8
  match ← parseAll (FeedbackField.parse header.count) packetSize (data.drop 12)
      (packetSize - 12) with
  | none => return none
  | some (fields, len) =>
    return some (⟨header.count, .ofNat senderSSRC, .ofNat mediaSSRC, fields⟩, 12 + len)

end Feedback

/-! ## Transport-layer feedback -/

/-- The fields of transport-layer feedback. Reference: `rtp.h:970`. -/
inductive RTPFeedbackField where
  | nack (field : NACKField)
  | tempMaxMediaStreamBitrate (field : TempMaxMediaStreamBitrateField)
  deriving DecidableEq, Repr

namespace RTPFeedbackField

/-- The type of lost packets. Reference: `rtp.h:938`. -/
def NACK : Nat := 1

/-- The types of bounds on the bitrate. Reference: `rtp.h:939`. -/
def TempMaxMediaStreamBitrateRequest : Nat := 3

def TempMaxMediaStreamBitrateNotification : Nat := 4

def getSize : RTPFeedbackField → Nat
  | nack field => field.getSize
  | tempMaxMediaStreamBitrate field => field.getSize

def serialize : RTPFeedbackField → ByteWriter
  | nack field => field.serialize
  | tempMaxMediaStreamBitrate field => field.serialize

/-- Reference: `rtp.cpp:816`. -/
def parse (feedbackType : Nat) (data : List UInt8) (size : Nat) :
    Option (Parsed RTPFeedbackField) :=
  if feedbackType = NACK then
    (NACKField.parse data size).map fun r => r.map (Prod.map nack id)
  else if feedbackType = TempMaxMediaStreamBitrateRequest ∨
      feedbackType = TempMaxMediaStreamBitrateNotification then
    (TempMaxMediaStreamBitrateField.parse data size).map fun r =>
      r.map (Prod.map tempMaxMediaStreamBitrate id)
  else
    some none

instance : FeedbackField RTPFeedbackField where
  getSize := getSize
  serialize := serialize
  parse := parse

end RTPFeedbackField

/-- Reference: `rtp.h:934`. -/
abbrev RTCPRTPFeedback := Feedback RTPFeedbackField

namespace RTCPRTPFeedback

def getSize (p : RTCPRTPFeedback) : Nat := Feedback.getSize p

def serialize (p : RTCPRTPFeedback) : ByteWriter := Feedback.serialize 205 p

/-- The returned length counts the header and the sources twice. Reference: `rtp.cpp:842`. -/
def parse (data : List UInt8) (size : Nat) : Option (Parsed RTCPRTPFeedback) :=
  (Feedback.parse data size).map fun r => r.map (Prod.map id (· + 12))

end RTCPRTPFeedback

/-! ## Payload-specific feedback -/

/-- The fields of payload-specific feedback. Reference: `rtp.h:1187`. -/
inductive PayloadFeedbackField where
  | sliceLossIndication (field : SliceLossIndicationField)
  | referencePictureSelection (field : ReferencePictureSelectionField)
  | fullIntraRequest (field : FullIntraRequestField)
  | temporalSpatialTradeOff (field : TemporalSpatialTradeOffField)
  | videoBackChannelMessage (field : VideoBackChannelMessageField)
  | applicationLayerFeeedback (field : ApplicationLayerFeeedbackField)
  deriving DecidableEq, Repr

namespace PayloadFeedbackField

/-- The types of payload-specific feedback; picture loss has no fields. Reference: `rtp.h:1139`. -/
def PictureLossIndication : Nat := 1

def SliceLossIndication : Nat := 2

def ReferencePictureSelectionIndication : Nat := 3

def FullIntraRequest : Nat := 4

def TemporalSpatialTradeOffRequest : Nat := 5

def TemporalSpatialTradeOffNotification : Nat := 6

def VideoBackChannelMessage : Nat := 7

def ApplicationLayerFeeedbackMessage : Nat := 15

def getSize : PayloadFeedbackField → Nat
  | sliceLossIndication field => field.getSize
  | referencePictureSelection field => field.getSize
  | fullIntraRequest field => field.getSize
  | temporalSpatialTradeOff field => field.getSize
  | videoBackChannelMessage field => field.getSize
  | applicationLayerFeeedback field => field.getSize

def serialize : PayloadFeedbackField → ByteWriter
  | sliceLossIndication field => field.serialize
  | referencePictureSelection field => field.serialize
  | fullIntraRequest field => field.serialize
  | temporalSpatialTradeOff field => field.serialize
  | videoBackChannelMessage field => field.serialize
  | applicationLayerFeeedback field => field.serialize

/-- Reference: `rtp.cpp:1009`. -/
def parse (feedbackType : Nat) (data : List UInt8) (size : Nat) :
    Option (Parsed PayloadFeedbackField) :=
  if feedbackType = SliceLossIndication then
    (SliceLossIndicationField.parse data size).map fun r =>
      r.map (Prod.map sliceLossIndication id)
  else if feedbackType = ReferencePictureSelectionIndication then
    (ReferencePictureSelectionField.parse data size).map fun r =>
      r.map (Prod.map referencePictureSelection id)
  else if feedbackType = FullIntraRequest then
    (FullIntraRequestField.parse data size).map fun r => r.map (Prod.map fullIntraRequest id)
  else if feedbackType = TemporalSpatialTradeOffRequest ∨
      feedbackType = TemporalSpatialTradeOffNotification then
    (TemporalSpatialTradeOffField.parse data size).map fun r =>
      r.map (Prod.map temporalSpatialTradeOff id)
  else if feedbackType = VideoBackChannelMessage then
    (VideoBackChannelMessageField.parse data size).map fun r =>
      r.map (Prod.map videoBackChannelMessage id)
  else if feedbackType = ApplicationLayerFeeedbackMessage then
    (ApplicationLayerFeeedbackField.parse data size).map fun r =>
      r.map (Prod.map applicationLayerFeeedback id)
  else
    some none

instance : FeedbackField PayloadFeedbackField where
  getSize := getSize
  serialize := serialize
  parse := parse

end PayloadFeedbackField

/-- Reference: `rtp.h:1136`. -/
abbrev RTCPPayloadFeedback := Feedback PayloadFeedbackField

namespace RTCPPayloadFeedback

def getSize (p : RTCPPayloadFeedback) : Nat := Feedback.getSize p

def serialize (p : RTCPPayloadFeedback) : ByteWriter := Feedback.serialize 206 p

def parse (data : List UInt8) (size : Nat) : Option (Parsed RTCPPayloadFeedback) :=
  Feedback.parse data size

end RTCPPayloadFeedback

end McuMediaServer
