import McuMediaServer.Amf.Data

/-!
# The media of RTMP

An audio or video frame is a byte or two, for AVC five, that say how it is coded, and the coded
media. A frame is parsed in blocks of any size into a buffer of a size fixed before. A metadata
message is a timestamp and a list of AMF values.
-/

namespace McuMediaServer

open Amf (WString AMFData)

/-- A timestamp. -/
abbrev QWORD := BitVec 64

/-- Reference: `rtmpmessage.h:58`. The media parsed or set so far is kept, which is as much as the
position in the buffer says. -/
structure RTMPVideoFrame where
  timestamp : QWORD
  bufferSize : Nat
  codec : UInt8 := 0
  frameType : UInt8 := 0
  extraData : Fin 4 → UInt8 := fun _ => 0
  headerPos : Nat := 0
  media : List UInt8 := []
  deriving DecidableEq

namespace RTMPVideoFrame

/-- Reference: `rtmpmessage.h:61`. -/
def AVC : UInt8 := 7

def INTRA : UInt8 := 1

def GENERATED_KEY_FRAME : UInt8 := 4

def AVCHEADER : UInt8 := 0

def getAVCType (frame : RTMPVideoFrame) : UInt8 := frame.extraData ⟨0, Nat.zero_lt_succ 3⟩

end RTMPVideoFrame

/-- Reference: `rtmpmessage.h:92`. -/
structure RTMPAudioFrame where
  timestamp : QWORD
  bufferSize : Nat
  codec : UInt8 := 0
  rate : UInt8 := 0
  sample16bits : Bool := false
  stereo : Bool := false
  extraData : UInt8 := 0
  headerPos : Nat := 0
  media : List UInt8 := []
  deriving DecidableEq

namespace RTMPAudioFrame

/-- Reference: `rtmpmessage.h:95`. -/
def AAC : UInt8 := 10

def AACSequenceHeader : UInt8 := 0

def getAACPacketType (frame : RTMPAudioFrame) : UInt8 := frame.extraData

end RTMPAudioFrame

/-- Reference: `rtmpmessage.h:11`. -/
inductive RTMPMediaFrame where
  | audio (frame : RTMPAudioFrame)
  | video (frame : RTMPVideoFrame)
  deriving DecidableEq

namespace RTMPMediaFrame

def getTimestamp : RTMPMediaFrame → QWORD
  | audio frame => frame.timestamp
  | video frame => frame.timestamp

def setTimestamp (timestamp : QWORD) : RTMPMediaFrame → RTMPMediaFrame
  | audio frame => audio { frame with timestamp }
  | video frame => video { frame with timestamp }

@[simp]
theorem getTimestamp_setTimestamp (frame : RTMPMediaFrame) (timestamp : QWORD) :
    (frame.setTimestamp timestamp).getTimestamp = timestamp := by
  cases frame <;> rfl

end RTMPMediaFrame

/-- Reference: `rtmpmessage.h:171`. -/
structure RTMPMetaData where
  timestamp : QWORD
  params : List AMFData

namespace RTMPMetaData

/-- The name in front of the values of a data frame. -/
def setDataFrame : WString := "@setDataFrame".toList.map Char.toNat

/-- The first parameter, which is taken for a string. -/
def name (message : RTMPMetaData) : WString :=
  match message.params with
  | .string name :: _ => name
  | _ => []

end RTMPMetaData

end McuMediaServer
