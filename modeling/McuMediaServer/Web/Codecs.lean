import McuMediaServer.Sdp.Lookup
import McuMediaServer.Web.Xml

/-!
# Codecs

The numbers of the codecs, the names under which descriptions have them, and what the profile of
H.264 is read from.
-/

namespace McuMediaServer.Web

open Sdp (equalsIgnoreCase)

/-- The media that a participant sends. Reference: `Codecs.MediaType` (`Codecs.java:17`). -/
inductive Media
  | audio
  | video
  | text
  deriving DecidableEq

namespace Media

def name : Media → Str
  | audio => "audio".toList
  | video => "video".toList
  | text => "text".toList

def ofName? (s : Str) : Option Media :=
  if s = audio.name then some audio
  else if s = video.name then some video
  else if s = text.name then some text
  else none

end Media

namespace Codecs

def h264 : Int := 99
def speex16 : Int := 117
def ulpfec : Int := 108
def red : Int := 109
def rtx : Int := 110
def maxH264SupportedProfile : Int := 77

/-- The codecs of each medium by their names. Reference: `Codecs.java:124`. -/
def names : Media → List (String × Int)
  | .audio => [("PCMU", 0), ("PCMA", 8), ("GSM", 3), ("SPEEX", speex16), ("AMR", 118),
    ("AMR-WB", 119), ("G726", 120), ("G722", 9), ("NELLY11", 131), ("opus", 98),
    ("telephone-event", 100)]
  | .video => [("H263", 34), ("H263-1998", 103), ("H263-2000", 103), ("MP4V-ES", 104),
    ("H264", h264), ("SORENSON", 100), ("VP8", 107), ("RED", red), ("ULPFEC", ulpfec), ("RTX", rtx)]
  | .text => [("RED", 105), ("T140", 106)]

/-- Reference: `Codecs.java:152`. -/
def getCodecForName (media : Media) (name : Str) : Int :=
  (((names media).find? fun e => equalsIgnoreCase name e.1).map Prod.snd).getD (-1)

end Codecs

/-- Reference: `Codecs.Direction` (`Codecs.java:39`). -/
inductive Direction
  | inactive
  | sendrecv
  | sendonly
  | recvonly
  deriving DecidableEq

/-- Reference: `Codecs.Setup` (`Codecs.java:77`). -/
inductive Setup
  | active
  | passive
  | actpass
  | inactive
  deriving DecidableEq

namespace Setup

/-- Reference: `Codecs.java:83`. -/
def byValue (value : Option Str) : Setup :=
  if value = some "active".toList then active
  else if value = some "passive".toList then passive
  else if value = some "actpass".toList then actpass
  else inactive

/-- Reference: `Codecs.java:111`. -/
def reverse : Setup → Setup
  | active => passive
  | passive => active
  | actpass => passive
  | inactive => inactive

end Setup

/-- Reference: `H264ProfileLevelID.java:13`. -/
structure H264ProfileLevelID where
  profile : Int
  constrains : Int
  level : Int
  deriving DecidableEq

def hexDigit (c : Char) : Option Int :=
  if '0' ≤ c ∧ c ≤ '9' then some (c.toNat - 48)
  else if 'a' ≤ c ∧ c ≤ 'f' then some (c.toNat - 87)
  else if 'A' ≤ c ∧ c ≤ 'F' then some (c.toNat - 55)
  else none

/-- A hexadecimal number of two characters, of which the first may be the sign. -/
def parseHexPair (a b : Char) : Option Int :=
  if a = '+' then hexDigit b
  else if a = '-' then (hexDigit b).map Neg.neg
  else (hexDigit a).bind fun high => (hexDigit b).map fun low => 16 * high + low

/-- What is too short throws, and so does what is not a number. Reference:
`H264ProfileLevelID.java:18`. -/
def H264ProfileLevelID.parse : Str → Option H264ProfileLevelID
  | a :: b :: c :: d :: e :: f :: _ =>
    (parseHexPair a b).bind fun profile => (parseHexPair c d).bind fun constrains =>
      (parseHexPair e f).map fun level => { profile, constrains, level }
  | _ => none

end McuMediaServer.Web
