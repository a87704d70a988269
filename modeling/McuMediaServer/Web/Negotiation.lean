import Mathlib.Logic.Function.Basic
import McuMediaServer.Base.HashMap
import McuMediaServer.Web.Codecs

/-!
# Processing session descriptions

A participant processes the descriptions that its peer sends, offers and answers, one after the
other. It keeps what it has bound payload types to in a map for each medium, and what it is to tell
the mixer in properties; from all that is bound it chooses the codec that it sends.

Whether an address is behind a translator (`nated`) is asked of the mixer, and the bindings are gone
through in the order `it` of a hash map. An exception is `none`.
-/

namespace McuMediaServer.Web.Negotiation

open Sdp (Own Attribute Connection MediaDescription SessionDescription equalsIgnoreCase getAttribute
  hasAttribute getAttributes getRTPMap getFormatParameters)

/-- What is sent of a medium: `sendAudioPort`, `sendAudioIp` and `audioCodec`, and the same of video
and text. Reference: `RTPParticipant.java:89`. -/
structure Sender where
  port : Int := 0
  ip : Option Str := none
  codec : Option Int := none
  deriving DecidableEq

/-- Reference: `RTPParticipant.java:177`. -/
structure DTLSInfo where
  setup : Setup
  hash : Option Str
  fingerprint : Option Str

/-- Reference: `RTPParticipant.java:144`. -/
structure CryptoInfo where
  suite : Option Str
  key : Option Str

/-- Reference: `RTPParticipant.java:202`. -/
structure ICEInfo where
  ufrag : Option Str
  pwd : Option Str

/-- The part of a participant that descriptions are processed with. What the source keeps in maps by
the name of one of the three media is a function here. Reference: `RTPParticipant.java:78`. -/
structure RTPParticipant where
  supportedCodecs : Media → Option (List Int)
  supported : Media → Bool := fun _ => true
  sender : Media → Sender := fun _ => {}
  rtpOutMediaMap : Media → Option (HashMap Int Int) := fun _ => none
  rtpMediaProperties : Media → HashMap Str (Option Str) := fun _ => .empty
  rtpExtensionMap : Media → Option (HashMap Str Int) := fun _ => none
  rtpDirections : HashMap Str Direction
  rtpSetups : Media → Setup := fun _ => .actpass
  mids : HashMap Str (Option Str)
  remoteDTLSInfo : Media → Option DTLSInfo := fun _ => none
  remoteCryptoInfo : Media → Option CryptoInfo := fun _ => none
  remoteICEInfo : Media → Option ICEInfo := fun _ => none
  rejectedMedias : List (MediaDescription Own) := []
  videoContentType : Str := []
  videoBitrate : Int := 0
  h264profileLevelId : Option H264ProfileLevelID := none
  h264packetization : Int := 0
  isSecure : Bool := false
  useDTLS : Bool := false
  rtcpFeedBack : Bool := false
  useICE : Bool := false
  useRTX : Bool := true

/-- What `processSDP` has read of the fingerprint, at the session or at a medium before. -/
structure Remote where
  hash : Option Str := none
  fingerprint : Option Str := none

/-- The header extensions that are supported; there is no map for text. Reference:
`RTPParticipant.java:310`. -/
def supportedExtensions : Media → Option (List Str)
  | .audio => some ["urn:ietf:params:rtp-hdrext:ssrc-audio-level".toList]
  | .video => some ["urn:ietf:params:rtp-hdrext:toffset".toList,
      "http://www.webrtc.org/experiments/rtp-hdrext/abs-send-time".toList]
  | .text => none

/-- The address that stands for the one packets come from. -/
def anyAddress : Option Str := some "0.0.0.0".toList

/-! ## What is read of a description -/

/-- The rate in kilobits per second. Reference: `RTPParticipant.java:1104`. -/
def kilobits (band : Sdp.Bandwidth) : Option Int :=
  (band.bandwidth.bind Integer.parseInt).bind fun rate => band.type.map fun type =>
    if equalsIgnoreCase type "TIAS" then rate.val.tdiv 1000 else rate.val

/-- The lowest of the rates. -/
def lowestRate (rate : Sdp.Bandwidth → Option Int) (bandwidths : List Sdp.Bandwidth) : Option Int :=
  bandwidths.foldlM (fun lowest band =>
    (rate band).map fun rate => if lowest = 0 ∨ rate < lowest then rate else lowest) 0

/-- Some room is left for the audio. Reference: `RTPParticipant.java:1101`. -/
def sessionBitrate (sdp : SessionDescription Own) : Option Int :=
  lowestRate (fun band => (kilobits band).map fun rate => if 128 ≤ rate then rate - 64 else rate)
    sdp.bandwidths

/-- Reference: `RTPParticipant.java:1072`. -/
def sessionIp (nated : Option Str → Bool) (useICE : Bool) (sdp : SessionDescription Own) :
    Option (Option Str) :=
  match sdp.connection with
  | none => some none
  | some conn =>
    conn.addrType.map fun addrType =>
      if !equalsIgnoreCase addrType "IP4" then anyAddress
      else if nated conn.address || useICE then anyAddress
      else conn.address

/-- The address of the last connection, or that of the session. Reference:
`RTPParticipant.java:1294`. -/
def mediaIp (nated : Option Str → Bool) (useICE : Bool) (ip : Option Str)
    (md : MediaDescription Own) : Option Str :=
  md.connections.foldl (fun (_ : Option Str) (c : Connection) =>
    if nated c.address || useICE then anyAddress else c.address) ip

/-- Both attributes have to be there. Reference: `RTPParticipant.java:1120,1280`. -/
def iceCredentials (attributes : List (Attribute Own)) : Option (Option ICEInfo) :=
  (getAttribute "ice-ufrag" attributes).bind fun ufragAttr =>
  (getAttribute "ice-pwd" attributes).bind fun pwdAttr =>
    match ufragAttr, pwdAttr with
    | some ufragAttr, some pwdAttr =>
      ufragAttr.getValue.bind fun ufrag => pwdAttr.getValue.map fun pwd => some { ufrag, pwd }
    | _, _ => some none

/-- An attribute of the name has to be of the class. Reference: `RTPParticipant.java:1138,1322`. -/
def readFingerprint (attributes : List (Attribute Own)) : Option (Option Remote) :=
  (getAttribute "fingerprint" attributes).bind fun fingerprintAttr =>
    match fingerprintAttr with
    | none => some none
    | some (.fingerprint hash fingerprint) => some (some { hash, fingerprint })
    | some _ => none

/-- Reference: `RTPParticipant.java:1340`. -/
def readSetup (attributes : List (Attribute Own)) : Option Setup :=
  (getAttribute "setup" attributes).bind fun attr =>
    match attr with
    | none => some .actpass
    | some attr => attr.getValue.map Setup.byValue

/-- There has to be a key. Reference: `RTPParticipant.java:1351`. -/
def readCrypto (attributes : List (Attribute Own)) : Option (Option CryptoInfo) :=
  (getAttribute "crypto" attributes).bind fun crypto =>
    match crypto with
    | none => some none
    | some (.crypto _ suite keyParams _) =>
      keyParams.head?.map fun param => some { suite, key := param.info }
    | some _ => none

/-- Reference: `RTPParticipant.java:1202`. -/
def readDirection (attributes : List (Attribute Own)) : Option Direction :=
  (hasAttribute "sendonly" attributes).bind fun sendonly =>
    if sendonly then some .sendonly
    else (hasAttribute "recvonly" attributes).bind fun recvonly =>
      if recvonly then some .recvonly
      else (hasAttribute "inactive" attributes).map fun inactive =>
        if inactive then .inactive else .sendrecv

/-- The identification of a medium, if it has one. Reference: `RTPParticipant.java:1197`. -/
def readMid (attributes : List (Attribute Own)) : Option (Option (Option Str)) :=
  (getAttribute "mid" attributes).bind fun attr =>
    match attr with
    | none => some none
    | some attr => attr.getValue.map some

/-- What a video is said to show. -/
inductive Content
  | unsaid
  | main (value : Str)
  | other (attr : Attribute Own)

/-- Reference: `RTPParticipant.java:1223`. -/
def readContent (attributes : List (Attribute Own)) : Option Content :=
  (getAttribute "content" attributes).bind fun content =>
    match content with
    | none => some .unsaid
    | some attr => attr.getValue.bind fun value => value.map fun value =>
      if equalsIgnoreCase value "main" then .main value else .other attr

/-- The part of the transport before the profile. Reference: `RTPParticipant.java:1164`. -/
def transport (md : MediaDescription Own) : Option Str :=
  (md.proto.reverse[1]?).join

/-- Reference: `RTPParticipant.java:1308`. -/
def overDTLS (md : MediaDescription Own) : Option Bool :=
  (md.proto[0]?).join.bind fun first =>
    if first = "UDP".toList then (md.proto[1]?).join.map fun second => second = "TLS".toList
    else some false

/-- The transport as it is printed. Reference: `MediaDescription.java:220`. -/
def protoString (md : MediaDescription Own) : Option Str :=
  md.proto.foldl (fun value p =>
    match value with
    | none => p
    | some value => some (value ++ '/' :: Sdp.str p)) none

/-- The medium that is told to be rejected. Reference: `RTPParticipant.java:1167,1233,1258`. -/
def rejected (md : MediaDescription Own) (attributes : List (Attribute Own)) :
    Option (MediaDescription Own) :=
  (protoString md).map fun proto =>
    { media := md.media
      port := some 0
      proto := (Sdp.tokens proto).map some
      formats := md.formats
      connections := []
      bandwidths := []
      attributes }

/-! ## Formats -/

/-- The variables of the loop over the formats: what is put into the map of the bindings, the
payload type of H.264 with its profile, and the packetization mode, if one is set. -/
structure Formats where
  puts : List (Int × Int) := []
  h264type : Int := 0
  maxh264profile : Option H264ProfileLevelID := none
  packetization : Option Int := none

/-- A payload type of H.264: a profile that is supported is taken if it is above those before, and
one without a profile if there has been none. Reference: `RTPParticipant.java:1402`. -/
def Formats.addH264 (l : Formats) (md : MediaDescription Own) (type : Int) : Option Formats :=
  (getFormatParameters type md.attributes).bind fun params =>
    match params.bind (·.get? "profile-level-id") with
    | none => some (if l.maxh264profile = none then { l with h264type := type } else l)
    | some value =>
      (value.bind H264ProfileLevelID.parse).bind fun profileLevelId =>
        if profileLevelId.profile ≤ Codecs.maxH264SupportedProfile ∧
            ∀ max ∈ l.maxh264profile, max.profile < profileLevelId.profile then
          let l := { l with h264type := type, maxh264profile := some profileLevelId }
          match params.bind (·.get? "packetization-mode") with
          | none => some l
          | some mode => (mode.bind Integer.parseInt).map fun mode =>
            { l with packetization := some mode.val }
        else some l

/-- One of the formats. Reference: `RTPParticipant.java:1379`. -/
def Formats.add (m : Media) (md : MediaDescription Own) (l : Formats) (fmt : Option Str) :
    Option Formats :=
  match fmt.bind Integer.parseInt with
  | none => some l
  | some type =>
    if 96 ≤ type.val then
      (getRTPMap type.val md.attributes).bind fun rtpMap =>
        match rtpMap with
        | none => some l
        | some (name, rate) =>
          name.bind fun codecName =>
            if Codecs.getCodecForName m codecName = Codecs.h264 then l.addH264 md type.val
            else if Codecs.getCodecForName m codecName = Codecs.speex16 then
              rate.map fun rate =>
                if rate = 16000 then
                  { l with puts := l.puts ++ [(type.val, Codecs.getCodecForName m codecName)] }
                else l
            else if Codecs.getCodecForName m codecName = -1 then some l
            else some { l with puts := l.puts ++ [(type.val, Codecs.getCodecForName m codecName)] }
    else some { l with puts := l.puts ++ [(type.val, type.val)] }

/-- Reference: the loop of `RTPParticipant.java:1377`. -/
def readFormats (m : Media) (md : MediaDescription Own) : Option Formats :=
  md.formats.foldlM (Formats.add m md) {}

/-- All that is put, with the payload type of H.264 behind. Reference: `RTPParticipant.java:1446`.
-/
def Formats.bindings (l : Formats) : List (Int × Int) :=
  if 0 < l.h264type then l.puts ++ [(l.h264type, Codecs.h264)] else l.puts

/-! ## Extensions -/

/-- Reference: the loop of `RTPParticipant.java:1586`. -/
def readExtension (names : List Str) : Attribute Own → Option (Option (Str × Int))
  | .extMap id _ (some name) _ =>
    if name ∈ names then id.map fun id => some (name, id) else some none
  | .extMap _ _ none _ => some none
  | _ => none

/-- The supported extensions with their ids. -/
def readExtensions (names : List Str) (md : MediaDescription Own) : Option (List (Str × Int)) :=
  (getAttributes "extmap" md.attributes).bind fun extmaps =>
    (extmaps.mapM (readExtension names)).map List.reduceOption

/-! ## What is done to the participant -/

namespace RTPParticipant

variable (p : RTPParticipant) (m : Media)

/-- Reference: the constructor, `RTPParticipant.java:243`. -/
def new (supportedCodecs : Media → Option (List Int)) : RTPParticipant where
  supportedCodecs := supportedCodecs
  rtpDirections := HashMap.empty.putAll [(Media.audio.name, .sendrecv),
    (Media.video.name, .sendrecv), (Media.text.name, .sendrecv)]
  mids := HashMap.empty.putAll [(Media.audio.name, some Media.audio.name),
    (Media.video.name, some Media.video.name), (Media.text.name, some Media.text.name)]

def setSender (sender : Sender) : RTPParticipant :=
  { p with sender := Function.update p.sender m sender }

def putProperty (key : Str) (value : Option Str) : RTPParticipant :=
  { p with rtpMediaProperties :=
    Function.update p.rtpMediaProperties m ((p.rtpMediaProperties m).put key value) }

def reject (md : MediaDescription Own) : RTPParticipant :=
  { p with rejectedMedias := p.rejectedMedias ++ [md] }

/-- Reference: `RTPParticipant.java:1245`. -/
def acceptVideo (content : Str) (mediaBitrate : Int) : RTPParticipant :=
  { p with
    videoContentType := content
    videoBitrate :=
      if p.videoBitrate = 0 ∨ 0 < mediaBitrate ∧ mediaBitrate < p.videoBitrate then mediaBitrate
      else p.videoBitrate
    supported := Function.update p.supported .video true }

/-- Nothing is supported or sent to; codecs and addresses stay. Reference:
`RTPParticipant.java:1086`. -/
def reset (videoBitrate : Int) (useICE useDTLS : Bool) : RTPParticipant :=
  { p with
    supported := fun _ => false
    sender := fun m => { p.sender m with port := 0 }
    videoBitrate
    useICE
    useDTLS }

/-- What is read of every medium that is RTP: the properties of a name that is none of the three are
not there. Reference: `RTPParticipant.java:1192`. -/
def readMedia (media : Str) (md : MediaDescription Own) : Option RTPParticipant :=
  (hasAttribute "rtcp-mux" md.attributes).bind fun mux =>
  (if mux then (Media.ofName? media).map fun m => p.putProperty m "rtcp-mux".toList (some ['1'])
    else some p).bind fun p =>
  (readMid md.attributes).bind fun mid =>
  (readDirection md.attributes).map fun direction =>
    { p with
      mids := mid.elim p.mids (p.mids.put media)
      rtpDirections := p.rtpDirections.put media direction }

/-- Keys are exchanged by DTLS or in the description. Reference: `RTPParticipant.java:1335`. -/
def readKeys (md : MediaDescription Own) (remote : Remote) : Option RTPParticipant :=
  if p.useDTLS then
    (readSetup md.attributes).map fun setup =>
      { p with
        remoteDTLSInfo := Function.update p.remoteDTLSInfo m
          (some { setup, hash := remote.hash, fingerprint := remote.fingerprint })
        rtpSetups := Function.update p.rtpSetups m setup.reverse }
  else
    (readCrypto md.attributes).map fun info =>
      { p with
        remoteCryptoInfo := Function.update p.remoteCryptoInfo m (info.or (p.remoteCryptoInfo m)) }

/-- Reference: `RTPParticipant.java:1308`. -/
def readSecurity (md : MediaDescription Own) (remote : Remote) :
    Option (RTPParticipant × Remote) :=
  (overDTLS md).bind fun dtls =>
  md.proto.getLast?.join.bind fun rtpProfile =>
  (if rtpProfile.head? = some 'S' then
    (readFingerprint md.attributes).bind fun fingerprint =>
      (readKeys { p with isSecure := true, useDTLS := p.useDTLS || dtls || fingerprint.isSome } m md
        (fingerprint.getD remote)).map fun p => (p, fingerprint.getD remote)
  else some ({ p with useDTLS := p.useDTLS || dtls }, remote)).map fun l =>
    ({ l.1 with rtcpFeedBack := l.1.rtcpFeedBack || rtpProfile.getLast? = some 'F' }, l.2)

/-- Reference: `RTPParticipant.java:1446`, and the bindings that the loop before has put. -/
def bind (l : Formats) : RTPParticipant :=
  { p with
    rtpOutMediaMap := Function.update p.rtpOutMediaMap m
      (some (((p.rtpOutMediaMap m).getD .empty).putAll l.bindings))
    h264packetization := l.packetization.getD p.h264packetization
    h264profileLevelId := if 0 < l.h264type then l.maxh264profile else p.h264profileLevelId }

/-- A payload type of retransmissions; there have to be parameters of it. Reference:
`RTPParticipant.java:1492`. -/
def selectRTX (md : MediaDescription Own) (type : Int) : Option RTPParticipant :=
  (getFormatParameters type md.attributes).bind fun fp => fp.map fun fp =>
    match fp.get? "apt" with
    | none => p
    | some apt =>
      ({ p with useRTX := true }.putProperty m "useRTX".toList (some ['1'])).putProperty m
        "rtx.apt".toList apt

end RTPParticipant

/-- The codecs that a video is not sent with on their own. -/
def isRepair (m : Media) (codec : Int) : Bool :=
  m = .video ∧ (codec = Codecs.red ∨ codec = Codecs.ulpfec ∨ codec = Codecs.rtx)

/-- What is sent, with the index of the codec; there is none before the first. -/
structure Selection where
  sender : Sender
  priority : Option Nat := none

/-- Reference: the bodies of the loops of `RTPParticipant.java:1466,1511,1540`. -/
def Selection.step (m : Media) (port : Int) (ip : Option Str) (codec : Int) (l : Selection)
    (e : Int × Nat) : Selection :=
  if e.1 = codec ∧ isRepair m codec = false then
    let sender := if l.priority = none then { l.sender with port, ip } else l.sender
    if ∀ priority ∈ l.priority, e.2 < priority then
      { sender := { sender with codec := some codec }, priority := some e.2 }
    else { l with sender }
  else l

namespace RTPParticipant

variable (p : RTPParticipant) (m : Media)

/-- One of the bindings. The list of the codecs has to be there. Reference:
`RTPParticipant.java:1455`. -/
def selectEntry (md : MediaDescription Own) (port : Int) (ip : Option Str)
    (l : RTPParticipant × Option Nat) (entry : Int × Int) : Option (RTPParticipant × Option Nat) :=
  (if m = .video ∧ entry.2 = Codecs.rtx then l.1.selectRTX m md entry.1 else some l.1).bind fun p =>
  (p.supportedCodecs m).map fun codecs =>
    let l := codecs.zipIdx.foldl (Selection.step m port ip entry.2)
      { sender := p.sender m, priority := l.2 }
    (p.setSender m l.sender, l.priority)

/-- Reference: the loop of `RTPParticipant.java:1455`. -/
def select (it : HashMap.Iteration Int Int) (md : MediaDescription Own) (port : Int)
    (ip : Option Str) : Option RTPParticipant :=
  ((it.entrySet ((p.rtpOutMediaMap m).getD .empty)).foldlM (selectEntry m md port ip) (p, none)).map
    Prod.fst

/-- One extension. Reference: `RTPParticipant.java:1586`. -/
def putExtension (offer : Bool) (e : Str × Int) : RTPParticipant :=
  (if offer then
    { p with
      rtpExtensionMap := Function.update p.rtpExtensionMap m
        ((p.rtpExtensionMap m).map fun map => map.put e.1 e.2) }
  else p).putProperty m e.1 (some (toString e.2).toList)

/-- The map of the extensions is made when there is one. Reference: `RTPParticipant.java:1572`. -/
def selectExtensions (md : MediaDescription Own) : Option RTPParticipant :=
  match supportedExtensions m with
  | none => some p
  | some names =>
    (readExtensions names md).map fun ids =>
      ids.foldl (fun p e => p.putExtension m (p.rtpExtensionMap m).isSome e)
        { p with
          rtpExtensionMap := Function.update p.rtpExtensionMap m
            ((p.rtpExtensionMap m).map fun _ => .empty) }

/-- Credentials of which both are there. Reference: `RTPParticipant.java:1565`. -/
def putICE (ice : Option ICEInfo) : RTPParticipant :=
  { p with
    remoteICEInfo := Function.update p.remoteICEInfo m
      ((ice.filter fun info => info.ufrag.isSome && info.pwd.isSome).or (p.remoteICEInfo m)) }

/-- A medium that is accepted. Reference: `RTPParticipant.java:1267`. -/
def negotiate (nated : Option Str → Bool) (it : HashMap.Iteration Int Int) (ip : Option Str)
    (ice : Option ICEInfo) (md : MediaDescription Own) (port : Int) (remote : Remote) :
    Option (RTPParticipant × Remote) :=
  (iceCredentials md.attributes).bind fun mediaIce =>
  (readSecurity { p with useICE := p.useICE || mediaIce.isSome } m md remote).bind fun l =>
  (readFormats m md).bind fun formats =>
  (select (l.1.bind m formats) m it md port
    (mediaIp nated (p.useICE || mediaIce.isSome) ip md)).bind fun p =>
  (selectExtensions (p.putICE m (mediaIce.or ice)) m md).map fun p => (p, l.2)

/-- One medium of a description. Reference: the loop of `RTPParticipant.java:1152`. -/
def processMedia (nated : Option Str → Bool) (it : HashMap.Iteration Int Int) (ip : Option Str)
    (ice : Option ICEInfo) (l : RTPParticipant × Remote) (md : MediaDescription Own) :
    Option (RTPParticipant × Remote) :=
  (transport md).bind fun transport =>
  (if transport = "RTP".toList then md.port else some 0).bind fun port =>
  if port = 0 then
    (rejected md []).map fun md => (l.1.reject md, l.2)
  else
    (lowestRate kilobits md.bandwidths).bind fun mediaBitrate =>
    md.media.bind fun media =>
    (l.1.readMedia media md).bind fun p =>
      match Media.ofName? media with
      | none => (rejected md []).map fun md => (p.reject md, l.2)
      | some .video =>
        (readContent md.attributes).bind fun content =>
          match content with
          | .other attr => (rejected md [attr]).map fun md => (p.reject md, l.2)
          | .unsaid =>
            (p.acceptVideo p.videoContentType mediaBitrate).negotiate .video nated it ip ice md
              port l.2
          | .main value =>
            (p.acceptVideo value mediaBitrate).negotiate .video nated it ip ice md port l.2
      | some m =>
        ({ p with supported := Function.update p.supported m true }).negotiate m nated it ip ice md
          port l.2

/-- Reference: `RTPParticipant.java:1061`. -/
def processSDP (nated : Option Str → Bool) (it : HashMap.Iteration Int Int)
    (sdp : SessionDescription Own) : Option RTPParticipant :=
  (sessionIp nated p.useICE sdp).bind fun ip =>
  (sessionBitrate sdp).bind fun videoBitrate =>
  (iceCredentials sdp.attributes).bind fun ice =>
  (readFingerprint sdp.attributes).bind fun fingerprint =>
  (sdp.medias.foldlM (processMedia nated it ip ice)
    (p.reset videoBitrate (p.useICE || ice.isSome) (p.useDTLS || fingerprint.isSome),
      fingerprint.getD {})).map Prod.fst

end RTPParticipant

end McuMediaServer.Web.Negotiation
