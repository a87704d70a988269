import McuMediaServer.Base.Run
import McuMediaServer.Rtmp.Media

/-!
# Piped media streams

A piped stream hands the frames and the metadata of the stream it is attached to on to listeners of
its own. It begins with the first frame, or, when it is told to wait, with the first intra picture;
what it has been given before, the metadata and the decoder configurations, it hands out then. The
timestamps are counted from the first frame. A cached stream keeps the frames since the last intra
frame for the listeners that come later.

What a listener is to get is said of the inputs alone (`RTMPPipedMediaStream.expected`).
-/

namespace McuMediaServer

open StepRun

namespace RTMPMediaFrame

/-- An intra frame, as the cache takes it. -/
def isIntra : RTMPMediaFrame → Bool
  | audio _ => false
  | video frame => frame.frameType = RTMPVideoFrame.INTRA

end RTMPMediaFrame

/-- What a listener is told. Reference: `RTMPMediaStream::Listener` (`rtmpstream.h:144`). -/
inductive StreamEvent where
  | onStreamBegin
  | onMetaData (message : RTMPMetaData)
  | onMediaFrame (frame : RTMPMediaFrame)
  | onStreamReset

/-- Reference: `rtmpstream.h:192,229`. A cached stream has a cache. What the listeners are told
while a call is handled is collected in `sent`. -/
structure RTMPPipedMediaStream where
  waitIntra : Bool
  rewriteTimestamps : Bool
  cached : Option (List RTMPMediaFrame)
  first : QWORD := -1
  metaData : Option RTMPMetaData := none
  desc : Option RTMPVideoFrame := none
  aacSpecificConfig : Option RTMPAudioFrame := none
  listeners : Nat → Bool := fun _ => false
  sent : List StreamEvent := []

namespace RTMPPipedMediaStream

/-- Tell all listeners. -/
def send (s : RTMPPipedMediaStream) (events : List StreamEvent) : RTMPPipedMediaStream :=
  { s with sent := s.sent ++ events }

/-- Send a frame. The cached stream keeps a clone. Reference: `rtmpstream.cpp:75,484`. -/
def sendMediaFrame (s : RTMPPipedMediaStream) (frame : RTMPMediaFrame) : RTMPPipedMediaStream :=
  { s with cached := s.cached.map fun cached => (if frame.isIntra then [] else cached) ++ [frame] }
    |>.send [.onMediaFrame frame]

/-- What is done with a frame that the stream is not to begin with. It has no value for a frame that
begins the stream. Reference: `rtmpstream.cpp:274`. -/
def waiting (s : RTMPPipedMediaStream) (frame : RTMPMediaFrame) : Option RTMPPipedMediaStream :=
  if !s.waitIntra then none
  else
    match frame with
    | .audio audio =>
      if audio.codec = RTMPAudioFrame.AAC ∧
          audio.getAACPacketType = RTMPAudioFrame.AACSequenceHeader then
        some { s with aacSpecificConfig := some audio }
      else some s
    | .video video =>
      if video.frameType ≠ RTMPVideoFrame.INTRA ∧
          video.frameType ≠ RTMPVideoFrame.GENERATED_KEY_FRAME then
        some s
      else if video.codec = RTMPVideoFrame.AVC then
        if video.getAVCType = RTMPVideoFrame.AVCHEADER then
          some { s with desc := some { video with timestamp := 0 } }
        else if s.desc.isNone then some s
        else none
      else none

/-- Begin the stream with a frame. Reference: `rtmpstream.cpp:324`. -/
def begin (s : RTMPPipedMediaStream) (ts : QWORD) : RTMPPipedMediaStream :=
  let s := { s.send [.onStreamBegin] with first := ts }
  let s := s.send (s.metaData.toList.map .onMetaData)
  let s := (s.desc.toList.map .video).foldl sendMediaFrame s
  (s.aacSpecificConfig.toList.map .audio).foldl sendMediaFrame s

/-- Send a frame on, with its time since the first one. Reference: `rtmpstream.cpp:342`. -/
def relay (s : RTMPPipedMediaStream) (frame : RTMPMediaFrame) : RTMPPipedMediaStream :=
  if s.rewriteTimestamps then
    if frame.getTimestamp < s.first then s
    else s.sendMediaFrame (frame.setTimestamp (frame.getTimestamp - s.first))
  else s.sendMediaFrame frame

/-- Reference: `rtmpstream.cpp:261`. -/
def onMediaFrame (s : RTMPPipedMediaStream) (frame : RTMPMediaFrame) : RTMPPipedMediaStream :=
  let ts := frame.getTimestamp
  let s := if ts = -1 then s.sendMediaFrame frame else s
  if s.first = -1 then
    match s.waiting frame with
    | some s => s
    | none => (s.begin ts).relay frame
  else s.relay frame

/-- Reference: `rtmpstream.cpp:365`. -/
def onMetaData (s : RTMPPipedMediaStream) (message : RTMPMetaData) : RTMPPipedMediaStream :=
  let ts := message.timestamp
  if message.name = RTMPMetaData.setDataFrame then
    let metaData : RTMPMetaData := ⟨0, message.params.tail⟩
    if s.first ≠ -1 then
      let metaData := if s.rewriteTimestamps then { metaData with timestamp := ts - s.first }
        else metaData
      { s with metaData := some metaData }.send [.onMetaData metaData]
    else { s with metaData := some metaData }
  else
    let cloned := if s.rewriteTimestamps then
        { message with timestamp := if s.first ≠ -1 then ts - s.first else 0 }
      else message
    s.send [.onMetaData cloned]

/-- What a listener is told when it is added: the metadata, the stored configuration and, by a
cached stream, the cached frames. Reference: `rtmpstream.cpp:200,458`. -/
def greeting (s : RTMPPipedMediaStream) : List StreamEvent :=
  s.metaData.toList.map .onMetaData ++ (s.desc.toList.map .video).map .onMediaFrame ++
    (s.cached.getD []).map .onMediaFrame

/-- What happens to a stream. -/
inductive Input where
  | frame (frame : RTMPMediaFrame)
  | metaData (message : RTMPMetaData)
  | reset
  | addMediaListener (listener : Nat)
  | removeMediaListener (listener : Nat)

/-- Nothing is sent yet. -/
def silent (s : RTMPPipedMediaStream) : RTMPPipedMediaStream := { s with sent := [] }

/-- Handle an input. -/
def step (s : RTMPPipedMediaStream) (input : Input) : RTMPPipedMediaStream :=
  let s := s.silent
  match input with
  | .frame frame => s.onMediaFrame frame
  | .metaData message => s.onMetaData message
  | .reset => s.send [.onStreamReset]
  | .addMediaListener listener =>
    { s with listeners := Function.update s.listeners listener true }
  | .removeMediaListener listener =>
    { s with listeners := Function.update s.listeners listener false }

/-- What one listener is told of an input. -/
def told (s : RTMPPipedMediaStream) (input : Input) (listener : Nat) : List StreamEvent :=
  match input with
  | .addMediaListener added => if added = listener then s.greeting else []
  | input => if s.listeners listener then (s.step input).sent else []

/-- What one listener is told in a run. -/
def heard (s : RTMPPipedMediaStream) (listener : Nat) : List Input → List StreamEvent
  | [] => []
  | input :: inputs => s.told input listener ++ heard (s.step input) listener inputs

/-! ## What a listener is to get -/

/-- The decoder configuration of a frame, at time zero. -/
def avcConfig : RTMPMediaFrame → Option RTMPVideoFrame
  | .audio _ => none
  | .video video =>
    if (video.frameType = RTMPVideoFrame.INTRA ∨
        video.frameType = RTMPVideoFrame.GENERATED_KEY_FRAME) ∧
        video.codec = RTMPVideoFrame.AVC ∧ video.getAVCType = RTMPVideoFrame.AVCHEADER then
      some { video with timestamp := 0 }
    else none

/-- The audio configuration of a frame, at time zero. -/
def aacConfig : RTMPMediaFrame → Option RTMPAudioFrame
  | .video _ => none
  | .audio audio =>
    if audio.codec = RTMPAudioFrame.AAC ∧
        audio.getAACPacketType = RTMPAudioFrame.AACSequenceHeader then
      some { audio with timestamp := 0 }
    else none

/-- The values of a data frame. -/
def dataFrame (message : RTMPMetaData) : Option (List Amf.AMFData) :=
  if message.name = RTMPMetaData.setDataFrame then some message.params.tail else none

namespace Input

def frame? : Input → Option RTMPMediaFrame
  | .frame f => some f
  | _ => none

def metaData? : Input → Option RTMPMetaData
  | .metaData m => some m
  | _ => none

/-- The frames, and the metadata, with their time since the first frame. -/
def relative (first : QWORD) : Input → List StreamEvent
  | .frame f => [.onMediaFrame (f.setTimestamp
      (BitVec.ofNat 64 (f.getTimestamp.toNat - first.toNat)))]
  | .metaData m => [.onMetaData ⟨BitVec.ofNat 64 (m.timestamp.toNat - first.toNat),
      (dataFrame m).getD m.params⟩]
  | _ => []

end Input

/-- The last configurations and data frame of some inputs. -/
def lastAvcConfig (inputs : List Input) : Option RTMPVideoFrame :=
  ((inputs.filterMap Input.frame?).filterMap avcConfig).getLast?

def lastAacConfig (inputs : List Input) : Option RTMPAudioFrame :=
  ((inputs.filterMap Input.frame?).filterMap aacConfig).getLast?

def lastDataFrame (inputs : List Input) : Option (List Amf.AMFData) :=
  ((inputs.filterMap Input.metaData?).filterMap dataFrame).getLast?

/-- A picture that can be decoded on its own, once there is a decoder configuration for it. -/
def isPicture : RTMPMediaFrame → Bool
  | .audio _ => false
  | .video video =>
    (video.frameType = RTMPVideoFrame.INTRA ∨
      video.frameType = RTMPVideoFrame.GENERATED_KEY_FRAME) ∧
      (video.codec = RTMPVideoFrame.AVC → video.getAVCType ≠ RTMPVideoFrame.AVCHEADER)

/-- The frame is H.264. -/
def isAvc : RTMPMediaFrame → Bool
  | .audio _ => false
  | .video video => video.codec = RTMPVideoFrame.AVC

/-- The stream may begin with the frame after some inputs: at once, or when it is to wait with a
picture that the inputs have a configuration for. -/
def mayBegin (waitIntra : Bool) (before : List Input) (frame : RTMPMediaFrame) : Bool :=
  !waitIntra || isPicture frame && (!isAvc frame || (lastAvcConfig before).isSome)

/-- Where the stream begins: the inputs before, the first frame and the inputs after it. -/
def beginning (waitIntra : Bool) (before : List Input) :
    List Input → Option (List Input × RTMPMediaFrame × List Input)
  | [] => none
  | .frame frame :: inputs =>
    if mayBegin waitIntra before frame then some (before, frame, inputs)
    else beginning waitIntra (before ++ [.frame frame]) inputs
  | input :: inputs => beginning waitIntra (before ++ [input]) inputs

/-- The metadata and configurations of the inputs before the stream begins, at time zero. -/
def stored (before : List Input) : List StreamEvent :=
  (lastDataFrame before).toList.map (fun params => .onMetaData ⟨0, params⟩) ++
    (lastAvcConfig before).toList.map (fun config => .onMediaFrame (.video config)) ++
      (lastAacConfig before).toList.map (fun config => .onMediaFrame (.audio config))

/-- The frames since the last picture that can be decoded on its own. -/
def sincePicture (frames : List RTMPMediaFrame) : List RTMPMediaFrame :=
  frames.foldl (fun kept frame => if isPicture frame then [frame] else kept ++ [frame]) []

/-- What a listener is to be told that is added to a running stream: that the stream begins, the
current metadata and decoder configuration, and, by a cached stream, the frames since the last intra
picture. -/
def welcome (cached : Bool) (before : List Input) (frame : RTMPMediaFrame) (after : List Input) :
    List StreamEvent :=
  let first := frame.getTimestamp
  .onStreamBegin ::
    ((((before.filterMap Input.metaData?).filterMap dataFrame).map
        (fun params => RTMPMetaData.mk 0 params) ++
      (after.filterMap Input.metaData?).filterMap fun message =>
        (dataFrame message).map fun params =>
          RTMPMetaData.mk (BitVec.ofNat 64 (message.timestamp.toNat - first.toNat)) params).getLast?.toList.map
        .onMetaData) ++
    (lastAvcConfig (before ++ .frame frame :: after)).toList.map
      (fun config => .onMediaFrame (.video config)) ++
    (if cached then
      (sincePicture (frame :: after.filterMap Input.frame?)).flatMap
        fun frame => Input.relative first (.frame frame)
    else [])

/-- What a listener is to be told from the beginning on: that the stream begins, what is stored, and
every frame and metadata from the first frame on. -/
def fromBeginning : Option (List Input × RTMPMediaFrame × List Input) → List StreamEvent
  | none => []
  | some (before, frame, after) => .onStreamBegin ::
      (stored before ++ (Input.frame frame :: after).flatMap (Input.relative frame.getTimestamp))

/-- What a listener is to be told that is added after the inputs `pre`, in the inputs `post`. -/
def expected (cached waitIntra : Bool) (pre post : List Input) : List StreamEvent :=
  match beginning waitIntra [] pre with
  | some (before, frame, after) =>
    welcome cached before frame after ++ post.flatMap (Input.relative frame.getTimestamp)
  | none => fromBeginning (beginning waitIntra [] (pre ++ post))

/-- A reset is not counted. -/
def counted : StreamEvent → Bool
  | .onStreamReset => false
  | _ => true

/-- The law of a run: every listener is told what it is to get from when it is added, as long as it
is not removed. -/
def Lawful (s : RTMPPipedMediaStream) (inputs : List Input) : Prop :=
  ∀ pre listener post, inputs = pre ++ .addMediaListener listener :: post →
    .removeMediaListener listener ∉ post →
    (heard (run step s pre) listener (.addMediaListener listener :: post)).filter counted =
      expected s.cached.isSome s.waitIntra pre (.addMediaListener listener :: post)

end RTMPPipedMediaStream

end McuMediaServer
