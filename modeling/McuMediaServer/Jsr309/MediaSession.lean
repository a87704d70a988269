import McuMediaServer.Base.Subscriptions

/-!
# Media sessions and what joins their objects

A media session keeps endpoints, players, recorders, mixers with their ports and video transcoders,
each under an identifier, and connects them on request. What produces packets is a multiplexer
(`Joinable`) with a set of listeners, what takes them is a `Listener` with a `joined` pointer: the
RTP endpoints of an endpoint and the transcoders are both, a player has a multiplexer for each
media, a mixer port has an encoder that produces and a decoder that takes, and a recorder takes up to one
source for each media.

`Memory` holds the listeners of each multiplexer and the `joined` pointers of each consumer that
exists. An object is named by where it belongs, identifiers are never given out twice, and using a
pointer to an object that is gone has no result: `none`. Threads, codecs, the RTP sessions and the
return values of the requests are left out.
-/

namespace McuMediaServer.Jsr309

/-- The media. Reference: `MediaFrame::Type` (`mcu/include/media.h:53`). -/
inductive MediaFrame.Type
  | audio
  | video
  | text
deriving DecidableEq

/-- The two kinds of mixers. Reference: `jsr309/AudioMixerResource.h`,
`jsr309/VideoMixerResource.h`. -/
inductive MixerResource.Type
  | audio
  | video
deriving DecidableEq

/-- The media a mixer works on. -/
def MixerResource.Type.media : MixerResource.Type → MediaFrame.Type
  | .audio => .audio
  | .video => .video

/-- The multiplexers. Reference: the classes that are a `Joinable`, `jsr309/RTPEndpoint.h:18`,
`jsr309/Player.h:43`, `jsr309/AudioEncoderWorker.h`, `jsr309/VideoEncoderWorkerMultiplexer.h`,
`jsr309/VideoTranscoder.h:15`. -/
inductive Joinable
  | rtpEndpoint (endpointId : Nat) (type : MediaFrame.Type)
  | player (playerId : Nat) (media : MediaFrame.Type)
  | encoder (mixer : MixerResource.Type) (mixerId portId : Nat)
  | videoTranscoder (videoTranscoderId : Nat)
deriving DecidableEq

/-- The media of the packets a multiplexer sends. -/
def Joinable.media : Joinable → MediaFrame.Type
  | .rtpEndpoint _ type => type
  | .player _ media => media
  | .encoder mixer _ _ => mixer.media
  | .videoTranscoder _ => .video

/-- The consumers. The listener of a transcoder is its decoder. Reference: the classes that are a
`Joinable::Listener`, `jsr309/RTPEndpoint.h:22`, `jsr309/Recorder.h:19`,
`jsr309/AudioDecoderWorker.h`, `jsr309/VideoDecoderWorker.h`. -/
inductive Listener
  | rtpEndpoint (endpointId : Nat) (type : MediaFrame.Type)
  | recorder (recorderId : Nat)
  | decoder (mixer : MixerResource.Type) (mixerId portId : Nat)
  | videoTranscoder (videoTranscoderId : Nat)
deriving DecidableEq

/-- The listeners of all multiplexers and the `joined` pointers of all consumers. A recorder has a
pointer for each media; the others have one, kept under the media they work on. -/
abbrev Memory := Subscriptions Joinable Listener MediaFrame.Type

/-! ## The objects -/

namespace Listener

/-- The stream of the source a consumer is joined to ends. A recorder does nothing. Reference:
`jsr309/RTPEndpoint.cpp:239`, `jsr309/AudioDecoderWorker.cpp:183`,
`jsr309/VideoDecoderWorker.cpp:311`, `jsr309/Recorder.cpp:72`. -/
def onEndStream (memory : Memory) : Listener → Option Memory
  | .rtpEndpoint endpointId type => memory.setJoined (.rtpEndpoint endpointId type) type none
  | .recorder recorderId => (memory.joined (.recorder recorderId)).map fun _ => memory
  | .decoder mixer mixerId portId =>
    memory.setJoined (.decoder mixer mixerId portId) mixer.media none
  | .videoTranscoder videoTranscoderId =>
    memory.setJoined (.videoTranscoder videoTranscoderId) .video none

/-- A packet or a reset is handed to a consumer: the call is made on the object. Reference:
`jsr309/RTPEndpoint.cpp:182`, `:227`, `jsr309/Recorder.cpp:32`, `:67`. -/
def onCall (memory : Memory) (listener : Listener) : Option Memory :=
  (memory.joined listener).map fun _ => memory

end Listener

namespace RTPMultiplexer

/-- A multiplexer tells its listeners that the stream ends and is gone. Reference:
`RTPMultiplexer::~RTPMultiplexer` (`jsr309/RTPMultiplexer.cpp:16`). -/
def destroy (memory : Memory) (source : Joinable) : Option Memory :=
  (memory.listeners source).bind fun listeners =>
    (listeners.foldlM Listener.onEndStream memory).map fun memory => memory.freeSource source

/-- A multiplexer calls all its listeners, with a packet or for a reset; a source that is not there
sends nothing. Reference: `RTPMultiplexer::Multiplex`, `ResetStream`
(`jsr309/RTPMultiplexer.cpp:32`, `:44`). -/
def Multiplex (memory : Memory) (source : Joinable) : Option Memory :=
  match memory.listeners source with
  | none => some memory
  | some listeners => listeners.foldlM Listener.onCall memory

end RTPMultiplexer

/-- What an RTP endpoint keeps besides its listeners and its `joined` pointer. Reference:
`jsr309/RTPEndpoint.h:64`. -/
structure RTPEndpoint where
  inited : Bool

namespace RTPEndpoint

variable (memory : Memory) (endpointId : Nat) (type : MediaFrame.Type) (rtp : RTPEndpoint)

/-- Reference: `jsr309/RTPEndpoint.cpp:15`. -/
def construct : Memory :=
  (memory.newSource (.rtpEndpoint endpointId type)).newConsumer (.rtpEndpoint endpointId type)

/-- Join the endpoint to a source, or to nothing. Reference: `jsr309/RTPEndpoint.cpp:293`. -/
def Attach (join : Option Joinable) : Option Memory :=
  if rtp.inited then memory.attach (.rtpEndpoint endpointId type) type join else some memory

/-- Reference: `jsr309/RTPEndpoint.cpp:315`. -/
def Dettach : Option Memory :=
  memory.detach (.rtpEndpoint endpointId type) type

/-- Reference: `jsr309/RTPEndpoint.cpp:85`. -/
def End : Option Memory :=
  if rtp.inited then Dettach memory endpointId type else some memory

/-- The endpoint goes: it ends if it still runs, and then the multiplexer it is ends its stream.
Reference: `jsr309/RTPEndpoint.cpp:51`. -/
def destroy : Option Memory := do
  let memory ← rtp.End memory endpointId type
  let memory ← RTPMultiplexer.destroy memory (.rtpEndpoint endpointId type)
  return memory.freeConsumer (.rtpEndpoint endpointId type)

/-- A lost frame is asked for at the source. Reference: `jsr309/RTPEndpoint.cpp:328`. -/
def onFPURequested : Option Memory :=
  match (memory.joined (.rtpEndpoint endpointId type)).bind (fun joined => joined type) with
  | none => some memory
  | some source => (memory.listeners source).map fun _ => memory

end RTPEndpoint

/-- An endpoint with the RTP endpoints it supports. Reference: `jsr309/Endpoint.h:62`. -/
structure Endpoint where
  audio : Option RTPEndpoint
  video : Option RTPEndpoint
  text : Option RTPEndpoint

/-- The medias, in the order in which an endpoint handles its RTP endpoints. -/
def medias : List MediaFrame.Type := [.audio, .video, .text]

namespace Endpoint

/-- Reference: `jsr309/Endpoint.h:45`. -/
def GetRTPEndpoint (endpoint : Endpoint) : MediaFrame.Type → Option RTPEndpoint
  | .audio => endpoint.audio
  | .video => endpoint.video
  | .text => endpoint.text

/-- Create an endpoint and start its RTP endpoints. Reference: `Endpoint::Endpoint`,
`Endpoint::Init` (`jsr309/Endpoint.cpp:10`, `:50`). -/
def create (audioSupported videoSupported textSupported : Bool) : Endpoint where
  audio := if audioSupported then some ⟨true⟩ else none
  video := if videoSupported then some ⟨true⟩ else none
  text := if textSupported then some ⟨true⟩ else none

/-- If there is an RTP endpoint for the media, it comes to be. Reference:
`jsr309/Endpoint.cpp:10`. -/
def constructMedia (endpointId : Nat) (endpoint : Endpoint) (memory : Memory)
    (media : MediaFrame.Type) : Memory :=
  match endpoint.GetRTPEndpoint media with
  | none => memory
  | some _ => RTPEndpoint.construct memory endpointId media

/-- Reference: `jsr309/Endpoint.cpp:10`. -/
def construct (memory : Memory) (endpointId : Nat) (endpoint : Endpoint) : Memory :=
  medias.foldl (endpoint.constructMedia endpointId) memory

/-- If there is an RTP endpoint for the media, it ends. Reference: `jsr309/Endpoint.cpp:70`. -/
def EndMedia (endpointId : Nat) (endpoint : Endpoint) (memory : Memory)
    (media : MediaFrame.Type) : Option Memory :=
  match endpoint.GetRTPEndpoint media with
  | none => some memory
  | some rtp => rtp.End memory endpointId media

/-- Reference: `jsr309/Endpoint.cpp:70`. -/
def End (memory : Memory) (endpointId : Nat) (endpoint : Endpoint) : Option Memory :=
  medias.foldlM (endpoint.EndMedia endpointId) memory

/-- An RTP endpoint that has ended is not inited. Reference: `jsr309/RTPEndpoint.cpp:85`. -/
def ended (endpoint : Endpoint) : Endpoint where
  audio := endpoint.audio.map fun _ => ⟨false⟩
  video := endpoint.video.map fun _ => ⟨false⟩
  text := endpoint.text.map fun _ => ⟨false⟩

/-- If there is an RTP endpoint for the media, it goes. Reference: `jsr309/Endpoint.cpp:32`. -/
def destroyMedia (endpointId : Nat) (endpoint : Endpoint) (memory : Memory)
    (media : MediaFrame.Type) : Option Memory :=
  match endpoint.GetRTPEndpoint media with
  | none => some memory
  | some rtp => rtp.destroy memory endpointId media

/-- Reference: `jsr309/Endpoint.cpp:32`. -/
def destroy (memory : Memory) (endpointId : Nat) (endpoint : Endpoint) : Option Memory :=
  medias.foldlM (endpoint.destroyMedia endpointId) memory

/-- Join the RTP endpoint of the media. Reference: `jsr309/Endpoint.cpp:167`. -/
def Attach (memory : Memory) (endpointId : Nat) (endpoint : Endpoint) (media : MediaFrame.Type)
    (join : Option Joinable) : Option Memory :=
  match endpoint.GetRTPEndpoint media with
  | none => some memory
  | some rtp => rtp.Attach memory endpointId media join

/-- Reference: `jsr309/Endpoint.cpp:200`. -/
def Dettach (memory : Memory) (endpointId : Nat) (endpoint : Endpoint) (media : MediaFrame.Type) :
    Option Memory :=
  match endpoint.GetRTPEndpoint media with
  | none => some memory
  | some _ => RTPEndpoint.Dettach memory endpointId media

/-- The RTP endpoint of a media. The case of a media without one runs on into the next case.
Reference: `jsr309/Endpoint.cpp:232`. -/
def GetJoinable (endpointId : Nat) (endpoint : Endpoint) (media : MediaFrame.Type) :
    Option Joinable :=
  let text := if endpoint.text.isSome then some (.rtpEndpoint endpointId .text) else none
  let video := if endpoint.video.isSome then some (.rtpEndpoint endpointId .video) else text
  let audio := if endpoint.audio.isSome then some (.rtpEndpoint endpointId .audio) else video
  match media with
  | .audio => audio
  | .video => video
  | .text => text

end Endpoint

namespace Player

/-- The multiplexers of the player come to be. Reference: `jsr309/Player.h:43`. -/
def construct (memory : Memory) (playerId : Nat) : Memory :=
  medias.foldl (fun memory media => memory.newSource (.player playerId media)) memory

/-- The multiplexers of the player go, the last first. Reference: `jsr309/Player.h:43`. -/
def destroy (memory : Memory) (playerId : Nat) : Option Memory :=
  medias.reverse.foldlM (fun memory media =>
    RTPMultiplexer.destroy memory (.player playerId media)) memory

/-- Reference: `jsr309/Player.cpp:24`. -/
def GetJoinable (playerId : Nat) (media : MediaFrame.Type) : Joinable :=
  .player playerId media

/-- The file of the player ends: the listeners are told to reset. Reference:
`jsr309/Player.cpp:66`. -/
def onEnd (memory : Memory) (playerId : Nat) : Option Memory :=
  medias.foldlM (fun memory media =>
    RTPMultiplexer.Multiplex memory (.player playerId media)) memory

end Player

namespace Recorder

/-- Reference: `jsr309/Recorder.cpp:11`. -/
def construct (memory : Memory) (recorderId : Nat) : Memory :=
  memory.newConsumer (.recorder recorderId)

/-- A recorder deletes its depacketizers; it does not leave its sources. Reference:
`jsr309/Recorder.cpp:20`. -/
def destroy (memory : Memory) (recorderId : Nat) : Memory :=
  memory.freeConsumer (.recorder recorderId)

/-- Reference: `jsr309/Recorder.cpp:78`. -/
def Attach (memory : Memory) (recorderId : Nat) (media : MediaFrame.Type)
    (join : Option Joinable) : Option Memory :=
  memory.attach (.recorder recorderId) media join

/-- Reference: `jsr309/Recorder.cpp:106`. -/
def Dettach (memory : Memory) (recorderId : Nat) (media : MediaFrame.Type) : Option Memory :=
  memory.detach (.recorder recorderId) media

end Recorder

/-! ### A decoder and an encoder

A mixer port and a video transcoder hold a decoder that takes packets and an encoder that sends
them. The decoders of the two media are the same code, and so is what concerns the joins here. -/

namespace DecoderJoinableWorker

variable (memory : Memory) (decoder : Listener) (media : MediaFrame.Type)

/-- Reference: `jsr309/AudioDecoderWorker.cpp:191`, `jsr309/VideoDecoderWorker.cpp:319`. -/
def Attach (join : Option Joinable) : Option Memory :=
  memory.attach decoder media join

/-- Reference: `jsr309/AudioDecoderWorker.cpp:215`, `jsr309/VideoDecoderWorker.cpp:343`. -/
def Dettach : Option Memory :=
  memory.detach decoder media

/-- Reference: `jsr309/AudioDecoderWorker.cpp:30`, `jsr309/VideoDecoderWorker.cpp:31`. -/
def End : Option Memory :=
  Dettach memory decoder media

/-- Reference: `jsr309/AudioDecoderWorker.cpp:19`, `jsr309/VideoDecoderWorker.cpp:20`. -/
def destroy : Option Memory := do
  let memory ← End memory decoder media
  return memory.freeConsumer decoder

/-- A decoder and an encoder come to be. -/
def constructPair (encoder : Joinable) : Memory :=
  (memory.newSource encoder).newConsumer decoder

/-- A decoder ends, and then it and the encoder go. Reference:
`jsr309/AudioMixerResource.cpp:89`, `jsr309/VideoMixerResource.cpp:94`,
`jsr309/VideoTranscoder.cpp:47`. -/
def destroyPair (encoder : Joinable) : Option Memory := do
  let memory ← End memory decoder media
  let memory ← destroy memory decoder media
  RTPMultiplexer.destroy memory encoder

end DecoderJoinableWorker

/-- A mixer with its ports. Reference: `jsr309/AudioMixerResource.h:49`,
`jsr309/VideoMixerResource.h:58`. -/
structure MixerResource where
  ports : List Nat
  maxId : Nat
  inited : Bool

namespace MixerResource

/-- Reference: `jsr309/AudioMixerResource.cpp:4`, `:24`, `jsr309/VideoMixerResource.cpp:4`, `:24`.
The mixers themselves always start. -/
def create : MixerResource where
  ports := []
  maxId := 1
  inited := true

/-- Create a port. Its identifier is new to the mixer, so that the mixer takes it. Reference:
`jsr309/AudioMixerResource.cpp:36`, `jsr309/VideoMixerResource.cpp:40`. -/
def CreatePort (type : MixerResource.Type) (memory : Memory) (mixerId : Nat)
    (mixer : MixerResource) : Memory × MixerResource :=
  if mixer.inited then
    (DecoderJoinableWorker.constructPair memory (.decoder type mixerId mixer.maxId)
        (.encoder type mixerId mixer.maxId),
      { mixer with ports := mixer.ports ++ [mixer.maxId], maxId := mixer.maxId + 1 })
  else (memory, mixer)

/-- The port object goes. Reference: `jsr309/AudioMixerResource.cpp:89`,
`jsr309/VideoMixerResource.cpp:94`. -/
def destroyPort (type : MixerResource.Type) (memory : Memory) (mixerId portId : Nat) :
    Option Memory :=
  DecoderJoinableWorker.destroyPair memory (.decoder type mixerId portId) type.media
    (.encoder type mixerId portId)

/-- Reference: `jsr309/AudioMixerResource.cpp:89`, `jsr309/VideoMixerResource.cpp:94`. -/
def DeletePort (type : MixerResource.Type) (memory : Memory) (mixerId : Nat)
    (mixer : MixerResource) (portId : Nat) : Option (Memory × MixerResource) :=
  if portId ∈ mixer.ports then do
    let memory ← destroyPort type memory mixerId portId
    return (memory, { mixer with ports := mixer.ports.filter (· ≠ portId) })
  else some (memory, mixer)

/-- Reference: `jsr309/AudioMixerResource.cpp:122`, `jsr309/VideoMixerResource.cpp:127`. -/
def End (type : MixerResource.Type) (memory : Memory) (mixerId : Nat) (mixer : MixerResource) :
    Option Memory :=
  mixer.ports.foldlM (fun memory portId => destroyPort type memory mixerId portId) memory

/-- Reference: `jsr309/AudioMixerResource.cpp:147`, `jsr309/VideoMixerResource.cpp:152`. -/
def GetJoinable (type : MixerResource.Type) (mixerId : Nat) (mixer : MixerResource)
    (portId : Nat) : Option Joinable :=
  if portId ∈ mixer.ports then some (.encoder type mixerId portId) else none

/-- Reference: `jsr309/AudioMixerResource.cpp:168`, `jsr309/VideoMixerResource.cpp:173`. -/
def Attach (type : MixerResource.Type) (memory : Memory) (mixerId : Nat) (mixer : MixerResource)
    (portId : Nat) (join : Option Joinable) : Option Memory :=
  if portId ∈ mixer.ports then
    DecoderJoinableWorker.Attach memory (.decoder type mixerId portId) type.media join
  else some memory

/-- Reference: `jsr309/AudioMixerResource.cpp:186`, `jsr309/VideoMixerResource.cpp:190`. -/
def Dettach (type : MixerResource.Type) (memory : Memory) (mixerId : Nat) (mixer : MixerResource)
    (portId : Nat) : Option Memory :=
  if portId ∈ mixer.ports then
    DecoderJoinableWorker.Dettach memory (.decoder type mixerId portId) type.media
  else some memory

end MixerResource

/-! ## The session -/

/-- The maps of a session and its identifier counters. Reference: `jsr309/MediaSession.h:141`. -/
structure MediaSession where
  memory : Memory
  endpoints : Nat → Option Endpoint
  maxEndpointId : Nat
  players : List Nat
  maxPlayersId : Nat
  recorders : List Nat
  maxRecordersId : Nat
  mixers : MixerResource.Type → Nat → Option MixerResource
  maxMixerId : MixerResource.Type → Nat
  videoTranscoders : List Nat
  maxVideoTranscoderId : Nat

namespace MediaSession

/-- A session without objects. Reference: `jsr309/MediaSession.cpp:4`. -/
def init : MediaSession where
  memory := .empty
  endpoints _ := none
  maxEndpointId := 1
  players := []
  maxPlayersId := 1
  recorders := []
  maxRecordersId := 1
  mixers _ _ := none
  maxMixerId _ := 1
  videoTranscoders := []
  maxVideoTranscoderId := 1

variable (session : MediaSession)

/-- The session with other joins between its objects. -/
def withMemory (memory : Option Memory) : Option MediaSession :=
  memory.map fun memory => { session with memory }

/-- The session with another state of a mixer. -/
def setMixer (type : MixerResource.Type) (mixerId : Nat) (mixer : Option MixerResource) :
    MediaSession :=
  { session with
    mixers := Function.update session.mixers type
      (Function.update (session.mixers type) mixerId mixer) }

/-! ### Players -/

/-- Reference: `jsr309/MediaSession.cpp:82`. -/
def PlayerCreate : Option MediaSession :=
  some { session with
    memory := Player.construct session.memory session.maxPlayersId
    players := session.players ++ [session.maxPlayersId]
    maxPlayersId := session.maxPlayersId + 1 }

/-- Reference: `jsr309/MediaSession.cpp:171`. -/
def PlayerDelete (playerId : Nat) : Option MediaSession :=
  if playerId ∈ session.players then do
    let memory ← Player.destroy session.memory playerId
    return { session with memory, players := session.players.filter (· ≠ playerId) }
  else some session

/-! ### Recorders -/

/-- Reference: `jsr309/MediaSession.cpp:192`. -/
def RecorderCreate : Option MediaSession :=
  some { session with
    memory := Recorder.construct session.memory session.maxRecordersId
    recorders := session.recorders ++ [session.maxRecordersId]
    maxRecordersId := session.maxRecordersId + 1 }

/-- Reference: `jsr309/MediaSession.cpp:236`. -/
def RecorderDelete (recorderId : Nat) : Option MediaSession :=
  if recorderId ∈ session.recorders then
    some { session with
      memory := Recorder.destroy session.memory recorderId
      recorders := session.recorders.filter (· ≠ recorderId) }
  else some session

/-- Reference: `jsr309/MediaSession.cpp:257` (`RecorderAttachToAudioMixerPort`), `:284`
(`RecorderAttachToVideoMixerPort`). -/
def RecorderAttachToMixerPort (type : MixerResource.Type) (recorderId mixerId portId : Nat) :
    Option MediaSession :=
  if recorderId ∈ session.recorders then
    match session.mixers type mixerId with
    | none => some session
    | some mixer =>
      session.withMemory (Recorder.Attach session.memory recorderId type.media
        (mixer.GetJoinable type mixerId portId))
  else some session

/-- Reference: `jsr309/MediaSession.cpp:311`. -/
def RecorderAttachToEndpoint (recorderId endpointId : Nat) (media : MediaFrame.Type) :
    Option MediaSession :=
  if recorderId ∈ session.recorders then
    match session.endpoints endpointId with
    | none => some session
    | some source =>
      session.withMemory (Recorder.Attach session.memory recorderId media
        (source.GetJoinable endpointId media))
  else some session

/-- Reference: `jsr309/MediaSession.cpp:337`. -/
def RecorderDettach (recorderId : Nat) (media : MediaFrame.Type) : Option MediaSession :=
  if recorderId ∈ session.recorders then
    session.withMemory (Recorder.Dettach session.memory recorderId media)
  else some session

/-! ### Endpoints -/

/-- Reference: `jsr309/MediaSession.cpp:353`. -/
def EndpointCreate (audioSupported videoSupported textSupported : Bool) : Option MediaSession :=
  let endpoint := Endpoint.create audioSupported videoSupported textSupported
  some { session with
    memory := endpoint.construct session.memory session.maxEndpointId
    endpoints := Function.update session.endpoints session.maxEndpointId (some endpoint)
    maxEndpointId := session.maxEndpointId + 1 }

/-- Reference: `jsr309/MediaSession.cpp:369`. -/
def EndpointDelete (endpointId : Nat) : Option MediaSession :=
  match session.endpoints endpointId with
  | none => some session
  | some endpoint => do
    let memory ← endpoint.End session.memory endpointId
    let memory ← endpoint.ended.destroy memory endpointId
    return { session with
      memory, endpoints := Function.update session.endpoints endpointId none }

/-- Reference: `jsr309/MediaSession.cpp:586`. -/
def EndpointAttachToPlayer (endpointId playerId : Nat) (media : MediaFrame.Type) :
    Option MediaSession :=
  match session.endpoints endpointId with
  | none => some session
  | some endpoint =>
    if playerId ∈ session.players then
      session.withMemory (endpoint.Attach session.memory endpointId media
        (some (Player.GetJoinable playerId media)))
    else some session

/-- Reference: `jsr309/MediaSession.cpp:616` (`EndpointAttachToAudioMixerPort`), `:646`
(`EndpointAttachToVideoMixerPort`). -/
def EndpointAttachToMixerPort (type : MixerResource.Type) (endpointId mixerId portId : Nat) :
    Option MediaSession :=
  match session.endpoints endpointId, session.mixers type mixerId with
  | some endpoint, some mixer =>
    session.withMemory (endpoint.Attach session.memory endpointId type.media
      (mixer.GetJoinable type mixerId portId))
  | _, _ => some session

/-- Reference: `jsr309/MediaSession.cpp:676`. -/
def EndpointAttachToVideoTranscoder (endpointId videoTranscoderId : Nat) : Option MediaSession :=
  match session.endpoints endpointId with
  | none => some session
  | some endpoint =>
    if videoTranscoderId ∈ session.videoTranscoders then
      session.withMemory (endpoint.Attach session.memory endpointId .video
        (some (.videoTranscoder videoTranscoderId)))
    else some session

/-- Reference: `jsr309/MediaSession.cpp:706`. -/
def EndpointAttachToEndpoint (endpointId sourceId : Nat) (media : MediaFrame.Type) :
    Option MediaSession :=
  match session.endpoints endpointId, session.endpoints sourceId with
  | some endpoint, some source =>
    session.withMemory (endpoint.Attach session.memory endpointId media
      (source.GetJoinable sourceId media))
  | _, _ => some session

/-- Reference: `jsr309/MediaSession.cpp:735`. -/
def EndpointDettach (endpointId : Nat) (media : MediaFrame.Type) : Option MediaSession :=
  match session.endpoints endpointId with
  | none => some session
  | some endpoint => session.withMemory (endpoint.Dettach session.memory endpointId media)

/-! ### Mixers -/

/-- Reference: `jsr309/MediaSession.cpp:764` (`AudioMixerCreate`), `:924` (`VideoMixerCreate`). -/
def MixerCreate (type : MixerResource.Type) : Option MediaSession :=
  let mixerId := session.maxMixerId type
  some { session.setMixer type mixerId (some .create) with
    maxMixerId := Function.update session.maxMixerId type (mixerId + 1) }

/-- Reference: `jsr309/MediaSession.cpp:778` (`AudioMixerDelete`), `:938` (`VideoMixerDelete`). -/
def MixerDelete (type : MixerResource.Type) (mixerId : Nat) : Option MediaSession :=
  match session.mixers type mixerId with
  | none => some session
  | some mixer =>
    (session.setMixer type mixerId none).withMemory (mixer.End type session.memory mixerId)

/-- Reference: `jsr309/MediaSession.cpp:802` (`AudioMixerPortCreate`), `:962`
(`VideoMixerPortCreate`). -/
def MixerPortCreate (type : MixerResource.Type) (mixerId : Nat) : Option MediaSession :=
  match session.mixers type mixerId with
  | none => some session
  | some mixer =>
    let created := mixer.CreatePort type session.memory mixerId
    some { session.setMixer type mixerId (some created.2) with memory := created.1 }

/-- Reference: `jsr309/MediaSession.cpp:834` (`AudioMixerPortDelete`), `:994`
(`VideoMixerPortDelete`). -/
def MixerPortDelete (type : MixerResource.Type) (mixerId portId : Nat) : Option MediaSession :=
  match session.mixers type mixerId with
  | none => some session
  | some mixer => do
    let deleted ← mixer.DeletePort type session.memory mixerId portId
    return { session.setMixer type mixerId (some deleted.2) with memory := deleted.1 }

/-- Reference: `jsr309/MediaSession.cpp:851` (`AudioMixerPortAttachToEndpoint`), `:1011`
(`VideoMixerPortAttachToEndpoint`). -/
def MixerPortAttachToEndpoint (type : MixerResource.Type) (mixerId portId endpointId : Nat) :
    Option MediaSession :=
  match session.mixers type mixerId, session.endpoints endpointId with
  | some mixer, some endpoint =>
    session.withMemory (mixer.Attach type session.memory mixerId portId
      (endpoint.GetJoinable endpointId type.media))
  | _, _ => some session

/-- Reference: `jsr309/MediaSession.cpp:881` (`AudioMixerPortAttachToPlayer`), `:1041`
(`VideoMixerPortAttachToPlayer`). -/
def MixerPortAttachToPlayer (type : MixerResource.Type) (mixerId portId playerId : Nat) :
    Option MediaSession :=
  match session.mixers type mixerId with
  | none => some session
  | some mixer =>
    if playerId ∈ session.players then
      session.withMemory (mixer.Attach type session.memory mixerId portId
        (some (Player.GetJoinable playerId type.media)))
    else some session

/-- Reference: `jsr309/MediaSession.cpp:908` (`AudioMixerPortDettach`), `:1068`
(`VideoMixerPortDettach`). -/
def MixerPortDettach (type : MixerResource.Type) (mixerId portId : Nat) : Option MediaSession :=
  match session.mixers type mixerId with
  | none => some session
  | some mixer => session.withMemory (mixer.Dettach type session.memory mixerId portId)

/-! ### Video transcoders -/

/-- Reference: `jsr309/MediaSession.cpp:1212`. -/
def VideoTranscoderCreate : Option MediaSession :=
  let videoTranscoderId := session.maxVideoTranscoderId
  some { session with
    memory := DecoderJoinableWorker.constructPair session.memory
      (.videoTranscoder videoTranscoderId) (.videoTranscoder videoTranscoderId)
    videoTranscoders := session.videoTranscoders ++ [videoTranscoderId]
    maxVideoTranscoderId := videoTranscoderId + 1 }

/-- Reference: `jsr309/MediaSession.cpp:1261`. -/
def VideoTranscoderDelete (videoTranscoderId : Nat) : Option MediaSession :=
  if videoTranscoderId ∈ session.videoTranscoders then do
    let memory ← DecoderJoinableWorker.destroyPair session.memory
      (.videoTranscoder videoTranscoderId) .video (.videoTranscoder videoTranscoderId)
    return { session with
      memory, videoTranscoders := session.videoTranscoders.filter (· ≠ videoTranscoderId) }
  else some session

/-- Reference: `jsr309/MediaSession.cpp:1285`. -/
def VideoTranscoderAttachToEndpoint (videoTranscoderId endpointId : Nat) : Option MediaSession :=
  if videoTranscoderId ∈ session.videoTranscoders then
    match session.endpoints endpointId with
    | none => some session
    | some endpoint =>
      session.withMemory (DecoderJoinableWorker.Attach session.memory
        (.videoTranscoder videoTranscoderId) .video (endpoint.GetJoinable endpointId .video))
  else some session

/-- Reference: `jsr309/MediaSession.cpp:1315`. -/
def VideoTranscoderDettach (videoTranscoderId : Nat) : Option MediaSession :=
  if videoTranscoderId ∈ session.videoTranscoders then
    session.withMemory
      (DecoderJoinableWorker.Dettach session.memory (.videoTranscoder videoTranscoderId) .video)
  else some session

end MediaSession

/-- What a client asks of the session and what its sources do. Reference:
`jsr309/MediaSession.h:38`; `RTPMultiplexer::Multiplex`, `Player::onEnd`,
`RTPEndpoint::onFPURequested`. -/
inductive Request
  | PlayerCreate
  | PlayerDelete (playerId : Nat)
  | RecorderCreate
  | RecorderDelete (recorderId : Nat)
  | RecorderAttachToMixerPort (type : MixerResource.Type) (recorderId mixerId portId : Nat)
  | RecorderAttachToEndpoint (recorderId endpointId : Nat) (media : MediaFrame.Type)
  | RecorderDettach (recorderId : Nat) (media : MediaFrame.Type)
  | EndpointCreate (audioSupported videoSupported textSupported : Bool)
  | EndpointDelete (endpointId : Nat)
  | EndpointAttachToPlayer (endpointId playerId : Nat) (media : MediaFrame.Type)
  | EndpointAttachToMixerPort (type : MixerResource.Type) (endpointId mixerId portId : Nat)
  | EndpointAttachToVideoTranscoder (endpointId videoTranscoderId : Nat)
  | EndpointAttachToEndpoint (endpointId sourceId : Nat) (media : MediaFrame.Type)
  | EndpointDettach (endpointId : Nat) (media : MediaFrame.Type)
  | MixerCreate (type : MixerResource.Type)
  | MixerDelete (type : MixerResource.Type) (mixerId : Nat)
  | MixerPortCreate (type : MixerResource.Type) (mixerId : Nat)
  | MixerPortDelete (type : MixerResource.Type) (mixerId portId : Nat)
  | MixerPortAttachToEndpoint (type : MixerResource.Type) (mixerId portId endpointId : Nat)
  | MixerPortAttachToPlayer (type : MixerResource.Type) (mixerId portId playerId : Nat)
  | MixerPortDettach (type : MixerResource.Type) (mixerId portId : Nat)
  | VideoTranscoderCreate
  | VideoTranscoderDelete (videoTranscoderId : Nat)
  | VideoTranscoderAttachToEndpoint (videoTranscoderId endpointId : Nat)
  | VideoTranscoderDettach (videoTranscoderId : Nat)
  | Multiplex (source : Joinable)
  | onEnd (playerId : Nat)
  | onFPURequested (endpointId : Nat) (type : MediaFrame.Type)

/-- One request or event. Without a result an object that is gone is used. -/
def MediaSession.step (session : MediaSession) : Request → Option MediaSession
  | .PlayerCreate => session.PlayerCreate
  | .PlayerDelete playerId => session.PlayerDelete playerId
  | .RecorderCreate => session.RecorderCreate
  | .RecorderDelete recorderId => session.RecorderDelete recorderId
  | .RecorderAttachToMixerPort type recorderId mixerId portId =>
    session.RecorderAttachToMixerPort type recorderId mixerId portId
  | .RecorderAttachToEndpoint recorderId endpointId media =>
    session.RecorderAttachToEndpoint recorderId endpointId media
  | .RecorderDettach recorderId media => session.RecorderDettach recorderId media
  | .EndpointCreate audioSupported videoSupported textSupported =>
    session.EndpointCreate audioSupported videoSupported textSupported
  | .EndpointDelete endpointId => session.EndpointDelete endpointId
  | .EndpointAttachToPlayer endpointId playerId media =>
    session.EndpointAttachToPlayer endpointId playerId media
  | .EndpointAttachToMixerPort type endpointId mixerId portId =>
    session.EndpointAttachToMixerPort type endpointId mixerId portId
  | .EndpointAttachToVideoTranscoder endpointId videoTranscoderId =>
    session.EndpointAttachToVideoTranscoder endpointId videoTranscoderId
  | .EndpointAttachToEndpoint endpointId sourceId media =>
    session.EndpointAttachToEndpoint endpointId sourceId media
  | .EndpointDettach endpointId media => session.EndpointDettach endpointId media
  | .MixerCreate type => session.MixerCreate type
  | .MixerDelete type mixerId => session.MixerDelete type mixerId
  | .MixerPortCreate type mixerId => session.MixerPortCreate type mixerId
  | .MixerPortDelete type mixerId portId => session.MixerPortDelete type mixerId portId
  | .MixerPortAttachToEndpoint type mixerId portId endpointId =>
    session.MixerPortAttachToEndpoint type mixerId portId endpointId
  | .MixerPortAttachToPlayer type mixerId portId playerId =>
    session.MixerPortAttachToPlayer type mixerId portId playerId
  | .MixerPortDettach type mixerId portId => session.MixerPortDettach type mixerId portId
  | .VideoTranscoderCreate => session.VideoTranscoderCreate
  | .VideoTranscoderDelete videoTranscoderId => session.VideoTranscoderDelete videoTranscoderId
  | .VideoTranscoderAttachToEndpoint videoTranscoderId endpointId =>
    session.VideoTranscoderAttachToEndpoint videoTranscoderId endpointId
  | .VideoTranscoderDettach videoTranscoderId => session.VideoTranscoderDettach videoTranscoderId
  | .Multiplex source => session.withMemory (RTPMultiplexer.Multiplex session.memory source)
  | .onEnd playerId =>
    if playerId ∈ session.players then session.withMemory (Player.onEnd session.memory playerId)
    else some session
  | .onFPURequested endpointId type =>
    session.withMemory (RTPEndpoint.onFPURequested session.memory endpointId type)

end McuMediaServer.Jsr309
