import McuMediaServer.Base.Run
import McuMediaServer.Jsr309.MediaSession

/-!
# The two sides of a join

A join is stored with the source, which has the consumer among its listeners, and with the consumer,
whose `joined` pointer is the source. `JoinsConsistent` says that the two tell the same, and that a
consumer takes from an endpoint the media it is attached for. The sessions that are driven by the
requests of `Request.Orderly` keep it, and no other do: a recorder neither leaves its sources when
it is deleted nor forgets a source that ends, and an endpoint without an RTP endpoint for a media
hands out the one of another media.

`Invariant` is what carries the argument. It ties the memory to the maps of the session: an object
exists exactly if the maps hold it, and new identifiers name nothing.
-/

namespace McuMediaServer.Jsr309

/-- The pointer a consumer clears when its source ends: its only one. A recorder clears none. -/
def Listener.slot : Listener → Option MediaFrame.Type
  | .rtpEndpoint _ type => some type
  | .recorder _ => none
  | .decoder mixer _ _ => some mixer.media
  | .videoTranscoder _ => some .video

theorem onEndStream_eq : Listener.onEndStream = Subscriptions.endStream Listener.slot := by
  funext memory listener
  cases listener <;> rfl

theorem RTPMultiplexer.destroy_eq (memory : Memory) (source : Joinable) :
    RTPMultiplexer.destroy memory source = memory.destroySource Listener.slot source := by
  rw [RTPMultiplexer.destroy, Subscriptions.destroySource, onEndStream_eq]

/-! ## What the maps hold -/

namespace MediaSession

variable (session : MediaSession)

/-- The multiplexers that belong to objects of the session. -/
def Owns : Joinable → Prop
  | .rtpEndpoint endpointId type =>
    ∃ endpoint, session.endpoints endpointId = some endpoint ∧
      (endpoint.GetRTPEndpoint type).isSome
  | .player playerId _ => playerId ∈ session.players
  | .encoder type mixerId portId =>
    ∃ mixer, session.mixers type mixerId = some mixer ∧ portId ∈ mixer.ports
  | .videoTranscoder videoTranscoderId => videoTranscoderId ∈ session.videoTranscoders

/-- The consumers that belong to objects of the session. -/
def OwnsListener : Listener → Prop
  | .rtpEndpoint endpointId type =>
    ∃ endpoint, session.endpoints endpointId = some endpoint ∧
      (endpoint.GetRTPEndpoint type).isSome
  | .recorder recorderId => recorderId ∈ session.recorders
  | .decoder type mixerId portId =>
    ∃ mixer, session.mixers type mixerId = some mixer ∧ portId ∈ mixer.ports
  | .videoTranscoder videoTranscoderId => videoTranscoderId ∈ session.videoTranscoders

/-- Identifiers that have been given out are below the counters, the ports of a mixer are distinct,
and the RTP endpoints of the session run. -/
structure Fresh : Prop where
  endpoint_lt : ∀ endpointId endpoint, session.endpoints endpointId = some endpoint →
    endpointId < session.maxEndpointId
  player_lt : ∀ playerId ∈ session.players, playerId < session.maxPlayersId
  recorder_lt : ∀ recorderId ∈ session.recorders, recorderId < session.maxRecordersId
  mixer_lt : ∀ type mixerId mixer, session.mixers type mixerId = some mixer →
    mixerId < session.maxMixerId type
  port_lt : ∀ type mixerId mixer, session.mixers type mixerId = some mixer →
    ∀ portId ∈ mixer.ports, portId < mixer.maxId
  ports_nodup : ∀ type mixerId mixer, session.mixers type mixerId = some mixer →
    mixer.ports.Nodup
  videoTranscoder_lt : ∀ videoTranscoderId ∈ session.videoTranscoders,
    videoTranscoderId < session.maxVideoTranscoderId
  inited : ∀ endpointId endpoint, session.endpoints endpointId = some endpoint →
    ∀ media rtp, endpoint.GetRTPEndpoint media = some rtp → rtp.inited

end MediaSession

/-- A recorder attaches to endpoints and mixer ports only. -/
def Joinable.Recordable : Joinable → Prop
  | .rtpEndpoint .. | .encoder .. => True
  | .player .. | .videoTranscoder .. => False

namespace MediaSession

/-- The joins agree, and are between the objects the maps hold. -/
structure Tracked (session : MediaSession) : Prop where
  lawful : session.memory.Lawful Joinable.media Listener.slot
  source_alive : ∀ source, session.memory.SourceAlive source ↔ session.Owns source
  consumer_alive : ∀ listener, session.memory.ConsumerAlive listener ↔
    session.OwnsListener listener
  recorded : ∀ source recorderId, session.memory.Registered source (.recorder recorderId) →
    source.Recordable

/-- What holds of a session between two orderly requests. -/
structure Invariant (session : MediaSession) : Prop extends Tracked session, Fresh session

theorem invariant_init : Invariant init where
  lawful := Subscriptions.lawful_empty ..
  source_alive source := by
    cases source <;> simp [Owns, init, Subscriptions.SourceAlive, Subscriptions.empty]
  consumer_alive listener := by
    cases listener <;> simp [OwnsListener, init, Subscriptions.ConsumerAlive, Subscriptions.empty]
  recorded := by simp [init, Subscriptions.Registered, Subscriptions.empty]
  endpoint_lt := by simp [init]
  player_lt := by simp [init]
  recorder_lt := by simp [init]
  mixer_lt := by simp [init]
  port_lt := by simp [init]
  ports_nodup := by simp [init]
  videoTranscoder_lt := by simp [init]
  inited := by simp [init]

/-- A request succeeds, and the invariant holds behind it. -/
def Keeps (result : Option MediaSession) : Prop :=
  ∃ next, result = some next ∧ Invariant next

section Memory

variable {session session' : MediaSession}

theorem Invariant.keeps (h : Invariant session) : Keeps (some session) := ⟨session, rfl, h⟩

theorem Invariant.keeps_ite (h : Invariant session) {c : Prop} [Decidable c]
    {result : Option MediaSession} (hc : c → Keeps result) :
    Keeps (if c then result else some session) := by
  split
  case isTrue hpos => exact hc hpos
  case isFalse => exact h.keeps

theorem Tracked.gains (h : Tracked session) {A : Joinable → Prop} {B : Listener → Prop}
    (hgains : Subscriptions.Gains Joinable.media Listener.slot A B session.memory session'.memory)
    (hsource : ∀ source, session'.Owns source ↔ session.Owns source ∨ A source)
    (hconsumer : ∀ listener, session'.OwnsListener listener ↔
      session.OwnsListener listener ∨ B listener) : Tracked session' where
  lawful := hgains.lawful
  source_alive source := by rw [hgains.sourceAlive, h.source_alive, hsource]
  consumer_alive listener := by rw [hgains.consumerAlive, h.consumer_alive, hconsumer]
  recorded source recorderId hr := h.recorded source recorderId (hgains.registered _ _ hr)

theorem Tracked.loses (h : Tracked session) {A : Joinable → Prop} {B : Listener → Prop}
    (hloses : Subscriptions.Loses Joinable.media Listener.slot A B session.memory session'.memory)
    (hsource : ∀ source, session'.Owns source ↔ session.Owns source ∧ ¬A source)
    (hconsumer : ∀ listener, session'.OwnsListener listener ↔
      session.OwnsListener listener ∧ ¬B listener) : Tracked session' where
  lawful := hloses.lawful
  source_alive source := by rw [hloses.sourceAlive, h.source_alive, hsource]
  consumer_alive listener := by rw [hloses.consumerAlive, h.consumer_alive, hconsumer]
  recorded source recorderId hr :=
    h.recorded source recorderId (hloses.registered h.lawful hr)

theorem Fresh.withMemory (h : Fresh session) (memory : Memory) :
    Fresh { session with memory } where
  endpoint_lt := h.endpoint_lt
  player_lt := h.player_lt
  recorder_lt := h.recorder_lt
  mixer_lt := h.mixer_lt
  port_lt := h.port_lt
  ports_nodup := h.ports_nodup
  videoTranscoder_lt := h.videoTranscoder_lt
  inited := h.inited

/-- **Attaching.** A consumer of the session attaches to a source of the session that sends what the
consumer is attached for. -/
theorem Invariant.attach (h : Invariant session) (listener : Listener) {media : MediaFrame.Type}
    {join : Option Joinable} (hlistener : session.OwnsListener listener)
    (hslot : ∀ slot, listener.slot = some slot → media = slot)
    (hjoin : ∀ source ∈ join, session.Owns source ∧ source.media = media)
    (hrecorded : ∀ recorderId, listener = .recorder recorderId →
      ∀ source ∈ join, source.Recordable) :
    Keeps (session.withMemory (session.memory.attach listener media join)) := by
  have halive := (h.consumer_alive listener).2 hlistener
  obtain ⟨memory, hattach, hlawful, hsame⟩ := h.lawful.attach halive hslot fun source hs =>
    ⟨(h.source_alive source).2 (hjoin source hs).1, (hjoin source hs).2⟩
  refine ⟨{ session with memory }, by rw [hattach]; rfl, ⟨hlawful, fun source => ?_,
    fun listener => ?_, fun source recorderId hr => ?_⟩, h.toFresh.withMemory memory⟩
  · exact (hsame.sourceAlive source).trans (h.source_alive source)
  · exact (hsame.consumerAlive listener).trans (h.consumer_alive listener)
  · obtain ⟨-, -, hreg⟩ := Subscriptions.attach_spec hattach
    rcases (hreg source (.recorder recorderId)).1 hr with hr | ⟨hl, hs⟩
    · exact h.recorded source recorderId hr.1
    · exact hrecorded recorderId hl.symm source hs

/-- **Detaching.** A consumer of the session leaves the source it is joined to. -/
theorem Invariant.detach (h : Invariant session) (listener : Listener) {media : MediaFrame.Type}
    (hlistener : session.OwnsListener listener)
    (hslot : ∀ slot, listener.slot = some slot → media = slot) :
    Keeps (session.withMemory (session.memory.detach listener media)) := by
  rw [Subscriptions.detach_eq_attach]
  exact h.attach listener hlistener hslot (by simp) (by simp)

end Memory

end MediaSession

/-! ## What the objects hand out -/

/-- The endpoint has no RTP endpoint for the media, and one for a media behind it in the cases of
`GetJoinable`. -/
def Endpoint.FallsThrough (endpoint : Endpoint) : MediaFrame.Type → Prop
  | .audio => endpoint.audio.isNone ∧ (endpoint.video.isSome ∨ endpoint.text.isSome)
  | .video => endpoint.video.isNone ∧ endpoint.text.isSome
  | .text => False

theorem Endpoint.getJoinable_mem {endpoint : Endpoint} {endpointId : Nat}
    {media : MediaFrame.Type} {source : Joinable}
    (h : source ∈ endpoint.GetJoinable endpointId media) :
    ∃ type, source = .rtpEndpoint endpointId type ∧ (endpoint.GetRTPEndpoint type).isSome := by
  cases media <;> simp only [GetJoinable, Option.mem_def] at h <;> grind [GetRTPEndpoint]

theorem Endpoint.fallsThrough_iff {endpoint : Endpoint} (endpointId : Nat)
    {media : MediaFrame.Type} :
    endpoint.FallsThrough media ↔
      ∃ type, type ≠ media ∧
        endpoint.GetJoinable endpointId media = some (.rtpEndpoint endpointId type) := by
  rcases endpoint with ⟨_ | audio, _ | video, _ | text⟩ <;> cases media <;>
    simp [FallsThrough, GetJoinable]

theorem MixerResource.getJoinable_mem {mixer : MixerResource} {type : MixerResource.Type}
    {mixerId portId : Nat} {source : Joinable}
    (h : source ∈ mixer.GetJoinable type mixerId portId) :
    source = .encoder type mixerId portId ∧ portId ∈ mixer.ports := by
  simp only [GetJoinable, Option.mem_def] at h
  grind

namespace MediaSession

section Attaching

variable {session : MediaSession}

theorem owns_getJoinable {endpointId : Nat} {endpoint : Endpoint}
    (hendpoint : session.endpoints endpointId = some endpoint) {media : MediaFrame.Type}
    (hfalls : ¬endpoint.FallsThrough media) :
    ∀ source ∈ endpoint.GetJoinable endpointId media,
      session.Owns source ∧ source.media = media ∧ source.Recordable := by
  intro source hsource
  obtain ⟨type, rfl, hsome⟩ := Endpoint.getJoinable_mem hsource
  refine ⟨⟨endpoint, hendpoint, hsome⟩, ?_, trivial⟩
  by_contra hne
  exact hfalls ((Endpoint.fallsThrough_iff endpointId).2 ⟨type, hne, hsource⟩)

theorem owns_getJoinable_mixer {type : MixerResource.Type} {mixerId : Nat}
    {mixer : MixerResource} (hmixer : session.mixers type mixerId = some mixer) (portId : Nat) :
    ∀ source ∈ mixer.GetJoinable type mixerId portId,
      session.Owns source ∧ source.media = type.media ∧ source.Recordable := by
  intro source hsource
  obtain ⟨rfl, hport⟩ := MixerResource.getJoinable_mem hsource
  exact ⟨⟨mixer, hmixer, hport⟩, rfl, trivial⟩

theorem Invariant.endpointAttach (h : Invariant session) {endpointId : Nat} {endpoint : Endpoint}
    (hendpoint : session.endpoints endpointId = some endpoint) {media : MediaFrame.Type}
    {join : Option Joinable}
    (hjoin : (endpoint.GetRTPEndpoint media).isSome →
      ∀ source ∈ join, session.Owns source ∧ source.media = media) :
    Keeps (session.withMemory (endpoint.Attach session.memory endpointId media join)) := by
  unfold Endpoint.Attach
  cases hrtp : endpoint.GetRTPEndpoint media with
  | none => exact h.keeps
  | some rtp =>
    simp only [RTPEndpoint.Attach, h.inited endpointId endpoint hendpoint media rtp hrtp, if_true]
    exact h.attach (.rtpEndpoint endpointId media) ⟨endpoint, hendpoint, by simp [hrtp]⟩
      (by simp [Listener.slot]) (hjoin (by simp [hrtp])) (by simp)

theorem Invariant.mixerAttach (h : Invariant session) {type : MixerResource.Type} {mixerId : Nat}
    {mixer : MixerResource}
    (hmixer : session.mixers type mixerId = some mixer) {portId : Nat} {join : Option Joinable}
    (hjoin : portId ∈ mixer.ports →
      ∀ source ∈ join, session.Owns source ∧ source.media = type.media) :
    Keeps (session.withMemory (mixer.Attach type session.memory mixerId portId join)) := by
  unfold MixerResource.Attach
  by_cases hport : portId ∈ mixer.ports
  · rw [if_pos hport]
    exact h.attach (.decoder type mixerId portId) ⟨mixer, hmixer, hport⟩
      (by simp [Listener.slot]) (hjoin hport) (by simp)
  · rw [if_neg hport]
    exact h.keeps

end Attaching

end MediaSession
end McuMediaServer.Jsr309
