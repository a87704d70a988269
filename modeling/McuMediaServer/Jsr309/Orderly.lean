import McuMediaServer.Jsr309.Lifetimes

/-!
# Which runs keep the joins consistent

`JoinsConsistent` is what the two sides of a join promise each other. It holds at every point of a
run exactly if all requests of the run are orderly: recorders are detached before they or what they
are joined to are deleted, and nothing is attached to an endpoint for a media that the endpoint
answers with another one. All other requests, and all events, keep it in any order.
-/

open Subscriptions (Ends)

namespace McuMediaServer.Jsr309

namespace MediaSession

/-- What the two sides of a join promise each other. -/
structure JoinsConsistent (session : MediaSession) : Prop where
  /-- A source has a consumer among its listeners exactly if a `joined` pointer of the consumer is
  the source. -/
  registered_iff : ∀ source listener, session.memory.Registered source listener ↔
    ∃ media, session.memory.Joined listener media source
  /-- No source keeps a consumer that is gone. -/
  listener_alive : ∀ source listener, session.memory.Registered source listener →
    session.memory.ConsumerAlive listener
  /-- No consumer keeps a source that is gone. -/
  source_alive : ∀ listener media source, session.memory.Joined listener media source →
    session.memory.SourceAlive source
  /-- What is attached to an endpoint for a media takes this media from it. -/
  media_eq : ∀ listener media endpointId type,
    session.memory.Joined listener media (.rtpEndpoint endpointId type) → type = media

/-- The source has no recorder among its listeners. -/
def Unrecorded (session : MediaSession) (source : Joinable) : Prop :=
  ∀ listeners ∈ session.memory.listeners source, ∀ listener ∈ listeners, listener.slot ≠ none

/-- The endpoint answers a request for the media with the RTP endpoint of this media, or not at
all. -/
def Answers (session : MediaSession) (endpointId : Nat) (media : MediaFrame.Type) : Prop :=
  ∀ endpoint ∈ session.endpoints endpointId, ¬endpoint.FallsThrough media

end MediaSession

open MediaSession

/-- The requests that keep the joins consistent. -/
def Request.Orderly (session : MediaSession) : Request → Prop
  | .RecorderDelete recorderId => recorderId ∈ session.recorders →
    ∀ joined ∈ session.memory.joined (.recorder recorderId), ∀ media, joined media = none
  | .RecorderAttachToEndpoint recorderId endpointId media => recorderId ∈ session.recorders →
    session.Answers endpointId media
  | .EndpointDelete endpointId => ∀ type, session.Unrecorded (.rtpEndpoint endpointId type)
  | .EndpointAttachToEndpoint endpointId sourceId media =>
    ∀ endpoint ∈ session.endpoints endpointId, (endpoint.GetRTPEndpoint media).isSome →
      session.Answers sourceId media
  | .MixerDelete type mixerId => ∀ mixer ∈ session.mixers type mixerId,
    ∀ portId ∈ mixer.ports, session.Unrecorded (.encoder type mixerId portId)
  | .MixerPortDelete type mixerId portId => session.Unrecorded (.encoder type mixerId portId)
  | .MixerPortAttachToEndpoint type mixerId portId endpointId =>
    ∀ mixer ∈ session.mixers type mixerId, portId ∈ mixer.ports →
      session.Answers endpointId type.media
  | .VideoTranscoderAttachToEndpoint videoTranscoderId endpointId =>
    videoTranscoderId ∈ session.videoTranscoders → session.Answers endpointId .video
  | _ => True

namespace MediaSession

theorem unrecorded_iff {session : MediaSession} {source : Joinable} :
    session.Unrecorded source ↔ Reacts session.memory source := by
  constructor
  · rintro h listener ⟨listeners, hlisteners, hmem⟩
    exact h listeners hlisteners listener hmem
  · exact fun h listeners hlisteners listener hmem => h listener ⟨listeners, hlisteners, hmem⟩

theorem Invariant.consistent {session : MediaSession} (h : Invariant session) :
    session.JoinsConsistent where
  registered_iff := h.lawful.registered_iff
  listener_alive _ _ hr := h.lawful.consumerAlive hr
  source_alive _ _ _ hj := h.lawful.sourceAlive hj
  media_eq _ _ _ _ hj := ((h.lawful.joined_iff _ _ _).1 hj).2

section Events

variable {session : MediaSession} (h : Invariant session)

include h

theorem Invariant.multiplex (source : Joinable) :
    RTPMultiplexer.Multiplex session.memory source = some session.memory := by
  unfold RTPMultiplexer.Multiplex
  cases hlisteners : session.memory.listeners source with
  | none => rfl
  | some listeners =>
    have halive : ∀ listener ∈ listeners, session.memory.ConsumerAlive listener :=
      fun listener hmem => h.lawful.consumerAlive ⟨listeners, hlisteners, hmem⟩
    clear hlisteners
    dsimp only
    induction listeners with
    | nil => rfl
    | cons listener listeners ih =>
      obtain ⟨joined, hjoined⟩ := Option.isSome_iff_exists.1 (halive listener (by simp))
      have hcall : Listener.onCall session.memory listener = some session.memory := by
        simp [Listener.onCall, hjoined]
      rw [List.foldlM_cons, hcall]
      exact ih fun listener hmem => halive listener (by simp [hmem])

theorem Invariant.onFPURequested (endpointId : Nat) (type : MediaFrame.Type) :
    RTPEndpoint.onFPURequested session.memory endpointId type = some session.memory := by
  unfold RTPEndpoint.onFPURequested
  cases hjoined : session.memory.joined (.rtpEndpoint endpointId type) with
  | none => rfl
  | some joined =>
    cases hsource : joined type with
    | none => simp [hsource]
    | some source =>
      obtain ⟨listeners, hlisteners⟩ := Option.isSome_iff_exists.1
        (h.lawful.sourceAlive ⟨joined, hjoined, hsource⟩)
      simp [hsource, hlisteners]

end Events

section Attaching

variable {session : MediaSession} (h : Invariant session)

include h

theorem Invariant.recorderAttachToMixerPort (type : MixerResource.Type)
    (recorderId mixerId portId : Nat) :
    Keeps (session.RecorderAttachToMixerPort type recorderId mixerId portId) := by
  unfold RecorderAttachToMixerPort
  refine h.keeps_ite fun hmem => ?_
  cases hmixer : session.mixers type mixerId with
  | none => exact h.keeps
  | some mixer =>
    have hown := owns_getJoinable_mixer hmixer portId
    exact h.attach (.recorder recorderId) hmem (by simp [Listener.slot])
      (fun source hs => ⟨(hown source hs).1, (hown source hs).2.1⟩)
      fun _ _ source hs => (hown source hs).2.2

theorem Invariant.recorderAttachToEndpoint (recorderId endpointId : Nat) (media : MediaFrame.Type)
    (horderly : recorderId ∈ session.recorders → session.Answers endpointId media) :
    Keeps (session.RecorderAttachToEndpoint recorderId endpointId media) := by
  unfold RecorderAttachToEndpoint
  refine h.keeps_ite fun hmem => ?_
  cases hendpoint : session.endpoints endpointId with
  | none => exact h.keeps
  | some endpoint =>
    have hown := owns_getJoinable hendpoint (horderly hmem endpoint hendpoint)
    exact h.attach (.recorder recorderId) hmem (by simp [Listener.slot])
      (fun source hs => ⟨(hown source hs).1, (hown source hs).2.1⟩)
      fun _ _ source hs => (hown source hs).2.2

theorem Invariant.recorderDettach (recorderId : Nat) (media : MediaFrame.Type) :
    Keeps (session.RecorderDettach recorderId media) := by
  unfold RecorderDettach
  refine h.keeps_ite fun hmem => ?_
  exact h.detach (.recorder recorderId) hmem (by simp [Listener.slot])

theorem Invariant.endpointAttachToPlayer (endpointId playerId : Nat) (media : MediaFrame.Type) :
    Keeps (session.EndpointAttachToPlayer endpointId playerId media) := by
  unfold EndpointAttachToPlayer
  cases hendpoint : session.endpoints endpointId with
  | none => exact h.keeps
  | some endpoint =>
    refine h.keeps_ite fun hmem => ?_
    refine h.endpointAttach hendpoint fun _ source hs => ?_
    obtain rfl := Option.some.inj hs
    exact ⟨hmem, rfl⟩

theorem Invariant.endpointAttachToMixerPort (type : MixerResource.Type)
    (endpointId mixerId portId : Nat) :
    Keeps (session.EndpointAttachToMixerPort type endpointId mixerId portId) := by
  unfold EndpointAttachToMixerPort
  cases hendpoint : session.endpoints endpointId with
  | none => exact h.keeps
  | some endpoint =>
    cases hmixer : session.mixers type mixerId with
    | none => exact h.keeps
    | some mixer =>
      have hown := owns_getJoinable_mixer hmixer portId
      exact h.endpointAttach hendpoint fun _ source hs =>
        ⟨(hown source hs).1, (hown source hs).2.1⟩

theorem Invariant.endpointAttachToVideoTranscoder (endpointId videoTranscoderId : Nat) :
    Keeps (session.EndpointAttachToVideoTranscoder endpointId videoTranscoderId) := by
  unfold EndpointAttachToVideoTranscoder
  cases hendpoint : session.endpoints endpointId with
  | none => exact h.keeps
  | some endpoint =>
    refine h.keeps_ite fun hmem => ?_
    refine h.endpointAttach hendpoint fun _ source hs => ?_
    obtain rfl := Option.some.inj hs
    exact ⟨hmem, rfl⟩

theorem Invariant.endpointAttachToEndpoint (endpointId sourceId : Nat) (media : MediaFrame.Type)
    (horderly : ∀ endpoint ∈ session.endpoints endpointId,
      (endpoint.GetRTPEndpoint media).isSome → session.Answers sourceId media) :
    Keeps (session.EndpointAttachToEndpoint endpointId sourceId media) := by
  unfold EndpointAttachToEndpoint
  cases hendpoint : session.endpoints endpointId with
  | none => exact h.keeps
  | some endpoint =>
    cases hsource : session.endpoints sourceId with
    | none => exact h.keeps
    | some source =>
      refine h.endpointAttach hendpoint fun hsome join hs => ?_
      have hown := owns_getJoinable hsource (horderly endpoint hendpoint hsome source hsource)
      exact ⟨(hown join hs).1, (hown join hs).2.1⟩

theorem Invariant.endpointDettach (endpointId : Nat) (media : MediaFrame.Type) :
    Keeps (session.EndpointDettach endpointId media) := by
  unfold EndpointDettach
  cases hendpoint : session.endpoints endpointId with
  | none => exact h.keeps
  | some endpoint =>
    simp only [Endpoint.Dettach]
    cases hrtp : endpoint.GetRTPEndpoint media with
    | none => exact h.keeps
    | some rtp =>
      exact h.detach (.rtpEndpoint endpointId media)
        ⟨endpoint, hendpoint, by simp [hrtp]⟩ (by simp [Listener.slot])

theorem Invariant.mixerPortAttachToEndpoint (type : MixerResource.Type)
    (mixerId portId endpointId : Nat)
    (horderly : ∀ mixer ∈ session.mixers type mixerId,
      portId ∈ mixer.ports → session.Answers endpointId type.media) :
    Keeps (session.MixerPortAttachToEndpoint type mixerId portId endpointId) := by
  unfold MixerPortAttachToEndpoint
  cases hmixer : session.mixers type mixerId with
  | none => exact h.keeps
  | some mixer =>
    cases hendpoint : session.endpoints endpointId with
    | none => exact h.keeps
    | some endpoint =>
      refine h.mixerAttach hmixer fun hport source hs => ?_
      have hown := owns_getJoinable hendpoint (horderly mixer hmixer hport endpoint hendpoint)
      exact ⟨(hown source hs).1, (hown source hs).2.1⟩

theorem Invariant.mixerPortAttachToPlayer (type : MixerResource.Type)
    (mixerId portId playerId : Nat) :
    Keeps (session.MixerPortAttachToPlayer type mixerId portId playerId) := by
  unfold MixerPortAttachToPlayer
  cases hmixer : session.mixers type mixerId with
  | none => exact h.keeps
  | some mixer =>
    refine h.keeps_ite fun hmem => ?_
    refine h.mixerAttach hmixer fun _ source hs => ?_
    obtain rfl := Option.some.inj hs
    exact ⟨hmem, rfl⟩

theorem Invariant.mixerPortDettach (type : MixerResource.Type) (mixerId portId : Nat) :
    Keeps (session.MixerPortDettach type mixerId portId) := by
  unfold MixerPortDettach
  cases hmixer : session.mixers type mixerId with
  | none => exact h.keeps
  | some mixer =>
    simp only [MixerResource.Dettach]
    by_cases hport : portId ∈ mixer.ports
    · simp only [if_pos hport]
      exact h.detach (.decoder type mixerId portId) ⟨mixer, hmixer, hport⟩
        (by simp [Listener.slot])
    · simp only [if_neg hport]
      exact h.keeps

theorem Invariant.videoTranscoderAttachToEndpoint (videoTranscoderId endpointId : Nat)
    (horderly : videoTranscoderId ∈ session.videoTranscoders →
      session.Answers endpointId .video) :
    Keeps (session.VideoTranscoderAttachToEndpoint videoTranscoderId endpointId) := by
  unfold VideoTranscoderAttachToEndpoint
  refine h.keeps_ite fun hmem => ?_
  cases hendpoint : session.endpoints endpointId with
  | none => exact h.keeps
  | some endpoint =>
    have hown := owns_getJoinable hendpoint (horderly hmem endpoint hendpoint)
    exact h.attach (.videoTranscoder videoTranscoderId) hmem
      (by simp [Listener.slot])
      (fun source hs => ⟨(hown source hs).1, (hown source hs).2.1⟩) (by simp)

theorem Invariant.videoTranscoderDettach (videoTranscoderId : Nat) :
    Keeps (session.VideoTranscoderDettach videoTranscoderId) := by
  unfold VideoTranscoderDettach
  refine h.keeps_ite fun hmem => ?_
  exact h.detach (.videoTranscoder videoTranscoderId) hmem
    (by simp [Listener.slot])

end Attaching

/-- **An orderly request succeeds and keeps the invariant.** -/
theorem Invariant.step {session : MediaSession} (h : Invariant session) {request : Request}
    (horderly : request.Orderly session) :
    Keeps (session.step request) := by
  cases request with
  | PlayerCreate => exact h.playerCreate
  | PlayerDelete playerId => exact h.playerDelete playerId
  | RecorderCreate => exact h.recorderCreate
  | RecorderDelete recorderId =>
    refine h.recorderDelete recorderId fun hmem media source => ?_
    rintro ⟨joined, hjoined, hsource⟩
    simp [horderly hmem joined hjoined media] at hsource
  | EndpointCreate audio video text => exact h.endpointCreate audio video text
  | EndpointDelete endpointId =>
    exact h.endpointDelete endpointId fun type => unrecorded_iff.1 (horderly type)
  | MixerCreate type => exact h.mixerCreate type
  | MixerDelete type mixerId =>
    exact h.mixerDelete type mixerId fun mixer hmixer portId hport =>
      unrecorded_iff.1 (horderly mixer hmixer portId hport)
  | MixerPortCreate type mixerId => exact h.mixerPortCreate type mixerId
  | MixerPortDelete type mixerId portId =>
    exact h.mixerPortDelete type mixerId portId (unrecorded_iff.1 horderly)
  | VideoTranscoderCreate => exact h.videoTranscoderCreate
  | VideoTranscoderDelete videoTranscoderId => exact h.videoTranscoderDelete videoTranscoderId
  | RecorderAttachToMixerPort type recorderId mixerId portId =>
    exact h.recorderAttachToMixerPort type recorderId mixerId portId
  | RecorderAttachToEndpoint recorderId endpointId media =>
    exact h.recorderAttachToEndpoint recorderId endpointId media horderly
  | RecorderDettach recorderId media =>
    exact h.recorderDettach recorderId media
  | EndpointAttachToPlayer endpointId playerId media =>
    exact h.endpointAttachToPlayer endpointId playerId media
  | EndpointAttachToMixerPort type endpointId mixerId portId =>
    exact h.endpointAttachToMixerPort type endpointId mixerId portId
  | EndpointAttachToVideoTranscoder endpointId videoTranscoderId =>
    exact h.endpointAttachToVideoTranscoder endpointId videoTranscoderId
  | EndpointAttachToEndpoint endpointId sourceId media =>
    exact h.endpointAttachToEndpoint endpointId sourceId media horderly
  | EndpointDettach endpointId media =>
    exact h.endpointDettach endpointId media
  | MixerPortAttachToEndpoint type mixerId portId endpointId =>
    exact h.mixerPortAttachToEndpoint type mixerId portId endpointId horderly
  | MixerPortAttachToPlayer type mixerId portId playerId =>
    exact h.mixerPortAttachToPlayer type mixerId portId playerId
  | MixerPortDettach type mixerId portId =>
    exact h.mixerPortDettach type mixerId portId
  | VideoTranscoderAttachToEndpoint videoTranscoderId endpointId =>
    exact h.videoTranscoderAttachToEndpoint videoTranscoderId endpointId horderly
  | VideoTranscoderDettach videoTranscoderId =>
    exact h.videoTranscoderDettach videoTranscoderId
  | Multiplex source => exact ⟨session, by simp [MediaSession.step, h.multiplex, withMemory], h⟩
  | onEnd playerId =>
    refine ⟨session, ?_, h⟩
    simp [MediaSession.step, Player.onEnd, medias, h.multiplex, withMemory]
  | onFPURequested endpointId type =>
    exact ⟨session, by simp [MediaSession.step, h.onFPURequested, withMemory], h⟩

/-! ## The other requests -/

theorem ends_pair {memory memory' : Memory} {decoder : Listener} {encoder : Joinable}
    {media : MediaFrame.Type} (hslot : decoder.slot ≠ none)
    (h : DecoderJoinableWorker.destroyPair memory decoder media encoder = some memory') :
    Ends Listener.slot memory memory' ∧ ¬memory'.SourceAlive encoder := by
  simp only [DecoderJoinableWorker.destroyPair, DecoderJoinableWorker.destroy,
    DecoderJoinableWorker.End, DecoderJoinableWorker.Dettach, RTPMultiplexer.destroy_eq,
    Option.bind_eq_bind, Option.pure_def, Option.bind_eq_some_iff, Option.some.injEq] at h
  obtain ⟨m₁, h₁, m₃, ⟨m₂, h₂, rfl⟩, h₄⟩ := h
  obtain ⟨hends, hgone⟩ := Ends.destroySource h₄
  have hbefore := ((Ends.detach hslot h₁).trans (Ends.detach hslot h₂)).trans
    (Ends.freeConsumer hslot)
  exact ⟨hbefore.trans hends, hgone⟩

theorem ends_endpoint {memory ended memory' : Memory} {endpointId : Nat} {endpoint : Endpoint}
    (hend : endpoint.End memory endpointId = some ended)
    (hdestroy : endpoint.ended.destroy ended endpointId = some memory') :
    Ends Listener.slot memory memory' ∧ ∀ type, (endpoint.GetRTPEndpoint type).isSome →
      ¬memory'.SourceAlive (.rtpEndpoint endpointId type) := by
  have hendStep : ∀ g type g', endpoint.EndMedia endpointId g type = some g' →
      Ends Listener.slot g g' ∧ (False → ¬g'.SourceAlive (.rtpEndpoint endpointId type)) := by
    intro g type g' hg
    refine ⟨?_, fun hfalse => hfalse.elim⟩
    unfold Endpoint.EndMedia at hg
    cases hrtp : endpoint.GetRTPEndpoint type with
    | none =>
      rw [hrtp] at hg
      obtain rfl := Option.some.inj hg
      exact Ends.refl
    | some rtp =>
      rw [hrtp] at hg
      simp only [RTPEndpoint.End] at hg
      split at hg
      · exact Ends.detach (by simp [Listener.slot]) hg
      · obtain rfl := Option.some.inj hg
        exact Ends.refl
  have hdestroyStep : ∀ g type g', endpoint.ended.destroyMedia endpointId g type = some g' →
      Ends Listener.slot g g' ∧ ((endpoint.GetRTPEndpoint type).isSome →
        ¬g'.SourceAlive (.rtpEndpoint endpointId type)) := by
    intro g type g' hg
    have hrtp : endpoint.ended.GetRTPEndpoint type =
        (endpoint.GetRTPEndpoint type).map fun _ => ⟨false⟩ := by cases type <;> rfl
    unfold Endpoint.destroyMedia at hg
    rw [hrtp] at hg
    cases hsome : endpoint.GetRTPEndpoint type with
    | none =>
      rw [hsome] at hg
      obtain rfl := Option.some.inj hg
      exact ⟨Ends.refl, by simp⟩
    | some rtp =>
      rw [hsome] at hg
      simp only [Option.map_some, RTPEndpoint.destroy, RTPEndpoint.End, Bool.false_eq_true,
        if_false, RTPMultiplexer.destroy_eq, Option.bind_eq_bind, Option.bind_some,
        Option.pure_def, Option.bind_eq_some_iff, Option.some.injEq] at hg
      obtain ⟨g₁, hg₁, rfl⟩ := hg
      obtain ⟨hends₁, hgone₁⟩ := Ends.destroySource hg₁
      exact ⟨hends₁.trans (Ends.freeConsumer (by simp [Listener.slot])), fun _ => hgone₁⟩
  obtain ⟨hends, -⟩ := Ends.foldlM hendStep hend
  obtain ⟨hends', hgone⟩ := Ends.foldlM hdestroyStep hdestroy
  exact ⟨hends.trans hends', fun type => hgone type (mem_medias type)⟩

theorem JoinsConsistent.answers {session next : MediaSession} (hnext : next.JoinsConsistent)
    {listener : Listener} {media : MediaFrame.Type}
    {endpointId : Nat} {endpoint : Endpoint}
    (hstep : session.withMemory (session.memory.attach listener media
      (endpoint.GetJoinable endpointId media)) = some next) :
    ¬endpoint.FallsThrough media := by
  intro hfalls
  obtain ⟨type, hne, hjoin⟩ := (Endpoint.fallsThrough_iff endpointId).1 hfalls
  simp only [withMemory, Option.map_eq_some_iff] at hstep
  obtain ⟨memory, hattach, rfl⟩ := hstep
  obtain ⟨-, hjoined, -⟩ := Subscriptions.attach_spec hattach
  refine hne (hnext.media_eq listener media endpointId type ((hjoined _ _ _).2 ?_))
  rw [if_pos ⟨rfl, rfl⟩, hjoin]

section Disorderly

variable {session next : MediaSession} (h : Invariant session) (hnext : next.JoinsConsistent)

include h hnext

theorem Invariant.reacts_of_ends {source : Joinable}
    (hends : Ends Listener.slot session.memory next.memory)
    (hgone : session.Owns source → ¬next.memory.SourceAlive source) :
    Reacts session.memory source := by
  intro listener hreg hslot
  obtain ⟨joined, hjoined, hsource⟩ :=
    (h.lawful.joined_iff listener source.media source).2 ⟨hreg, rfl⟩
  refine hgone ((h.source_alive source).1 hreg.alive)
    (hnext.source_alive listener source.media source ⟨joined, ?_, hsource⟩)
  rw [hends.joined listener hslot, hjoined]

/-- **A request after which the joins are consistent was orderly.** -/
theorem Invariant.orderly_of_consistent {request : Request}
    (hstep : session.step request = some next) : request.Orderly session := by
  cases request with
  | RecorderDelete recorderId =>
    intro hmem joined hjoined media
    by_contra hne
    obtain ⟨source, hsource⟩ := Option.ne_none_iff_exists'.1 hne
    have hreg : session.memory.Registered source (.recorder recorderId) :=
      (h.lawful.registered_iff _ _).2 ⟨media, joined, hjoined, hsource⟩
    simp only [MediaSession.step, RecorderDelete, if_pos hmem, Option.some.injEq] at hstep
    subst hstep
    have halive := hnext.listener_alive source (.recorder recorderId) hreg
    simp [Recorder.destroy] at halive
  | EndpointDelete endpointId =>
    intro type
    rw [unrecorded_iff]
    cases hendpoint : session.endpoints endpointId with
    | none =>
      intro listener hreg
      obtain ⟨endpoint, hsome, -⟩ := (h.source_alive _).1 hreg.alive
      simp [hendpoint] at hsome
    | some endpoint =>
      simp only [MediaSession.step, EndpointDelete, hendpoint, Option.bind_eq_bind,
        Option.pure_def, Option.bind_eq_some_iff, Option.some.injEq] at hstep
      obtain ⟨ended, hend, memory, hdestroy, rfl⟩ := hstep
      obtain ⟨hends, hgone⟩ := ends_endpoint hend hdestroy
      refine h.reacts_of_ends hnext hends ?_
      rintro ⟨endpoint', hendpoint', hsome⟩
      obtain rfl := Option.some.inj (hendpoint.symm.trans hendpoint')
      exact hgone type hsome
  | MixerDelete type mixerId =>
    intro mixer hmixer portId hport
    rw [unrecorded_iff]
    rw [Option.mem_def] at hmixer
    simp only [MediaSession.step, MixerDelete, hmixer, withMemory, MixerResource.End,
      Option.map_eq_some_iff] at hstep
    obtain ⟨memory, hfold, rfl⟩ := hstep
    have hportStep : ∀ g portId g', MixerResource.destroyPort type g mixerId portId = some g' →
        Ends Listener.slot g g' ∧ (True → ¬g'.SourceAlive (.encoder type mixerId portId)) := by
      intro g portId g' hg
      obtain ⟨hends, hgone⟩ := ends_pair (by simp [Listener.slot]) hg
      exact ⟨hends, fun _ => hgone⟩
    obtain ⟨hends, hgone⟩ := Ends.foldlM hportStep hfold
    exact h.reacts_of_ends hnext hends fun _ => hgone portId hport trivial
  | MixerPortDelete type mixerId portId =>
    refine unrecorded_iff.2 fun listener hreg => ?_
    obtain ⟨mixer, hmixer, hport⟩ := (h.source_alive _).1 hreg.alive
    simp only [MediaSession.step, MixerPortDelete, hmixer, MixerResource.DeletePort, if_pos hport,
      MixerResource.destroyPort, Option.bind_eq_bind, Option.pure_def, Option.bind_eq_some_iff,
      Option.some.injEq] at hstep
    obtain ⟨deleted, ⟨memory, hdestroy, rfl⟩, rfl⟩ := hstep
    obtain ⟨hends, hgone⟩ := ends_pair (by simp [Listener.slot]) hdestroy
    exact h.reacts_of_ends hnext hends (fun _ => hgone) listener hreg
  | RecorderAttachToEndpoint recorderId endpointId media =>
    intro hmem endpoint hendpoint
    rw [Option.mem_def] at hendpoint
    simp only [MediaSession.step, RecorderAttachToEndpoint, if_pos hmem, hendpoint] at hstep
    exact hnext.answers hstep
  | EndpointAttachToEndpoint endpointId sourceId media =>
    intro endpoint hendpoint hsome source hsource
    rw [Option.mem_def] at hendpoint hsource
    obtain ⟨rtp, hrtp⟩ := Option.isSome_iff_exists.1 hsome
    simp only [MediaSession.step, EndpointAttachToEndpoint, hendpoint, hsource, Endpoint.Attach,
      hrtp, RTPEndpoint.Attach, h.inited endpointId endpoint hendpoint media rtp hrtp,
      if_true] at hstep
    exact hnext.answers hstep
  | MixerPortAttachToEndpoint type mixerId portId endpointId =>
    intro mixer hmixer hport endpoint hendpoint
    rw [Option.mem_def] at hmixer hendpoint
    simp only [MediaSession.step, MixerPortAttachToEndpoint, hmixer, hendpoint,
      MixerResource.Attach, if_pos hport] at hstep
    exact hnext.answers hstep
  | VideoTranscoderAttachToEndpoint videoTranscoderId endpointId =>
    intro hmem endpoint hendpoint
    rw [Option.mem_def] at hendpoint
    simp only [MediaSession.step, VideoTranscoderAttachToEndpoint, if_pos hmem,
      hendpoint] at hstep
    exact hnext.answers hstep
  | _ => trivial

end Disorderly

/-- **The joins are consistent at every point of a run, and no object that is gone is used, exactly
if all its requests are orderly.** -/
theorem joinsConsistent_iff_orderly (requests : List Request) :
    (∀ before, before <+: requests →
      ∃ session, before.foldlM MediaSession.step init = some session ∧ session.JoinsConsistent) ↔
      StepRun.MeetsM MediaSession.step (fun session request => request.Orderly session) init
        requests :=
  StepRun.forall_prefix_foldlM_iff_meetsM (fun _ h => Invariant.consistent h)
    (fun _ _ h horderly => h.step horderly)
    (fun _ _ _ h hstep hnext => h.orderly_of_consistent hnext hstep) invariant_init requests

/-- A recorder that is deleted while it records stays among the listeners of the endpoint, which
calls it at the next packet. -/
theorem not_joinsConsistent_recorderDelete :
    ¬∀ (requests : List Request) (session : MediaSession),
      requests.foldlM MediaSession.step init = some session → session.JoinsConsistent := by
  intro h
  have hconsistent := h [.EndpointCreate true true false, .RecorderCreate,
    .RecorderAttachToEndpoint 1 1 .audio, .RecorderDelete 1] _ rfl
  have halive := hconsistent.listener_alive (.rtpEndpoint 1 .audio) (.recorder 1)
    ⟨[.recorder 1], by decide, by decide⟩
  exact absurd halive (by decide)

end MediaSession
end McuMediaServer.Jsr309
