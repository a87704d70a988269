import McuMediaServer.Jsr309.Joins

/-!
# The objects of a session come and go

Creating an object brings multiplexers without listeners and consumers that are joined to nothing,
under an identifier that named nothing. Deleting one detaches its consumers, ends its streams and
frees it; the invariant survives when none of the listeners that are told of the end is a recorder.
-/

open Subscriptions (Gains Loses Ends)

namespace McuMediaServer.Jsr309

/-- The listeners of the source all react when it ends. -/
def Reacts (memory : Memory) (source : Joinable) : Prop :=
  ∀ listener, memory.Registered source listener → listener.slot ≠ none

/-! ## Creating -/

/-- The memory gained the multiplexers `A` and the consumers `B`. -/
abbrev Created (A : Joinable → Prop) (B : Listener → Prop) : Memory → Memory → Prop :=
  Gains Joinable.media Listener.slot A B

/-- The memory lost the multiplexers `A` and the consumers `B`. -/
abbrev Deleted (A : Joinable → Prop) (B : Listener → Prop) : Memory → Memory → Prop :=
  Loses Joinable.media Listener.slot A B

theorem medias_nodup : medias.Nodup := by decide

theorem mem_medias (media : MediaFrame.Type) : media ∈ medias := by
  cases media <;> decide

variable {endpointId : Nat}

section Create

variable {memory : Memory} (h : memory.Lawful Joinable.media Listener.slot)

include h

theorem created_pair (decoder : Listener) (encoder : Joinable)
    (hsource : ¬memory.SourceAlive encoder) (hconsumer : ¬memory.ConsumerAlive decoder) :
    Created (· = encoder) (· = decoder) memory
      (DecoderJoinableWorker.constructPair memory decoder encoder) := by
  have hnew := Gains.newSource h hsource
  exact (hnew.trans (Gains.newConsumer hnew.lawful (c := decoder) (by simpa using hconsumer))).congr
    (by simp) (by simp)

theorem created_player {playerId : Nat}
    (hsource : ∀ media, ¬memory.SourceAlive (.player playerId media)) :
    Created (fun source => ∃ media, source = .player playerId media) (fun _ => False) memory
      (Player.construct memory playerId) := by
  have hfold := Gains.foldl (f := fun memory media => memory.newSource (.player playerId media))
    (A := fun media source => source = .player playerId media) (B := fun _ _ => False)
    (fun media g hg hs _ => Gains.newSource hg (hs _ rfl)) (by grind) (by simp) medias_nodup h
    (by rintro media - source rfl; exact hsource media) (by simp)
  exact hfold.congr (by simp [mem_medias]) (by simp)

theorem created_endpoint (endpoint : Endpoint)
    (hsource : ∀ type, ¬memory.SourceAlive (.rtpEndpoint endpointId type))
    (hconsumer : ∀ type, ¬memory.ConsumerAlive (.rtpEndpoint endpointId type)) :
    Created
      (fun source => ∃ type, (endpoint.GetRTPEndpoint type).isSome ∧
        source = .rtpEndpoint endpointId type)
      (fun listener => ∃ type, (endpoint.GetRTPEndpoint type).isSome ∧
        listener = .rtpEndpoint endpointId type)
      memory (endpoint.construct memory endpointId) := by
  have hstep : ∀ type (g : Memory), g.Lawful Joinable.media Listener.slot →
      (∀ source, (endpoint.GetRTPEndpoint type).isSome ∧ source = .rtpEndpoint endpointId type →
        ¬g.SourceAlive source) →
      (∀ listener, (endpoint.GetRTPEndpoint type).isSome ∧
        listener = .rtpEndpoint endpointId type → ¬g.ConsumerAlive listener) →
      Created
        (fun source => (endpoint.GetRTPEndpoint type).isSome ∧
          source = .rtpEndpoint endpointId type)
        (fun listener => (endpoint.GetRTPEndpoint type).isSome ∧
          listener = .rtpEndpoint endpointId type)
        g (endpoint.constructMedia endpointId g type) := by
    intro type g hg hs hc
    unfold Endpoint.constructMedia
    cases hrtp : endpoint.GetRTPEndpoint type with
    | none => exact (Gains.refl hg).congr (by simp) (by simp)
    | some rtp =>
      exact (created_pair hg _ _ (hs _ ⟨by simp [hrtp], rfl⟩) (hc _ ⟨by simp [hrtp], rfl⟩)).congr
        (by simp) (by simp)
  have hfold := Gains.foldl hstep (by grind) (by grind) medias_nodup h
    (by rintro type - source ⟨-, rfl⟩; exact hsource type)
    (by rintro type - listener ⟨-, rfl⟩; exact hconsumer type)
  exact hfold.congr (by simp [mem_medias]) (by simp [mem_medias])

end Create

/-! ## Deleting -/

section Delete

variable {memory : Memory} (h : memory.Lawful Joinable.media Listener.slot)

include h

theorem deleted_pair (decoder : Listener) (encoder : Joinable) {media : MediaFrame.Type}
    (hsource : memory.SourceAlive encoder) (hconsumer : memory.ConsumerAlive decoder)
    (hslot : decoder.slot = some media) (hreact : Reacts memory encoder) :
    ∃ memory', DecoderJoinableWorker.destroyPair memory decoder media encoder = some memory' ∧
      Deleted (· = encoder) (· = decoder) memory memory' := by
  obtain ⟨m₁, h₁, hl₁, -⟩ := h.loses_detach hconsumer media hslot
  have hc₁ : m₁.ConsumerAlive decoder := (hl₁.consumerAlive decoder).2 ⟨hconsumer, by simp⟩
  obtain ⟨m₂, h₂, hl₂, hfree⟩ := hl₁.lawful.loses_detach hc₁ media hslot
  have hl₃ := hl₂.lawful.loses_consumer hfree
  have hl := (hl₁.trans hl₂).trans hl₃
  have hs₃ : (m₂.freeConsumer decoder).SourceAlive encoder :=
    (hl.sourceAlive encoder).2 ⟨hsource, by simp⟩
  obtain ⟨m₄, h₄, hl₄⟩ := hl₃.lawful.loses_source hs₃ fun listener hr =>
    hreact listener (hl.registered h hr)
  refine ⟨m₄, ?_, (hl.trans hl₄).congr (by simp) (by simp)⟩
  simp only [DecoderJoinableWorker.destroyPair, DecoderJoinableWorker.destroy,
    DecoderJoinableWorker.End, DecoderJoinableWorker.Dettach, RTPMultiplexer.destroy_eq,
    Option.bind_eq_bind, Option.pure_def, h₁, Option.bind_some, h₂, h₄]

theorem deleted_ports {type : MixerResource.Type} {mixerId : Nat} {ports : List Nat}
    (hnodup : ports.Nodup)
    (hsource : ∀ portId ∈ ports, memory.SourceAlive (.encoder type mixerId portId))
    (hconsumer : ∀ portId ∈ ports, memory.ConsumerAlive (.decoder type mixerId portId))
    (hreact : ∀ portId ∈ ports, Reacts memory (.encoder type mixerId portId)) :
    ∃ memory', ports.foldlM (fun memory portId =>
        MixerResource.destroyPort type memory mixerId portId) memory = some memory' ∧
      Deleted (fun source => ∃ portId ∈ ports, source = .encoder type mixerId portId)
        (fun listener => ∃ portId ∈ ports, listener = .decoder type mixerId portId)
        memory memory' := by
  refine Loses.exists_foldlM
    (P := fun portId g => g.SourceAlive (.encoder type mixerId portId) ∧
      g.ConsumerAlive (.decoder type mixerId portId) ∧
      Reacts g (.encoder type mixerId portId)) ?_ ?_ hnodup h
    fun portId hport => ⟨hsource portId hport, hconsumer portId hport, hreact portId hport⟩
  · rintro portId g hg ⟨hs, hc, hr⟩
    exact deleted_pair hg _ _ hs hc rfl hr
  · rintro i j g g' hij hg hl ⟨hs, hc, hr⟩
    refine ⟨(hl.sourceAlive _).2 ⟨hs, ?_⟩, (hl.consumerAlive _).2 ⟨hc, ?_⟩,
      fun listener hreg => hr listener (hl.registered hg hreg)⟩
    · simpa using hij.symm
    · simpa using hij.symm

theorem deleted_player (playerId : Nat)
    (hsource : ∀ media, memory.SourceAlive (.player playerId media))
    (hreact : ∀ media, Reacts memory (.player playerId media)) :
    ∃ memory', Player.destroy memory playerId = some memory' ∧
      Deleted (fun source => ∃ media, source = .player playerId media) (fun _ => False)
        memory memory' := by
  obtain ⟨memory', hfold, hl⟩ := Loses.exists_foldlM
    (f := fun memory media => RTPMultiplexer.destroy memory (.player playerId media))
    (A := fun media source => source = .player playerId media) (B := fun _ _ => False)
    (P := fun media g => g.SourceAlive (.player playerId media) ∧
      Reacts g (.player playerId media))
    (fun media g hg hpre => by
      rw [RTPMultiplexer.destroy_eq]
      exact hg.loses_source hpre.1 hpre.2)
    (fun i j g g' hij hg hl hpre => ⟨(hl.sourceAlive _).2 ⟨hpre.1, by simpa using hij.symm⟩,
      fun listener hreg => hpre.2 listener (hl.registered hg hreg)⟩)
    (by decide : medias.reverse.Nodup) h fun media _ => ⟨hsource media, hreact media⟩
  exact ⟨memory', hfold, hl.congr (by simp [mem_medias]) (by simp)⟩

theorem deleted_endpoint_end {endpoint : Endpoint} (types : List MediaFrame.Type)
    (hinited : ∀ type rtp, endpoint.GetRTPEndpoint type = some rtp → rtp.inited)
    (hconsumer : ∀ type, (endpoint.GetRTPEndpoint type).isSome →
      memory.ConsumerAlive (.rtpEndpoint endpointId type)) :
    ∃ memory', types.foldlM (endpoint.EndMedia endpointId) memory = some memory' ∧
      Deleted (fun _ => False) (fun _ => False) memory memory' ∧
      ∀ type ∈ types, (endpoint.GetRTPEndpoint type).isSome →
        ∀ media source, ¬memory'.Joined (.rtpEndpoint endpointId type) media source := by
  induction types generalizing memory with
  | nil => exact ⟨memory, rfl, Loses.refl h, by simp⟩
  | cons type types ih =>
    obtain ⟨m₁, h₁, hl₁, hfree⟩ : ∃ m₁, endpoint.EndMedia endpointId memory type = some m₁ ∧
        Deleted (fun _ => False) (fun _ => False) memory m₁ ∧
        ((endpoint.GetRTPEndpoint type).isSome →
          ∀ media source, ¬m₁.Joined (.rtpEndpoint endpointId type) media source) := by
      unfold Endpoint.EndMedia
      cases hrtp : endpoint.GetRTPEndpoint type with
      | none => exact ⟨memory, rfl, Loses.refl h, by simp⟩
      | some rtp =>
        obtain ⟨m₁, h₁, hl₁, hfree⟩ :=
          h.loses_detach (hconsumer type (by simp [hrtp])) type rfl
        refine ⟨m₁, ?_, hl₁, fun _ => hfree⟩
        simp [RTPEndpoint.End, RTPEndpoint.Dettach, hinited type rtp hrtp, h₁]
    obtain ⟨m₂, h₂, hl₂, hrest⟩ := ih hl₁.lawful fun type htype =>
      (hl₁.consumerAlive _).2 ⟨hconsumer type htype, by simp⟩
    refine ⟨m₂, by rw [List.foldlM_cons, h₁]; exact h₂, (hl₁.trans hl₂).congr (by simp) (by simp),
      fun type' htype' hsome media source hjoined => ?_⟩
    rcases List.mem_cons.1 htype' with rfl | htype'
    · exact hfree hsome media source (hl₂.joined _ _ _ hjoined)
    · exact hrest type' htype' hsome media source hjoined

theorem deleted_endpoint {endpoint : Endpoint}
    (hinited : ∀ type rtp, endpoint.GetRTPEndpoint type = some rtp → rtp.inited)
    (hsource : ∀ type, (endpoint.GetRTPEndpoint type).isSome →
      memory.SourceAlive (.rtpEndpoint endpointId type))
    (hconsumer : ∀ type, (endpoint.GetRTPEndpoint type).isSome →
      memory.ConsumerAlive (.rtpEndpoint endpointId type))
    (hreact : ∀ type, Reacts memory (.rtpEndpoint endpointId type)) :
    ∃ ended memory', endpoint.End memory endpointId = some ended ∧
      endpoint.ended.destroy ended endpointId = some memory' ∧
      Deleted
        (fun source => ∃ type, (endpoint.GetRTPEndpoint type).isSome ∧
          source = .rtpEndpoint endpointId type)
        (fun listener => ∃ type, (endpoint.GetRTPEndpoint type).isSome ∧
          listener = .rtpEndpoint endpointId type)
        memory memory' := by
  obtain ⟨ended, hend, hl, hfree⟩ :=
    deleted_endpoint_end h medias hinited hconsumer
  have hrtp : ∀ type, endpoint.ended.GetRTPEndpoint type =
      (endpoint.GetRTPEndpoint type).map fun _ => ⟨false⟩ := fun type => by
    cases type <;> rfl
  obtain ⟨memory', hfold, hl'⟩ := Loses.exists_foldlM
    (f := endpoint.ended.destroyMedia endpointId)
    (A := fun type source => (endpoint.GetRTPEndpoint type).isSome ∧
      source = .rtpEndpoint endpointId type)
    (B := fun type listener => (endpoint.GetRTPEndpoint type).isSome ∧
      listener = .rtpEndpoint endpointId type)
    (P := fun type g => (endpoint.GetRTPEndpoint type).isSome →
      g.SourceAlive (.rtpEndpoint endpointId type) ∧
      (∀ media source, ¬g.Joined (.rtpEndpoint endpointId type) media source) ∧
      Reacts g (.rtpEndpoint endpointId type))
    (fun type g hg hpre => by
      unfold Endpoint.destroyMedia
      rw [hrtp]
      cases hsome : endpoint.GetRTPEndpoint type with
      | none => exact ⟨g, rfl, (Loses.refl hg).congr (by simp) (by simp)⟩
      | some rtp =>
        obtain ⟨hs, hj, hr⟩ := hpre (by simp [hsome])
        obtain ⟨g₁, h₁, hl₁⟩ := hg.loses_source hs hr
        refine ⟨g₁.freeConsumer (.rtpEndpoint endpointId type), ?_, ?_⟩
        · simp [RTPEndpoint.destroy, RTPEndpoint.End, RTPMultiplexer.destroy_eq, h₁]
        · exact (hl₁.trans (hl₁.lawful.loses_consumer fun media source hjoined =>
            hj media source (hl₁.joined _ _ _ hjoined))).congr (by simp) (by simp))
    (fun i j g g' hij hg hlost hpre hsome => by
      obtain ⟨hs, hj, hr⟩ := hpre hsome
      refine ⟨(hlost.sourceAlive _).2 ⟨hs, ?_⟩, fun media source hjoined =>
        hj media source (hlost.joined _ _ _ hjoined), fun listener hreg =>
        hr listener (hlost.registered hg hreg)⟩
      rintro ⟨-, heq⟩
      exact hij (Joinable.rtpEndpoint.inj heq).2.symm)
    medias_nodup hl.lawful fun type _ hsome =>
      ⟨(hl.sourceAlive _).2 ⟨hsource type hsome, by simp⟩,
        hfree type (mem_medias type) hsome,
        fun listener hreg => hreact type listener (hl.registered h hreg)⟩
  refine ⟨ended, memory', hend, hfold, (hl.trans hl').congr ?_ ?_⟩ <;> simp [mem_medias]

end Delete

/-! ## The session -/

theorem lt_succ_of_mem_concat {ids : List Nat} {bound : Nat} (h : ∀ id ∈ ids, id < bound) :
    ∀ id ∈ ids ++ [bound], id < bound + 1 := by
  intro id hid
  rcases List.mem_append.1 hid with hid | hid
  · exact Nat.lt_succ_of_lt (h id hid)
  · rw [List.mem_singleton.1 hid]
    exact Nat.lt_succ_self bound

namespace MediaSession

theorem setMixer_mixers (session : MediaSession) (type type' : MixerResource.Type)
    (mixerId mixerId' : Nat) (mixer : Option MixerResource) :
    (session.setMixer type mixerId mixer).mixers type' mixerId' =
      if type' = type ∧ mixerId' = mixerId then mixer else session.mixers type' mixerId' := by
  rcases eq_or_ne type' type with rfl | htype
  · rcases eq_or_ne mixerId' mixerId with rfl | hid <;> simp [setMixer, *]
  · simp [setMixer, htype]

theorem Fresh.setMixer {session : MediaSession} (h : Fresh session) {type : MixerResource.Type}
    {mixerId : Nat} {mixer : Option MixerResource} (hid : mixerId < session.maxMixerId type)
    (hports : ∀ m, mixer = some m → (∀ portId ∈ m.ports, portId < m.maxId) ∧ m.ports.Nodup)
    (memory : Memory) : Fresh { session.setMixer type mixerId mixer with memory } where
  endpoint_lt := h.endpoint_lt
  player_lt := h.player_lt
  recorder_lt := h.recorder_lt
  mixer_lt type' mixerId' m hm := by
    rw [setMixer_mixers] at hm
    have := h.mixer_lt type' mixerId' m
    rcases Classical.em (type' = type ∧ mixerId' = mixerId) with ⟨rfl, rfl⟩ | hne
    · exact hid
    · exact this (by rwa [if_neg hne] at hm)
  port_lt type' mixerId' m hm := by
    rw [setMixer_mixers] at hm
    rcases Classical.em (type' = type ∧ mixerId' = mixerId) with hpos | hne
    · exact (hports m (by rwa [if_pos hpos] at hm)).1
    · exact h.port_lt type' mixerId' m (by rwa [if_neg hne] at hm)
  ports_nodup type' mixerId' m hm := by
    rw [setMixer_mixers] at hm
    rcases Classical.em (type' = type ∧ mixerId' = mixerId) with hpos | hne
    · exact (hports m (by rwa [if_pos hpos] at hm)).2
    · exact h.ports_nodup type' mixerId' m (by rwa [if_neg hne] at hm)
  videoTranscoder_lt := h.videoTranscoder_lt
  inited := h.inited

theorem setMixer_self {session : MediaSession} {type : MixerResource.Type} {mixerId : Nat}
    {mixer : MixerResource} (hmixer : session.mixers type mixerId = some mixer) :
    session.setMixer type mixerId (some mixer) = session := by
  rw [setMixer, ← hmixer, Function.update_eq_self, Function.update_eq_self]

section Mixer

variable {session : MediaSession} (h : Tracked session) {type : MixerResource.Type} {mixerId : Nat}
  {mixer : Option MixerResource} {memory : Memory} {A : Nat → Prop}

include h

theorem Tracked.gains_setMixer
    (hgains : Created (fun source => ∃ portId, A portId ∧ source = .encoder type mixerId portId)
      (fun listener => ∃ portId, A portId ∧ listener = .decoder type mixerId portId)
      session.memory memory)
    (hports : ∀ portId, (∃ m, mixer = some m ∧ portId ∈ m.ports) ↔
      (∃ m, session.mixers type mixerId = some m ∧ portId ∈ m.ports) ∨ A portId) :
    Tracked { session.setMixer type mixerId mixer with memory } := by
  refine h.gains hgains ?_ ?_
  · intro source
    cases source with
    | encoder type' mixerId' portId =>
      have hport := hports portId
      simp only [Owns, setMixer_mixers]
      split <;> grind
    | rtpEndpoint | player | videoTranscoder => simp [Owns, MediaSession.setMixer]
  · intro listener
    cases listener with
    | decoder type' mixerId' portId =>
      have hport := hports portId
      simp only [OwnsListener, setMixer_mixers]
      split <;> grind
    | rtpEndpoint | recorder | videoTranscoder => simp [OwnsListener, MediaSession.setMixer]

theorem Tracked.loses_setMixer
    (hloses : Deleted (fun source => ∃ portId, A portId ∧ source = .encoder type mixerId portId)
      (fun listener => ∃ portId, A portId ∧ listener = .decoder type mixerId portId)
      session.memory memory)
    (hports : ∀ portId, (∃ m, mixer = some m ∧ portId ∈ m.ports) ↔
      (∃ m, session.mixers type mixerId = some m ∧ portId ∈ m.ports) ∧ ¬A portId) :
    Tracked { session.setMixer type mixerId mixer with memory } := by
  refine h.loses hloses ?_ ?_
  · intro source
    cases source with
    | encoder type' mixerId' portId =>
      have hport := hports portId
      simp only [Owns, setMixer_mixers]
      split <;> grind
    | rtpEndpoint | player | videoTranscoder => simp [Owns, MediaSession.setMixer]
  · intro listener
    cases listener with
    | decoder type' mixerId' portId =>
      have hport := hports portId
      simp only [OwnsListener, setMixer_mixers]
      split <;> grind
    | rtpEndpoint | recorder | videoTranscoder => simp [OwnsListener, MediaSession.setMixer]

end Mixer

section Requests

variable {session : MediaSession} (h : Invariant session)

include h

theorem Invariant.not_sourceAlive {source : Joinable} (hnot : ¬session.Owns source) :
    ¬session.memory.SourceAlive source :=
  fun halive => hnot ((h.source_alive source).1 halive)

theorem Invariant.not_consumerAlive {listener : Listener}
    (hnot : ¬session.OwnsListener listener) : ¬session.memory.ConsumerAlive listener :=
  fun halive => hnot ((h.consumer_alive listener).1 halive)

theorem Invariant.reacts {source : Joinable} (hsource : ¬source.Recordable) :
    Reacts session.memory source := by
  intro listener hr
  cases listener with
  | recorder recorderId => exact absurd (h.recorded source recorderId hr) hsource
  | rtpEndpoint | decoder | videoTranscoder => simp [Listener.slot]

theorem Invariant.playerCreate : Keeps session.PlayerCreate := by
  have hfresh : session.maxPlayersId ∉ session.players := fun hmem =>
    Nat.lt_irrefl _ (h.player_lt _ hmem)
  refine ⟨_, rfl, h.toTracked.gains (created_player h.lawful fun media =>
    h.not_sourceAlive hfresh) ?_ ?_,
    { h.toFresh with player_lt := lt_succ_of_mem_concat h.player_lt }⟩
  · intro source
    cases source <;> simp [Owns]
  · intro listener
    cases listener <;> simp [OwnsListener]

theorem Invariant.recorderCreate : Keeps session.RecorderCreate := by
  have hfresh : session.maxRecordersId ∉ session.recorders := fun hmem =>
    Nat.lt_irrefl _ (h.recorder_lt _ hmem)
  have halive : ¬session.memory.ConsumerAlive (.recorder session.maxRecordersId) :=
    h.not_consumerAlive hfresh
  refine ⟨_, rfl, h.toTracked.gains (Gains.newConsumer h.lawful halive) ?_ ?_,
    { h.toFresh with recorder_lt := lt_succ_of_mem_concat h.recorder_lt }⟩
  · intro source
    cases source <;> simp [Owns]
  · intro listener
    cases listener <;> simp [OwnsListener]

theorem Invariant.videoTranscoderCreate : Keeps session.VideoTranscoderCreate := by
  have hfresh : session.maxVideoTranscoderId ∉ session.videoTranscoders := fun hmem =>
    Nat.lt_irrefl _ (h.videoTranscoder_lt _ hmem)
  refine ⟨_, rfl, h.toTracked.gains (created_pair h.lawful
    (.videoTranscoder session.maxVideoTranscoderId)
    (.videoTranscoder session.maxVideoTranscoderId)
    (h.not_sourceAlive hfresh) (h.not_consumerAlive hfresh)) ?_ ?_,
    { h.toFresh with videoTranscoder_lt := lt_succ_of_mem_concat h.videoTranscoder_lt }⟩
  · intro source
    cases source <;> simp [Owns]
  · intro listener
    cases listener <;> simp [OwnsListener]

theorem Invariant.endpointCreate (audioSupported videoSupported textSupported : Bool) :
    Keeps (session.EndpointCreate audioSupported videoSupported textSupported) := by
  have hfresh : session.endpoints session.maxEndpointId = none := by
    by_contra hne
    obtain ⟨endpoint, hendpoint⟩ := Option.ne_none_iff_exists'.1 hne
    exact Nat.lt_irrefl _ (h.endpoint_lt _ endpoint hendpoint)
  have hrunning : ∀ media rtp, (Endpoint.create audioSupported videoSupported
      textSupported).GetRTPEndpoint media = some rtp → rtp.inited := by
    intro media rtp hrtp
    cases media <;> simp only [Endpoint.GetRTPEndpoint, Endpoint.create] at hrtp <;> grind
  refine ⟨_, rfl, h.toTracked.gains (created_endpoint h.lawful
    (Endpoint.create audioSupported videoSupported textSupported)
    (fun type => h.not_sourceAlive (by simp [Owns, hfresh]))
    fun type => h.not_consumerAlive (by simp [OwnsListener, hfresh])) ?_ ?_,
    { h.toFresh with endpoint_lt := ?_, inited := ?_ }⟩
  · intro source
    cases source with
    | rtpEndpoint endpointId type =>
      rcases eq_or_ne endpointId session.maxEndpointId with rfl | hne
      · simp [Owns, hfresh]
      · simp [Owns, hne]
    | player | encoder | videoTranscoder => simp [Owns]
  · intro listener
    cases listener with
    | rtpEndpoint endpointId type =>
      rcases eq_or_ne endpointId session.maxEndpointId with rfl | hne
      · simp [OwnsListener, hfresh]
      · simp [OwnsListener, hne]
    | recorder | decoder | videoTranscoder => simp [OwnsListener]
  · intro endpointId endpoint hendpoint
    rcases eq_or_ne endpointId session.maxEndpointId with rfl | hne
    · exact Nat.lt_succ_self _
    · have hendpoint : session.endpoints endpointId = some endpoint := by
        simpa [hne] using hendpoint
      exact Nat.lt_succ_of_lt (h.endpoint_lt endpointId endpoint hendpoint)
  · intro endpointId endpoint hendpoint
    rcases eq_or_ne endpointId session.maxEndpointId with rfl | hne
    · obtain rfl : Endpoint.create audioSupported videoSupported textSupported = endpoint := by
        simpa using hendpoint
      exact hrunning
    · exact h.inited endpointId endpoint (by simpa [hne] using hendpoint)

theorem Invariant.mixerCreate (type : MixerResource.Type) :
    Keeps (session.MixerCreate type) := by
  have hfresh : session.mixers type (session.maxMixerId type) = none := by
    by_contra hne
    obtain ⟨mixer, hmixer⟩ := Option.ne_none_iff_exists'.1 hne
    exact Nat.lt_irrefl _ (h.mixer_lt type _ mixer hmixer)
  have htracked := @Tracked.gains_setMixer _ h.toTracked type (session.maxMixerId type)
    (some .create) _ (fun _ => False) ((Gains.refl h.lawful).congr (by simp) (by simp))
    (by simp [hfresh, MixerResource.create])
  refine ⟨_, rfl, { htracked with },
    { h.toFresh with mixer_lt := ?_, port_lt := ?_, ports_nodup := ?_ }⟩
  · intro type' mixerId mixer hmixer
    rw [setMixer_mixers] at hmixer
    change mixerId < Function.update session.maxMixerId type (session.maxMixerId type + 1) type'
    rcases eq_or_ne type' type with rfl | htype
    · rw [Function.update_self]
      have := h.mixer_lt type' mixerId
      grind
    · rw [Function.update_of_ne htype]
      exact h.mixer_lt type' mixerId mixer (by simpa [htype] using hmixer)
  · intro type' mixerId mixer hmixer
    rw [setMixer_mixers] at hmixer
    have := h.port_lt type' mixerId
    grind [MixerResource.create]
  · intro type' mixerId mixer hmixer
    rw [setMixer_mixers] at hmixer
    have := h.ports_nodup type' mixerId
    grind [MixerResource.create]

theorem Invariant.mixerPortCreate (type : MixerResource.Type) (mixerId : Nat) :
    Keeps (session.MixerPortCreate type mixerId) := by
  unfold MixerPortCreate
  cases hmixer : session.mixers type mixerId with
  | none => exact h.keeps
  | some mixer =>
    have hlt := h.port_lt type mixerId mixer hmixer
    have hfresh : mixer.maxId ∉ mixer.ports := fun hmem => Nat.lt_irrefl _ (hlt _ hmem)
    dsimp only [MixerResource.CreatePort]
    by_cases hinited : mixer.inited
    · rw [if_pos hinited]
      have hcreated := created_pair h.lawful (.decoder type mixerId mixer.maxId)
        (.encoder type mixerId mixer.maxId)
        (h.not_sourceAlive (by simp [Owns, hmixer, hfresh]))
        (h.not_consumerAlive (by simp [OwnsListener, hmixer, hfresh]))
      refine ⟨_, rfl, @Tracked.gains_setMixer _ h.toTracked type mixerId _ _ (· = mixer.maxId)
        (hcreated.congr (by simp) (by simp)) (by simp [hmixer]),
        h.toFresh.setMixer (h.mixer_lt type mixerId mixer hmixer) (fun m hm => ?_) _⟩
      obtain rfl := Option.some.inj hm
      have hnodup := h.ports_nodup type mixerId mixer hmixer
      exact ⟨lt_succ_of_mem_concat hlt, by simp [List.nodup_append, hnodup]; grind⟩
    · rw [if_neg hinited, setMixer_self hmixer]
      exact h.keeps

/-! ### Deleting -/

theorem Invariant.playerDelete (playerId : Nat) :
    Keeps (session.PlayerDelete playerId) := by
  unfold PlayerDelete
  refine h.keeps_ite fun hmem => ?_
  obtain ⟨memory, hdestroy, hdeleted⟩ := deleted_player h.lawful playerId
    (fun media => (h.source_alive _).2 hmem) fun media => h.reacts (by simp [Joinable.Recordable])
  refine ⟨{ session with memory, players := session.players.filter (· ≠ playerId) },
    by simp [hdestroy], h.toTracked.loses hdeleted ?_ ?_,
    { h.toFresh with player_lt := ?_ }⟩
  · intro source
    cases source <;> simp [Owns]
  · intro listener
    cases listener <;> simp [OwnsListener]
  · exact fun id hid => h.player_lt id (List.mem_of_mem_filter hid)

theorem Invariant.videoTranscoderDelete (videoTranscoderId : Nat) :
    Keeps (session.VideoTranscoderDelete videoTranscoderId) := by
  unfold VideoTranscoderDelete
  refine h.keeps_ite fun hmem => ?_
  obtain ⟨memory, hdestroy, hdeleted⟩ := deleted_pair h.lawful
    (.videoTranscoder videoTranscoderId) (.videoTranscoder videoTranscoderId)
    ((h.source_alive _).2 hmem) ((h.consumer_alive _).2 hmem) rfl
    (h.reacts (by simp [Joinable.Recordable]))
  refine ⟨{ session with
      memory, videoTranscoders := session.videoTranscoders.filter (· ≠ videoTranscoderId) },
    by simp [hdestroy], h.toTracked.loses hdeleted ?_ ?_,
    { h.toFresh with videoTranscoder_lt := ?_ }⟩
  · intro source
    cases source <;> simp [Owns]
  · intro listener
    cases listener <;> simp [OwnsListener]
  · exact fun id hid => h.videoTranscoder_lt id (List.mem_of_mem_filter hid)

theorem Invariant.recorderDelete (recorderId : Nat)
    (hfree : recorderId ∈ session.recorders → ∀ media source,
      ¬session.memory.Joined (.recorder recorderId) media source) :
    Keeps (session.RecorderDelete recorderId) := by
  unfold RecorderDelete
  refine h.keeps_ite fun hmem => ?_
  refine ⟨_, rfl, h.toTracked.loses (h.lawful.loses_consumer (hfree hmem)) ?_ ?_,
    { h.toFresh with recorder_lt := ?_ }⟩
  · intro source
    cases source <;> simp [Owns]
  · intro listener
    cases listener <;> simp [OwnsListener]
  · exact fun id hid => h.recorder_lt id (List.mem_of_mem_filter hid)

theorem Invariant.endpointDelete (endpointId : Nat)
    (hreact : ∀ type, Reacts session.memory (.rtpEndpoint endpointId type)) :
    Keeps (session.EndpointDelete endpointId) := by
  unfold EndpointDelete
  cases hendpoint : session.endpoints endpointId with
  | none => exact h.keeps
  | some endpoint =>
    obtain ⟨ended, memory, hend, hdestroy, hdeleted⟩ := deleted_endpoint h.lawful
      (h.inited endpointId endpoint hendpoint)
      (fun type hsome => (h.source_alive _).2 ⟨endpoint, hendpoint, hsome⟩)
      (fun type hsome => (h.consumer_alive _).2 ⟨endpoint, hendpoint, hsome⟩) hreact
    refine ⟨{ session with
        memory, endpoints := Function.update session.endpoints endpointId none },
      by simp [hend, hdestroy], h.toTracked.loses hdeleted ?_ ?_,
      { h.toFresh with endpoint_lt := ?_, inited := ?_ }⟩
    · intro source
      cases source with
      | rtpEndpoint endpointId' type =>
        rcases eq_or_ne endpointId' endpointId with rfl | hne
        · simp [Owns, hendpoint, Option.isSome_iff_ne_none]
        · simp [Owns, hne]
      | player | encoder | videoTranscoder => simp [Owns]
    · intro listener
      cases listener with
      | rtpEndpoint endpointId' type =>
        rcases eq_or_ne endpointId' endpointId with rfl | hne
        · simp [OwnsListener, hendpoint, Option.isSome_iff_ne_none]
        · simp [OwnsListener, hne]
      | recorder | decoder | videoTranscoder => simp [OwnsListener]
    · intro endpointId' endpoint' hendpoint'
      rcases eq_or_ne endpointId' endpointId with rfl | hne
      · simp at hendpoint'
      · exact h.endpoint_lt endpointId' endpoint' (by simpa [hne] using hendpoint')
    · intro endpointId' endpoint' hendpoint'
      rcases eq_or_ne endpointId' endpointId with rfl | hne
      · simp at hendpoint'
      · exact h.inited endpointId' endpoint' (by simpa [hne] using hendpoint')

theorem Invariant.mixerDelete (type : MixerResource.Type) (mixerId : Nat)
    (hreact : ∀ mixer, session.mixers type mixerId = some mixer →
      ∀ portId ∈ mixer.ports, Reacts session.memory (.encoder type mixerId portId)) :
    Keeps (session.MixerDelete type mixerId) := by
  unfold MixerDelete
  cases hmixer : session.mixers type mixerId with
  | none => exact h.keeps
  | some mixer =>
    obtain ⟨memory, hend, hdeleted⟩ := deleted_ports h.lawful
      (h.ports_nodup type mixerId mixer hmixer)
      (fun portId hport => (h.source_alive _).2 ⟨mixer, hmixer, hport⟩)
      (fun portId hport => (h.consumer_alive _).2 ⟨mixer, hmixer, hport⟩) (hreact mixer hmixer)
    refine ⟨{ session.setMixer type mixerId none with memory },
      by simp [withMemory, MixerResource.End, hend],
      @Tracked.loses_setMixer _ h.toTracked type mixerId _ _ (· ∈ mixer.ports) hdeleted
        (by simp [hmixer]), h.toFresh.setMixer (h.mixer_lt type mixerId mixer hmixer) (by simp) memory⟩

theorem Invariant.mixerPortDelete (type : MixerResource.Type) (mixerId portId : Nat)
    (hreact : Reacts session.memory (.encoder type mixerId portId)) :
    Keeps (session.MixerPortDelete type mixerId portId) := by
  unfold MixerPortDelete
  cases hmixer : session.mixers type mixerId with
  | none => exact h.keeps
  | some mixer =>
    by_cases hport : portId ∈ mixer.ports
    · obtain ⟨memory, hdestroy, hdeleted⟩ := deleted_pair h.lawful
        (.decoder type mixerId portId) (.encoder type mixerId portId)
        ((h.source_alive _).2 ⟨mixer, hmixer, hport⟩)
        ((h.consumer_alive _).2 ⟨mixer, hmixer, hport⟩) rfl hreact
      refine ⟨{ session.setMixer type mixerId
          (some { mixer with ports := mixer.ports.filter (· ≠ portId) }) with memory },
        by simp [MixerResource.DeletePort, MixerResource.destroyPort, hport, hdestroy],
        @Tracked.loses_setMixer _ h.toTracked type mixerId _ _ (· = portId)
          (hdeleted.congr (by simp) (by simp)) (by simp [hmixer]),
        h.toFresh.setMixer (h.mixer_lt type mixerId mixer hmixer) (fun m hm => ?_) memory⟩
      obtain rfl := Option.some.inj hm
      exact ⟨fun id hmem => h.port_lt type mixerId mixer hmixer id (List.mem_of_mem_filter hmem),
        (h.ports_nodup type mixerId mixer hmixer).filter _⟩
    · refine ⟨session, ?_, h⟩
      simp only [MixerResource.DeletePort, if_neg hport, Option.bind_eq_bind, Option.bind_some,
        setMixer_self hmixer]
      rfl

end Requests

end MediaSession
end McuMediaServer.Jsr309
