import McuMediaServer.Vnc.Server

/-!
# The private view

While a viewer is set the others are not to see what is drawn, and when it is cleared they are to be
told. The broadcasts of the server look at who the viewer is. The rounds of the threads do not, and
a rectangle that is drawn is marked for every client and signals every thread: what a client has
asked for is sent to it whoever is the viewer.
-/

namespace McuMediaServer

namespace Vnc

open SortedMap StepRun

/-- A server, and what of its picture was drawn since the viewer was set. -/
structure View where
  server : VNCServer
  drawn : Region := ∅

namespace View

open VNCServer

variable (s : View)

/-- What was drawn since the viewer was set, after an input. A picture that is reset shows nothing
of it any more. -/
def drawnAfter : Input → Region
  | .setViewer _ => ∅
  | .reset => ∅
  | .setSize width height =>
    if maxSize < width * height ∨ (width = s.server.width ∧ height = s.server.height) then s.drawn
    else s.drawn ∩ rect 0 0 width height
  | .frameBufferUpdate x y width height | .copyRect x y width height =>
    s.drawn ∪ rect x y (min (x + width) s.server.width) (min (y + height) s.server.height)
  | _ => s.drawn

/-- The server after an input. -/
def step (input : Input) : View :=
  ⟨(s.server.step input).1, s.drawnAfter input⟩

/-- The picture is shown to one client only. -/
def Hidden (id : Int) : Prop :=
  s.server.viewerId ≠ 0 ∧ id ≠ s.server.viewerId

/-- A client will be told the size of the picture, for which it asks for all of it, or else has all
that was drawn marked for it. -/
def UpToDate (drawn : Region) (client : Client) : Prop :=
  (client.useNewFBSize ∧ client.newFBSizePending) ∨ drawn ⊆ client.modifiedRegion

/-- What was drawn since the viewer was set is sent to the viewer only, and when the viewer is
cleared the others are brought up to date. -/
structure Private (input : Input) : Prop where
  hidden : ∀ id region, Output.framebufferUpdate id region ∈ (s.server.step input).2 →
    s.Hidden id → Disjoint region s.drawn
  upToDate : input = .setViewer 0 → ∀ id client,
    get? id (s.server.step input).1.clients = some client → s.Hidden id → UpToDate s.drawn client

/-- A round of the thread of a client sends a part of the picture, if it has one to send. Reference:
`VNCServer.cpp:1111`. -/
def Sends (client : Client) : Prop :=
  client.normal ∧ client.requestedRegion ≠ ∅ ∧ ¬(client.useNewFBSize ∧ client.newFBSizePending) ∧
    (client.updateRegion ≠ ∅ ∨ client.cursorWasChanged)

/-- What is asked of an input: a client that is not the viewer finds nothing that was drawn since
among what is to be sent to it, and when the viewer is cleared each of the others can be told the
size, or still has all of it marked. -/
def Guarded : Input → Prop
  | .run id tooMany => ∀ client, get? id s.server.clients = some client → s.Hidden id →
      Sends client → Disjoint (client.sentRegion tooMany) s.drawn
  | .setViewer viewerId => viewerId = 0 → ∀ id client, get? id s.server.clients = some client →
      s.Hidden id → client.useNewFBSize ∨ s.drawn ⊆ client.modifiedRegion
  | _ => True

section Rounds

variable {client : Client} {id : Int} {width height : Nat} {tooMany : Bool}

theorem framebufferUpdate_mem_send {id' : Int} {region : Region} :
    Output.framebufferUpdate id' region ∈
        (client.sendFramebufferUpdate id width height tooMany).2 ↔
      id' = id ∧ ¬(client.useNewFBSize ∧ client.newFBSizePending) ∧
        (client.updateRegion ≠ ∅ ∨ client.cursorWasChanged) ∧
        region = client.sentRegion tooMany := by
  rw [Client.sendFramebufferUpdate]
  by_cases hsize : client.useNewFBSize ∧ client.newFBSizePending
  · rw [if_pos hsize]
    simp [hsize]
  · rw [if_neg hsize]
    by_cases hnothing : client.updateRegion = ∅ ∧ ¬ client.cursorWasChanged
    · rw [if_pos hnothing]
      simp [hnothing]
    · rw [if_neg hnothing]
      have hsome : client.updateRegion ≠ ∅ ∨ client.cursorWasChanged := by
        tauto
      simp only [List.mem_singleton, Output.framebufferUpdate.injEq]
      tauto

theorem updatePending_of_updateRegion (h : client.updateRegion ≠ ∅) :
    client.UpdatePending := by
  refine .inr (.inr ?_)
  intro hempty
  apply h
  rw [Client.updateRegion, hempty, ite_self, Finset.empty_inter]

theorem framebufferUpdate_mem_run {id' : Int} {region : Region} :
    Output.framebufferUpdate id' region ∈ (client.run id width height tooMany).2 ↔
      id' = id ∧ Sends client ∧ region = client.sentRegion tooMany := by
  have hresets : Output.framebufferUpdate id' region ∉
      if client.reset then [Output.reset id] else [] := by
    split <;> simp
  rw [Client.run, Sends]
  by_cases hasked : client.normal ∧ client.requestedRegion ≠ ∅
  · rw [if_pos hasked]
    dsimp only
    by_cases hpending : ({ client with reset := false } : Client).UpdatePending
    · rw [if_pos hpending, List.mem_append, or_iff_right hresets, framebufferUpdate_mem_send]
      constructor
      · rintro ⟨hid, hsize, hsome, hregion⟩
        exact ⟨hid, ⟨hasked.1, hasked.2, hsize, hsome⟩, hregion⟩
      · rintro ⟨hid, ⟨-, -, hsize, hsome⟩, hregion⟩
        exact ⟨hid, hsize, hsome, hregion⟩
    · rw [if_neg hpending]
      refine iff_of_false hresets ?_
      rintro ⟨-, ⟨-, -, -, hsome⟩, -⟩
      rcases hsome with hregion | hcursor
      · exact hpending (updatePending_of_updateRegion hregion)
      · exact hpending (.inl hcursor)
  · rw [if_neg hasked]
    refine iff_of_false List.not_mem_nil ?_
    rintro ⟨-, ⟨hnormal, hrequested, -⟩, -⟩
    exact hasked ⟨hnormal, hrequested⟩

end Rounds

variable {s}

theorem framebufferUpdate_notMem_processMessage (server : VNCServer) (id : Int)
    (messages : List Message) (client : Client) (outputs : List Output) {id' : Int}
    {region : Region} (houtputs : Output.framebufferUpdate id' region ∉ outputs) :
    Output.framebufferUpdate id' region ∉ (messages.foldl (fun (client, outputs) message =>
      let processed := server.processClientMessage id client message
      (processed.1, outputs ++ processed.2)) (client, outputs)).2 := by
  induction messages generalizing client outputs with
  | nil => exact houtputs
  | cons message messages ih =>
    refine ih _ _ ?_
    rw [List.mem_append, not_or]
    refine ⟨houtputs, ?_⟩
    cases message with
    | initialise => exact List.not_mem_nil
    | setEncodings newFBSize cursorShape =>
      rw [processClientMessage]
      split <;> exact List.not_mem_nil
    | framebufferUpdateRequest incremental x y w h =>
      rw [processClientMessage]
      split <;> exact List.not_mem_nil
    | keyEvent down key =>
      rw [processClientMessage]
      split <;> simp
    | pointerEvent buttonMask x y =>
      rw [processClientMessage]
      split <;> simp

theorem framebufferUpdate_mem_step {input : Input} {id : Int} {region : Region} :
    Output.framebufferUpdate id region ∈ (s.server.step input).2 ↔
      ∃ tooMany client, input = .run id tooMany ∧ get? id s.server.clients = some client ∧
        Sends client ∧ region = client.sentRegion tooMany := by
  cases input with
  | run id' tooMany =>
    rw [VNCServer.step]
    cases hclient : get? id' s.server.clients with
    | none =>
      refine iff_of_false List.not_mem_nil ?_
      rintro ⟨tooMany', client, heq, hclient', -⟩
      cases heq
      rw [hclient] at hclient'
      cases hclient'
    | some client =>
      rw [framebufferUpdate_mem_run]
      constructor
      · rintro ⟨rfl, hsends, hregion⟩
        exact ⟨tooMany, client, rfl, hclient, hsends, hregion⟩
      · rintro ⟨tooMany', client', heq, hclient', hsends, hregion⟩
        cases heq
        rw [hclient] at hclient'
        cases hclient'
        exact ⟨rfl, hsends, hregion⟩
  | onMessageEnd ws =>
    refine iff_of_false ?_ (by rintro ⟨_, _, heq, -⟩; cases heq)
    rw [VNCServer.step]
    cases s.server.clientOf ws with
    | none => exact List.not_mem_nil
    | some e =>
      exact framebufferUpdate_notMem_processMessage s.server e.1 e.2.buffer _ []
        List.not_mem_nil
  | onMessageData ws data =>
    refine iff_of_false ?_ (by rintro ⟨_, _, heq, -⟩; cases heq)
    rw [VNCServer.step]
    cases s.server.clientOf ws with
    | none => exact List.not_mem_nil
    | some e => exact List.not_mem_nil
  | setViewer | setEditor | connect | disconnect | reset | setSize | frameBufferUpdate | copyRect
  | frameBufferUpdateDone | onWriteBufferEmpty =>
    exact iff_of_false List.not_mem_nil (by rintro ⟨_, _, heq, -⟩; cases heq)

theorem upToDate_setViewer_iff :
    (∀ id client, get? id (s.server.setViewer 0).clients = some client → s.Hidden id →
        UpToDate s.drawn client) ↔
      ∀ id client, get? id s.server.clients = some client → s.Hidden id →
        client.useNewFBSize ∨ s.drawn ⊆ client.modifiedRegion := by
  have hget (id : Int) (hhidden : s.Hidden id) : get? id (s.server.setViewer 0).clients =
      (get? id s.server.clients).map Client.resizeScreen := by
    rw [setViewer, if_neg (not_not.2 rfl), if_pos hhidden.1]
    dsimp only [mapClients]
    have hmap := get?_mapWithKey (fun id client =>
      if id ≠ s.server.viewerId then Client.resizeScreen client else client) id s.server.clients
    rw [hmap]
    simp only [ne_eq, hhidden.2, not_false_eq_true, if_true]
  constructor
  · intro h id client hclient hhidden
    have hdate := h id client.resizeScreen (by rw [hget id hhidden, hclient]; rfl) hhidden
    simpa [UpToDate, Client.resizeScreen] using hdate
  · intro h id client hclient hhidden
    rw [hget id hhidden, Option.map_eq_some_iff] at hclient
    obtain ⟨client', hclient', rfl⟩ := hclient
    have hguard := h id client' hclient' hhidden
    simpa [UpToDate, Client.resizeScreen] using hguard

/-- **A step.** It keeps the view private exactly if it is guarded. -/
theorem private_iff (s : View) (input : Input) : s.Private input ↔ s.Guarded input := by
  cases input with
  | run id tooMany =>
    constructor
    · intro h client hclient hhidden hsends
      exact h.hidden id _ (framebufferUpdate_mem_step.2
        ⟨tooMany, client, rfl, hclient, hsends, rfl⟩) hhidden
    · intro h
      refine ⟨?_, fun heq => by cases heq⟩
      intro id' region houtput hhidden
      obtain ⟨tooMany', client, heq, hclient, hsends, rfl⟩ := framebufferUpdate_mem_step.1 houtput
      cases heq
      exact h client hclient hhidden hsends
  | setViewer viewerId =>
    constructor
    · rintro h rfl
      exact upToDate_setViewer_iff.1 (h.upToDate rfl)
    · intro h
      refine ⟨fun _ _ houtput => absurd houtput List.not_mem_nil, ?_⟩
      intro heq
      cases heq
      exact upToDate_setViewer_iff.2 (h rfl)
  | setEditor | connect | disconnect | reset | setSize | frameBufferUpdate | copyRect
  | frameBufferUpdateDone | onWriteBufferEmpty | onMessageData | onMessageEnd =>
    refine iff_of_true ⟨?_, fun heq => by cases heq⟩ trivial
    intro id region houtput
    obtain ⟨_, _, heq, -⟩ := framebufferUpdate_mem_step.1 houtput
    cases heq

end View

end Vnc

end McuMediaServer
