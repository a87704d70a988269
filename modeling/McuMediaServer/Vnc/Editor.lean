import McuMediaServer.Vnc.Server

/-!
# The editor

Whether a client may send events is said twice: by the server, which knows the id of the editor, and
by each client, which is view-only or not. In every reachable state only the client of the editor is
not view-only, and what is passed on to the listener comes from the editor.
-/

namespace McuMediaServer

namespace Vnc

namespace VNCServer

open SortedMap StepRun

/-- Only the client of the editor is not view-only. -/
def EditorOnly (s : VNCServer) : Prop :=
  ∀ id client, get? id s.clients = some client → client.viewOnly = false → id = s.editorId

/-- Nobody has the id that stands for nobody. -/
def Numbered (s : VNCServer) : Prop :=
  ∀ id client, get? id s.clients = some client → 0 < id

/-- What is passed on to the listener comes from a client of the server that is the editor. -/
def FromEditor (s : VNCServer) : Output → Prop
  | .onKeyboardEvent id _ _ => id = s.editorId ∧ (get? id s.clients).isSome
  | .onMouseEvent id _ _ _ => id = s.editorId ∧ (get? id s.clients).isSome
  | _ => True

/-- Clients that are those of before, with the same permissions. -/
structure Follows (s t : VNCServer) : Prop where
  editorId_eq : t.editorId = s.editorId
  client : ∀ id client, get? id t.clients = some client →
    ∃ client', get? id s.clients = some client' ∧ client.viewOnly = client'.viewOnly
  sorted : Sorted s.clients → Sorted t.clients

/-- What holds of every reachable state. -/
structure Permitted (s : VNCServer) : Prop where
  editorOnly : s.EditorOnly
  numbered : s.Numbered
  sorted : Sorted s.clients

section Keeps

variable {s t : VNCServer}

theorem Permitted.follows (h : s.Permitted) (hfollows : Follows s t) : t.Permitted where
  editorOnly := by
    intro id client hclient hedits
    obtain ⟨client', hclient', heq⟩ := hfollows.client id client hclient
    rw [hfollows.editorId_eq]
    exact h.editorOnly id client' hclient' (heq ▸ hedits)
  numbered := by
    intro id client hclient
    obtain ⟨client', hclient', -⟩ := hfollows.client id client hclient
    exact h.numbered id client' hclient'
  sorted := hfollows.sorted h.sorted

theorem Follows.refl (s : VNCServer) : Follows s s :=
  ⟨rfl, fun _ client hclient => ⟨client, hclient, rfl⟩, id⟩

theorem follows_map {f : Int → Client → Client}
    (hf : ∀ id client, (f id client).viewOnly = client.viewOnly) (heditor : t.editorId = s.editorId)
    (hclients : t.clients = s.clients.map fun e => (e.1, f e.1 e.2)) : Follows s t := by
  refine ⟨heditor, ?_, fun hsorted => hclients ▸ hsorted.of_keys (keys_mapWithKey f s.clients)⟩
  intro id client hclient
  rw [hclients, get?_mapWithKey, Option.map_eq_some_iff] at hclient
  obtain ⟨client', hclient', rfl⟩ := hclient
  exact ⟨client', hclient', hf id client'⟩

theorem follows_set {id : Int} {client client' : Client} (hclient : get? id s.clients = some client)
    (heq : client'.viewOnly = client.viewOnly) :
    Follows s { s with clients := set id client' s.clients } := by
  refine ⟨rfl, ?_, fun hsorted => hsorted.set id client'⟩
  intro id' other hother
  rw [get?_set] at hother
  split at hother
  case isTrue hid =>
    cases hother
    exact ⟨client, hid ▸ hclient, heq⟩
  case isFalse => exact ⟨other, hother, rfl⟩

theorem follows_filter (id : Int) :
    Follows s { s with clients := s.clients.filter fun e => e.1 ≠ id } := by
  refine ⟨rfl, ?_, fun hsorted => hsorted.filter _⟩
  intro id' client hclient
  have hget := get?_filter (fun k => decide (k ≠ id)) id' s.clients
  dsimp only at hclient
  rw [hget] at hclient
  split at hclient
  · exact ⟨client, hclient, rfl⟩
  · cases hclient

theorem Follows.of_eq (heditor : t.editorId = s.editorId) (hclients : t.clients = s.clients) :
    Follows s t :=
  ⟨heditor, fun _ client hclient => ⟨client, hclients ▸ hclient, rfl⟩, fun h => hclients ▸ h⟩

/-! ## Operations -/

theorem follows_setViewer (viewerId : Int) : Follows s (s.setViewer viewerId) := by
  by_cases hset : viewerId ≠ 0
  · refine follows_map
      (f := fun id client => if id ≠ viewerId then client.setReset else client) ?_ ?_ ?_
    · intro id client
      split <;> rfl
    · rw [setViewer, if_pos hset]
      rfl
    · rw [setViewer, if_pos hset]
      rfl
  · by_cases hviewer : s.viewerId ≠ 0
    · refine follows_map
        (f := fun id client => if id ≠ s.viewerId then client.resizeScreen else client) ?_ ?_ ?_
      · intro id client
        split <;> rfl
      · rw [setViewer, if_neg hset, if_pos hviewer]
        rfl
      · rw [setViewer, if_neg hset, if_pos hviewer]
        rfl
    · rw [setViewer, if_neg hset, if_neg hviewer]
      exact .of_eq rfl rfl

theorem follows_reset : Follows s s.reset :=
  follows_map (f := fun _ client => client.setReset) (fun _ _ => rfl) rfl rfl

theorem follows_setSize (width height : Nat) : Follows s (s.setSize width height) := by
  rw [setSize]
  split
  · exact .refl s
  · refine follows_map
      (f := fun id client => if s.Told id then client.resizeScreen else client) ?_ rfl rfl
    intro id client
    split <;> rfl

theorem follows_markRectAsModified (x y w h : Nat) : Follows s (s.markRectAsModified x y w h) :=
  follows_map (f := fun _ => Client.mark (rect x y (min (x + w) s.width) (min (y + h) s.height)))
    (fun _ _ => rfl) rfl rfl

theorem follows_disconnect (ws : Nat) : Follows s (s.disconnect ws) := by
  rw [disconnect]
  split
  · exact .refl s
  · exact follows_filter _

theorem viewOnly_of_old (h : s.Permitted) {id : Int} {client : Client}
    (hclient : get? id (if s.editorId ≠ 0 then modify s.editorId (Client.setViewOnly true) s.clients
      else s.clients) = some client) : client.viewOnly = true ∧ 0 < id := by
  split at hclient
  case isTrue =>
    rw [get?_modify] at hclient
    split at hclient
    case isTrue =>
      rw [Option.map_eq_some_iff] at hclient
      obtain ⟨client', hclient', rfl⟩ := hclient
      exact ⟨rfl, h.numbered id client' hclient'⟩
    case isFalse hother =>
      refine ⟨?_, h.numbered id client hclient⟩
      by_contra hedits
      exact hother (h.editorOnly id client hclient (Bool.eq_false_iff.2 hedits))
  case isFalse hnone =>
    have hpos := h.numbered id client hclient
    refine ⟨?_, hpos⟩
    by_contra hedits
    have heq := h.editorOnly id client hclient (Bool.eq_false_iff.2 hedits)
    omega

theorem permitted_setEditor (h : s.Permitted) (editorId : Int) :
    (s.setEditor editorId).Permitted := by
  have hcases {id : Int} {client : Client}
      (hclient : get? id (s.setEditor editorId).clients = some client) :
      (client.viewOnly = false → id = editorId) ∧ 0 < id := by
    dsimp only [setEditor] at hclient
    rw [get?_modify] at hclient
    split at hclient
    case isTrue heq =>
      rw [Option.map_eq_some_iff] at hclient
      obtain ⟨client', hclient', rfl⟩ := hclient
      exact ⟨fun _ => heq, (viewOnly_of_old h hclient').2⟩
    case isFalse =>
      obtain ⟨hview, hpos⟩ := viewOnly_of_old h hclient
      refine ⟨?_, hpos⟩
      intro hedits
      rw [hview] at hedits
      cases hedits
  refine ⟨fun id client hclient => (hcases hclient).1, fun id client hclient => (hcases hclient).2,
    ?_⟩
  refine Sorted.of_keys ?_ (keys_modify _ _ _)
  split
  · exact h.sorted.of_keys (keys_modify _ _ _)
  · exact h.sorted

theorem permitted_connect (h : s.Permitted) (partId : ParticipantId) (freeze : Bool) :
    (s.connect partId freeze).Permitted := by
  constructor
  · intro id client hclient hedits
    dsimp only [connect] at hclient ⊢
    rw [get?_set] at hclient
    split at hclient
    case isTrue hid =>
      cases hclient
      rw [hid]
      simpa using hedits
    case isFalse => exact h.editorOnly id client hclient hedits
  · intro id client hclient
    dsimp only [connect] at hclient
    rw [get?_set] at hclient
    split at hclient
    case isTrue hid =>
      rw [hid]
      exact partId.2
    case isFalse => exact h.numbered id client hclient
  · exact h.sorted.set partId.1 _

/-! ## Messages and rounds -/

theorem get?_of_clientOf (h : s.Permitted) {ws : Nat} {e : Int × Client}
    (hclient : s.clientOf ws = some e) : get? e.1 s.clients = some e.2 :=
  h.sorted.get?_of_mem (List.mem_of_find?_eq_some hclient)

theorem viewOnly_processClientMessage (id : Int) (client : Client) (message : Message) :
    (s.processClientMessage id client message).1.viewOnly = client.viewOnly := by
  cases message with
  | initialise | keyEvent | pointerEvent => rfl
  | setEncodings newFBSize cursorShape =>
    rw [processClientMessage]
    split <;> rfl
  | framebufferUpdateRequest incremental x y w h =>
    rw [processClientMessage]
    split
    · dsimp only [Client.request]
      split <;> rfl
    · rfl

theorem fromEditor_processClientMessage {id : Int} {client : Client}
    (hclient : (get? id s.clients).isSome) (message : Message) :
    ∀ output ∈ (s.processClientMessage id client message).2, s.FromEditor output := by
  intro output houtput
  cases message with
  | initialise => cases houtput
  | setEncodings newFBSize cursorShape =>
    rw [processClientMessage] at houtput
    split at houtput <;> cases houtput
  | framebufferUpdateRequest incremental x y w h =>
    rw [processClientMessage] at houtput
    split at houtput <;> cases houtput
  | keyEvent down key =>
    rw [processClientMessage] at houtput
    split at houtput
    case isTrue hall =>
      obtain rfl := List.mem_singleton.1 houtput
      exact ⟨hall.2.2.1.symm, hclient⟩
    case isFalse => cases houtput
  | pointerEvent buttonMask x y =>
    rw [processClientMessage] at houtput
    split at houtput
    case isTrue hall =>
      obtain rfl := List.mem_singleton.1 houtput
      exact ⟨hall.2.2.1.symm, hclient⟩
    case isFalse => cases houtput

theorem processMessage_spec {id : Int} (hclient : (get? id s.clients).isSome)
    (messages : List Message) (client : Client) (outputs : List Output)
    (houtputs : ∀ output ∈ outputs, s.FromEditor output) :
    let processed := messages.foldl (fun (client, outputs) message =>
      let processed := s.processClientMessage id client message
      (processed.1, outputs ++ processed.2)) (client, outputs)
    processed.1.viewOnly = client.viewOnly ∧ ∀ output ∈ processed.2, s.FromEditor output := by
  induction messages generalizing client outputs with
  | nil => exact ⟨rfl, houtputs⟩
  | cons message messages ih =>
    have hrest := ih (s.processClientMessage id client message).1
      (outputs ++ (s.processClientMessage id client message).2) (by
        intro output houtput
        rcases List.mem_append.1 houtput with hold | hnew
        · exact houtputs output hold
        · exact fromEditor_processClientMessage hclient message output hnew)
    rw [viewOnly_processClientMessage] at hrest
    exact hrest

theorem viewOnly_run (client : Client) (id : Int) (width height : Nat) (tooMany : Bool) :
    (client.run id width height tooMany).1.viewOnly = client.viewOnly := by
  rw [Client.run]
  split
  · dsimp only
    split
    · rw [Client.sendFramebufferUpdate]
      split_ifs <;> rfl
    · rfl
  · rfl

theorem fromEditor_run (client : Client) (id : Int) (width height : Nat) (tooMany : Bool) :
    ∀ output ∈ (client.run id width height tooMany).2, s.FromEditor output := by
  intro output houtput
  rcases Client.mem_run houtput with rfl | rfl | rfl
  · exact trivial
  · exact trivial
  · exact trivial

/-- **A step.** Only the client of the editor may send events afterwards, and those that are passed
on come from the editor. -/
theorem step_permitted (h : s.Permitted) (input : Input) :
    (s.step input).1.Permitted ∧ ∀ output ∈ (s.step input).2, s.FromEditor output := by
  have hnothing : ∀ output ∈ ([] : List Output), s.FromEditor output := fun _ hmem => by cases hmem
  cases input with
  | setViewer viewerId => exact ⟨h.follows (follows_setViewer viewerId), hnothing⟩
  | setEditor editorId => exact ⟨permitted_setEditor h editorId, hnothing⟩
  | connect partId freeze => exact ⟨permitted_connect h partId freeze, hnothing⟩
  | disconnect ws => exact ⟨h.follows (follows_disconnect ws), hnothing⟩
  | reset => exact ⟨h.follows follows_reset, hnothing⟩
  | setSize width height => exact ⟨h.follows (follows_setSize width height), hnothing⟩
  | frameBufferUpdate x y width height =>
    exact ⟨h.follows (follows_markRectAsModified x y width height), hnothing⟩
  | copyRect destX destY width height =>
    exact ⟨h.follows (follows_markRectAsModified destX destY width height), hnothing⟩
  | frameBufferUpdateDone => exact ⟨h, hnothing⟩
  | onWriteBufferEmpty ws => exact ⟨h, hnothing⟩
  | onMessageData ws data =>
    rw [step]
    cases hclient : s.clientOf ws with
    | none => exact ⟨h, hnothing⟩
    | some e => exact ⟨h.follows (follows_set (get?_of_clientOf h hclient) rfl), hnothing⟩
  | onMessageEnd ws =>
    rw [step]
    cases hclient : s.clientOf ws with
    | none => exact ⟨h, hnothing⟩
    | some e =>
      have hget := get?_of_clientOf h hclient
      have hspec := @processMessage_spec _ e.1 (by rw [hget]; rfl) e.2.buffer
        { e.2 with buffer := [] } [] hnothing
      exact ⟨h.follows (follows_set hget hspec.1), hspec.2⟩
  | run id tooMany =>
    rw [step]
    cases hclient : get? id s.clients with
    | none => exact ⟨h, hnothing⟩
    | some client =>
      refine ⟨h.follows (follows_set hclient ?_), fromEditor_run client id _ _ _⟩
      exact viewOnly_run client id _ _ _

end Keeps

theorem permitted_init (listener : Bool) : ({ listener } : VNCServer).Permitted := by
  refine ⟨?_, ?_, List.Pairwise.nil⟩
  · intro id client hclient
    cases hclient
  · intro id client hclient
    cases hclient

theorem permitted_after (listener : Bool) (inputs : List Input) :
    (after listener inputs).Permitted := by
  induction inputs using List.reverseRecOn with
  | nil => exact permitted_init listener
  | append_singleton inputs input ih =>
    rw [after, run_concat]
    exact (step_permitted ih input).1

/-- **At most the client of the editor is not view-only, in every reachable state, and what is
passed on to the listener after it comes from a client that is the editor then.** -/
theorem after_editorOnly (listener : Bool) (inputs : List Input) :
    (after listener inputs).EditorOnly ∧
      ∀ input, ∀ output ∈ ((after listener inputs).step input).2,
        (after listener inputs).FromEditor output := by
  have h := permitted_after listener inputs
  exact ⟨h.editorOnly, fun input => (step_permitted h input).2⟩

end VNCServer

end Vnc

end McuMediaServer
