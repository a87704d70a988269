import McuMediaServer.Bfcp.RequestMap

/-!
# Requests that are refused

A message that asks for something that does not exist, or for a release that is not the sender's to
ask for, is answered with an error and changes nothing. No other floor request, release or query is.
-/

namespace McuMediaServer

namespace Bfcp

open OrderedMap StepRun

/-- An error is sent. -/
def ReplyMessage.isError (msg : ReplyMessage) : Bool :=
  match msg.body with
  | .error .. => true
  | _ => false

def Output.isError : Output → Bool
  | .message _ msg => msg.isError
  | _ => false

/-- The messages about floors that the server processes. -/
def RequestBody.IsAboutFloors : RequestBody → Prop
  | .floorRequest .. | .floorRelease .. | .floorQuery .. => True
  | _ => False

variable {floorIds : List Int} {beneficiaryId : Option Int}

namespace Server

/-- The message names a floor or a beneficiary or a request that does not exist, or a request that
its sender may not release. -/
def Offends (s : Server) (sender : User) : RequestBody → Prop
  | .floorRequest floorIds beneficiaryId =>
    (∃ floorId ∈ floorIds, s.hasFloor floorId = false) ∨
      ∃ userId ∈ beneficiaryId, s.hasUser userId = false
  | .floorRelease floorRequestId =>
    s.getFloorRequest floorRequestId = none ∨ ∃ r ∈ s.getFloorRequest floorRequestId,
      sender.userId ≠ r.userId ∧ sender.userId ≠ r.beneficiaryId ∧ sender.isChair = false
  | .floorQuery floorIds => ∃ floorId ∈ floorIds, s.hasFloor floorId = false
  | _ => False

/-- What comes out from `s` to `t` is no error. -/
def Quiet (s t : Server) : Prop :=
  ∃ out, t.outputs = s.outputs ++ out ∧ ∀ o ∈ out, o.isError = false

section Quiet

variable {s t u : Server}

theorem Quiet.of_outputs_eq (h : t.outputs = s.outputs) : Quiet s t :=
  ⟨[], by rw [h, List.append_nil], fun o ho => absurd ho List.not_mem_nil⟩

theorem Quiet.refl (s : Server) : Quiet s s := .of_outputs_eq rfl

theorem Quiet.trans (h : Quiet s t) (h' : Quiet t u) : Quiet s u := by
  obtain ⟨out, hout, hquiet⟩ := h
  obtain ⟨out', hout', hquiet'⟩ := h'
  refine ⟨out ++ out', by rw [hout', hout, List.append_assoc], fun o ho => ?_⟩
  rcases List.mem_append.1 ho with ho | ho
  · exact hquiet o ho
  · exact hquiet' o ho

theorem quiet_emit {out : List Output} (h : ∀ o ∈ out, o.isError = false) :
    Quiet s (s.emit out) :=
  ⟨out, rfl, h⟩

theorem quiet_sendMessage {msg : ReplyMessage} (h : msg.isError = false) :
    Quiet s (s.sendMessage msg) := by
  rw [sendMessage_eq]
  refine quiet_emit fun o ho => ?_
  obtain ⟨transport, rfl⟩ := mem_deliveries ho
  exact h

theorem quiet_foldl {α : Type} {f : Server → α → Server} {l : List α}
    (h : ∀ s, ∀ a ∈ l, Quiet s (f s a)) (s : Server) : Quiet s (l.foldl f s) := by
  induction l generalizing s with
  | nil => exact .refl s
  | cons a l ih =>
    exact (h s a List.mem_cons_self).trans
      (ih (fun s b hb => h s b (List.mem_cons_of_mem a hb)) (f s a))

theorem quiet_sendMessages {messages : List ReplyMessage}
    (h : ∀ msg ∈ messages, msg.isError = false) : Quiet s (messages.foldl sendMessage s) :=
  quiet_foldl (fun _ msg hmsg => quiet_sendMessage (h msg hmsg)) s

theorem quiet_notifyForFloorRequest (r : FloorRequest) : Quiet s (s.notifyForFloorRequest r) := by
  refine quiet_sendMessages fun msg hmsg => ?_
  obtain ⟨user, -, hmsg⟩ := List.mem_flatMap.1 hmsg
  obtain ⟨floorId, -, rfl⟩ := List.mem_map.1 hmsg
  rfl

theorem quiet_conclude (floorRequestId : Int) (r : FloorRequest) {messages : List ReplyMessage}
    (h : ∀ msg ∈ messages, msg.isError = false) :
    Quiet s (s.conclude floorRequestId r messages) := by
  have hset : Quiet s (s.setFloorRequest floorRequestId r) := .of_outputs_eq rfl
  exact (hset.trans (quiet_sendMessages h)).trans
    ((quiet_notifyForFloorRequest r).trans (.of_outputs_eq rfl))

theorem quiet_revokeFloorRequest (floorRequestId : Int) (statusInfo : String) :
    Quiet s (s.revokeFloorRequest floorRequestId statusInfo).1 := by
  unfold revokeFloorRequest
  split
  · exact .refl s
  case h_2 r _ =>
    split
    · exact .refl s
    · have hconclude := @quiet_conclude s floorRequestId (r.setStatus .revoked)
        [(r.setStatus .revoked).createFloorRequestStatus 0 statusInfo]
        fun msg hmsg => by rw [List.mem_singleton.1 hmsg]; rfl
      dsimp only
      split
      · exact hconclude
      · exact hconclude.trans (quiet_emit fun o ho => by rw [List.mem_singleton.1 ho]; rfl)

theorem quiet_revokeGranted (requests : List FloorRequest) : Quiet s (s.revokeGranted requests) := by
  refine quiet_foldl (fun s r _ => ?_) s
  split
  · exact quiet_revokeFloorRequest ..
  · exact .refl s

theorem quiet_grantFloorRequest (floorRequestId : Int) :
    Quiet s (s.grantFloorRequest floorRequestId).1 := by
  unfold grantFloorRequest
  split
  · exact .refl s
  · split
    · exact .refl s
    · split
      · exact .refl s
      case h_2 r _ _ =>
        dsimp only
        have hrevoked := @quiet_revokeGranted s (s.getFloorRequestsForFloors r.floorIds)
        generalize s.revokeGranted (s.getFloorRequestsForFloors r.floorIds) = s₁ at hrevoked ⊢
        have hset : Quiet s₁ (s₁.setFloorRequest floorRequestId (r.setStatus .granted)) :=
          .of_outputs_eq rfl
        generalize s₁.setFloorRequest floorRequestId (r.setStatus .granted) = s₂ at hset ⊢
        have hsent := @quiet_sendMessage s₂ (r.setStatus .granted).createFloorRequestStatus rfl
        have hnotified := (hrevoked.trans (hset.trans hsent)).trans
          (quiet_notifyForFloorRequest (r.setStatus .granted))
        exact hnotified.trans (quiet_emit fun o ho => by rw [List.mem_singleton.1 ho]; rfl)

end Quiet

/-! ## The three messages -/

section Messages

variable {s : Server} (header : CommonHeader) {user : User}

theorem replyError_eq (huser : s.users[header.userId]? = some user) (errorCode : ErrorCode)
    (errorInfo : String) : s.replyError header errorCode errorInfo =
      s.emit (user.transport.toList.map fun transport =>
        .message transport ⟨header, .error errorCode errorInfo⟩) := by
  unfold replyError sendMessage getUser
  rw [huser]

theorem offends_floorRequest_iff : s.Offends user (.floorRequest floorIds beneficiaryId) ↔
      s.acceptsFloorRequest floorIds beneficiaryId = false := by
  rw [acceptsFloorRequest, Bool.and_eq_false_iff, List.all_eq_false]
  refine or_congr (exists_congr fun k => and_congr_right fun _ => ?_) ?_
  · exact Bool.not_eq_true _ ▸ Iff.rfl
  cases beneficiaryId with
  | none => simp
  | some userId => simp

theorem processFloorRequest_of_offends (h : s.Offends user (.floorRequest floorIds beneficiaryId)) :
    ∃ errorCode errorInfo, s.processFloorRequest header floorIds beneficiaryId user =
      s.replyError header errorCode errorInfo := by
  rw [offends_floorRequest_iff, acceptsFloorRequest] at h
  unfold processFloorRequest
  split
  case isTrue => exact ⟨_, _, rfl⟩
  case isFalse hfloors =>
    split
    case isTrue => exact ⟨_, _, rfl⟩
    case isFalse hbeneficiary =>
      simp only [Bool.not_eq_true, Bool.not_eq_false'] at hfloors hbeneficiary
      rw [hfloors, hbeneficiary] at h
      cases h

theorem quiet_processFloorRequest (h : ¬s.Offends user (.floorRequest floorIds beneficiaryId)) :
    Quiet s (s.processFloorRequest header floorIds beneficiaryId user) := by
  rw [offends_floorRequest_iff, Bool.not_eq_false] at h
  rw [processFloorRequest_of_accepts h]
  dsimp only
  generalize s.newFloorRequest header floorIds beneficiaryId = r
  have hnew : Quiet s (s.withFloorRequest r) := .of_outputs_eq rfl
  have hsent := hnew.trans
    (@quiet_sendMessage _ (r.createFloorRequestStatus header.transactionId) rfl)
  split
  · exact hsent.trans (quiet_grantFloorRequest _)
  · exact hsent.trans (quiet_emit fun o ho => by rw [List.mem_singleton.1 ho]; rfl)

theorem processFloorRelease_of_offends {floorRequestId : Int}
    (h : s.Offends user (.floorRelease floorRequestId)) :
    ∃ errorCode errorInfo, s.processFloorRelease header floorRequestId user =
      s.replyError header errorCode errorInfo := by
  unfold processFloorRelease
  rcases h with hnone | ⟨r, hr, hsender, hbeneficiary, hchair⟩
  · rw [hnone]
    exact ⟨_, _, rfl⟩
  · rw [Option.mem_def] at hr
    rw [hr]
    dsimp only
    rw [if_pos ⟨hsender, hbeneficiary, by simp [hchair]⟩]
    exact ⟨_, _, rfl⟩

theorem isSome_releaseStatus {r : FloorRequest} (h : r.isGranted = true ∨ r.isUndecided = true)
    (userId : Int) : (releaseStatus r userId).isSome = true := by
  unfold releaseStatus
  split
  · rfl
  case isFalse hnot =>
    split
    · split <;> rfl
    case isFalse hgranted =>
      rcases h with h | h
      · exact absurd h hgranted
      · refine absurd ?_ hnot
        rw [eq_false_of_ne_true hgranted, FloorRequest.canBeCancelled, h]
        rfl

theorem quiet_processFloorRelease (hI : s.toFloorControl.Inv) {floorRequestId : Int}
    (h : ¬s.Offends user (.floorRelease floorRequestId)) :
    Quiet s (s.processFloorRelease header floorRequestId user) := by
  obtain ⟨hsome, hmay⟩ := not_or.1 h
  obtain ⟨r, hr⟩ := Option.ne_none_iff_exists'.1 hsome
  obtain ⟨status, hstatus⟩ :=
    Option.isSome_iff_exists.1 (isSome_releaseStatus (hI.ongoing floorRequestId r hr) user.userId)
  have hallowed : ¬(user.userId ≠ r.userId ∧ user.userId ≠ r.beneficiaryId ∧ !user.isChair) :=
    fun hnot => hmay ⟨r, hr, hnot.1, hnot.2.1, by simpa using hnot.2.2⟩
  unfold processFloorRelease
  rw [hr]
  dsimp only
  rw [if_neg hallowed, hstatus]
  dsimp only
  have hmessages : ∀ msg ∈ (if user.userId ≠ r.userId then
      [((r.setStatus status).createFloorRequestStatus header.transactionId).setUserId user.userId,
        (r.setStatus status).createFloorRequestStatus.setUserId r.userId]
    else
      [((r.setStatus status).createFloorRequestStatus header.transactionId).setUserId
        user.userId]), msg.isError = false := by
    intro msg hmsg
    split at hmsg
    · rcases List.mem_cons.1 hmsg with rfl | hmsg
      · rfl
      · rw [List.mem_singleton.1 hmsg]
        rfl
    · rw [List.mem_singleton.1 hmsg]
      rfl
  have hconclude := @quiet_conclude s floorRequestId (r.setStatus status) _ hmessages
  split
  · exact hconclude.trans (quiet_emit fun o ho => by rw [List.mem_singleton.1 ho]; rfl)
  · exact hconclude

theorem processFloorQuery_of_offends (h : s.Offends user (.floorQuery floorIds)) :
    ∃ errorCode errorInfo, s.processFloorQuery header floorIds =
      s.replyError header errorCode errorInfo := by
  obtain ⟨floorId, hmem, hnot⟩ := h
  unfold processFloorQuery
  rw [if_pos]
  · exact ⟨_, _, rfl⟩
  · rw [Bool.not_eq_true', List.all_eq_false]
    exact ⟨floorId, hmem, ne_true_of_eq_false hnot⟩

theorem quiet_processFloorQuery
    (h : ¬s.Offends user (.floorQuery floorIds)) : Quiet s (s.processFloorQuery header floorIds) := by
  unfold processFloorQuery
  split
  case isTrue hnot =>
    rw [Bool.not_eq_true', List.all_eq_false] at hnot
    obtain ⟨floorId, hmem, hnot⟩ := hnot
    exact absurd ⟨floorId, hmem, eq_false_of_ne_true hnot⟩ h
  case isFalse =>
    dsimp only
    generalize hupdated : s.updateUser header.userId _ = s₁
    have hupdate : Quiet s s₁ := .of_outputs_eq (hupdated ▸ rfl)
    split
    · exact hupdate.trans (quiet_sendMessage rfl)
    · exact hupdate.trans (quiet_foldl (fun _ _ _ => quiet_sendMessage rfl) _)

theorem messageReceived_cases (h : Sound s) (hending : s.ending = false) {msg : RequestMessage}
    (hbody : msg.body.IsAboutFloors) (huser : s.users[msg.header.userId]? = some user) :
    (s.Offends user msg.body ∧ ∃ errorCode errorInfo,
      s.messageReceived msg = s.replyError msg.header errorCode errorInfo) ∨
    (¬s.Offends user msg.body ∧ Quiet s (s.messageReceived msg)) := by
  have hget : s.getUser msg.header.userId = some user := huser
  obtain ⟨header, body⟩ := msg
  unfold messageReceived
  rw [hending, if_neg Bool.false_ne_true, hget]
  dsimp only
  by_cases hoffends : s.Offends user body
  · refine .inl ⟨hoffends, ?_⟩
    cases body with
    | floorRequest floorIds beneficiaryId => exact processFloorRequest_of_offends header hoffends
    | floorRelease floorRequestId => exact processFloorRelease_of_offends header hoffends
    | floorQuery floorIds => exact processFloorQuery_of_offends header hoffends
    | hello => exact hbody.elim
    | other primitive => exact hbody.elim
  · refine .inr ⟨hoffends, ?_⟩
    cases body with
    | floorRequest floorIds beneficiaryId => exact quiet_processFloorRequest header hoffends
    | floorRelease floorRequestId => exact quiet_processFloorRelease header h.good.inv hoffends
    | floorQuery floorIds => exact quiet_processFloorQuery header hoffends
    | hello => exact hbody.elim
    | other primitive => exact hbody.elim

end Messages

/-! ## A conference that has ended -/

section Ended

variable {s : Server}

theorem ending_step {a : Action} (ha : a ≠ .end_) : (s.step a).ending = s.ending := by
  cases a with
  | addUser userId => exact congrArg FloorControl.ending (toFloorControl_addUser s userId)
  | setChair userId => exact congrArg FloorControl.ending (toFloorControl_setChair s userId)
  | removeUser userId =>
    change (s.removeUser userId).1.ending = s.ending
    unfold removeUser
    split
    · rfl
    · split
      · rfl
      · obtain ⟨p, hp⟩ := @exists_removes_revokeUserFloorRequests
          { s with users := s.users.erase userId } userId
        exact hp.ending_eq
  | addFloor floorId =>
    change (s.addFloor floorId).1.ending = s.ending
    unfold addFloor
    split
    · rfl
    · split
      · rfl
      · split <;> rfl
  | grantFloorRequest floorRequestId => exact ending_grantFloorRequest floorRequestId
  | denyFloorRequest floorRequestId statusInfo => exact (removes_denyFloorRequest ..).ending_eq
  | revokeFloorRequest floorRequestId statusInfo => exact (removes_revokeFloorRequest ..).ending_eq
  | end_ => exact absurd rfl ha
  | userConnected userId transport =>
    change (s.userConnected userId transport).1.ending = s.ending
    unfold userConnected
    split
    · rfl
    · split
      · rfl
      · dsimp only
        rw [toFloorControl_updateUser]
        split
        · rw [toFloorControl_closeTransport]
          obtain ⟨p, hp⟩ := @exists_removes_revokeUserFloorRequests
            (s.updateUser userId User.resetQueriedFloorIds) userId
          exact hp.ending_eq
        · rfl
  | userDisconnected userId closedByServer =>
    change (s.userDisconnected userId closedByServer).ending = s.ending
    unfold userDisconnected
    split
    · rfl
    · split
      · rfl
      · dsimp only
        split
        · rfl
        · obtain ⟨p, hp⟩ := @exists_removes_revokeUserFloorRequests (updateUser
            (s.updateUser userId fun user => { user with transport := none }) userId
            User.resetQueriedFloorIds) userId
          exact hp.ending_eq
  | disconnectUser userId code reason =>
    change (s.disconnectUser userId code reason).ending = s.ending
    unfold disconnectUser
    split
    · rfl
    · split
      · rfl
      · dsimp only
        rw [toFloorControl_closeTransport]
        obtain ⟨p, hp⟩ := @exists_removes_revokeUserFloorRequests
          (s.updateUser userId User.resetQueriedFloorIds) userId
        exact hp.ending_eq
  | messageReceived msg =>
    change (s.messageReceived msg).ending = s.ending
    unfold messageReceived
    split
    · rfl
    · split
      · rw [toFloorControl_replyError]
      · split
        · exact ending_processFloorRequest ..
        · obtain ⟨p, hp⟩ := exists_removes_processFloorRelease (s := s) ..
          exact hp.ending_eq
        · rw [toFloorControl_processFloorQuery]
        · exact congrArg FloorControl.ending (toFloorControl_sendMessage s _)
        · rw [toFloorControl_replyError]

/-- A conference that has ended has no users. -/
def Vacated (s : Server) : Prop :=
  s.ending = true → ∀ k : Int, s.users[k]? = none

theorem step_of_ended (hgood : Good s) (hvacated : s.Vacated) (hending : s.ending = true)
    (a : Action) : s.step a = s := by
  have hrequest (k : Int) : s.getFloorRequest k = none := hgood.ended hending k
  have huser (k : Int) : s.getUser k = none := hvacated hending k
  cases a <;>
    simp only [step, addUser, removeUser, setChair, addFloor, grantFloorRequest, denyFloorRequest,
      revokeFloorRequest, end_, userConnected, userDisconnected, disconnectUser, messageReceived,
      hending, if_true, hrequest, huser]

theorem vacated_step (h : Sound s) (hvacated : s.Vacated) (a : Action) : (s.step a).Vacated := by
  cases hending : s.ending with
  | true =>
    rw [step_of_ended h.good hvacated hending]
    exact hvacated
  | false =>
    intro hended k
    have ha : a = .end_ := by
      by_contra hne
      rw [ending_step hne, hending] at hended
      cases hended
    subst ha
    have hstep : s.step .end_ =
        (endFloorRequests s.floorRequests.size { s with ending := true }).endUsers := by
      simp [step, end_, hending]
    rw [hstep]
    exact Std.TreeMap.getElem?_emptyc

theorem vacated_run (conferenceId : Int) (actions : List Action) :
    (run step (new conferenceId) actions).Vacated := by
  have h : Sound (run step (new conferenceId) actions) ∧
      (run step (new conferenceId) actions).Vacated := by
    refine invariant_of_meets (C := fun _ _ => True) (I := fun _ s => Sound s ∧ s.Vacated)
      ⟨sound_new conferenceId, fun hending => by cases hending⟩
      (fun _ a h _ => ⟨sound_step h.1 a, vacated_step h.1 h.2 a⟩) actions
      (meets_of_forall (fun _ _ => trivial) actions)
  exact h.2

end Ended

/-- **Errors.** In every state that a server can reach, a floor request, release or query of a user
is answered with an error exactly if it names something that does not exist or a request that is not
the sender's to release; then nothing changes and nothing else is sent. Reference:
`BFCPFloorControlServer.cpp:847`, `:907` and `:1026`. -/
theorem error_iff_offends (conferenceId : Int) (actions : List Action) (msg : RequestMessage)
    (user : User) (hbody : msg.body.IsAboutFloors)
    (huser : (run step (new conferenceId) actions).users[msg.header.userId]? = some user) :
    let s := run step (new conferenceId) actions
    let t := s.step (.messageReceived msg)
    (∃ out, t.outputs = s.outputs ++ out ∧ ((∃ o ∈ out, o.isError = true) ↔
      s.Offends user msg.body ∧ user.transport.isSome = true)) ∧
    (s.Offends user msg.body → ∃ errorCode errorInfo,
      t = s.emit (user.transport.toList.map fun transport =>
        .message transport ⟨msg.header, .error errorCode errorInfo⟩)) := by
  intro s t
  have hending : s.ending = false := by
    refine eq_false_of_ne_true fun hended => ?_
    rw [vacated_run conferenceId actions hended] at huser
    cases huser
  rcases messageReceived_cases (sound_run conferenceId actions) hending hbody huser with
    ⟨hoffends, errorCode, errorInfo, ht⟩ | ⟨hnot, out, hout, hquiet⟩
  · have ht' : t = s.emit (user.transport.toList.map fun transport =>
        .message transport ⟨msg.header, .error errorCode errorInfo⟩) := by
      rw [← replyError_eq msg.header huser]
      exact ht
    refine ⟨⟨_, congrArg Server.outputs ht', ?_⟩, fun _ => ⟨errorCode, errorInfo, ht'⟩⟩
    rw [and_iff_right hoffends]
    cases user.transport with
    | none => simp
    | some transport => simp [Output.isError, ReplyMessage.isError]
  · refine ⟨⟨out, hout, iff_of_false ?_ fun h => hnot h.1⟩, fun h => absurd h hnot⟩
    rintro ⟨o, ho, herror⟩
    rw [hquiet o ho] at herror
    cases herror

/-- User 1 is connected and requests a floor that there is not. -/
theorem error_iff_offends_noFloor :
    let s := run step (new 1) [.addUser 1, .userConnected 1 7]
    let msg : RequestMessage := ⟨⟨5, 1, 1⟩, .floorRequest [2] none⟩
    let user : User := { userId := 1, conferenceId := 1, transport := some 7 }
    let t := s.step (.messageReceived msg)
    (∃ out, t.outputs = s.outputs ++ out ∧ ((∃ o ∈ out, o.isError = true) ↔
      s.Offends user msg.body ∧ user.transport.isSome = true)) ∧
    (s.Offends user msg.body → ∃ errorCode errorInfo,
      t = s.emit (user.transport.toList.map fun transport =>
        .message transport ⟨msg.header, .error errorCode errorInfo⟩)) :=
  error_iff_offends 1 [.addUser 1, .userConnected 1 7] ⟨⟨5, 1, 1⟩, .floorRequest [2] none⟩ _
    trivial (by decide)

end Server

end Bfcp

end McuMediaServer
