import McuMediaServer.Bfcp.Changes

/-!
# The status changes of a step

Which requests change their status in a step of the server, and that this is what the step does: the
requests go through these changes and the users are told about each of them, except that those who
asked about the floors do not hear of a new request.
-/

namespace McuMediaServer

namespace Bfcp

open OrderedMap StepRun

variable {a : Action}

namespace Server

/-- The request that a message makes, if it is taken. -/
def requested (s : Server) : Action → Option FloorRequest
  | .messageReceived ⟨header, .floorRequest floorIds beneficiaryId⟩ =>
    if !s.ending && s.hasUser header.userId && s.acceptsFloorRequest floorIds beneficiaryId then
      some (s.newFloorRequest header floorIds beneficiaryId)
    else
      none
  | _ => none

/-- The server at the time the requests change. A user who is removed or whose connection is closed
is no longer one that asked about floors. -/
def prepared (s : Server) : Action → Server
  | .removeUser userId => { s with users := s.users.erase userId }
  | .userConnected userId _ => s.updateUser userId User.resetQueriedFloorIds
  | .userDisconnected userId _ =>
    (s.updateUser userId fun user => { user with transport := none }).updateUser userId
      User.resetQueriedFloorIds
  | .disconnectUser userId _ _ => s.updateUser userId User.resetQueriedFloorIds
  | .end_ => { s with ending := true }
  | .messageReceived msg =>
    if (s.requested (.messageReceived msg)).isSome then
      { s with floorRequestCounter := nextCounter s.floorRequestCounter }
    else
      s
  | _ => s

/-- Whether the requests of a user are revoked or denied. -/
def concludesUser (s : Server) : Action → Option Int
  | .removeUser userId => if !s.ending && s.hasUser userId then some userId else none
  | .userConnected userId _ =>
    if !s.ending && (s.getUser userId).any User.isConnected then some userId else none
  | .userDisconnected userId closedByServer =>
    if !s.ending && s.hasUser userId && !closedByServer then some userId else none
  | .disconnectUser userId _ _ => if !s.ending && s.hasUser userId then some userId else none
  | _ => none

/-- The requests of a user, revoked or denied. -/
def userChanges (s : Server) (a : Action) : List FloorRequest :=
  match s.concludesUser a with
  | some userId => (s.userFloorRequests userId).map .concluded
  | none => []

/-- The requests that change their status, each with its new one. -/
def changes (s : Server) (a : Action) : List FloorRequest :=
  match a with
  | .grantFloorRequest floorRequestId => s.grantChanges floorRequestId
  | .denyFloorRequest floorRequestId _ =>
    ((s.getFloorRequest floorRequestId).filter FloorRequest.canBeDenied).toList.map
      (·.setStatus .denied)
  | .revokeFloorRequest floorRequestId _ =>
    ((s.getFloorRequest floorRequestId).filter FloorRequest.isGranted).toList.map
      (·.setStatus .revoked)
  | .end_ => if s.ending then [] else (values s.floorRequests).map .concluded
  | .messageReceived ⟨header, .floorRelease floorRequestId⟩ =>
    if s.ending then
      []
    else
      (s.getUser header.userId).toList.flatMap fun user => (s.released floorRequestId user).toList
  | .messageReceived ⟨header, .floorRequest _ _⟩ =>
    (s.requested a).toList.flatMap fun r =>
      s.requestChanges r ((s.getUser header.userId).any User.isChair)
  | _ => s.userChanges a

section Equations

variable (s : Server)

theorem requested_floorRequest (header : CommonHeader) (floorIds : List Int)
    (beneficiaryId : Option Int) :
    s.requested (.messageReceived ⟨header, .floorRequest floorIds beneficiaryId⟩) =
      if !s.ending && s.hasUser header.userId && s.acceptsFloorRequest floorIds beneficiaryId then
        some (s.newFloorRequest header floorIds beneficiaryId)
      else
        none := rfl

theorem changes_end : s.changes .end_ =
    if s.ending then [] else (values s.floorRequests).map .concluded := rfl

theorem changes_floorRelease (header : CommonHeader) (floorRequestId : Int) :
    s.changes (.messageReceived ⟨header, .floorRelease floorRequestId⟩) =
      if s.ending then
        []
      else
        (s.getUser header.userId).toList.flatMap fun user =>
          (s.released floorRequestId user).toList := rfl

theorem changes_floorRequest (header : CommonHeader) (floorIds : List Int)
    (beneficiaryId : Option Int) :
    s.changes (.messageReceived ⟨header, .floorRequest floorIds beneficiaryId⟩) =
      (s.requested (.messageReceived ⟨header, .floorRequest floorIds beneficiaryId⟩)).toList.flatMap
        fun r => s.requestChanges r ((s.getUser header.userId).any User.isChair) := rfl

end Equations

/-- From `s` to `t` the requests stay and nobody is told anything about them. -/
structure Silent (s t : Server) : Prop where
  counter_eq : t.floorRequestCounter = s.floorRequestCounter
  requests_eq : t.requests = s.requests
  outputs : ∃ out, t.outputs = s.outputs ++ out ∧ requestStatuses out = [] ∧ floorStatuses out = []

theorem Silent.refl (s : Server) : Silent s s :=
  ⟨rfl, rfl, [], (List.append_nil _).symm, rfl, rfl⟩

theorem Silent.of_eq {s t : Server} (hcounter : t.floorRequestCounter = s.floorRequestCounter)
    (hrequests : t.floorRequests = s.floorRequests)
    (houtputs : t.outputs = s.outputs) : Silent s t := by
  refine ⟨hcounter, ?_, [], ?_, rfl, rfl⟩
  · unfold requests
    rw [hrequests]
  · rw [houtputs, List.append_nil]

/-- A query asks for the status of floors, which is no change of a status. -/
def isFloorQuery : Action → Bool
  | .messageReceived ⟨_, .floorQuery _⟩ => true
  | _ => false

/-- A step goes through `changes`, and those who asked about the floors hear of `told`. -/
def Takes (s : Server) (a : Action) (changes told : List FloorRequest) : Prop :=
  ∃ u, Effect (s.prepared a) u changes told ∧ Silent u (s.step a)

section Takes

variable {s : Server}

theorem prepared_messageReceived_eq (msg : RequestMessage) :
    s.prepared (.messageReceived msg) = s ∨ s.prepared (.messageReceived msg) =
      { s with floorRequestCounter := nextCounter s.floorRequestCounter } := by
  unfold prepared
  dsimp only
  split
  · exact .inr rfl
  · exact .inl rfl

theorem requests_prepared (a : Action) : (s.prepared a).requests = s.requests := by
  cases a with
  | messageReceived msg =>
    rcases prepared_messageReceived_eq (s := s) msg with h | h
    · rw [h]
    · rw [h]
      rfl
  | _ => rfl

theorem outputs_prepared (a : Action) : (s.prepared a).outputs = s.outputs := by
  cases a with
  | messageReceived msg => rcases prepared_messageReceived_eq (s := s) msg with h | h <;> rw [h]
  | _ => rfl

theorem conferenceId_prepared (a : Action) : (s.prepared a).conferenceId = s.conferenceId := by
  cases a with
  | messageReceived msg => rcases prepared_messageReceived_eq (s := s) msg with h | h <;> rw [h]
  | _ => rfl

theorem counter_prepared (a : Action) : (s.prepared a).floorRequestCounter =
    if (s.requested a).isSome then nextCounter s.floorRequestCounter else s.floorRequestCounter := by
  cases a with
  | messageReceived msg =>
    unfold prepared
    dsimp only
    split <;> rfl
  | _ => rfl

theorem takes_nil (ha : s.requested a = none) (h : Silent s (s.step a)) : Takes s a [] [] := by
  refine ⟨s.prepared a, .refl _, ?_, ?_, ?_⟩
  · rw [counter_prepared, ha, h.counter_eq]
    rfl
  · rw [requests_prepared, h.requests_eq]
  · rw [outputs_prepared]
    exact h.outputs

theorem keyed_updateUser (hkeyed : s.Keyed) (userId : Int) {f : User → User}
    (hf : ∀ user, (f user).userId = user.userId) : (s.updateUser userId f).Keyed := by
  intro k user hk
  have hmodify : (s.users.modify userId f)[k]? = some user := hk
  rw [Std.TreeMap.getElem?_modify] at hmodify
  split at hmodify
  case isTrue hk =>
    obtain rfl := Std.LawfulEqOrd.eq_of_compare hk
    obtain ⟨old, hold, rfl⟩ := Option.map_eq_some_iff.1 hmodify
    rw [hf]
    exact hkeyed _ old hold
  case isFalse => exact hkeyed k user hmodify

theorem keyed_erase (hkeyed : s.Keyed) (userId : Int) :
    Keyed { s with users := s.users.erase userId } := by
  intro k user hk
  have herase : (s.users.erase userId)[k]? = some user := hk
  rw [getElem?_erase_ite] at herase
  split at herase
  · cases herase
  · exact hkeyed k user herase

theorem takes_concludes (hI : s.toFloorControl.Inv) (userId : Int) {u : Server}
    (ha : s.concludesUser a = some userId) (hu : s.prepared a = u) (hkeyed : u.Keyed)
    (hcontrol : u.toFloorControl = s.toFloorControl)
    (hsilent : Silent (u.revokeUserFloorRequests userId) (s.step a)) :
    Takes s a (s.userChanges a) (s.userChanges a) := by
  have hlist : u.userFloorRequests userId = s.userFloorRequests userId := by
    rw [userFloorRequests, hcontrol]
    rfl
  have heffect := effect_revokeUserFloorRequests hkeyed (by rw [hcontrol]; exact hI) userId
  rw [hlist] at heffect
  rw [userChanges, ha]
  exact ⟨_, by rw [hu]; exact heffect, hsilent⟩

theorem takes_none (ha : s.concludesUser a = none) (hnew : s.requested a = none)
    (h : Silent s (s.step a)) : Takes s a (s.userChanges a) (s.userChanges a) := by
  rw [userChanges, ha]
  exact takes_nil hnew h

theorem takes_refused (ha : s.concludesUser a = none) (hnew : s.requested a = none)
    (h : s.step a = s) : Takes s a (s.userChanges a) (s.userChanges a) :=
  takes_none ha hnew (by rw [h]; exact .refl s)

theorem silent_closeTransport (userId : Int) (code : Nat) (reason : String) :
    Silent s (s.closeTransport userId code reason) := by
  unfold closeTransport
  split
  case h_1 user _ =>
    refine ⟨rfl, rfl, user.closeOutputs code reason, rfl, ?_, ?_⟩
    · unfold User.closeOutputs
      cases user.transport <;> rfl
    · unfold User.closeOutputs
      cases user.transport <;> rfl
  case h_2 => exact .refl s

attribute [local simp] step concludesUser in
theorem takes_removeUser (hI : s.toFloorControl.Inv) (hkeyed : s.Keyed) (userId : Int) :
    Takes s (.removeUser userId) (s.userChanges (.removeUser userId))
      (s.userChanges (.removeUser userId)) := by
  cases hending : s.ending with
  | true =>
    refine takes_refused ?_ rfl ?_
    · simp [hending]
    · simp [removeUser, hending]
  | false =>
    cases huser : s.getUser userId with
    | none =>
      refine takes_refused ?_ rfl ?_
      · simp [hasUser, huser]
      · simp [removeUser, huser]
    | some user =>
      refine takes_concludes hI userId ?_ rfl (keyed_erase hkeyed userId) rfl ?_
      · simp [hasUser, hending, huser]
      · have hstep : s.step (.removeUser userId) =
            let u := revokeUserFloorRequests { s with users := s.users.erase userId } userId
            let v := u.emit
              (user.closeOutputs 4001 "you have been removed from the BFCP conference")
            { v with removedUsers := v.removedUsers ++ [{ user with transport := none }] } := by
          simp [removeUser, hending, huser]
        rw [hstep]
        refine ⟨rfl, rfl, _, rfl, ?_, ?_⟩
        · unfold User.closeOutputs
          cases user.transport <;> rfl
        · unfold User.closeOutputs
          cases user.transport <;> rfl

theorem takes_userConnected (hI : s.toFloorControl.Inv) (hkeyed : s.Keyed) (userId : Int)
    (transport : Nat) :
    Takes s (.userConnected userId transport) (s.userChanges (.userConnected userId transport))
      (s.userChanges (.userConnected userId transport)) := by
  cases hending : s.ending with
  | true =>
    refine takes_refused ?_ rfl ?_
    · simp [concludesUser, hending]
    · simp [step, userConnected, hending]
  | false =>
    cases huser : s.getUser userId with
    | none =>
      refine takes_refused ?_ rfl ?_
      · simp [concludesUser, huser]
      · simp [step, userConnected, huser]
    | some user =>
      cases hconnected : user.isConnected with
      | false =>
        refine takes_none ?_ rfl ?_
        · simp [concludesUser, huser, hconnected]
        · have hstep : s.step (.userConnected userId transport) =
              s.updateUser userId fun user => { user with transport := some transport } := by
            simp [step, userConnected, hending, huser, hconnected]
          rw [hstep]
          exact .of_eq rfl rfl rfl
      | true =>
        refine takes_concludes hI userId ?_ rfl (keyed_updateUser hkeyed userId fun _ => rfl)
          rfl ?_
        · simp [concludesUser, hending, huser, hconnected]
        · have hstep : s.step (.userConnected userId transport) =
              (((s.updateUser userId User.resetQueriedFloorIds).revokeUserFloorRequests
                userId).closeTransport userId 4002
                  "your user has connected from somewhere else").updateUser userId
                fun user => { user with transport := some transport } := by
            simp [step, userConnected, hending, huser, hconnected]
          have hsilent := silent_closeTransport
            (s := (s.updateUser userId User.resetQueriedFloorIds).revokeUserFloorRequests userId)
            userId 4002 "your user has connected from somewhere else"
          rw [hstep]
          exact ⟨hsilent.counter_eq, hsilent.requests_eq, hsilent.outputs⟩

theorem takes_userDisconnected (hI : s.toFloorControl.Inv) (hkeyed : s.Keyed) (userId : Int)
    (closedByServer : Bool) :
    Takes s (.userDisconnected userId closedByServer)
      (s.userChanges (.userDisconnected userId closedByServer))
      (s.userChanges (.userDisconnected userId closedByServer)) := by
  cases huser : s.getUser userId with
  | none =>
    refine takes_refused ?_ rfl ?_
    · simp [concludesUser, hasUser, huser]
    · simp [step, userDisconnected, huser]
  | some user =>
    cases closedByServer with
    | true =>
      refine takes_refused ?_ rfl ?_
      · simp [concludesUser]
      · simp [step, userDisconnected, huser]
    | false =>
      cases hending : s.ending with
      | true =>
        refine takes_none ?_ rfl ?_
        · simp [concludesUser, hending]
        · have hstep : s.step (.userDisconnected userId false) =
              (s.updateUser userId fun user => { user with transport := none }).updateUser userId
                User.resetQueriedFloorIds := by
            simp [step, userDisconnected, huser, updateUser, hending]
          rw [hstep]
          exact .of_eq rfl rfl rfl
      | false =>
        have hset : (s.updateUser userId fun user => { user with transport := none }).Keyed :=
          keyed_updateUser hkeyed userId fun _ => rfl
        have hkeyed' : ((s.updateUser userId fun user => { user with transport := none }).updateUser
            userId User.resetQueriedFloorIds).Keyed :=
          keyed_updateUser hset userId fun _ => rfl
        refine takes_concludes hI userId ?_ rfl hkeyed' rfl ?_
        · simp [concludesUser, hasUser, hending, huser]
        · have hstep : s.step (.userDisconnected userId false) =
              ((s.updateUser userId fun user => { user with transport := none }).updateUser userId
                User.resetQueriedFloorIds).revokeUserFloorRequests userId := by
            simp [step, userDisconnected, huser, updateUser, hending]
          rw [hstep]
          exact .refl _

theorem takes_disconnectUser (hI : s.toFloorControl.Inv) (hkeyed : s.Keyed) (userId : Int)
    (code : Nat) (reason : String) :
    Takes s (.disconnectUser userId code reason)
      (s.userChanges (.disconnectUser userId code reason))
      (s.userChanges (.disconnectUser userId code reason)) := by
  cases hending : s.ending with
  | true =>
    refine takes_refused ?_ rfl ?_
    · simp [concludesUser, hending]
    · simp [step, disconnectUser, hending]
  | false =>
    cases huser : s.getUser userId with
    | none =>
      refine takes_refused ?_ rfl ?_
      · simp [concludesUser, hasUser, huser]
      · simp [step, disconnectUser, huser]
    | some user =>
      refine takes_concludes hI userId ?_ rfl (keyed_updateUser hkeyed userId fun _ => rfl)
        rfl ?_
      · simp [concludesUser, hasUser, hending, huser]
      · have hstep : s.step (.disconnectUser userId code reason) =
            ((s.updateUser userId User.resetQueriedFloorIds).revokeUserFloorRequests
              userId).closeTransport userId code reason := by
          simp [step, disconnectUser, hending, huser]
        rw [hstep]
        exact silent_closeTransport ..

attribute [local simp] changes in
theorem takes_denyFloorRequest (hI : s.toFloorControl.Inv) (hkeyed : s.Keyed)
    (floorRequestId : Int) (statusInfo : String) :
    Takes s (.denyFloorRequest floorRequestId statusInfo)
      (s.changes (.denyFloorRequest floorRequestId statusInfo))
      (s.changes (.denyFloorRequest floorRequestId statusInfo)) := by
  cases hr : s.getFloorRequest floorRequestId with
  | none =>
    have hchanges : s.changes (.denyFloorRequest floorRequestId statusInfo) = [] := by
      simp [hr]
    rw [hchanges]
    refine takes_nil rfl ?_
    rw [step, denyFloorRequest, hr]
    exact .refl s
  | some r =>
    have hkey : r.floorRequestId = floorRequestId := hI.key_eq _ r hr
    subst hkey
    cases hdenied : r.canBeDenied with
    | false =>
      have hchanges : s.changes (.denyFloorRequest r.floorRequestId statusInfo) = [] := by
        simp [hr, Option.filter, hdenied]
      rw [hchanges]
      refine takes_nil rfl ?_
      simp only [step, denyFloorRequest, hr, hdenied, Bool.not_false, if_true]
      exact .refl s
    | true =>
      have hchanges : s.changes (.denyFloorRequest r.floorRequestId statusInfo) =
          [r.setStatus .denied] := by
        simp [hr, Option.filter, hdenied]
      rw [hchanges]
      exact ⟨_, effect_denyFloorRequest hkeyed hr hdenied statusInfo, .refl _⟩

theorem takes_revokeFloorRequest (hI : s.toFloorControl.Inv) (hkeyed : s.Keyed)
    (floorRequestId : Int) (statusInfo : String) :
    Takes s (.revokeFloorRequest floorRequestId statusInfo)
      (s.changes (.revokeFloorRequest floorRequestId statusInfo))
      (s.changes (.revokeFloorRequest floorRequestId statusInfo)) := by
  cases hr : s.getFloorRequest floorRequestId with
  | none =>
    have hchanges : s.changes (.revokeFloorRequest floorRequestId statusInfo) = [] := by
      simp [changes, hr]
    rw [hchanges]
    refine takes_nil rfl ?_
    rw [step, revokeFloorRequest, hr]
    exact .refl s
  | some r =>
    have hkey : r.floorRequestId = floorRequestId := hI.key_eq _ r hr
    subst hkey
    cases hgranted : r.isGranted with
    | false =>
      have hchanges : s.changes (.revokeFloorRequest r.floorRequestId statusInfo) = [] := by
        simp [changes, hr, Option.filter, hgranted]
      rw [hchanges]
      refine takes_nil rfl ?_
      simp only [step, revokeFloorRequest, hr, hgranted, Bool.not_false, if_true]
      exact .refl s
    | true =>
      have hchanges : s.changes (.revokeFloorRequest r.floorRequestId statusInfo) =
          [r.setStatus .revoked] := by
        simp [changes, hr, Option.filter, hgranted]
      rw [hchanges]
      exact ⟨_, effect_revokeFloorRequest hkeyed hr hgranted statusInfo, .refl _⟩

theorem takes_end (hI : s.toFloorControl.Inv) (hkeyed : s.Keyed) :
    ∃ changes : List FloorRequest, changes.Perm (s.changes .end_) ∧
      Takes s .end_ changes changes := by
  cases hending : s.ending with
  | true =>
    refine ⟨[], ?_, takes_nil rfl ?_⟩
    · rw [changes, if_pos hending]
    · rw [step, end_, if_pos hending]
      exact .refl s
  | false =>
    have hall : s.changes .end_ = (values s.floorRequests).map .concluded :=
      if_neg (by simp [hending])
    rw [hall]
    obtain ⟨changes, hperm, heffect⟩ := effect_endFloorRequests (s := { s with ending := true })
      hkeyed { hI with } (le_refl s.floorRequests.size)
    refine ⟨changes, hperm, _, heffect, ?_⟩
    have hstep : s.step .end_ =
        (endFloorRequests s.floorRequests.size { s with ending := true }).endUsers := by
      simp [step, end_, hending]
    have hclose : ∀ users : List User, ∀ output ∈ users.flatMap fun user =>
        user.closeOutputs 4000 "the BFCP conference has ended",
        ∃ transport code reason, output = .close transport code reason := by
      intro users output houtput
      obtain ⟨user, -, hmem⟩ := List.mem_flatMap.1 houtput
      obtain ⟨transport, -, rfl⟩ := List.mem_map.1 hmem
      exact ⟨_, _, _, rfl⟩
    rw [hstep]
    refine ⟨rfl, rfl, _, rfl, ?_, ?_⟩
    · refine List.filterMap_eq_nil_iff.2 fun output houtput => ?_
      obtain ⟨_, _, _, rfl⟩ := hclose _ output houtput
      rfl
    · refine List.filterMap_eq_nil_iff.2 fun output houtput => ?_
      obtain ⟨_, _, _, rfl⟩ := hclose _ output houtput
      rfl

end Takes

/-- The changes that those who asked about the floors hear of: not that a request is made. -/
def heard (s : Server) (a : Action) : List FloorRequest :=
  if (s.requested a).isSome then (s.changes a).tail else s.changes a

section Message

variable {s : Server}

theorem takes_of_effect {changes told : List FloorRequest}
    (h : Effect (s.prepared a) (s.step a) changes told) : Takes s a changes told :=
  ⟨_, h, .refl _⟩

theorem silent_of_effect {t : Server} (h : Effect s t [] []) : Silent s t := by
  obtain ⟨out, hout, hrequest, hfloor⟩ := h.outputs
  exact ⟨h.counter_eq, h.requests_eq, out, hout, hrequest, hfloor⟩

theorem silent_processHello (header : CommonHeader) : Silent s (s.processHello header) := by
  unfold processHello
  rw [sendMessage_eq]
  refine ⟨rfl, rfl, _, rfl, ?_, ?_⟩
  · unfold deliveries requestStatuses
    cases Users.transport? s.users header.userId <;> rfl
  · unfold deliveries floorStatuses
    cases Users.transport? s.users header.userId <;> rfl

theorem takes_floorRequest (hI : s.toFloorControl.Inv) (hkeyed : s.Keyed) (header : CommonHeader)
    (floorIds : List Int) (beneficiaryId : Option Int) :
    Takes s (.messageReceived ⟨header, .floorRequest floorIds beneficiaryId⟩)
      (s.changes (.messageReceived ⟨header, .floorRequest floorIds beneficiaryId⟩))
      (s.heard (.messageReceived ⟨header, .floorRequest floorIds beneficiaryId⟩)) := by
  have hnone (hrequested : s.requested (.messageReceived
      ⟨header, .floorRequest floorIds beneficiaryId⟩) = none)
      (hsilent : Silent s (s.step (.messageReceived
        ⟨header, .floorRequest floorIds beneficiaryId⟩))) :
      Takes s (.messageReceived ⟨header, .floorRequest floorIds beneficiaryId⟩)
        (s.changes (.messageReceived ⟨header, .floorRequest floorIds beneficiaryId⟩))
        (s.heard (.messageReceived ⟨header, .floorRequest floorIds beneficiaryId⟩)) := by
    rw [heard, changes, hrequested]
    exact takes_nil hrequested hsilent
  cases hending : s.ending with
  | true =>
    refine hnone ?_ ?_
    · simp [requested, hending]
    · rw [step, messageReceived, if_pos hending]
      exact .refl s
  | false =>
    cases huser : s.getUser header.userId with
    | none =>
      refine hnone ?_ ?_
      · simp [requested, hasUser, huser]
      · simp only [step, messageReceived, hending, huser, Bool.false_eq_true, if_false]
        exact silent_of_effect (effect_replyError ..)
    | some user =>
      have hstep : s.step (.messageReceived ⟨header, .floorRequest floorIds beneficiaryId⟩) =
          s.processFloorRequest header floorIds beneficiaryId user := by
        simp [step, messageReceived, hending, huser]
      cases haccepts : s.acceptsFloorRequest floorIds beneficiaryId with
      | false =>
        refine hnone ?_ ?_
        · simp [requested, haccepts]
        · rw [hstep]
          exact silent_of_effect (effect_processFloorRequest_rejected haccepts header user)
      | true =>
        have hrequested : s.requested (.messageReceived
            ⟨header, .floorRequest floorIds beneficiaryId⟩) =
            some (s.newFloorRequest header floorIds beneficiaryId) := by
          simp [requested, hasUser, hending, huser, haccepts]
        have hchanges : s.changes (.messageReceived
            ⟨header, .floorRequest floorIds beneficiaryId⟩) =
            s.requestChanges (s.newFloorRequest header floorIds beneficiaryId) user.isChair := by
          simp [changes, hrequested, huser]
        have hprepared : s.prepared (.messageReceived
            ⟨header, .floorRequest floorIds beneficiaryId⟩) =
            { s with floorRequestCounter := nextCounter s.floorRequestCounter } := by
          simp [prepared, hrequested]
        have heffect := effect_processFloorRequest hkeyed hI haccepts header user
        rw [← hstep, ← hprepared] at heffect
        rw [heard, hrequested, Option.isSome_some, if_pos rfl, hchanges]
        exact takes_of_effect heffect

theorem takes_floorRelease (hI : s.toFloorControl.Inv) (hkeyed : s.Keyed) (header : CommonHeader)
    (floorRequestId : Int) :
    Takes s (.messageReceived ⟨header, .floorRelease floorRequestId⟩)
      (s.changes (.messageReceived ⟨header, .floorRelease floorRequestId⟩))
      (s.changes (.messageReceived ⟨header, .floorRelease floorRequestId⟩)) := by
  cases hending : s.ending with
  | true =>
    have hchanges : s.changes (.messageReceived ⟨header, .floorRelease floorRequestId⟩) = [] :=
      if_pos hending
    rw [hchanges]
    refine takes_nil rfl ?_
    rw [step, messageReceived, if_pos hending]
    exact .refl s
  | false =>
    cases huser : s.getUser header.userId with
    | none =>
      have hchanges : s.changes (.messageReceived ⟨header, .floorRelease floorRequestId⟩) = [] := by
        simp [changes, huser]
      rw [hchanges]
      refine takes_nil rfl ?_
      simp only [step, messageReceived, hending, huser, Bool.false_eq_true, if_false]
      exact silent_of_effect (effect_replyError ..)
    | some user =>
      have hstep : s.step (.messageReceived ⟨header, .floorRelease floorRequestId⟩) =
          s.processFloorRelease header floorRequestId user := by
        simp [step, messageReceived, hending, huser]
      have hchanges : s.changes (.messageReceived ⟨header, .floorRelease floorRequestId⟩) =
          (s.released floorRequestId user).toList := by
        simp [changes, hending, huser]
      have heffect := effect_processFloorRelease hkeyed hI header floorRequestId user
      rw [← hstep] at heffect
      rw [hchanges]
      exact takes_of_effect heffect

theorem outputs_addUser (userId : Int) : (s.addUser userId).1.outputs = s.outputs := by
  unfold addUser
  split
  · rfl
  · split
    · rfl
    · split <;> rfl

theorem outputs_setChair (userId : Int) : (s.setChair userId).1.outputs = s.outputs := by
  unfold setChair
  split
  · rfl
  · split <;> rfl

theorem addFloor_frame (floorId : Int) :
    (s.addFloor floorId).1.floorRequestCounter = s.floorRequestCounter ∧
      (s.addFloor floorId).1.floorRequests = s.floorRequests ∧
      (s.addFloor floorId).1.outputs = s.outputs := by
  unfold addFloor
  split
  · exact ⟨rfl, rfl, rfl⟩
  · split
    · exact ⟨rfl, rfl, rfl⟩
    · split <;> exact ⟨rfl, rfl, rfl⟩

theorem silent_hello (header : CommonHeader) : Silent s (s.messageReceived ⟨header, .hello⟩) := by
  unfold messageReceived
  split
  · exact .refl s
  · split
    · exact silent_of_effect (effect_replyError ..)
    · exact silent_processHello header

theorem silent_other (header : CommonHeader) (primitive : Primitive) :
    Silent s (s.messageReceived ⟨header, .other primitive⟩) := by
  unfold messageReceived
  split
  · exact .refl s
  · split
    · exact silent_of_effect (effect_replyError ..)
    · exact silent_of_effect (effect_replyError ..)

/-- **Step lemma.** A step other than a query takes its status changes, and those who asked about
the floors hear of all but new requests. -/
theorem takes_step (hI : s.toFloorControl.Inv) (hkeyed : s.Keyed) (ha : isFloorQuery a = false) :
    ∃ changes told : List FloorRequest, changes.Perm (s.changes a) ∧ told.Perm (s.heard a) ∧
      (a ≠ .end_ → changes = s.changes a) ∧ Takes s a changes told := by
  cases a with
  | addUser userId =>
    refine ⟨_, _, .refl _, .refl _, fun _ => rfl, takes_nil rfl (.of_eq ?_ ?_ ?_)⟩
    · exact congrArg FloorControl.floorRequestCounter (toFloorControl_addUser s userId)
    · exact congrArg FloorControl.floorRequests (toFloorControl_addUser s userId)
    · exact outputs_addUser userId
  | removeUser userId => exact ⟨_, _, .refl _, .refl _, fun _ => rfl, takes_removeUser hI hkeyed userId⟩
  | setChair userId =>
    refine ⟨_, _, .refl _, .refl _, fun _ => rfl, takes_nil rfl (.of_eq ?_ ?_ ?_)⟩
    · exact congrArg FloorControl.floorRequestCounter (toFloorControl_setChair s userId)
    · exact congrArg FloorControl.floorRequests (toFloorControl_setChair s userId)
    · exact outputs_setChair userId
  | addFloor floorId =>
    refine ⟨_, _, .refl _, .refl _, fun _ => rfl, takes_nil rfl (.of_eq ?_ ?_ ?_)⟩
    · exact (addFloor_frame floorId).1
    · exact (addFloor_frame floorId).2.1
    · exact (addFloor_frame floorId).2.2
  | grantFloorRequest floorRequestId =>
    exact ⟨_, _, .refl _, .refl _, fun _ => rfl, _, effect_grantFloorRequest hkeyed hI floorRequestId, .refl _⟩
  | denyFloorRequest floorRequestId statusInfo =>
    exact ⟨_, _, .refl _, .refl _, fun _ => rfl, takes_denyFloorRequest hI hkeyed floorRequestId statusInfo⟩
  | revokeFloorRequest floorRequestId statusInfo =>
    exact ⟨_, _, .refl _, .refl _, fun _ => rfl, takes_revokeFloorRequest hI hkeyed floorRequestId statusInfo⟩
  | end_ =>
    obtain ⟨changes, hperm, htakes⟩ := takes_end hI hkeyed
    exact ⟨changes, changes, hperm, hperm, fun h => absurd rfl h, htakes⟩
  | userConnected userId transport =>
    exact ⟨_, _, .refl _, .refl _, fun _ => rfl, takes_userConnected hI hkeyed userId transport⟩
  | userDisconnected userId closedByServer =>
    exact ⟨_, _, .refl _, .refl _, fun _ => rfl, takes_userDisconnected hI hkeyed userId closedByServer⟩
  | disconnectUser userId code reason =>
    exact ⟨_, _, .refl _, .refl _, fun _ => rfl, takes_disconnectUser hI hkeyed userId code reason⟩
  | messageReceived msg =>
    obtain ⟨header, body⟩ := msg
    cases body with
    | floorRequest floorIds beneficiaryId =>
      exact ⟨_, _, .refl _, .refl _, fun _ => rfl, takes_floorRequest hI hkeyed header floorIds beneficiaryId⟩
    | floorRelease floorRequestId =>
      exact ⟨_, _, .refl _, .refl _, fun _ => rfl, takes_floorRelease hI hkeyed header floorRequestId⟩
    | floorQuery floorIds => cases ha
    | hello => exact ⟨_, _, .refl _, .refl _, fun _ => rfl, takes_nil rfl (silent_hello header)⟩
    | other primitive => exact ⟨_, _, .refl _, .refl _, fun _ => rfl, takes_nil rfl (silent_other header primitive)⟩

end Message

end Server

end Bfcp

end McuMediaServer
