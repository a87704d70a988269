import McuMediaServer.Bfcp.Exclusion

/-!
# A listener that calls back

The listener of a floor control server may call `GrantFloorRequest`, `DenyFloorRequest` and
`RevokeFloorRequest` from inside its callbacks, and these may call it again. `Machine` keeps, next
to the server, the calls that wait for the listener to return, each with what it still has to do
(`Frame`). While there is one the listener is in control; it calls or returns, and a run is any
sequence of such inputs, with the calls of the chair and the transport between them.

Only a grant has something left to do that looks at requests it found before: those it goes through
to revoke them, and the one it grants. A step fails when it looks at one that is no longer there. If
the listener leaves them there, and no other granted request with a floor of the one that is granted
(`Undisturbed`), no run fails and no floor is granted twice (`safe_of_undisturbed`).
-/

namespace McuMediaServer

namespace Bfcp

open OrderedMap StepRun

/-- What a call does after it has revoked the requests of a user. -/
inductive After where
  | nothing
  | removeUser (user : User)
  | userConnected (userId : Int) (transport : Nat)
  | disconnectUser (userId : Int) (code : Nat) (reason : String)

/-- What a call that waits for the listener still has to do. -/
inductive Frame where
  /-- Nothing that looks at a request. -/
  | done
  /-- Go through the rest of the requests found, and grant. Reference:
  `BFCPFloorControlServer.cpp:213`. -/
  | grant (floorRequestId : Int) (floorRequestsToRevoke : List Int)
  /-- Go through the rest of the ids found. Reference: `BFCPFloorControlServer.cpp:817`. -/
  | revokeUser (userFloorRequests : List Int) (after : After)

/-- A server, and the calls that wait for its listener, innermost first. -/
structure Machine where
  server : Server
  calls : List Frame := []

variable {floorRequestId : Int}

namespace Machine

open Server

/-- The request is still there and becomes the owner of its floors; the listener is told. Reference:
`BFCPFloorControlServer.cpp:224`. -/
def finishGrant (s : Server) (floorRequestId : Int) : Option (Server × List Frame) :=
  match s.getFloorRequest floorRequestId with
  | none => none
  | some r =>
    let r := r.setStatus .granted
    let s := s.setFloorRequest floorRequestId r
    let s := s.sendMessage r.createFloorRequestStatus
    let s := s.notifyForFloorRequest r
    some (s.emit [.onFloorGranted floorRequestId r.beneficiaryId r.floorIds.toList], [.done])

/-- Look at each of the requests found and revoke it if it is granted, which calls the listener.
Reference: `BFCPFloorControlServer.cpp:207`. -/
def continueGrant (s : Server) (floorRequestId : Int) : List Int → Option (Server × List Frame)
  | [] => finishGrant s floorRequestId
  | k :: floorRequestsToRevoke =>
    match s.getFloorRequest k with
    | none => none
    | some r =>
      if !r.isGranted then
        continueGrant s floorRequestId floorRequestsToRevoke
      else
        let s := (s.revokeFloorRequest r.floorRequestId "granted to other user").1
        if s.ending then
          continueGrant s floorRequestId floorRequestsToRevoke
        else
          some (s, [.grant floorRequestId floorRequestsToRevoke])

/-- Reference: `BFCPFloorControlServer.cpp:186`, `GrantFloorRequest`. -/
def grantFloorRequest (s : Server) (floorRequestId : Int) : Option (Server × List Frame) :=
  if s.ending then
    some (s, [])
  else
    match s.getFloorRequest floorRequestId with
    | none => some (s, [])
    | some r =>
      if !r.canBeGranted then
        some (s, [])
      else
        continueGrant s floorRequestId
          ((s.getFloorRequestsForFloors r.floorIds).map FloorRequest.floorRequestId)

/-- Nothing is left to do after the listener is told. Reference: `BFCPFloorControlServer.cpp:321`,
`RevokeFloorRequest`. -/
def revokeFloorRequest (s : Server) (floorRequestId : Int) (statusInfo : String) :
    Server × List Frame :=
  let (s, ok) := s.revokeFloorRequest floorRequestId statusInfo
  (s, if ok && !s.ending then [.done] else [])

/-- Reference: `BFCPFloorControlServer.cpp:121`, `:512` and `:584`. -/
def finish (s : Server) : After → Server
  | .nothing => s
  | .removeUser user =>
    let s := s.emit (user.closeOutputs 4001 "you have been removed from the BFCP conference")
    { s with removedUsers := s.removedUsers ++ [{ user with transport := none }] }
  | .userConnected userId transport =>
    (s.closeTransport userId 4002 "your user has connected from somewhere else").updateUser userId
      fun user => { user with transport := some transport }
  | .disconnectUser userId code reason => s.closeTransport userId code reason

/-- Look up each of the ids found, and revoke or deny the request if there is one. Reference:
`BFCPFloorControlServer.cpp:817`. -/
def continueRevokeUser (after : After) : Server → List Int → Server × List Frame
  | s, [] => (finish s after, [])
  | s, k :: userFloorRequests =>
    let statusInfo := "FloorRequests from this user have been revoked or denied"
    match s.getFloorRequest k with
    | none => continueRevokeUser after s userFloorRequests
    | some r =>
      if r.isGranted then
        let s := (s.revokeFloorRequest r.floorRequestId statusInfo).1
        if s.ending then
          continueRevokeUser after s userFloorRequests
        else
          (s, [.revokeUser userFloorRequests after])
      else
        continueRevokeUser after (s.denyFloorRequest r.floorRequestId statusInfo).1
          userFloorRequests

/-- Reference: `BFCPFloorControlServer.cpp:800`, `RevokeUserFloorRequests`. -/
def revokeUserFloorRequests (s : Server) (userId : Int) (after : After) : Server × List Frame :=
  continueRevokeUser after s ((values s.floorRequests).filterMap fun r =>
    if r.beneficiaryId = userId then some r.floorRequestId else none)

/-- Reference: `BFCPFloorControlServer.cpp:87`, `RemoveUser`. -/
def removeUser (s : Server) (userId : Int) : Server × List Frame :=
  if s.ending then
    (s, [])
  else
    match s.getUser userId with
    | none => (s, [])
    | some user =>
      revokeUserFloorRequests { s with users := s.users.erase userId } userId (.removeUser user)

/-- Reference: `BFCPFloorControlServer.cpp:484`, `UserConnected`. -/
def userConnected (s : Server) (userId : Int) (transport : Nat) : Server × List Frame :=
  if s.ending then
    (s, [])
  else
    match s.getUser userId with
    | none => (s, [])
    | some user =>
      if user.isConnected then
        revokeUserFloorRequests (s.updateUser userId User.resetQueriedFloorIds) userId
          (.userConnected userId transport)
      else
        (s.updateUser userId fun user => { user with transport := some transport }, [])

/-- Reference: `BFCPFloorControlServer.cpp:525`, `UserDisconnected`. -/
def userDisconnected (s : Server) (userId : Int) (closedByServer : Bool) : Server × List Frame :=
  match s.getUser userId with
  | none => (s, [])
  | some _ =>
    if closedByServer then
      (s, [])
    else
      let s := s.updateUser userId fun user => { user with transport := none }
      let s := s.updateUser userId User.resetQueriedFloorIds
      if s.ending then (s, []) else revokeUserFloorRequests s userId .nothing

/-- Reference: `BFCPFloorControlServer.cpp:561`, `DisconnectUser`. -/
def disconnectUser (s : Server) (userId : Int) (code : Nat) (reason : String) :
    Server × List Frame :=
  if s.ending then
    (s, [])
  else
    match s.getUser userId with
    | none => (s, [])
    | some _ =>
      revokeUserFloorRequests (s.updateUser userId User.resetQueriedFloorIds) userId
        (.disconnectUser userId code reason)

/-- Reference: `BFCPFloorControlServer.cpp:847`, `ProcessFloorRequest`. -/
def processFloorRequest (s : Server) (header : CommonHeader) (floorIds : List Int)
    (beneficiaryId : Option Int) (user : User) : Option (Server × List Frame) :=
  if !floorIds.all s.hasFloor then
    some (s.replyError header .invalidFloorId "requested floor does not exist", [])
  else if !beneficiaryId.all s.hasUser then
    some (s.replyError header .userDoesNotExist "beneficiary does not exist", [])
  else
    let floorRequestId := s.floorRequestCounter
    let s := { s with floorRequestCounter := nextCounter floorRequestId }
    let r := FloorRequest.new floorRequestId header.userId s.conferenceId
    let r := { r with beneficiaryId := beneficiaryId.getD r.beneficiaryId }
    let r := floorIds.foldl FloorRequest.addFloorId r
    let s := s.setFloorRequest floorRequestId r
    let s := s.sendMessage (r.createFloorRequestStatus header.transactionId)
    if user.isChair then
      grantFloorRequest s floorRequestId
    else
      some (s.emit [.onFloorRequest floorRequestId r.userId r.beneficiaryId r.floorIds.toList],
        [.done])

/-- A user gives back a request that is granted, so the listener is told. Reference:
`BFCPFloorControlServer.cpp:926` and `:950`. -/
def releasesGranted (s : Server) (floorRequestId : Int) (user : User) : Bool :=
  match s.getFloorRequest floorRequestId with
  | none => false
  | some r =>
    (user.userId = r.userId || user.userId = r.beneficiaryId || user.isChair) && r.isGranted

/-- Reference: `BFCPFloorControlServer.cpp:596`, `MessageReceived`. -/
def messageReceived (s : Server) (msg : RequestMessage) : Option (Server × List Frame) :=
  if s.ending then
    some (s, [])
  else
    match s.getUser msg.header.userId, msg.body with
    | some user, .floorRequest floorIds beneficiaryId =>
      processFloorRequest s msg.header floorIds beneficiaryId user
    | some user, .floorRelease floorRequestId =>
      some (s.processFloorRelease msg.header floorRequestId user,
        if releasesGranted s floorRequestId user then [.done] else [])
    | _, _ => some (s.messageReceived msg, [])

/-- A call of the chair or the transport, up to the first callback in it. -/
def act (s : Server) : Action → Option (Server × List Frame)
  | .removeUser userId => some (removeUser s userId)
  | .grantFloorRequest floorRequestId => grantFloorRequest s floorRequestId
  | .revokeFloorRequest floorRequestId statusInfo =>
    some (revokeFloorRequest s floorRequestId statusInfo)
  | .userConnected userId transport => some (userConnected s userId transport)
  | .userDisconnected userId closedByServer => some (userDisconnected s userId closedByServer)
  | .disconnectUser userId code reason => some (disconnectUser s userId code reason)
  | .messageReceived msg => messageReceived s msg
  | a => some (s.step a, [])

/-- The rest of a call, when the listener returns to it. -/
def resume (s : Server) : Frame → Option (Server × List Frame)
  | .done => some (s, [])
  | .grant floorRequestId floorRequestsToRevoke =>
    continueGrant s floorRequestId floorRequestsToRevoke
  | .revokeUser userFloorRequests after => some (continueRevokeUser after s userFloorRequests)

/-- What the listener may call. -/
inductive Call where
  | grant (floorRequestId : Int)
  | deny (floorRequestId : Int) (statusInfo : String)
  | revoke (floorRequestId : Int) (statusInfo : String)

/-- A call of the listener is one the chair can make. -/
def Call.toAction : Call → Action
  | .grant floorRequestId => .grantFloorRequest floorRequestId
  | .deny floorRequestId statusInfo => .denyFloorRequest floorRequestId statusInfo
  | .revoke floorRequestId statusInfo => .revokeFloorRequest floorRequestId statusInfo

/-- An outermost call, or the listener calling or returning. -/
inductive Input where
  | act (a : Action)
  | call (c : Call)
  | ret

/-- One input. An outermost call is only made while none waits, and the listener only calls and
returns while one does. -/
def step (m : Machine) : Input → Option Machine
  | .act a =>
    if m.calls.isEmpty then (Machine.act m.server a).map fun (s, fs) => ⟨s, fs⟩ else some m
  | .call c =>
    if m.calls.isEmpty then some m
    else (Machine.act m.server c.toAction).map fun (s, fs) => ⟨s, fs ++ m.calls⟩
  | .ret =>
    match m.calls with
    | [] => some m
    | frame :: calls => (resume m.server frame).map fun (s, fs) => ⟨s, fs ++ calls⟩

/-- The requests a grant looks at before the listener is called again are there. -/
def ReadsThere (s : Server) (floorRequestId : Int) : List Int → Prop
  | [] => (s.getFloorRequest floorRequestId).isSome
  | k :: floorRequestsToRevoke =>
    ∃ r ∈ s.getFloorRequest k,
      r.isGranted = true ∨ ReadsThere s floorRequestId floorRequestsToRevoke

/-- When none of the requests found is granted any more, no other request is that has a floor of the
one to be granted. -/
def FloorsFree (s : Server) (floorRequestId : Int) (floorRequestsToRevoke : List Int) : Prop :=
  (∀ k ∈ floorRequestsToRevoke, ∀ r ∈ s.getFloorRequest k, r.isGranted = false) →
    ∀ r ∈ s.getFloorRequest floorRequestId, ∀ r' ∈ values s.floorRequests,
      r'.floorRequestId ≠ floorRequestId → r'.isGranted = true →
        ∀ floorId ∈ r.floorIds.toList, r'.hasFloorId floorId = false

/-- The listener returns to a grant and has left there what the grant looks at, and the floors
free. -/
def Undisturbed (m : Machine) : Input → Prop
  | .ret =>
    match m.calls with
    | .grant floorRequestId floorRequestsToRevoke :: _ =>
      ReadsThere m.server floorRequestId floorRequestsToRevoke ∧
        FloorsFree m.server floorRequestId floorRequestsToRevoke
    | _ => True
  | _ => True

instance decidableReadsThere (s : Server) (floorRequestId : Int) :
    (ids : List Int) → Decidable (ReadsThere s floorRequestId ids)
  | [] => inferInstanceAs (Decidable ((s.getFloorRequest floorRequestId).isSome = true))
  | k :: ids =>
    have := decidableReadsThere s floorRequestId ids
    inferInstanceAs (Decidable (∃ r ∈ s.getFloorRequest k,
      r.isGranted = true ∨ ReadsThere s floorRequestId ids))

instance (s : Server) (floorRequestId : Int) (ids : List Int) :
    Decidable (FloorsFree s floorRequestId ids) := by
  unfold FloorsFree
  infer_instance

instance (m : Machine) (input : Input) : Decidable (Undisturbed m input) := by
  unfold Undisturbed
  split
  · split <;> infer_instance
  · infer_instance

/-- A run does not fail, and when the outermost call has returned no floor is granted twice. -/
def Safe (conferenceId : Int) (inputs : List Input) : Prop :=
  ∃ m, inputs.foldlM step (⟨.new conferenceId, []⟩ : Machine) = some m ∧
    (m.calls = [] → FloorExclusion m.server)

/-! ### What a call keeps up to the next callback -/

section Calls

variable {s t : Server} {fs : List Frame}

/-- The server is as it should be, and calls wait for the listener only before it has ended. -/
structure Kept (s : Server) (calls : List Frame) : Prop where
  good : Good s
  running : calls ≠ [] → s.ending = false

theorem Kept.nil (h : Good s) : Kept s [] :=
  ⟨h, fun h => absurd rfl h⟩

theorem Kept.append {calls : List Frame} (h : Kept t fs) (hcalls : calls ≠ [] → t.ending = false) :
    Kept t (fs ++ calls) := by
  refine ⟨h.good, fun hne => ?_⟩
  by_cases hfs : fs = []
  · exact hcalls (by simpa [hfs] using hne)
  · exact h.running hfs

theorem toFloorControl_finish (after : After) :
    (finish s after).toFloorControl = s.toFloorControl := by
  cases after with
  | nothing | removeUser => rfl
  | userConnected userId transport =>
    exact (toFloorControl_updateUser _ _ _).trans (toFloorControl_closeTransport ..)
  | disconnectUser userId code reason => exact toFloorControl_closeTransport ..

theorem good_revokeFloorRequest (h : Good s) (floorRequestId : Int) (statusInfo : String) :
    Good (s.revokeFloorRequest floorRequestId statusInfo).1 :=
  h.of_removes ⟨_, removes_revokeFloorRequest ..⟩

theorem ending_revokeFloorRequest (floorRequestId : Int) (statusInfo : String) :
    (s.revokeFloorRequest floorRequestId statusInfo).1.ending = s.ending :=
  (removes_revokeFloorRequest ..).ending_eq

theorem kept_revokeFloorRequest (h : Good s) (floorRequestId : Int) (statusInfo : String) :
    Kept (revokeFloorRequest s floorRequestId statusInfo).1
      (revokeFloorRequest s floorRequestId statusInfo).2 := by
  refine ⟨good_revokeFloorRequest h .., fun hne => ?_⟩
  simp only [revokeFloorRequest] at hne ⊢
  split at hne
  case isTrue hok => simpa using (Bool.and_eq_true_iff.1 hok).2
  case isFalse => exact absurd rfl hne

theorem continueRevokeUser_spec (after : After) (ids : List Int) (h : Good s) :
    Kept (continueRevokeUser after s ids).1 (continueRevokeUser after s ids).2 ∧
      (continueRevokeUser after s ids).1.ending = s.ending := by
  induction ids generalizing s with
  | nil =>
    refine ⟨.nil (h.of_eq (toFloorControl_finish after)), ?_⟩
    exact congrArg FloorControl.ending (toFloorControl_finish after)
  | cons k ids ih =>
    rw [continueRevokeUser]
    split
    case h_1 => exact ih h
    case h_2 r hr =>
      have hrevoked := good_revokeFloorRequest h r.floorRequestId
        "FloorRequests from this user have been revoked or denied"
      have hending := ending_revokeFloorRequest (s := s) r.floorRequestId
        "FloorRequests from this user have been revoked or denied"
      have hdenied := removes_denyFloorRequest (s := s) r.floorRequestId
        "FloorRequests from this user have been revoked or denied"
      split
      case isTrue =>
        dsimp only
        split
        case isTrue => exact ⟨(ih hrevoked).1, (ih hrevoked).2.trans hending⟩
        case isFalse hrunning => exact ⟨⟨hrevoked, fun _ => by simpa using hrunning⟩, hending⟩
      case isFalse =>
        have hgood := h.of_removes ⟨_, hdenied⟩
        exact ⟨(ih hgood).1, (ih hgood).2.trans hdenied.ending_eq⟩

theorem kept_finishGrant (h : Good s) (hending : s.ending = false)
    (hfree : ∀ r ∈ s.getFloorRequest floorRequestId, ∀ r' ∈ values s.floorRequests,
      r'.floorRequestId ≠ floorRequestId → r'.isGranted = true →
        ∀ floorId ∈ r.floorIds.toList, r'.hasFloorId floorId = false)
    (hcall : finishGrant s floorRequestId = some (t, fs)) :
    Kept t fs ∧ t.ending = false := by
  rw [finishGrant] at hcall
  split at hcall
  case h_1 => cases hcall
  case h_2 r hr =>
    cases hcall
    have hcontrol : ∀ outputs, ((((s.setFloorRequest floorRequestId (r.setStatus .granted)).sendMessage
        (r.setStatus .granted).createFloorRequestStatus).notifyForFloorRequest
          (r.setStatus .granted)).emit outputs).toFloorControl =
        (s.setFloorRequest floorRequestId (r.setStatus .granted)).toFloorControl := by
      intro outputs
      rw [toFloorControl_emit, toFloorControl_notifyForFloorRequest, toFloorControl_sendMessage]
    have hdisjoint : ∀ j, j ≠ floorRequestId →
        Disjoint (s.holds j) {floorId | r.hasFloorId floorId = true} := by
      intro j hj
      rw [Set.disjoint_left]
      intro floorId hheld hfloor
      obtain ⟨r', hr', hgranted, hmem⟩ := hheld
      have hmine : floorId ∈ r.floorIds.toList := by
        rw [Std.TreeSet.mem_toList]
        exact Std.TreeSet.contains_iff_mem.1 hfloor
      rw [hfree r hr r' (mem_values_iff.2 ⟨j, hr'⟩) (h.inv.key_eq j r' hr' ▸ hj) hgranted floorId
        hmine] at hmem
      cases hmem
    have hinv := h.inv.insert (r := r.setStatus .granted) (h.inv.key_eq _ r hr) (.inl rfl)
      (h.inv.floors_mem _ r hr) fun _ => hdisjoint
    have hrunning := (congrArg FloorControl.ending (hcontrol
      [.onFloorGranted floorRequestId r.beneficiaryId r.floorIds.toList])).trans hending
    refine ⟨⟨.of_inv ?_ hrunning, fun _ => hrunning⟩, hrunning⟩
    rw [hcontrol]
    exact hinv

theorem isSome_continueGrant_iff (hending : s.ending = false) (floorRequestId : Int)
    (ids : List Int) :
    (continueGrant s floorRequestId ids).isSome ↔ ReadsThere s floorRequestId ids := by
  induction ids with
  | nil =>
    rw [continueGrant, finishGrant, ReadsThere]
    cases s.getFloorRequest floorRequestId <;> simp
  | cons k ids ih =>
    rw [continueGrant, ReadsThere]
    cases hr : s.getFloorRequest k with
    | none => simp
    | some r =>
      cases hgranted : r.isGranted with
      | false =>
        simp only [Option.mem_def, Option.some.injEq, exists_eq_left', hgranted,
          Bool.false_eq_true, false_or]
        exact ih
      | true =>
        have hrunning := ending_revokeFloorRequest (s := s) r.floorRequestId "granted to other user"
        simp only [hgranted, hrunning.trans hending]
        exact iff_of_true rfl ⟨r, rfl, .inl hgranted⟩

theorem kept_continueGrant (h : Good s) (hending : s.ending = false)
    {ids : List Int} (hfree : FloorsFree s floorRequestId ids)
    (hcall : continueGrant s floorRequestId ids = some (t, fs)) :
    Kept t fs ∧ t.ending = false := by
  induction ids with
  | nil => exact kept_finishGrant h hending (hfree fun k hk => nomatch hk) hcall
  | cons k ids ih =>
    rw [continueGrant] at hcall
    split at hcall
    case h_1 => cases hcall
    case h_2 r hr =>
      split at hcall
      case isTrue hgranted =>
        refine ih (fun hnone => hfree fun j hj r' hr' => ?_) hcall
        rcases List.mem_cons.1 hj with rfl | hj
        · rw [← Option.some.inj (hr.symm.trans hr')]
          simpa using hgranted
        · exact hnone j hj r' hr'
      case isFalse =>
        have hrunning := (ending_revokeFloorRequest (s := s) r.floorRequestId
          "granted to other user").trans hending
        dsimp only at hcall
        rw [hrunning, if_neg (by simp)] at hcall
        cases hcall
        exact ⟨⟨good_revokeFloorRequest h .., fun _ => hrunning⟩, hrunning⟩

theorem grantFloorRequest_start (h : Good s) {r : FloorRequest}
    (hr : s.getFloorRequest floorRequestId = some r) :
    let ids := (s.getFloorRequestsForFloors r.floorIds).map FloorRequest.floorRequestId
    ReadsThere s floorRequestId ids ∧ FloorsFree s floorRequestId ids := by
  dsimp only
  constructor
  · have hthere : ∀ k ∈ (s.getFloorRequestsForFloors r.floorIds).map FloorRequest.floorRequestId,
        ∃ r', s.getFloorRequest k = some r' := by
      intro k hk
      obtain ⟨r', hlisted, rfl⟩ := List.mem_map.1 hk
      obtain ⟨j, hj⟩ := mem_values_iff.1 (List.mem_filter.1 hlisted).1
      have hkey := h.inv.key_eq j r' hj
      exact ⟨r', hkey ▸ hj⟩
    generalize (s.getFloorRequestsForFloors r.floorIds).map FloorRequest.floorRequestId = ids at hthere
    induction ids with
    | nil => exact Option.isSome_iff_exists.2 ⟨r, hr⟩
    | cons k ids ih =>
      obtain ⟨r', hr'⟩ := hthere k (.head _)
      exact ⟨r', hr', .inr (ih fun j hj => hthere j (.tail _ hj))⟩
  · intro hnone r' hr' other hother hne hgranted floorId hfloor
    obtain rfl : r = r' := Option.some.inj (hr.symm.trans hr')
    cases hmem : other.hasFloorId floorId with
    | false => rfl
    | true =>
      have hlisted : other ∈ s.getFloorRequestsForFloors r.floorIds :=
        List.mem_filter.2 ⟨hother, List.any_eq_true.2 ⟨floorId, hfloor, hmem⟩⟩
      obtain ⟨j, hj⟩ := mem_values_iff.1 hother
      have hkey := h.inv.key_eq j other hj
      have hfalse := hnone j (List.mem_map.2 ⟨other, hlisted, hkey⟩) other hj
      rw [hgranted] at hfalse
      cases hfalse

theorem grantFloorRequest_spec (h : Good s) (floorRequestId : Int) :
    ∃ t fs, grantFloorRequest s floorRequestId = some (t, fs) ∧ Kept t fs ∧
      t.ending = s.ending := by
  unfold grantFloorRequest
  split
  case isTrue => exact ⟨s, [], rfl, .nil h, rfl⟩
  case isFalse hending =>
    have hrunning : s.ending = false := by simpa using hending
    split
    case h_1 => exact ⟨s, [], rfl, .nil h, rfl⟩
    case h_2 r hr =>
      split
      case isTrue => exact ⟨s, [], rfl, .nil h, rfl⟩
      case isFalse =>
        obtain ⟨hreads, hfree⟩ := grantFloorRequest_start h hr
        obtain ⟨⟨t, fs⟩, hcall⟩ :=
          Option.isSome_iff_exists.1 ((isSome_continueGrant_iff hrunning _ _).2 hreads)
        obtain ⟨hkept, ht⟩ := kept_continueGrant h hrunning hfree hcall
        exact ⟨t, fs, hcall, hkept, ht.trans hrunning.symm⟩

theorem exists_grantFloorRequest (h : Good s) (floorRequestId : Int) :
    ∃ t fs, grantFloorRequest s floorRequestId = some (t, fs) ∧ Kept t fs := by
  obtain ⟨t, fs, hcall, hkept, -⟩ := grantFloorRequest_spec h floorRequestId
  exact ⟨t, fs, hcall, hkept⟩

theorem kept_revokeUserFloorRequests (h : Good s) (userId : Int) (after : After) :
    Kept (revokeUserFloorRequests s userId after).1 (revokeUserFloorRequests s userId after).2 :=
  (continueRevokeUser_spec after _ h).1

theorem kept_removeUser (h : Good s) (userId : Int) :
    Kept (removeUser s userId).1 (removeUser s userId).2 := by
  unfold removeUser
  split
  · exact .nil h
  · split
    · exact .nil h
    · refine kept_revokeUserFloorRequests ?_ _ _
      exact h.of_eq rfl

theorem kept_userConnected (h : Good s) (userId : Int) (transport : Nat) :
    Kept (userConnected s userId transport).1 (userConnected s userId transport).2 := by
  unfold userConnected
  split
  · exact .nil h
  · split
    · exact .nil h
    · split
      · refine kept_revokeUserFloorRequests ?_ _ _
        exact h.of_eq rfl
      · exact .nil (h.of_eq rfl)

theorem kept_userDisconnected (h : Good s) (userId : Int) (closedByServer : Bool) :
    Kept (userDisconnected s userId closedByServer).1
      (userDisconnected s userId closedByServer).2 := by
  unfold userDisconnected
  split
  · exact .nil h
  · split
    · exact .nil h
    · dsimp only
      split
      · exact .nil (h.of_eq rfl)
      · refine kept_revokeUserFloorRequests ?_ _ _
        exact h.of_eq rfl

theorem kept_disconnectUser (h : Good s) (userId : Int) (code : Nat) (reason : String) :
    Kept (disconnectUser s userId code reason).1 (disconnectUser s userId code reason).2 := by
  unfold disconnectUser
  split
  · exact .nil h
  · split
    · exact .nil h
    · refine kept_revokeUserFloorRequests ?_ _ _
      exact h.of_eq rfl

theorem processFloorRequest_spec (h : Good s) (hending : s.ending = false) (header : CommonHeader)
    (floorIds : List Int) (beneficiaryId : Option Int) (user : User) :
    ∃ t fs, processFloorRequest s header floorIds beneficiaryId user = some (t, fs) ∧
      Kept t fs := by
  unfold processFloorRequest
  split
  · exact ⟨_, _, rfl, .nil (h.of_eq (toFloorControl_replyError ..))⟩
  case isFalse hfloors =>
    split
    · exact ⟨_, _, rfl, .nil (h.of_eq (toFloorControl_replyError ..))⟩
    · have hall : ∀ floorId ∈ floorIds, s.floors.contains floorId = true := by
        simpa [hasFloor] using hfloors
      dsimp only
      split
      · refine exists_grantFloorRequest (.of_inv ?_ ?_) _ <;> rw [toFloorControl_sendMessage]
        · exact inv_newFloorRequest h.inv hall rfl rfl rfl
        · exact hending
      · refine ⟨_, _, rfl, .of_inv ?_ ?_, fun _ => ?_⟩ <;>
          rw [toFloorControl_emit, toFloorControl_sendMessage]
        · exact inv_newFloorRequest h.inv hall rfl rfl rfl
        · exact hending
        · exact hending

theorem messageReceived_spec (h : Good s) (msg : RequestMessage) :
    ∃ t fs, messageReceived s msg = some (t, fs) ∧ Kept t fs := by
  unfold messageReceived
  split
  case isTrue => exact ⟨s, [], rfl, .nil h⟩
  case isFalse hending =>
    have hrunning : s.ending = false := by simpa using hending
    split
    · exact processFloorRequest_spec h hrunning ..
    · obtain ⟨p, hp⟩ := exists_removes_processFloorRelease (s := s) msg.header _ _
      exact ⟨_, _, rfl, h.of_removes ⟨p, hp⟩, fun _ => hp.ending_eq.trans hrunning⟩
    · exact ⟨_, _, rfl, .nil (good_messageReceived h msg)⟩

theorem act_spec (h : Good s) (a : Action) :
    ∃ t fs, act s a = some (t, fs) ∧ Kept t fs := by
  cases a with
  | removeUser userId => exact ⟨_, _, rfl, kept_removeUser h userId⟩
  | grantFloorRequest floorRequestId => exact exists_grantFloorRequest h floorRequestId
  | revokeFloorRequest floorRequestId statusInfo =>
    exact ⟨_, _, rfl, kept_revokeFloorRequest h floorRequestId statusInfo⟩
  | userConnected userId transport => exact ⟨_, _, rfl, kept_userConnected h userId transport⟩
  | userDisconnected userId closedByServer =>
    exact ⟨_, _, rfl, kept_userDisconnected h userId closedByServer⟩
  | disconnectUser userId code reason =>
    exact ⟨_, _, rfl, kept_disconnectUser h userId code reason⟩
  | messageReceived msg => exact messageReceived_spec h msg
  | addUser userId => exact ⟨_, _, rfl, .nil (good_step h (.addUser userId))⟩
  | setChair userId => exact ⟨_, _, rfl, .nil (good_step h (.setChair userId))⟩
  | addFloor floorId => exact ⟨_, _, rfl, .nil (good_step h (.addFloor floorId))⟩
  | denyFloorRequest floorRequestId statusInfo =>
    exact ⟨_, _, rfl, .nil (good_step h (.denyFloorRequest floorRequestId statusInfo))⟩
  | end_ => exact ⟨_, _, rfl, .nil (good_step h .end_)⟩

theorem call_spec (h : Good s) (c : Call) :
    ∃ t fs, act s c.toAction = some (t, fs) ∧ Kept t fs ∧ t.ending = s.ending := by
  cases c with
  | grant floorRequestId => exact grantFloorRequest_spec h floorRequestId
  | deny floorRequestId statusInfo =>
    have hdenied := removes_denyFloorRequest (s := s) floorRequestId statusInfo
    exact ⟨_, _, rfl, .nil (h.of_removes ⟨_, hdenied⟩), hdenied.ending_eq⟩
  | revoke floorRequestId statusInfo =>
    exact ⟨_, _, rfl, kept_revokeFloorRequest h floorRequestId statusInfo,
      ending_revokeFloorRequest ..⟩

end Calls

/-- **Step lemma.** From a state that is as it should be, an input that leaves alone what a grant
looks at does not fail, and the state it leads to is as it should be. -/
theorem step_spec {m : Machine} (h : Kept m.server m.calls) {input : Input}
    (hundisturbed : Undisturbed m input) : ∃ n, m.step input = some n ∧ Kept n.server n.calls := by
  cases input with
  | act a =>
    rw [step]
    split
    case isTrue =>
      obtain ⟨t, fs, hcall, hkept⟩ := act_spec h.good a
      exact ⟨⟨t, fs⟩, by rw [hcall]; rfl, hkept⟩
    case isFalse => exact ⟨m, rfl, h⟩
  | call c =>
    rw [step]
    split
    case isTrue => exact ⟨m, rfl, h⟩
    case isFalse hwaiting =>
      obtain ⟨t, fs, hcall, hkept, hending⟩ := call_spec h.good c
      have hrunning := h.running (by simpa using hwaiting)
      exact ⟨⟨t, fs ++ m.calls⟩, by rw [hcall]; rfl, hkept.append fun _ => hending.trans hrunning⟩
  | ret =>
    rw [step]
    split
    case h_1 => exact ⟨m, rfl, h⟩
    case h_2 frame calls hcalls =>
      have hrunning := h.running (by simp [hcalls])
      cases frame with
      | done =>
        exact ⟨⟨m.server, calls⟩, rfl, h.good, fun _ => hrunning⟩
      | grant floorRequestId floorRequestsToRevoke =>
        rw [Undisturbed, hcalls] at hundisturbed
        obtain ⟨hreads, hfree⟩ := hundisturbed
        obtain ⟨⟨t, fs⟩, hcall⟩ :=
          Option.isSome_iff_exists.1 ((isSome_continueGrant_iff hrunning _ _).2 hreads)
        obtain ⟨hkept, hending⟩ := kept_continueGrant h.good hrunning hfree hcall
        exact ⟨⟨t, fs ++ calls⟩, by rw [resume, hcall]; rfl, hkept.append fun _ => hending⟩
      | revokeUser userFloorRequests after =>
        obtain ⟨hkept, hending⟩ := continueRevokeUser_spec after userFloorRequests h.good
        exact ⟨_, rfl, hkept.append fun _ => hending.trans hrunning⟩

/-- **Safety of a listener that calls back.** In a run in which the listener, whenever it returns to
a grant, has left there the requests the grant looks at and its floors free, no call looks at a
request that is gone, and no floor is granted twice. -/
theorem safe_of_undisturbed (conferenceId : Int) (inputs : List Input)
    (hundisturbed : MeetsM step Undisturbed (⟨.new conferenceId, []⟩ : Machine) inputs) :
    Safe conferenceId inputs := by
  obtain ⟨m, hrun, hkept⟩ := exists_foldlM_of_meetsM (I := fun m => Kept m.server m.calls)
    (fun m input h hinput => step_spec h hinput) (.nil (good_new conferenceId)) inputs hundisturbed
  exact ⟨m, hrun, fun _ => hkept.good.exclusive⟩

/-- A user asks for the floor. -/
def askFloor (userId : Int) : Input :=
  .act (.messageReceived { header := ⟨1, 1, userId⟩, body := .floorRequest [1] none })

/-- The listener grants the floor to the first who asks, and leaves the rest to the chair. -/
theorem safe_takenFromFirst : Safe 1 [.act (.addFloor 1), .act (.addUser 1), .act (.addUser 2),
    askFloor 1, .call (.grant 1), .ret, .ret, askFloor 2, .ret, .act (.grantFloorRequest 2), .ret,
    .ret] := by
  exact safe_of_undisturbed 1 _ (by decide)

/-- Two users ask for a floor; the first has it, and when it is taken from him the listener denies
the request the floor is taken for. -/
def deniesWhileGranting : List Input :=
  [.act (.addFloor 1), .act (.addUser 1), .act (.addUser 2), askFloor 1, .call (.grant 1),
    .ret, .ret, askFloor 2, .ret, .act (.grantFloorRequest 2), .call (.deny 2 ""), .ret]

/-- The grant then changes a request that is gone. -/
theorem not_safe_deniesWhileGranting : ¬ Safe 1 deniesWhileGranting := by
  rintro ⟨m, hrun, -⟩
  have hfails : (deniesWhileGranting.foldlM step (⟨.new 1, []⟩ : Machine)).isNone = true := by
    decide
  rw [hrun] at hfails
  cases hfails

end Machine

end Bfcp

end McuMediaServer
