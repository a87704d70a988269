import McuMediaServer.Bfcp.Reentrant

/-!
# The floors of a conference and its application mixer

A conference has a floor for the presenter (1) and one for the editor (2), and is the listener of
its floor control server. When it is told that a request was granted or released it sets the
presenter and the editor of its application mixer, and may call the server back: it decides a new
request at once, and takes the editor floor away when the presenter changes. So a call of the server
and the callbacks in it are one function here (`Floors.step`).

As long as the server has not ended, the mixer has the beneficiary of the request that owns the
floor, and nobody when there is none (`Floors.Tracks`). `End` revokes without telling the listener,
and leaves the mixer as it was.
-/

namespace McuMediaServer

namespace MultiConf

open Bfcp OrderedMap StepRun

/-- Who presents and who edits, 0 for nobody. Reference: `AppMixer` (`appmixer.h:109`). -/
structure AppMixer where
  presenterId : Int := 0
  editorId : Int := 0

/-- Reference: `AppMixer::SetPresenter` (`appmixer.cpp:213`). -/
def AppMixer.setPresenter (mixer : AppMixer) (partId : Int) : AppMixer :=
  { mixer with presenterId := partId }

/-- Reference: `AppMixer::SetEditor` (`appmixer.cpp:255`). -/
def AppMixer.setEditor (mixer : AppMixer) (partId : Int) : AppMixer :=
  { mixer with editorId := partId }

/-- What a conference keeps of its floors. -/
structure Floors where
  server : Server
  chairId : Int := 0
  appMixer : AppMixer := {}

/-- Reference: `multiconf.cpp:150`. -/
def presenterFloor : Int := 1

/-- Reference: `multiconf.cpp:151`. -/
def editorFloor : Int := 2

variable {r : FloorRequest} {p : Int → FloorRequest → Bool}

namespace Floors

/-- What both callbacks do, with who has the floors now: set the presenter, take the editor floor
away unless the request is for it too, and set the editor. `revoke` is the call of the server.
Reference: `multiconf.cpp:2289` and `:2325`. -/
def follow (revoke : Floors → Int → Floors) (c : Floors) (floorIds : Std.TreeSet Int)
    (partId : Int) : Floors :=
  let c :=
    if floorIds.contains presenterFloor then
      let c := { c with appMixer := c.appMixer.setPresenter partId }
      if !floorIds.contains editorFloor then
        let editorRequestId := c.server.getGrantedFloorRequestId editorFloor
        if editorRequestId ≠ 0 then revoke c editorRequestId else c
      else c
    else c
  if floorIds.contains editorFloor then
    { c with appMixer := c.appMixer.setEditor partId }
  else c

/-- Reference: `MultiConf::onFloorReleased` (`multiconf.cpp:2320`). -/
def onFloorReleased (revoke : Floors → Int → Floors) (c : Floors) (floorIds : Std.TreeSet Int) :
    Floors :=
  follow revoke c floorIds 0

/-- `RevokeFloorRequest` with the callback in it. A revoked request is gone when the listener is
told, so there are at most as many calls in each other as there are requests (`fuel`). Reference:
`BFCPFloorControlServer.cpp:321`. -/
def revokeWithin : Nat → Floors → Int → String → Floors
  | 0, c, _, _ => c
  | fuel + 1, c, floorRequestId, statusInfo =>
    match c.server.getFloorRequest floorRequestId with
    | none => c
    | some r =>
      if !r.isGranted then c
      else
        let c := { c with server := (c.server.revokeFloorRequest floorRequestId statusInfo).1 }
        if c.server.ending then c
        else
          onFloorReleased (fun c floorRequestId => revokeWithin fuel c floorRequestId "") c
            r.floorIds

/-- Reference: `BFCPFloorControlServer.cpp:321`, `RevokeFloorRequest`. -/
def revokeFloorRequest (c : Floors) (floorRequestId : Int) (statusInfo : String := "") : Floors :=
  revokeWithin c.server.floorRequests.size c floorRequestId statusInfo

/-- Reference: `MultiConf::onFloorGranted` (`multiconf.cpp:2285`). -/
def onFloorGranted (c : Floors) (beneficiaryId : Int) (floorIds : Std.TreeSet Int) : Floors :=
  follow (fun c floorRequestId => c.revokeFloorRequest floorRequestId) c floorIds beneficiaryId

/-- Reference: `BFCPFloorControlServer.cpp:262`, `DenyFloorRequest`. -/
def denyFloorRequest (c : Floors) (floorRequestId : Int) (statusInfo : String := "") : Floors :=
  { c with server := (c.server.denyFloorRequest floorRequestId statusInfo).1 }

/-- Revoke those of the requests found that are granted. One that the listener has revoked before
its turn is not granted any more. Reference: `BFCPFloorControlServer.cpp:207`. -/
def revokeGranted (c : Floors) (floorRequestsToRevoke : List Int) : Floors :=
  floorRequestsToRevoke.foldl (fun c k =>
    match c.server.getFloorRequest k with
    | none => c
    | some r =>
      if r.isGranted then c.revokeFloorRequest r.floorRequestId "granted to other user" else c) c

/-- Reference: `BFCPFloorControlServer.cpp:186`, `GrantFloorRequest`. -/
def grantFloorRequest (c : Floors) (floorRequestId : Int) : Floors :=
  if c.server.ending then c
  else
    match c.server.getFloorRequest floorRequestId with
    | none => c
    | some r =>
      if !r.canBeGranted then c
      else
        let c := c.revokeGranted
          ((c.server.getFloorRequestsForFloors r.floorIds).map FloorRequest.floorRequestId)
        let r := r.setStatus .granted
        let s := c.server.setFloorRequest floorRequestId r
        let s := s.sendMessage r.createFloorRequestStatus
        let s := s.notifyForFloorRequest r
        let s := s.emit [.onFloorGranted floorRequestId r.beneficiaryId r.floorIds.toList]
        onFloorGranted { c with server := s } r.beneficiaryId r.floorIds

/-- Reference: `MultiConf::onFloorRequest` (`multiconf.cpp:2267`). -/
def onFloorRequest (c : Floors) (floorRequestId userId : Int) : Floors :=
  if userId = c.chairId ∨ userId = c.appMixer.presenterId then c.grantFloorRequest floorRequestId
  else c.denyFloorRequest floorRequestId

/-- Revoke or deny the requests a user benefits from. Reference: `BFCPFloorControlServer.cpp:800`,
`RevokeUserFloorRequests`. -/
def revokeUserFloorRequests (c : Floors) (userId : Int) : Floors :=
  let userFloorRequests := (values c.server.floorRequests).filterMap fun r =>
    if r.beneficiaryId = userId then some r.floorRequestId else none
  let statusInfo := "FloorRequests from this user have been revoked or denied"
  userFloorRequests.foldl (fun c k =>
    match c.server.getFloorRequest k with
    | none => c
    | some r =>
      if r.isGranted then c.revokeFloorRequest r.floorRequestId statusInfo
      else c.denyFloorRequest r.floorRequestId statusInfo) c

/-- Go through the requests of a user and do what is left of the call. -/
def leave (c : Floors) (s : Server) (userId : Int) (after : After) : Floors :=
  let c := { c with server := s }.revokeUserFloorRequests userId
  { c with server := Machine.finish c.server after }

/-- Reference: `BFCPFloorControlServer.cpp:87`, `RemoveUser`. -/
def removeUser (c : Floors) (userId : Int) : Floors :=
  if c.server.ending then c
  else
    match c.server.getUser userId with
    | none => c
    | some user =>
      c.leave { c.server with users := c.server.users.erase userId } userId (.removeUser user)

/-- Reference: `BFCPFloorControlServer.cpp:484`, `UserConnected`. -/
def userConnected (c : Floors) (userId : Int) (transport : Nat) : Floors :=
  if c.server.ending then c
  else
    match c.server.getUser userId with
    | none => c
    | some user =>
      if user.isConnected then
        c.leave (c.server.updateUser userId User.resetQueriedFloorIds) userId
          (.userConnected userId transport)
      else
        { c with server := c.server.updateUser userId fun user =>
            { user with transport := some transport } }

/-- Reference: `BFCPFloorControlServer.cpp:525`, `UserDisconnected`. -/
def userDisconnected (c : Floors) (userId : Int) (closedByServer : Bool) : Floors :=
  match c.server.getUser userId with
  | none => c
  | some _ =>
    if closedByServer then c
    else
      let s := c.server.updateUser userId fun user => { user with transport := none }
      let s := s.updateUser userId User.resetQueriedFloorIds
      if s.ending then { c with server := s } else c.leave s userId .nothing

/-- Reference: `BFCPFloorControlServer.cpp:561`, `DisconnectUser`. -/
def disconnectUser (c : Floors) (userId : Int) (code : Nat) (reason : String) : Floors :=
  if c.server.ending then c
  else
    match c.server.getUser userId with
    | none => c
    | some _ =>
      c.leave (c.server.updateUser userId User.resetQueriedFloorIds) userId
        (.disconnectUser userId code reason)

/-- Reference: `BFCPFloorControlServer.cpp:847`, `ProcessFloorRequest`. -/
def processFloorRequest (c : Floors) (header : CommonHeader) (floorIds : List Int)
    (beneficiaryId : Option Int) (user : User) : Floors :=
  let s := c.server
  if !floorIds.all s.hasFloor then
    { c with server := s.replyError header .invalidFloorId "requested floor does not exist" }
  else if !beneficiaryId.all s.hasUser then
    { c with server := s.replyError header .userDoesNotExist "beneficiary does not exist" }
  else
    let floorRequestId := s.floorRequestCounter
    let s := { s with floorRequestCounter := Server.nextCounter floorRequestId }
    let r := FloorRequest.new floorRequestId header.userId s.conferenceId
    let r := { r with beneficiaryId := beneficiaryId.getD r.beneficiaryId }
    let r := floorIds.foldl FloorRequest.addFloorId r
    let s := s.setFloorRequest floorRequestId r
    let s := s.sendMessage (r.createFloorRequestStatus header.transactionId)
    if user.isChair then
      { c with server := s }.grantFloorRequest floorRequestId
    else
      let s := s.emit [.onFloorRequest floorRequestId r.userId r.beneficiaryId r.floorIds.toList]
      { c with server := s }.onFloorRequest floorRequestId r.userId

/-- The listener is told when the request was granted. Reference: `BFCPFloorControlServer.cpp:907`,
`ProcessFloorRelease`. -/
def processFloorRelease (c : Floors) (header : CommonHeader) (floorRequestId : Int) (user : User) :
    Floors :=
  let released := { c with server := c.server.processFloorRelease header floorRequestId user }
  match c.server.getFloorRequest floorRequestId with
  | none => released
  | some r =>
    if Machine.releasesGranted c.server floorRequestId user then
      onFloorReleased (fun c floorRequestId => c.revokeFloorRequest floorRequestId) released
        r.floorIds
    else released

/-- Reference: `BFCPFloorControlServer.cpp:596`, `MessageReceived`. -/
def messageReceived (c : Floors) (msg : RequestMessage) : Floors :=
  if c.server.ending then c
  else
    match c.server.getUser msg.header.userId, msg.body with
    | some user, .floorRequest floorIds beneficiaryId =>
      c.processFloorRequest msg.header floorIds beneficiaryId user
    | some user, .floorRelease floorRequestId =>
      c.processFloorRelease msg.header floorRequestId user
    | _, _ => { c with server := c.server.messageReceived msg }

/-- What is done to the floor control server, and the conference naming its chair. A participant
that is created or deleted is a user that is added or removed. -/
inductive Op where
  | floor (a : Action)
  | setChair (partId : Int)

/-- One call, with the callbacks in it. Reference: `MultiConf::SetChair` (`multiconf.cpp:696`). -/
def step (c : Floors) : Op → Floors
  | .setChair partId => { c with chairId := partId, server := (c.server.setChair partId).1 }
  | .floor (.removeUser userId) => c.removeUser userId
  | .floor (.grantFloorRequest floorRequestId) => c.grantFloorRequest floorRequestId
  | .floor (.denyFloorRequest floorRequestId statusInfo) =>
    c.denyFloorRequest floorRequestId statusInfo
  | .floor (.revokeFloorRequest floorRequestId statusInfo) =>
    c.revokeFloorRequest floorRequestId statusInfo
  | .floor (.userConnected userId transport) => c.userConnected userId transport
  | .floor (.userDisconnected userId closedByServer) => c.userDisconnected userId closedByServer
  | .floor (.disconnectUser userId code reason) => c.disconnectUser userId code reason
  | .floor (.messageReceived msg) => c.messageReceived msg
  | .floor a => { c with server := c.server.step a }

/-- A conference whose floor control server is new. -/
def new (conferenceId : Int) : Floors where
  server := .new conferenceId

/-- `partId` is the beneficiary of the request that owns the floor, or 0 when there is none. -/
structure Follows (s : Server) (floorId partId : Int) : Prop where
  held : ∀ (k : Int) r, s.floorRequests[k]? = some r → r.isGranted = true →
    r.hasFloorId floorId = true → partId = r.beneficiaryId
  free : (∀ (k : Int) r, s.floorRequests[k]? = some r → r.isGranted = true →
    r.hasFloorId floorId = false) → partId = 0

/-- The application mixer has the owners of the two floors. -/
structure Tracks (c : Floors) : Prop where
  presenter : Follows c.server presenterFloor c.appMixer.presenterId
  editor : Follows c.server editorFloor c.appMixer.editorId

/-! ### Who owns a floor when requests come and go -/

section Follows

variable {s t : Server} {floorId partId : Int}

theorem Follows.congr (h : Follows s floorId partId)
    (heq : ∀ (k : Int) r, r.isGranted = true →
      (t.floorRequests[k]? = some r ↔ s.floorRequests[k]? = some r)) :
    Follows t floorId partId where
  held k r hr hgranted := h.held k r ((heq k r hgranted).1 hr) hgranted
  free hnone := h.free fun k r hr hgranted => hnone k r ((heq k r hgranted).2 hr) hgranted

theorem Follows.of_removes (h : Follows s floorId partId)
    (hremoves : Removes s.toFloorControl t.toFloorControl p)
    (hp : ∀ k r, p k r = true → r.isGranted = false) : Follows t floorId partId := by
  refine h.congr fun k r hgranted => ⟨fun hr => (hremoves.of_getElem? hr).1, fun hr => ?_⟩
  refine hremoves.getElem?_of_not hr ?_
  cases hk : p k r with
  | false => rfl
  | true => rw [hp k r hk] at hgranted; cases hgranted

theorem Follows.of_owner (hgood : Server.Good s) (h : Follows s floorId partId) {k : Int}
    (hr : s.floorRequests[k]? = some r) (hgranted : r.isGranted = true)
    (hremoves : Removes s.toFloorControl t.toFloorControl p)
    (hp : ∀ j r', r'.isGranted = true → (p j r' = true ↔ j = k)) :
    Follows t floorId (if r.hasFloorId floorId then 0 else partId) := by
  split
  case isTrue hfloor =>
    refine ⟨fun j r' hr' hgranted' hfloor' => ?_, fun _ => rfl⟩
    obtain ⟨hold, hkept⟩ := hremoves.of_getElem? hr'
    have hjk := hgood.exclusive.unique floorId j k r' r hold hgranted' hfloor' hr hgranted hfloor
    rw [(hp j r' hgranted').2 hjk] at hkept
    cases hkept
  case isFalse hfloor =>
    refine ⟨fun j r' hr' => h.held j r' (hremoves.of_getElem? hr').1, fun hnone => h.free ?_⟩
    intro j r' hr' hgranted'
    by_cases hjk : j = k
    · subst hjk
      rw [← Option.some.inj (hr.symm.trans hr')]
      simpa using hfloor
    · refine hnone j r' (hremoves.getElem?_of_not hr' ?_) hgranted'
      simpa using fun hpj => hjk ((hp j r' hgranted').1 hpj)

theorem Follows.setFloorRequest (h : Follows s floorId partId) {k : Int}
    (hgranted : r.isGranted = true)
    (hold : ∀ r', s.floorRequests[k]? = some r' → r'.isGranted = false)
    (hfree : ∀ j, j ≠ k → Disjoint (s.holds j) {floorId | r.hasFloorId floorId = true}) :
    Follows (s.setFloorRequest k r) floorId
      (if r.hasFloorId floorId then r.beneficiaryId else partId) := by
  have hget : ∀ (j : Int) r', (s.setFloorRequest k r).floorRequests[j]? = some r' ↔
      (j = k ∧ r = r') ∨ (j ≠ k ∧ s.floorRequests[j]? = some r') := by
    intro j r'
    rw [Server.setFloorRequest, getElem?_insert_ite]
    split
    case isTrue hj => simp [hj]
    case isFalse hj => simp [hj]
  have hself : (s.setFloorRequest k r).floorRequests[k]? = some r := (hget k r).2 (.inl ⟨rfl, rfl⟩)
  split
  case isTrue hfloor =>
    refine ⟨fun j r' hr' hgranted' hfloor' => ?_, fun hnone => ?_⟩
    · rcases (hget j r').1 hr' with ⟨-, rfl⟩ | ⟨hj, hr'⟩
      · rfl
      · exact absurd hfloor (Set.disjoint_left.1 (hfree j hj) ⟨r', hr', hgranted', hfloor'⟩)
    · rw [hnone k r hself hgranted] at hfloor
      cases hfloor
  case isFalse hfloor =>
    refine ⟨fun j r' hr' hgranted' hfloor' => ?_, fun hnone => h.free fun j r' hr' hgranted' => ?_⟩
    · rcases (hget j r').1 hr' with ⟨-, rfl⟩ | ⟨-, hr'⟩
      · exact absurd hfloor' hfloor
      · exact h.held j r' hr' hgranted' hfloor'
    · refine hnone j r' ((hget j r').2 (.inr ⟨?_, hr'⟩)) hgranted'
      rintro rfl
      rw [hold r' hr'] at hgranted'
      cases hgranted'

end Follows

/-! ### The callbacks -/

/-- Some granted requests went, and nothing else of the server changed. -/
def RemovesGranted (s t : Server) : Prop :=
  ∃ p, Removes s.toFloorControl t.toFloorControl p ∧ ∀ k r, p k r = true → r.isGranted = true

theorem RemovesGranted.refl (s : Server) : RemovesGranted s s :=
  ⟨_, .refl _, nofun⟩

theorem RemovesGranted.trans {s t u : Server} (h : RemovesGranted s t) (h' : RemovesGranted t u) :
    RemovesGranted s u := by
  obtain ⟨p, hp, hgranted⟩ := h
  obtain ⟨q, hq, hgranted'⟩ := h'
  refine ⟨_, hp.trans hq, fun k r hpq => ?_⟩
  rcases Bool.or_eq_true_iff.1 hpq with h | h
  · exact hgranted k r h
  · exact hgranted' k r h

theorem RemovesGranted.of_getElem? {s t : Server} (h : RemovesGranted s t) {k : Int}
    (hr : t.floorRequests[k]? = some r) : s.floorRequests[k]? = some r := by
  obtain ⟨p, hp, -⟩ := h
  exact (hp.of_getElem? hr).1

/-- What holds of a conference between two calls while its server runs. -/
structure Inv (c : Floors) : Prop where
  good : Server.Good c.server
  running : c.server.ending = false
  tracks : Tracks c

/-- What a call that revokes must do for the callbacks that make it. -/
def Revokes (revoke : Floors → Int → Floors) (c : Floors) : Prop :=
  ∀ c' k, c'.server = c.server → Inv c' → Inv (revoke c' k) ∧ RemovesGranted c.server (revoke c' k).server

/-- After the callback the mixer has the owners of the floors, when the floors the callback is about
went to `partId` and the mixer has the owners of the others. -/
theorem follow_spec {revoke : Floors → Int → Floors} {c : Floors} {floorIds : Std.TreeSet Int}
    (partId : Int) (hrevoke : Revokes revoke c) (hgood : Server.Good c.server)
    (hrunning : c.server.ending = false)
    (hpresenter : Follows c.server presenterFloor
      (if floorIds.contains presenterFloor then partId else c.appMixer.presenterId))
    (heditor : Follows c.server editorFloor
      (if floorIds.contains editorFloor then partId else c.appMixer.editorId)) :
    Inv (follow revoke c floorIds partId) ∧
      RemovesGranted c.server (follow revoke c floorIds partId).server := by
  unfold follow
  by_cases h1 : floorIds.contains presenterFloor = true <;>
    by_cases h2 : floorIds.contains editorFloor = true
  · simp only [h1, h2, if_true, Bool.not_true, Bool.false_eq_true, if_false] at hpresenter heditor ⊢
    exact ⟨⟨hgood, hrunning, hpresenter, heditor⟩, .refl _⟩
  · simp only [h1, h2, if_true, Bool.not_false, Bool.false_eq_true, if_false] at hpresenter heditor ⊢
    have hinv : Inv { c with appMixer := c.appMixer.setPresenter partId } :=
      ⟨hgood, hrunning, hpresenter, heditor⟩
    split
    · exact hrevoke _ _ rfl hinv
    · exact ⟨hinv, .refl _⟩
  · simp only [h1, h2, if_true, Bool.false_eq_true, if_false] at hpresenter heditor ⊢
    exact ⟨⟨hgood, hrunning, hpresenter, heditor⟩, .refl _⟩
  · simp only [h1, h2, Bool.false_eq_true, if_false] at hpresenter heditor ⊢
    exact ⟨⟨hgood, hrunning, hpresenter, heditor⟩, .refl _⟩

/-! ### Revoking, granting, denying -/

section Calls

variable {c : Floors}

theorem size_revokeFloorRequest_lt {s : Server} {floorRequestId : Int}
    (hgood : Server.Good s) (hr : s.getFloorRequest floorRequestId = some r)
    (hgranted : r.isGranted = true) (statusInfo : String) :
    (s.revokeFloorRequest floorRequestId statusInfo).1.floorRequests.size <
      s.floorRequests.size := by
  obtain rfl := hgood.inv.key_eq _ r hr
  have hlt := Server.size_revokeOrDeny_lt hr (.inl hgranted) statusInfo
  rwa [Server.revokeOrDeny, if_pos hgranted] at hlt

/-- **Revoking.** The mixer follows, whatever the callbacks revoke in turn, and the request is gone
if it was granted. -/
theorem revokeWithin_spec (fuel : Nat) (hsize : c.server.floorRequests.size ≤ fuel) (h : Inv c)
    (floorRequestId : Int) (statusInfo : String) :
    Inv (revokeWithin fuel c floorRequestId statusInfo) ∧
      RemovesGranted c.server (revokeWithin fuel c floorRequestId statusInfo).server ∧
      ∀ r, (revokeWithin fuel c floorRequestId statusInfo).server.getFloorRequest floorRequestId =
        some r → r.isGranted = false := by
  induction fuel generalizing c floorRequestId statusInfo with
  | zero =>
    refine ⟨h, .refl _, fun r hr => ?_⟩
    have hmem : c.server.floorRequests.contains floorRequestId = true := contains_of_getElem? hr
    rw [Std.TreeMap.contains_of_isEmpty] at hmem
    · cases hmem
    · rw [Std.TreeMap.isEmpty_eq_size_eq_zero, Nat.le_zero.1 hsize]
      rfl
  | succ fuel ih =>
    rw [revokeWithin]
    split
    case h_1 hnone => exact ⟨h, .refl _, fun r hr => by rw [hnone] at hr; cases hr⟩
    case h_2 r hr =>
      split
      case isTrue hgranted =>
        refine ⟨h, .refl _, fun r' hr' => ?_⟩
        rw [← Option.some.inj (hr.symm.trans hr')]
        simpa using hgranted
      case isFalse hgranted =>
        have hgranted : r.isGranted = true := by simpa using hgranted
        have hremoves := Server.removes_revokeFloorRequest (s := c.server) floorRequestId statusInfo
        have hgood := h.good.of_removes ⟨_, hremoves⟩
        have hrunning := hremoves.ending_eq.trans h.running
        have hp : ∀ j (r' : FloorRequest), r'.isGranted = true →
            ((decide (j = floorRequestId) && r'.isGranted) = true ↔ j = floorRequestId) := by
          intro j r' hgranted'
          simp [hgranted']
        have hfirst : RemovesGranted c.server
            (c.server.revokeFloorRequest floorRequestId statusInfo).1 :=
          ⟨_, hremoves, fun k r' hk => (Bool.and_eq_true_iff.1 hk).2⟩
        have hrevoke : Revokes (fun c floorRequestId => revokeWithin fuel c floorRequestId "")
            { c with server := (c.server.revokeFloorRequest floorRequestId statusInfo).1 } := by
          rintro c' k hserver hinv
          have hlt := size_revokeFloorRequest_lt h.good hr hgranted statusInfo
          have hfuel : c'.server.floorRequests.size ≤ fuel := by
            rw [hserver]
            exact Nat.le_of_lt_succ (hlt.trans_le hsize)
          obtain ⟨hinv', hremoves', -⟩ := ih hfuel hinv k ""
          exact ⟨hinv', hserver ▸ hremoves'⟩
        obtain ⟨hinv, hrest⟩ := follow_spec 0 hrevoke hgood hrunning
          (h.tracks.presenter.of_owner h.good hr hgranted hremoves hp)
          (h.tracks.editor.of_owner h.good hr hgranted hremoves hp)
        dsimp only
        rw [hrunning, if_neg (by simp)]
        refine ⟨hinv, hfirst.trans hrest, fun r' hr' => ?_⟩
        have hkept := (hremoves.of_getElem? (hrest.of_getElem? hr')).2
        simpa using hkept

theorem revokeFloorRequest_spec (h : Inv c) (floorRequestId : Int) (statusInfo : String) :
    Inv (c.revokeFloorRequest floorRequestId statusInfo) ∧
      RemovesGranted c.server (c.revokeFloorRequest floorRequestId statusInfo).server ∧
      ∀ r, (c.revokeFloorRequest floorRequestId statusInfo).server.getFloorRequest floorRequestId =
        some r → r.isGranted = false :=
  revokeWithin_spec _ le_rfl h floorRequestId statusInfo

theorem revokes_revokeFloorRequest (c : Floors) :
    Revokes (fun c floorRequestId => c.revokeFloorRequest floorRequestId) c := by
  rintro c' k hserver hinv
  obtain ⟨hinv', hremoves, -⟩ := revokeFloorRequest_spec hinv k ""
  exact ⟨hinv', hserver ▸ hremoves⟩

theorem Inv.of_eq (h : Inv c) {s : Server} (heq : s.toFloorControl = c.server.toFloorControl) :
    Inv { c with server := s } where
  good := h.good.of_eq heq
  running := (congrArg FloorControl.ending heq).trans h.running
  tracks :=
    ⟨h.tracks.presenter.congr fun k r _ => by rw [heq], h.tracks.editor.congr fun k r _ => by rw [heq]⟩

theorem Inv.of_removes (h : Inv c) {s : Server}
    (hremoves : Removes c.server.toFloorControl s.toFloorControl p)
    (hp : ∀ k r, p k r = true → r.isGranted = false) : Inv { c with server := s } where
  good := h.good.of_removes ⟨p, hremoves⟩
  running := hremoves.ending_eq.trans h.running
  tracks := ⟨h.tracks.presenter.of_removes hremoves hp, h.tracks.editor.of_removes hremoves hp⟩

theorem inv_denyFloorRequest (h : Inv c) (floorRequestId : Int) (statusInfo : String) :
    Inv (c.denyFloorRequest floorRequestId statusInfo) := by
  refine h.of_removes (Server.removes_denyFloorRequest ..) fun k r hk => ?_
  have hdenied := (Bool.and_eq_true_iff.1 hk).2
  cases hgranted : r.isGranted with
  | false => rfl
  | true =>
    rw [FloorRequest.isGranted_iff] at hgranted
    rw [FloorRequest.canBeDenied, FloorRequest.isUndecided_iff, hgranted] at hdenied
    rcases hdenied with h | h <;> cases h

theorem revokeGranted_spec (ids : List Int) (h : Inv c) :
    Inv (c.revokeGranted ids) ∧ RemovesGranted c.server (c.revokeGranted ids).server ∧
      ∀ k ∈ ids, ∀ r, (c.revokeGranted ids).server.getFloorRequest k = some r →
        r.isGranted = false := by
  induction ids generalizing c with
  | nil => exact ⟨h, .refl _, nofun⟩
  | cons k ids ih =>
    have hone : ∃ c', Inv c' ∧ RemovesGranted c.server c'.server ∧
        (∀ r, c'.server.getFloorRequest k = some r → r.isGranted = false) ∧
        c.revokeGranted (k :: ids) = c'.revokeGranted ids := by
      rw [revokeGranted, List.foldl_cons]
      split
      case h_1 hnone =>
        exact ⟨c, h, .refl _, fun r hr => (by rw [hnone] at hr; cases hr), rfl⟩
      case h_2 r hr =>
        split
        case isTrue =>
          obtain rfl := h.good.inv.key_eq k r hr
          obtain ⟨hinv, hremoves, hgone⟩ := revokeFloorRequest_spec h r.floorRequestId
            "granted to other user"
          exact ⟨_, hinv, hremoves, hgone, rfl⟩
        case isFalse hgranted =>
          refine ⟨c, h, .refl _, fun r' hr' => ?_, rfl⟩
          rw [← Option.some.inj (hr.symm.trans hr')]
          exact Bool.eq_false_iff.2 hgranted
    obtain ⟨c', hinv, hremoves, hgone, heq⟩ := hone
    obtain ⟨hinv', hremoves', hgone'⟩ := ih hinv
    rw [heq]
    refine ⟨hinv', hremoves.trans hremoves', fun j hj r hr => ?_⟩
    rcases List.mem_cons.1 hj with rfl | hj
    · exact hgone r (hremoves'.of_getElem? hr)
    · exact hgone' j hj r hr

/-- **Granting.** The mixer follows the request that takes its floors. -/
theorem inv_grantFloorRequest (h : Inv c) (floorRequestId : Int) :
    Inv (c.grantFloorRequest floorRequestId) := by
  unfold grantFloorRequest
  split
  case isTrue => exact h
  case isFalse =>
    split
    case h_1 => exact h
    case h_2 r hr =>
      split
      case isTrue => exact h
      case isFalse hundecided =>
        obtain ⟨hinv, hremoves, hgone⟩ := revokeGranted_spec
          ((c.server.getFloorRequestsForFloors r.floorIds).map FloorRequest.floorRequestId) h
        generalize c.revokeGranted
          ((c.server.getFloorRequestsForFloors r.floorIds).map FloorRequest.floorRequestId) = d
          at hinv hremoves hgone
        dsimp only
        have hfree : ∀ j, j ≠ floorRequestId →
            Disjoint (d.server.holds j) {floorId | r.hasFloorId floorId = true} := by
          intro j _
          rw [Set.disjoint_left]
          intro floorId hheld hfloor
          obtain ⟨r', hr', hgranted, hmem⟩ := hheld
          have hold := hremoves.of_getElem? hr'
          have hlisted : r' ∈ c.server.getFloorRequestsForFloors r.floorIds := by
            refine List.mem_filter.2
              ⟨mem_values_iff.2 ⟨j, hold⟩, List.any_eq_true.2 ⟨floorId, ?_, hmem⟩⟩
            rw [Std.TreeSet.mem_toList]
            exact Std.TreeSet.contains_iff_mem.1 hfloor
          have hfalse := hgone j (List.mem_map.2 ⟨r', hlisted, h.good.inv.key_eq j r' hold⟩) r' hr'
          rw [hgranted] at hfalse
          cases hfalse
        have hold : ∀ r', d.server.floorRequests[floorRequestId]? = some r' →
            r'.isGranted = false := by
          intro r' hr'
          obtain rfl := Option.some.inj (hr.symm.trans (hremoves.of_getElem? hr'))
          cases hgranted : r.isGranted with
          | false => rfl
          | true =>
            rw [FloorRequest.isGranted_iff] at hgranted
            simp [FloorRequest.canBeGranted, FloorRequest.isUndecided, hgranted] at hundecided
        have hcontrol : ∀ outputs, ((((d.server.setFloorRequest floorRequestId
            (r.setStatus .granted)).sendMessage
            (r.setStatus .granted).createFloorRequestStatus).notifyForFloorRequest
              (r.setStatus .granted)).emit outputs).toFloorControl =
            (d.server.setFloorRequest floorRequestId (r.setStatus .granted)).toFloorControl := by
          intro outputs
          rw [Server.toFloorControl_emit, Server.toFloorControl_notifyForFloorRequest,
            Server.toFloorControl_sendMessage]
        have hmem : ∀ floorId, (r.setStatus .granted).hasFloorId floorId = true →
            d.server.floors.contains floorId = true := by
          obtain ⟨p, hp, -⟩ := hremoves
          intro floorId hfloor
          rw [hp.floors_eq]
          exact h.good.inv.floors_mem _ r hr floorId hfloor
        have hgood : Server.Good (d.server.setFloorRequest floorRequestId (r.setStatus .granted)) :=
          .of_inv (hinv.good.inv.insert (h.good.inv.key_eq _ r hr) (.inl rfl) hmem
            fun _ => hfree) hinv.running
        refine (follow_spec _ (revokes_revokeFloorRequest _) (hgood.of_eq (hcontrol _)) ?_ ?_ ?_).1
        · exact (congrArg FloorControl.ending (hcontrol _)).trans hinv.running
        · refine (hinv.tracks.presenter.setFloorRequest (r := r.setStatus .granted) rfl hold hfree).congr
            fun k r _ => ?_
          rw [hcontrol]
        · refine (hinv.tracks.editor.setFloorRequest (r := r.setStatus .granted) rfl hold hfree).congr
            fun k r _ => ?_
          rw [hcontrol]

theorem inv_onFloorRequest (h : Inv c) (floorRequestId userId : Int) :
    Inv (c.onFloorRequest floorRequestId userId) := by
  unfold onFloorRequest
  split
  · exact inv_grantFloorRequest h floorRequestId
  · exact inv_denyFloorRequest h floorRequestId ""

theorem inv_processFloorRequest (h : Inv c) (hcounter : ∀ r ∈
    c.server.getFloorRequest c.server.floorRequestCounter, r.isGranted = false)
    (header : CommonHeader) (floorIds : List Int) (beneficiaryId : Option Int) (user : User) :
    Inv (c.processFloorRequest header floorIds beneficiaryId user) := by
  unfold processFloorRequest
  dsimp only
  split
  · exact h.of_eq (Server.toFloorControl_replyError ..)
  case isFalse hfloors =>
    split
    · exact h.of_eq (Server.toFloorControl_replyError ..)
    · have hall : ∀ floorId ∈ floorIds, c.server.floors.contains floorId = true := by
        simpa [Server.hasFloor] using hfloors
      have hnew : ∀ new : FloorRequest, new.floorRequestId = c.server.floorRequestCounter →
          new.status = .pending → new.floorIds = {} → ∀ s : Server,
          s.toFloorControl = { c.server.toFloorControl with
            floorRequestCounter := Server.nextCounter c.server.floorRequestCounter
            floorRequests := c.server.floorRequests.insert c.server.floorRequestCounter
              (floorIds.foldl FloorRequest.addFloorId new) } → Inv { c with server := s } := by
        intro new hkey hpending hempty s hs
        have hgood := Server.inv_newFloorRequest h.good.inv hall hkey hpending hempty
        have hsame : ∀ (k : Int) r, r.isGranted = true →
            (s.floorRequests[k]? = some r ↔ c.server.floorRequests[k]? = some r) := by
          intro k r hgranted
          rw [hs, getElem?_insert_ite]
          split
          case isTrue hk =>
            subst hk
            refine iff_of_false (fun heq => ?_) fun heq => ?_
            · rw [← Option.some.inj heq, FloorRequest.isGranted_iff, Server.addFloorIds_status,
                hpending] at hgranted
              cases hgranted
            · rw [hcounter r heq] at hgranted
              cases hgranted
          case isFalse => rfl
        have hrunning : s.ending = false := (congrArg FloorControl.ending hs).trans h.running
        exact ⟨.of_inv (hs ▸ hgood) hrunning, hrunning,
          h.tracks.presenter.congr hsame, h.tracks.editor.congr hsame⟩
      split
      · refine inv_grantFloorRequest (hnew _ ?_ ?_ ?_ _ (Server.toFloorControl_sendMessage ..)) _ <;>
          rfl
      · refine inv_onFloorRequest (hnew _ ?_ ?_ ?_ _ ((Server.toFloorControl_emit ..).trans
          (Server.toFloorControl_sendMessage ..))) _ _ <;> rfl

theorem removes_processFloorRelease {s : Server} {floorRequestId : Int}
    (hr : s.getFloorRequest floorRequestId = some r) (header : CommonHeader) (user : User) :
    ∃ p, Removes s.toFloorControl
        (s.processFloorRelease header floorRequestId user).toFloorControl p ∧
      if Machine.releasesGranted s floorRequestId user then
        r.isGranted = true ∧ ∀ j (r' : FloorRequest), p j r' = true ↔ j = floorRequestId
      else ∀ j (r' : FloorRequest), p j r' = true → r'.isGranted = false := by
  have hstays : ∀ t : Server, t.toFloorControl = s.toFloorControl →
      Machine.releasesGranted s floorRequestId user = false →
      ∃ p, Removes s.toFloorControl t.toFloorControl p ∧
        if Machine.releasesGranted s floorRequestId user then
          r.isGranted = true ∧ ∀ j (r' : FloorRequest), p j r' = true ↔ j = floorRequestId
        else ∀ j (r' : FloorRequest), p j r' = true → r'.isGranted = false := by
    intro t ht hreleases
    rw [ht, hreleases]
    exact ⟨_, .refl _, nofun⟩
  have hreleases : Machine.releasesGranted s floorRequestId user =
      ((user.userId = r.userId || user.userId = r.beneficiaryId || user.isChair) &&
        r.isGranted) := by
    rw [Machine.releasesGranted, hr]
  unfold Server.processFloorRelease
  rw [hr]
  dsimp only
  split
  case isTrue hunauthorized =>
    refine hstays _ (Server.toFloorControl_replyError ..) ?_
    have hchair : user.isChair = false := by simpa using hunauthorized.2.2
    simp [hreleases, hunauthorized, hchair]
  case isFalse hauthorized =>
    split
    case h_1 hstatus =>
      refine hstays _ (Server.toFloorControl_replyError ..) ?_
      rw [hreleases]
      cases hgranted : r.isGranted with
      | false => simp
      | true =>
        simp only [Server.releaseStatus, hgranted, Bool.not_true, Bool.false_and,
          Bool.false_eq_true, if_false, if_true] at hstatus
        split at hstatus <;> cases hstatus
    case h_2 status hstatus =>
      cases hgranted : r.isGranted with
      | true =>
        have hyes : Machine.releasesGranted s floorRequestId user = true := by
          rw [hreleases, hgranted, Bool.and_true]
          simp only [Bool.or_eq_true, decide_eq_true_eq]
          simp only [not_and_or, Decidable.not_not, ne_eq, Bool.not_eq_true', Bool.not_eq_false]
            at hauthorized
          tauto
        rw [hyes]
        refine ⟨fun k _ => k = floorRequestId, ?_, rfl, by simp⟩
        simp only [if_true, Server.toFloorControl_emit]
        exact Server.removes_conclude ..
      | false =>
        have hno : Machine.releasesGranted s floorRequestId user = false := by
          rw [hreleases, hgranted, Bool.and_false]
        rw [hno]
        refine ⟨fun k r => k = floorRequestId && !r.isGranted, ?_, by simp⟩
        simp only [Bool.false_eq_true, if_false]
        exact Server.removes_of_getFloorRequest hr (Server.removes_conclude ..) (by simp [hgranted])

theorem inv_processFloorRelease (h : Inv c) (header : CommonHeader) (floorRequestId : Int)
    (user : User) : Inv (c.processFloorRelease header floorRequestId user) := by
  unfold processFloorRelease
  dsimp only
  split
  case h_1 hnone =>
    refine h.of_eq ?_
    rw [Server.processFloorRelease, hnone]
    exact Server.toFloorControl_replyError ..
  case h_2 r hr =>
    obtain ⟨p, hremoves, hp⟩ := removes_processFloorRelease hr header user
    split
    case isTrue hreleases =>
      rw [if_pos hreleases] at hp
      refine (follow_spec _ (revokes_revokeFloorRequest _) ?_ ?_ ?_ ?_).1
      · exact h.good.of_removes ⟨p, hremoves⟩
      · exact hremoves.ending_eq.trans h.running
      · exact h.tracks.presenter.of_owner h.good hr hp.1 hremoves fun j r' _ => hp.2 j r'
      · exact h.tracks.editor.of_owner h.good hr hp.1 hremoves fun j r' _ => hp.2 j r'
    case isFalse hreleases =>
      rw [if_neg hreleases] at hp
      exact h.of_removes hremoves hp

theorem inv_revokeUserFloorRequests (h : Inv c) (userId : Int) :
    Inv (c.revokeUserFloorRequests userId) := by
  unfold revokeUserFloorRequests
  dsimp only
  generalize (values c.server.floorRequests).filterMap _ = ids
  induction ids generalizing c with
  | nil => exact h
  | cons k ids ih =>
    rw [List.foldl_cons]
    refine ih ?_
    split
    · exact h
    · split
      · exact (revokeFloorRequest_spec h ..).1
      · exact inv_denyFloorRequest h ..

theorem inv_leave (h : Inv c) {s : Server} (heq : s.toFloorControl = c.server.toFloorControl)
    (userId : Int) (after : After) : Inv (c.leave s userId after) :=
  (inv_revokeUserFloorRequests (h.of_eq heq) userId).of_eq (Machine.toFloorControl_finish after)

theorem inv_removeUser (h : Inv c) (userId : Int) : Inv (c.removeUser userId) := by
  unfold removeUser
  split
  · exact h
  · split
    · exact h
    · refine inv_leave h ?_ _ _
      rfl

theorem inv_userConnected (h : Inv c) (userId : Int) (transport : Nat) :
    Inv (c.userConnected userId transport) := by
  unfold userConnected
  split
  · exact h
  · split
    · exact h
    · split
      · refine inv_leave h ?_ _ _
        rfl
      · exact h.of_eq rfl

theorem inv_userDisconnected (h : Inv c) (userId : Int) (closedByServer : Bool) :
    Inv (c.userDisconnected userId closedByServer) := by
  unfold userDisconnected
  split
  · exact h
  · split
    · exact h
    · dsimp only
      split
      · exact h.of_eq rfl
      · refine inv_leave h ?_ _ _
        rfl

theorem inv_disconnectUser (h : Inv c) (userId : Int) (code : Nat) (reason : String) :
    Inv (c.disconnectUser userId code reason) := by
  unfold disconnectUser
  split
  · exact h
  · split
    · exact h
    · refine inv_leave h ?_ _ _
      rfl

end Calls

/-- The id of a new request is not that of a request still granted: the counter has not come
round to it. -/
def CounterFree (c : Floors) : Op → Prop
  | .floor (.messageReceived msg) =>
    match msg.body with
    | .floorRequest _ _ =>
      ∀ r ∈ c.server.getFloorRequest c.server.floorRequestCounter, r.isGranted = false
    | _ => True
  | _ => True

instance (c : Floors) (op : Op) : Decidable (CounterFree c op) := by
  unfold CounterFree
  split
  · split <;> infer_instance
  · infer_instance

section Runs

variable {c : Floors}

theorem inv_messageReceived (h : Inv c) (msg : RequestMessage)
    (hcounter : CounterFree c (.floor (.messageReceived msg))) : Inv (c.messageReceived msg) := by
  unfold messageReceived
  split
  · exact h
  · split
    case h_1 floorIds beneficiaryId hbody =>
      rw [CounterFree, hbody] at hcounter
      exact inv_processFloorRequest h hcounter ..
    case h_2 => exact inv_processFloorRelease h ..
    case h_3 hrequest hrelease =>
      refine h.of_eq ?_
      rw [Server.messageReceived, if_neg (by simp [h.running])]
      split
      · exact Server.toFloorControl_replyError ..
      case h_2 user huser =>
        split
        case h_1 floorIds beneficiaryId hbody => exact absurd hbody (hrequest user _ _ huser)
        case h_2 floorRequestId hbody => exact absurd hbody (hrelease user _ huser)
        · exact Server.toFloorControl_processFloorQuery ..
        · exact Server.toFloorControl_sendMessage ..
        · exact Server.toFloorControl_replyError ..

theorem ending_step (h : c.server.ending = true) (op : Op) :
    (c.step op).server.ending = true := by
  have hrevoke : ∀ fuel floorRequestId statusInfo,
      (revokeWithin fuel c floorRequestId statusInfo).server.ending = true := by
    intro fuel floorRequestId statusInfo
    have hserver := (Server.removes_revokeFloorRequest (s := c.server) floorRequestId
      statusInfo).ending_eq.trans h
    cases fuel with
    | zero => exact h
    | succ fuel =>
      rw [revokeWithin]
      split
      · exact h
      · split
        · exact h
        · dsimp only
          rw [if_pos hserver]
          exact hserver
  cases op with
  | setChair partId => simp [step, Server.setChair, h]
  | floor a =>
    cases a with
    | removeUser userId => simp [step, removeUser, h]
    | grantFloorRequest floorRequestId => simp [step, grantFloorRequest, h]
    | denyFloorRequest floorRequestId statusInfo =>
      exact (Server.removes_denyFloorRequest (s := c.server) floorRequestId
        statusInfo).ending_eq.trans h
    | revokeFloorRequest floorRequestId statusInfo => exact hrevoke _ floorRequestId statusInfo
    | userConnected userId transport => simp [step, userConnected, h]
    | userDisconnected userId closedByServer =>
      rw [step, userDisconnected]
      split
      · exact h
      · split
        · exact h
        · dsimp only
          split
          case isTrue hended => exact hended
          case isFalse hrunning => exact absurd h hrunning
    | disconnectUser userId code reason => simp [step, disconnectUser, h]
    | messageReceived msg => simp [step, messageReceived, h]
    | addUser userId => simp [step, Server.step, Server.addUser, h]
    | setChair userId => simp [step, Server.step, Server.setChair, h]
    | addFloor floorId => simp [step, Server.step, Server.addFloor, h]
    | end_ => simp [step, Server.step, Server.end_, h]

/-- **Step lemma.** A call keeps the mixer following, unless it ends the server. -/
theorem inv_step (h : Inv c) {op : Op} (hcounter : CounterFree c op) :
    (c.step op).server.ending = true ∨ Inv (c.step op) := by
  cases op with
  | setChair partId =>
    obtain ⟨hgood, hrunning, htracks⟩ :=
      h.of_eq (Server.toFloorControl_setChair c.server partId)
    exact .inr ⟨hgood, hrunning, htracks.presenter, htracks.editor⟩
  | floor a =>
    cases a with
    | removeUser userId => exact .inr (inv_removeUser h userId)
    | grantFloorRequest floorRequestId => exact .inr (inv_grantFloorRequest h floorRequestId)
    | denyFloorRequest floorRequestId statusInfo =>
      exact .inr (inv_denyFloorRequest h floorRequestId statusInfo)
    | revokeFloorRequest floorRequestId statusInfo =>
      exact .inr (revokeFloorRequest_spec h floorRequestId statusInfo).1
    | userConnected userId transport => exact .inr (inv_userConnected h userId transport)
    | userDisconnected userId closedByServer =>
      exact .inr (inv_userDisconnected h userId closedByServer)
    | disconnectUser userId code reason => exact .inr (inv_disconnectUser h userId code reason)
    | messageReceived msg => exact .inr (inv_messageReceived h msg hcounter)
    | addUser userId => exact .inr (h.of_eq (Server.toFloorControl_addUser c.server userId))
    | setChair userId => exact .inr (h.of_eq (Server.toFloorControl_setChair c.server userId))
    | addFloor floorId =>
      have hsame : ∀ (k : Int), (c.server.addFloor floorId).1.floorRequests[k]? =
          c.server.floorRequests[k]? := by
        intro k
        unfold Server.addFloor
        split <;> [rfl; (split <;> [rfl; (split <;> rfl)])]
      refine .inr ⟨Server.good_addFloor h.good floorId, ?_, ?_, ?_⟩
      · have hending : (c.server.addFloor floorId).1.ending = c.server.ending := by
          unfold Server.addFloor
          split <;> [rfl; (split <;> [rfl; (split <;> rfl)])]
        exact hending.trans h.running
      · exact h.tracks.presenter.congr fun k r _ => iff_of_eq (congrArg (· = some r) (hsame k))
      · exact h.tracks.editor.congr fun k r _ => iff_of_eq (congrArg (· = some r) (hsame k))
    | end_ =>
      have hI : FloorControl.Inv { c.server.toFloorControl with ending := true } :=
        { h.good.inv with }
      obtain ⟨⟨p, hp⟩, -⟩ := Server.endFloorRequests_spec (s := { c.server with ending := true })
        c.server.floorRequests.size hI le_rfl
      left
      change c.server.end_.ending = true
      rw [Server.end_, if_neg (by simp [h.running])]
      exact hp.ending_eq

end Runs

/-- **The mixer refines the floors.** In every run in which no request is given the id of one that
is still granted, in every state in which the server has not ended, the presenter and the editor of
the application mixer are the beneficiaries of the requests that own the two floors. -/
theorem tracks_of_running (conferenceId : Int) (ops : List Op)
    (hcounter : Meets step CounterFree (new conferenceId) ops)
    (hrunning : (run step (new conferenceId) ops).server.ending = false) :
    Tracks (run step (new conferenceId) ops) := by
  have hnew : Inv (new conferenceId) :=
    ⟨Server.good_new conferenceId, rfl, ⟨(fun k r hr => nomatch hr), fun _ => rfl⟩,
      ⟨(fun k r hr => nomatch hr), fun _ => rfl⟩⟩
  have hinv := invariant_of_meets (I := fun _ c => c.server.ending = true ∨ Inv c) (.inr hnew)
    (fun _ op h hop => h.elim (fun hended => .inl (ending_step hended op)) fun h => inv_step h hop)
    ops hcounter
  rcases hinv with hended | hinv
  · rw [hrunning] at hended
    cases hended
  · exact hinv.tracks

/-- User 1 is the chair, and asks for the floor of the presenter. -/
def chairPresents : List Op :=
  [.floor (.addFloor 1), .floor (.addFloor 2), .floor (.addUser 1), .setChair 1,
    .floor (.messageReceived { header := ⟨1, 1, 1⟩, body := .floorRequest [1] none })]

/-- He is the presenter. -/
theorem tracks_chairPresents : Tracks (run step (new 1) chairPresents) :=
  tracks_of_running 1 chairPresents (by decide) (by decide)

/-- He still is when the server has ended and nobody owns the floor. -/
theorem not_tracks_endedWhilePresenting :
    ¬ Tracks (run step (new 1) (chairPresents ++ [.floor .end_])) := by
  intro h
  have hnone : (run step (new 1) (chairPresents ++ [.floor .end_])).server.floorRequests.toList =
      [] := by decide
  have hunset := h.presenter.free fun k r hr _ => by
    rw [← mem_toList_iff, hnone] at hr
    cases hr
  revert hunset
  decide

end Floors

end MultiConf

end McuMediaServer
