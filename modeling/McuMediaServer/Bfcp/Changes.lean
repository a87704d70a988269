import McuMediaServer.Bfcp.Exclusion
import Mathlib.Logic.Function.Basic

/-!
# Status changes

What the operations of a floor control server do, as a list of status changes: each change puts one
request into a status, and it is kept under its id as long as that status does not end it. An effect
is what a list of changes does to the requests, what the users are told about it and what it leaves
alone. Effects compose, so that the effect of an operation is put together from those of its parts.
-/

namespace McuMediaServer

namespace Bfcp

open OrderedMap

/-- A request with one of these statuses is kept. -/
def RequestStatus.isOngoing (status : RequestStatus) : Bool :=
  status = .pending || status = .accepted || status = .granted

/-- The request after it is revoked, when it is granted, or denied. -/
def FloorRequest.concluded (r : FloorRequest) : FloorRequest :=
  r.setStatus (if r.isGranted then .revoked else .denied)

theorem FloorRequest.isOngoing_concluded (r : FloorRequest) :
    r.concluded.status.isOngoing = false := by
  unfold FloorRequest.concluded FloorRequest.setStatus
  split <;> rfl

/-- The requests by their ids. -/
abbrev Requests := Int → Option FloorRequest

/-- A request takes the status it has here. -/
def Requests.change (requests : Requests) (r : FloorRequest) : Requests :=
  Function.update requests r.floorRequestId (if r.status.isOngoing then some r else none)

/-! ## What is told about a change -/

/-- What goes out on connections as a floor status. -/
def floorStatuses (outputs : List Output) : List (Nat × ReplyMessage) :=
  outputs.filterMap fun
    | .message transport ⟨header, .floorStatus floorId informations⟩ =>
      some (transport, ⟨header, .floorStatus floorId informations⟩)
    | _ => none

/-- A request status, without the text that may come with it. -/
def FloorRequestInformation.withoutDescription (i : FloorRequestInformation) :
    FloorRequestInformation :=
  { i with overallRequestStatus := { i.overallRequestStatus with statusInfo := none } }

/-- The request statuses that go out to the user who made the request. -/
def requestStatuses (outputs : List Output) : List (Nat × FloorRequestInformation) :=
  outputs.filterMap fun
    | .message transport ⟨header, .floorRequestStatus information⟩ =>
      if header.userId = information.requestedBy then
        some (transport, information.withoutDescription)
      else
        none
    | _ => none

theorem floorStatuses_append (xs ys : List Output) :
    floorStatuses (xs ++ ys) = floorStatuses xs ++ floorStatuses ys :=
  List.filterMap_append

theorem requestStatuses_append (xs ys : List Output) :
    requestStatuses (xs ++ ys) = requestStatuses xs ++ requestStatuses ys :=
  List.filterMap_append

/-- The users of a conference. -/
abbrev Users := Std.TreeMap Int User

/-- The connection a user can be reached by. -/
def Users.transport? (users : Users) (userId : Int) : Option Nat :=
  users[userId]?.bind User.transport

/-- The status of a request goes to the user who made it. -/
def Users.requestStatus (users : Users) (r : FloorRequest) : List (Nat × FloorRequestInformation) :=
  (users.transport? r.userId).toList.map fun transport =>
    (transport, r.createFloorRequestInformation)

/-- The floor status about one request for a user. -/
def floorStatusMessage (conferenceId userId floorId : Int) (r : FloorRequest) : ReplyMessage where
  header := { transactionId := 0, conferenceId := conferenceId, userId := userId }
  body := .floorStatus (some floorId) [r.createFloorRequestInformation]

/-- The status of a request goes to every user who asked about a floor of it, once for each floor
he asked about. -/
def Users.floorStatus (users : Users) (conferenceId : Int) (r : FloorRequest) :
    List (Nat × ReplyMessage) :=
  (values users).flatMap fun user =>
    user.transport.toList.flatMap fun transport =>
      (r.floorIds.toList.filter user.hasQueriedFloorId).map fun floorId =>
        (transport, floorStatusMessage conferenceId user.userId floorId r)

variable {r : FloorRequest} {beneficiaryId : Option Int} {floorIds : List Int}

namespace Server

/-- The requests by their ids. -/
def requests (s : Server) : Requests :=
  fun k => s.floorRequests[k]?

/-- Every user is kept under his id. -/
def Keyed (s : Server) : Prop :=
  ∀ (k : Int) user, s.users[k]? = some user → user.userId = k

/-! ## Messages -/

/-- What sending a message puts out. -/
def deliveries (s : Server) (msg : ReplyMessage) : List Output :=
  (Users.transport? s.users msg.header.userId).toList.map fun transport => .message transport msg

section Messages

variable {s : Server}

theorem emit_emit (xs ys : List Output) : (s.emit xs).emit ys = s.emit (xs ++ ys) := by
  simp [emit]

theorem emit_nil : s.emit [] = s := by
  simp [emit]

theorem sendMessage_eq (msg : ReplyMessage) : s.sendMessage msg = s.emit (s.deliveries msg) := by
  unfold sendMessage deliveries Users.transport? getUser
  cases s.users[msg.header.userId]? with
  | none => exact emit_nil.symm
  | some user => rfl

theorem foldl_sendMessage (messages : List ReplyMessage) :
    messages.foldl sendMessage s = s.emit (messages.flatMap s.deliveries) := by
  induction messages generalizing s with
  | nil => exact emit_nil.symm
  | cons msg messages ih =>
    rw [List.foldl_cons, ih, sendMessage_eq, emit_emit, List.flatMap_cons]
    rfl

/-- The messages of a notification. -/
def notifications (s : Server) (r : FloorRequest) : List ReplyMessage :=
  (values s.users).flatMap fun user =>
    (r.floorIds.toList.filter user.hasQueriedFloorId).map fun floorId =>
      floorStatusMessage s.conferenceId user.userId floorId r

theorem notifyForFloorRequest_eq (r : FloorRequest) :
    s.notifyForFloorRequest r = s.emit ((s.notifications r).flatMap s.deliveries) :=
  foldl_sendMessage _

theorem mem_deliveries {msg : ReplyMessage} {output : Output} (h : output ∈ s.deliveries msg) :
    ∃ transport, output = .message transport msg := by
  obtain ⟨transport, -, rfl⟩ := List.mem_map.1 h
  exact ⟨transport, rfl⟩

theorem floorStatuses_deliveries_floorStatus (header : CommonHeader) (floorId : Option Int)
    (informations : List FloorRequestInformation) :
    floorStatuses (s.deliveries ⟨header, .floorStatus floorId informations⟩) =
      (Users.transport? s.users header.userId).toList.map fun transport =>
        (transport, ⟨header, .floorStatus floorId informations⟩) := by
  unfold deliveries floorStatuses
  cases Users.transport? s.users header.userId <;> rfl

theorem floorStatuses_deliveries_floorRequestStatus (header : CommonHeader)
    (information : FloorRequestInformation) :
    floorStatuses (s.deliveries ⟨header, .floorRequestStatus information⟩) = [] := by
  unfold deliveries floorStatuses
  cases Users.transport? s.users header.userId <;> rfl

theorem requestStatuses_deliveries_floorStatus (header : CommonHeader) (floorId : Option Int)
    (informations : List FloorRequestInformation) :
    requestStatuses (s.deliveries ⟨header, .floorStatus floorId informations⟩) = [] := by
  unfold deliveries requestStatuses
  cases Users.transport? s.users header.userId <;> rfl

theorem requestStatuses_deliveries_floorRequestStatus (header : CommonHeader)
    (information : FloorRequestInformation) :
    requestStatuses (s.deliveries ⟨header, .floorRequestStatus information⟩) =
      if header.userId = information.requestedBy then
        (Users.transport? s.users header.userId).toList.map fun transport =>
          (transport, information.withoutDescription)
      else
        [] := by
  unfold deliveries requestStatuses
  cases Users.transport? s.users header.userId with
  | none => split <;> rfl
  | some transport =>
    by_cases h : header.userId = information.requestedBy
    · simp [h]
    · simp [h]

theorem withoutDescription_setDescription (r : FloorRequest) (statusInfo : String) :
    (r.createFloorRequestInformation.setDescription statusInfo).withoutDescription =
      r.createFloorRequestInformation := by
  unfold FloorRequestInformation.setDescription
  split <;> rfl

theorem requestedBy_setDescription (r : FloorRequest) (statusInfo : String) :
    (r.createFloorRequestInformation.setDescription statusInfo).requestedBy = r.userId := by
  unfold FloorRequestInformation.setDescription
  split <;> rfl

theorem requestStatuses_createFloorRequestStatus (r : FloorRequest) (transactionId : Int)
    (statusInfo : String) :
    requestStatuses (s.deliveries (r.createFloorRequestStatus transactionId statusInfo)) =
      Users.requestStatus s.users r := by
  rw [FloorRequest.createFloorRequestStatus, requestStatuses_deliveries_floorRequestStatus,
    requestedBy_setDescription, if_pos rfl, withoutDescription_setDescription]
  rfl

theorem transport?_of_mem (hkeyed : s.Keyed) {user : User} (h : user ∈ values s.users) :
    Users.transport? s.users user.userId = user.transport := by
  obtain ⟨k, hk⟩ := mem_values_iff.1 h
  rw [Users.transport?, hkeyed k user hk, hk]
  rfl

theorem floorStatuses_notifications (hkeyed : s.Keyed) (r : FloorRequest) :
    floorStatuses ((s.notifications r).flatMap s.deliveries) =
      Users.floorStatus s.users s.conferenceId r := by
  have huser : ∀ user ∈ values s.users, ∀ floorIds : List Int,
      floorStatuses ((floorIds.map fun floorId =>
        floorStatusMessage s.conferenceId user.userId floorId r).flatMap s.deliveries) =
      user.transport.toList.flatMap fun transport => floorIds.map fun floorId =>
        (transport, floorStatusMessage s.conferenceId user.userId floorId r) := by
    intro user huser floorIds
    induction floorIds with
    | nil => cases user.transport <;> rfl
    | cons floorId floorIds ih =>
      rw [List.map_cons, List.flatMap_cons, floorStatuses_append, ih, floorStatusMessage,
        floorStatuses_deliveries_floorStatus, transport?_of_mem hkeyed huser]
      cases user.transport with
      | none => rfl
      | some transport => simp [floorStatusMessage]
  unfold notifications Users.floorStatus
  generalize values s.users = users at huser
  induction users with
  | nil => rfl
  | cons user users ih =>
    rw [List.flatMap_cons, List.flatMap_append, floorStatuses_append,
      huser user List.mem_cons_self, ih fun u hu => huser u (List.mem_cons_of_mem user hu),
      List.flatMap_cons]

theorem requestStatuses_notifications (r : FloorRequest) :
    requestStatuses ((s.notifications r).flatMap s.deliveries) = [] := by
  have hall : ∀ messages : List ReplyMessage,
      (∀ msg ∈ messages, ∃ header floorId informations,
        msg = ⟨header, .floorStatus floorId informations⟩) →
      requestStatuses (messages.flatMap s.deliveries) = [] := by
    intro messages hmessages
    induction messages with
    | nil => rfl
    | cons msg messages ih =>
      obtain ⟨header, floorId, informations, rfl⟩ := hmessages msg List.mem_cons_self
      rw [List.flatMap_cons, requestStatuses_append, requestStatuses_deliveries_floorStatus,
        ih fun m hm => hmessages m (List.mem_cons_of_mem _ hm)]
      rfl
  refine hall _ fun msg hmsg => ?_
  obtain ⟨user, -, hmsg⟩ := List.mem_flatMap.1 hmsg
  obtain ⟨floorId, -, rfl⟩ := List.mem_map.1 hmsg
  exact ⟨_, _, _, rfl⟩

end Messages

/-! ## Effects -/

/-- From `s` to `t` the requests go through `changes`, the users are told about each of them, and
those who asked about the floors are told about the requests in `told`. -/
structure Effect (s t : Server) (changes told : List FloorRequest) : Prop where
  users_eq : t.users = s.users
  conferenceId_eq : t.conferenceId = s.conferenceId
  counter_eq : t.floorRequestCounter = s.floorRequestCounter
  ending_eq : t.ending = s.ending
  requests_eq : t.requests = changes.foldl Requests.change s.requests
  outputs : ∃ out, t.outputs = s.outputs ++ out ∧
    requestStatuses out = changes.flatMap (Users.requestStatus s.users) ∧
    floorStatuses out = told.flatMap (Users.floorStatus s.users s.conferenceId)

namespace Effect

variable {s t u : Server} {changes told changes' told' : List FloorRequest}

theorem refl (s : Server) : Effect s s [] [] :=
  ⟨rfl, rfl, rfl, rfl, rfl, [], (List.append_nil _).symm, rfl, rfl⟩

theorem trans (h : Effect s t changes told) (h' : Effect t u changes' told') :
    Effect s u (changes ++ changes') (told ++ told') := by
  obtain ⟨out, hout, hrequest, hfloor⟩ := h.outputs
  obtain ⟨out', hout', hrequest', hfloor'⟩ := h'.outputs
  refine ⟨h'.users_eq.trans h.users_eq, h'.conferenceId_eq.trans h.conferenceId_eq,
    h'.counter_eq.trans h.counter_eq, h'.ending_eq.trans h.ending_eq, ?_, out ++ out', ?_, ?_, ?_⟩
  · rw [h'.requests_eq, h.requests_eq, List.foldl_append]
  · rw [hout', hout, List.append_assoc]
  · rw [requestStatuses_append, hrequest, hrequest', h.users_eq, List.flatMap_append]
  · rw [floorStatuses_append, hfloor, hfloor', h.users_eq, h.conferenceId_eq, List.flatMap_append]

theorem emit (outputs : List Output) (hrequest : requestStatuses outputs = [])
    (hfloor : floorStatuses outputs = []) : Effect s (s.emit outputs) [] [] :=
  ⟨rfl, rfl, rfl, rfl, rfl, outputs, rfl, hrequest, hfloor⟩

theorem keyed (h : Effect s t changes told) (hkeyed : s.Keyed) : t.Keyed := by
  intro k user hk
  rw [h.users_eq] at hk
  exact hkeyed k user hk

theorem getFloorRequest_eq (h : Effect s t changes told) {k : Int}
    (hk : ∀ r ∈ changes, r.floorRequestId ≠ k) : t.getFloorRequest k = s.getFloorRequest k := by
  have hfold : ∀ (changes : List FloorRequest) (requests : Requests),
      (∀ r ∈ changes, r.floorRequestId ≠ k) →
      changes.foldl Requests.change requests k = requests k := by
    intro changes
    induction changes with
    | nil => exact fun _ _ => rfl
    | cons r changes ih =>
      intro requests hchanges
      rw [List.foldl_cons, ih _ fun r' hr' => hchanges r' (List.mem_cons_of_mem r hr')]
      exact Function.update_of_ne (hchanges r List.mem_cons_self).symm _ _
  have hrequests := congrFun h.requests_eq k
  rw [hfold changes _ hk] at hrequests
  exact hrequests

end Effect

/-! ## The effects of the operations -/

section Operations

variable {s : Server}

theorem effect_conclude (hkeyed : s.Keyed) (hended : r.status.isOngoing = false)
    (messages : List ReplyMessage)
    (hrequest : requestStatuses (messages.flatMap s.deliveries) = Users.requestStatus s.users r)
    (hfloor : floorStatuses (messages.flatMap s.deliveries) = []) :
    Effect s (s.conclude r.floorRequestId r messages) [r] [r] := by
  unfold conclude
  dsimp only
  rw [foldl_sendMessage, notifyForFloorRequest_eq, emit_emit]
  refine ⟨rfl, rfl, rfl, rfl, ?_, messages.flatMap s.deliveries ++
    (s.notifications r).flatMap s.deliveries, rfl, ?_, ?_⟩
  · funext k
    change ((s.floorRequests.insert r.floorRequestId r).erase r.floorRequestId)[k]? =
      Requests.change s.requests r k
    rw [getElem?_erase_ite, getElem?_insert_ite, Requests.change, hended, Function.update_apply]
    split <;> rfl
  · rw [requestStatuses_append, hrequest, requestStatuses_notifications, List.append_nil,
      List.flatMap_singleton]
  · rw [floorStatuses_append, hfloor, floorStatuses_notifications hkeyed, List.nil_append,
      List.flatMap_singleton]

theorem effect_conclude_notified (hkeyed : s.Keyed)
    (hended : r.status.isOngoing = false) (statusInfo : String) :
    Effect s (s.conclude r.floorRequestId r [r.createFloorRequestStatus 0 statusInfo]) [r] [r] := by
  refine effect_conclude hkeyed hended _ ?_ ?_
  · rw [List.flatMap_singleton, requestStatuses_createFloorRequestStatus]
  · rw [List.flatMap_singleton]
    exact floorStatuses_deliveries_floorRequestStatus _ _

theorem effect_revokeFloorRequest (hkeyed : s.Keyed)
    (hr : s.getFloorRequest r.floorRequestId = some r) (hgranted : r.isGranted = true)
    (statusInfo : String) :
    Effect s (s.revokeFloorRequest r.floorRequestId statusInfo).1 [r.setStatus .revoked]
      [r.setStatus .revoked] := by
  have hconclude := effect_conclude_notified (r := r.setStatus .revoked) hkeyed rfl statusInfo
  unfold revokeFloorRequest
  rw [hr]
  simp only [hgranted, Bool.not_true, Bool.false_eq_true, if_false]
  split
  · exact hconclude
  · exact hconclude.trans (.emit _ rfl rfl)

theorem effect_denyFloorRequest (hkeyed : s.Keyed)
    (hr : s.getFloorRequest r.floorRequestId = some r) (hdenied : r.canBeDenied = true)
    (statusInfo : String) :
    Effect s (s.denyFloorRequest r.floorRequestId statusInfo).1 [r.setStatus .denied]
      [r.setStatus .denied] := by
  unfold denyFloorRequest
  rw [hr]
  simp only [hdenied, Bool.not_true, Bool.false_eq_true, if_false]
  exact effect_conclude_notified (r := r.setStatus .denied) hkeyed rfl statusInfo

theorem effect_revokeOrDeny (hkeyed : s.Keyed) (hr : s.getFloorRequest r.floorRequestId = some r)
    (hongoing : r.isGranted = true ∨ r.isUndecided = true) (statusInfo : String) :
    Effect s (s.revokeOrDeny r statusInfo) [r.concluded] [r.concluded] := by
  unfold revokeOrDeny FloorRequest.concluded
  cases hgranted : r.isGranted with
  | true => exact effect_revokeFloorRequest hkeyed hr hgranted statusInfo
  | false =>
    have hdenied : r.canBeDenied = true := by
      rw [hgranted] at hongoing
      exact hongoing.resolve_left Bool.false_ne_true
    exact effect_denyFloorRequest hkeyed hr hdenied statusInfo

theorem effect_revokeOrDeny_foldl (hkeyed : s.Keyed) (statusInfo : String)
    {requests : List FloorRequest}
    (hrequests : ∀ r ∈ requests, s.getFloorRequest r.floorRequestId = some r ∧
      (r.isGranted = true ∨ r.isUndecided = true))
    (hdistinct : requests.Pairwise fun r r' => r.floorRequestId ≠ r'.floorRequestId) :
    Effect s ((requests.map FloorRequest.floorRequestId).foldl (fun s floorRequestId =>
      match s.getFloorRequest floorRequestId with
      | some r => s.revokeOrDeny r statusInfo
      | none => s) s) (requests.map .concluded) (requests.map .concluded) := by
  induction requests generalizing s with
  | nil => exact .refl s
  | cons r requests ih =>
    obtain ⟨hr, hongoing⟩ := hrequests r List.mem_cons_self
    obtain ⟨hne, hdistinct⟩ := List.pairwise_cons.1 hdistinct
    have hfirst := effect_revokeOrDeny hkeyed hr hongoing statusInfo
    rw [List.map_cons, List.foldl_cons, hr, List.map_cons]
    refine hfirst.trans (ih (hfirst.keyed hkeyed) (fun r' hr' => ?_) hdistinct)
    obtain ⟨hget, hongoing'⟩ := hrequests r' (List.mem_cons_of_mem r hr')
    refine ⟨?_, hongoing'⟩
    rw [hfirst.getFloorRequest_eq, hget]
    intro c hc
    rw [List.mem_singleton.1 hc]
    exact hne r' hr'

theorem pairwise_values (hI : s.toFloorControl.Inv) :
    (values s.floorRequests).Pairwise fun r r' => r.floorRequestId ≠ r'.floorRequestId := by
  rw [values, List.pairwise_map]
  refine s.floorRequests.distinct_keys_toList.imp_of_mem fun {a b} ha hb hab => ?_
  rw [hI.key_eq a.1 a.2 (mem_toList_iff.1 ha), hI.key_eq b.1 b.2 (mem_toList_iff.1 hb)]
  exact fun heq => hab (Std.LawfulEqOrd.compare_eq_iff_eq.2 heq)

theorem getFloorRequest_of_mem (hI : s.toFloorControl.Inv)
    (hr : r ∈ values s.floorRequests) : s.getFloorRequest r.floorRequestId = some r := by
  obtain ⟨k, hk⟩ := mem_values_iff.1 hr
  rw [hI.key_eq k r hk]
  exact hk

theorem ongoing_of_mem (hI : s.toFloorControl.Inv)
    (hr : r ∈ values s.floorRequests) : r.isGranted = true ∨ r.isUndecided = true := by
  obtain ⟨k, hk⟩ := mem_values_iff.1 hr
  exact hI.ongoing k r hk

/-- The requests a user benefits from. -/
def userFloorRequests (s : Server) (userId : Int) : List FloorRequest :=
  (values s.floorRequests).filter fun r => r.beneficiaryId = userId

theorem effect_revokeUserFloorRequests (hkeyed : s.Keyed) (hI : s.toFloorControl.Inv)
    (userId : Int) :
    Effect s (s.revokeUserFloorRequests userId) ((s.userFloorRequests userId).map .concluded)
      ((s.userFloorRequests userId).map .concluded) := by
  have hids : ((values s.floorRequests).filterMap fun r =>
      if r.beneficiaryId = userId then some r.floorRequestId else none) =
      (s.userFloorRequests userId).map FloorRequest.floorRequestId := by
    unfold userFloorRequests
    induction values s.floorRequests with
    | nil => rfl
    | cons r requests ih =>
      by_cases hr : r.beneficiaryId = userId
      · simp [hr, ih]
      · simp [hr, ih]
  unfold revokeUserFloorRequests
  dsimp only
  rw [hids]
  refine effect_revokeOrDeny_foldl hkeyed _ (fun r hr => ?_) ((pairwise_values hI).filter _)
  have hmem := (List.mem_filter.1 hr).1
  exact ⟨getFloorRequest_of_mem hI hmem, ongoing_of_mem hI hmem⟩

theorem effect_revokeGranted (hkeyed : s.Keyed) (requests : List FloorRequest)
    (hrequests : ∀ r ∈ requests, s.getFloorRequest r.floorRequestId = some r)
    (hdistinct : requests.Pairwise fun r r' => r.floorRequestId ≠ r'.floorRequestId) :
    Effect s (s.revokeGranted requests)
      ((requests.filter FloorRequest.isGranted).map (·.setStatus .revoked))
      ((requests.filter FloorRequest.isGranted).map (·.setStatus .revoked)) := by
  induction requests generalizing s with
  | nil => exact .refl s
  | cons r requests ih =>
    have hr := hrequests r List.mem_cons_self
    obtain ⟨hne, hdistinct⟩ := List.pairwise_cons.1 hdistinct
    have hrest : ∀ r' ∈ requests, s.getFloorRequest r'.floorRequestId = some r' :=
      fun r' hr' => hrequests r' (List.mem_cons_of_mem r hr')
    rw [revokeGranted, List.foldl_cons]
    cases hgranted : r.isGranted with
    | false =>
      rw [if_neg Bool.false_ne_true, List.filter_cons_of_neg (by simp [hgranted])]
      exact ih hkeyed hrest hdistinct
    | true =>
      have hfirst := effect_revokeFloorRequest hkeyed hr hgranted "granted to other user"
      rw [if_pos rfl, List.filter_cons_of_pos hgranted]
      refine hfirst.trans (ih (hfirst.keyed hkeyed) (fun r' hr' => ?_) hdistinct)
      rw [hfirst.getFloorRequest_eq, hrest r' hr']
      intro c hc
      rw [List.mem_singleton.1 hc]
      exact hne r' hr'

theorem effect_setFloorRequest (hongoing : r.status.isOngoing = true) (transactionId : Int) :
    Effect s ((s.setFloorRequest r.floorRequestId r).sendMessage
      (r.createFloorRequestStatus transactionId)) [r] [] := by
  rw [sendMessage_eq]
  refine ⟨rfl, rfl, rfl, rfl, ?_, s.deliveries (r.createFloorRequestStatus transactionId), rfl,
    ?_, floorStatuses_deliveries_floorRequestStatus _ _⟩
  · funext k
    change (s.floorRequests.insert r.floorRequestId r)[k]? = Requests.change s.requests r k
    rw [getElem?_insert_ite, Requests.change, hongoing, Function.update_apply]
    rfl
  · rw [requestStatuses_createFloorRequestStatus, List.flatMap_singleton]

theorem effect_notifyForFloorRequest (hkeyed : s.Keyed) (r : FloorRequest) :
    Effect s (s.notifyForFloorRequest r) [] [r] := by
  rw [notifyForFloorRequest_eq]
  refine ⟨rfl, rfl, rfl, rfl, rfl, (s.notifications r).flatMap s.deliveries, rfl, ?_, ?_⟩
  · exact requestStatuses_notifications r
  · rw [floorStatuses_notifications hkeyed, List.flatMap_singleton]

/-- The changes of granting a request: those in its way are revoked first. -/
def grantChanges (s : Server) (floorRequestId : Int) : List FloorRequest :=
  if s.ending then
    []
  else
    match s.getFloorRequest floorRequestId with
    | none => []
    | some r =>
      if r.canBeGranted then
        ((s.getFloorRequestsForFloors r.floorIds).filter FloorRequest.isGranted).map
          (·.setStatus .revoked) ++ [r.setStatus .granted]
      else
        []

theorem effect_grantFloorRequest (hkeyed : s.Keyed) (hI : s.toFloorControl.Inv)
    (floorRequestId : Int) :
    Effect s (s.grantFloorRequest floorRequestId).1 (s.grantChanges floorRequestId)
      (s.grantChanges floorRequestId) := by
  unfold grantFloorRequest grantChanges
  split
  · exact .refl s
  · cases hr : s.getFloorRequest floorRequestId with
    | none => exact .refl s
    | some r =>
      cases hgrantable : r.canBeGranted with
      | false =>
        simp only [hgrantable, Bool.not_false, Bool.false_eq_true, if_false, if_true]
        exact .refl s
      | true =>
        simp only [hgrantable, Bool.not_true, Bool.false_eq_true, if_false, if_true]
        have hkey : r.floorRequestId = floorRequestId := hI.key_eq _ r hr
        subst hkey
        have hrevoked := effect_revokeGranted hkeyed
          (s.getFloorRequestsForFloors r.floorIds)
          (fun r' hr' => getFloorRequest_of_mem hI (List.mem_filter.1 hr').1)
          ((pairwise_values hI).filter _)
        have hkeyed' := hrevoked.keyed hkeyed
        have hset := effect_setFloorRequest
          (s := s.revokeGranted (s.getFloorRequestsForFloors r.floorIds))
          (r := r.setStatus .granted) rfl 0
        have hnotify := effect_notifyForFloorRequest (hset.keyed hkeyed') (r.setStatus .granted)
        have hall := (hrevoked.trans (hset.trans hnotify)).trans
          (.emit [.onFloorGranted r.floorRequestId
            (r.setStatus .granted).beneficiaryId (r.setStatus .granted).floorIds.toList] rfl rfl)
        simp only [List.append_nil, List.nil_append] at hall
        exact hall

/-- Of a server whose request `r` is gone, the other requests are listed as before. -/
theorem values_perm {t : Server} (hI : s.toFloorControl.Inv) (hI' : t.toFloorControl.Inv)
    (hr : r ∈ values s.floorRequests)
    (hrequests : t.requests = Function.update s.requests r.floorRequestId none) :
    (values s.floorRequests).Perm (r :: values t.floorRequests) := by
  have hget : ∀ k : Int, t.floorRequests[k]? =
      if k = r.floorRequestId then none else s.floorRequests[k]? := by
    intro k
    have hk := congrFun hrequests k
    rw [Function.update_apply] at hk
    exact hk
  have hnodup : ∀ {u : Server}, u.toFloorControl.Inv → (values u.floorRequests).Nodup :=
    fun hu => (pairwise_values hu).imp fun hne heq => hne (congrArg _ heq)
  refine (List.perm_ext_iff_of_nodup (hnodup hI) (List.nodup_cons.2 ⟨?_, hnodup hI'⟩)).2 ?_
  · intro hmem
    have hself := getFloorRequest_of_mem hI' hmem
    rw [getFloorRequest, hget, if_pos rfl] at hself
    cases hself
  · intro r'
    rw [List.mem_cons, mem_values_iff, mem_values_iff]
    constructor
    · intro ⟨k, hk⟩
      by_cases heq : k = r.floorRequestId
      · left
        subst heq
        exact Option.some.inj (hk.symm.trans (getFloorRequest_of_mem hI hr))
      · exact .inr ⟨k, by rw [hget, if_neg heq, hk]⟩
    · rintro (rfl | ⟨k, hk⟩)
      · exact ⟨_, getFloorRequest_of_mem hI hr⟩
      · rw [hget] at hk
        split at hk
        · cases hk
        · exact ⟨k, hk⟩

/-- The loop of `End` revokes or denies all requests. -/
theorem effect_endFloorRequests (hkeyed : s.Keyed) (hI : s.toFloorControl.Inv) {fuel : Nat}
    (hfuel : s.floorRequests.size ≤ fuel) :
    ∃ changes : List FloorRequest,
      changes.Perm ((values s.floorRequests).map .concluded) ∧
      Effect s (endFloorRequests fuel s) changes changes := by
  induction fuel generalizing s with
  | zero =>
    have hnil : s.floorRequests.toList = [] := by
      rw [← List.length_eq_zero_iff, Std.TreeMap.length_toList]
      omega
    refine ⟨[], ?_, .refl s⟩
    rw [values, hnil]
    exact .nil
  | succ fuel ih =>
    rw [endFloorRequests]
    cases hfirst : first? s.floorRequests with
    | none =>
      refine ⟨[], ?_, .refl s⟩
      rw [values, first?_eq_none.1 hfirst]
      exact .nil
    | some entry =>
      obtain ⟨k, r⟩ := entry
      have hk := getElem?_of_first? hfirst
      have hmem : r ∈ values s.floorRequests := mem_values_iff.2 ⟨k, hk⟩
      have hr := getFloorRequest_of_mem hI hmem
      have hongoing := ongoing_of_mem hI hmem
      have hone := effect_revokeOrDeny hkeyed hr hongoing "conference ended"
      have hI' := hI.of_removes (removes_revokeOrDeny (s := s) r "conference ended")
      have hsize := size_revokeOrDeny_lt hr hongoing "conference ended"
      obtain ⟨changes, hperm, hrest⟩ := ih (hone.keyed hkeyed) hI' (by omega)
      refine ⟨r.concluded :: changes, ?_, hone.trans hrest⟩
      have hrequests : (s.revokeOrDeny r "conference ended").requests =
          Function.update s.requests r.floorRequestId none := by
        rw [hone.requests_eq, List.foldl_cons, List.foldl_nil, Requests.change,
          r.isOngoing_concluded]
        rfl
      have hvalues := (values_perm hI hI' hmem hrequests).map FloorRequest.concluded
      rw [List.map_cons] at hvalues
      exact (hperm.cons _).trans hvalues.symm

/-- Whether a request for floors is taken. -/
def acceptsFloorRequest (s : Server) (floorIds : List Int) (beneficiaryId : Option Int) : Bool :=
  floorIds.all s.hasFloor && beneficiaryId.all s.hasUser

/-- The request that is made of a message. -/
def newFloorRequest (s : Server) (header : CommonHeader) (floorIds : List Int)
    (beneficiaryId : Option Int) : FloorRequest :=
  let r := FloorRequest.new s.floorRequestCounter header.userId s.conferenceId
  floorIds.foldl FloorRequest.addFloorId { r with beneficiaryId := beneficiaryId.getD r.beneficiaryId }

/-- The server with a request under the next id. -/
def withFloorRequest (s : Server) (r : FloorRequest) : Server :=
  { s with floorRequestCounter := nextCounter s.floorRequestCounter }.setFloorRequest
    s.floorRequestCounter r

/-- The changes of a request for floors: a chair is granted what he requests. -/
def requestChanges (s : Server) (r : FloorRequest) (isChair : Bool) : List FloorRequest :=
  r :: if isChair then (s.withFloorRequest r).grantChanges r.floorRequestId else []

theorem newFloorRequest_status (header : CommonHeader) (floorIds : List Int)
    (beneficiaryId : Option Int) :
    (s.newFloorRequest header floorIds beneficiaryId).status = .pending :=
  addFloorIds_status _ _

theorem newFloorRequest_floorRequestId (header : CommonHeader) (floorIds : List Int)
    (beneficiaryId : Option Int) :
    (s.newFloorRequest header floorIds beneficiaryId).floorRequestId = s.floorRequestCounter :=
  addFloorIds_floorRequestId _ _

theorem grantChanges_congr {t : Server} (h : t.toFloorControl = s.toFloorControl)
    (floorRequestId : Int) : t.grantChanges floorRequestId = s.grantChanges floorRequestId := by
  unfold grantChanges getFloorRequest getFloorRequestsForFloors
  rw [h]

theorem effect_replyError (header : CommonHeader) (errorCode : ErrorCode) (errorInfo : String) :
    Effect s (s.replyError header errorCode errorInfo) [] [] := by
  unfold replyError
  rw [sendMessage_eq]
  refine .emit _ ?_ ?_
  · unfold deliveries requestStatuses
    dsimp only
    cases Users.transport? s.users header.userId <;> rfl
  · unfold deliveries floorStatuses
    dsimp only
    cases Users.transport? s.users header.userId <;> rfl

theorem effect_processFloorRequest_rejected
    (h : s.acceptsFloorRequest floorIds beneficiaryId = false) (header : CommonHeader)
    (user : User) :
    Effect s (s.processFloorRequest header floorIds beneficiaryId user) [] [] := by
  unfold processFloorRequest
  split
  · exact effect_replyError ..
  case isFalse hfloors =>
    split
    · exact effect_replyError ..
    case isFalse hbeneficiary =>
      simp only [Bool.not_eq_true, Bool.not_eq_false'] at hfloors hbeneficiary
      rw [acceptsFloorRequest, hfloors, hbeneficiary] at h
      cases h

theorem processFloorRequest_of_accepts
    (h : s.acceptsFloorRequest floorIds beneficiaryId = true) (header : CommonHeader)
    (user : User) :
    s.processFloorRequest header floorIds beneficiaryId user =
      let r := s.newFloorRequest header floorIds beneficiaryId
      let t := (s.withFloorRequest r).sendMessage (r.createFloorRequestStatus header.transactionId)
      if user.isChair then
        (t.grantFloorRequest s.floorRequestCounter).1
      else
        t.emit [.onFloorRequest s.floorRequestCounter r.userId r.beneficiaryId
          r.floorIds.toList] := by
  obtain ⟨hfloors, hbeneficiary⟩ := Bool.and_eq_true_iff.1 h
  unfold processFloorRequest
  rw [if_neg (by simp [hfloors]), if_neg (by simp [hbeneficiary])]
  rfl

theorem inv_withFloorRequest (hI : s.toFloorControl.Inv)
    (h : s.acceptsFloorRequest floorIds beneficiaryId = true) (header : CommonHeader) :
    (s.withFloorRequest (s.newFloorRequest header floorIds beneficiaryId)).toFloorControl.Inv := by
  -- a user who is no chair makes the request and nothing else happens
  have hinv := inv_processFloorRequest hI header floorIds beneficiaryId
    { userId := header.userId, conferenceId := s.conferenceId }
  rw [processFloorRequest_of_accepts h] at hinv
  dsimp only at hinv
  rw [if_neg Bool.false_ne_true, toFloorControl_emit, toFloorControl_sendMessage] at hinv
  exact hinv

theorem effect_processFloorRequest (hkeyed : s.Keyed) (hI : s.toFloorControl.Inv)
    (h : s.acceptsFloorRequest floorIds beneficiaryId = true) (header : CommonHeader)
    (user : User) :
    Effect { s with floorRequestCounter := nextCounter s.floorRequestCounter }
      (s.processFloorRequest header floorIds beneficiaryId user)
      (s.requestChanges (s.newFloorRequest header floorIds beneficiaryId) user.isChair)
      (s.requestChanges (s.newFloorRequest header floorIds beneficiaryId) user.isChair).tail := by
  rw [processFloorRequest_of_accepts h]
  have hinv := inv_withFloorRequest hI h header
  have hid := newFloorRequest_floorRequestId (s := s) header floorIds beneficiaryId
  have hstatus := newFloorRequest_status (s := s) header floorIds beneficiaryId
  generalize s.newFloorRequest header floorIds beneficiaryId = r at hinv hid hstatus ⊢
  have hset := effect_setFloorRequest
    (s := { s with floorRequestCounter := nextCounter s.floorRequestCounter }) (r := r)
    (by rw [hstatus]; rfl) header.transactionId
  have hwith : s.withFloorRequest r =
      { s with floorRequestCounter := nextCounter s.floorRequestCounter }.setFloorRequest
        r.floorRequestId r := by
    rw [withFloorRequest, hid]
  rw [← hwith] at hset
  unfold requestChanges
  dsimp only
  rw [hid]
  cases user.isChair with
  | false =>
    rw [if_neg Bool.false_ne_true]
    exact hset.trans (.emit _ rfl rfl)
  | true =>
    rw [if_pos rfl]
    have hframe := toFloorControl_sendMessage (s.withFloorRequest r)
      (r.createFloorRequestStatus header.transactionId)
    have hgrant := effect_grantFloorRequest (hset.keyed hkeyed) (by rw [hframe]; exact hinv)
      s.floorRequestCounter
    rw [grantChanges_congr hframe] at hgrant
    exact hset.trans hgrant

/-- The request that a message releases, with the status it gets. -/
def released (s : Server) (floorRequestId : Int) (user : User) : Option FloorRequest := do
  let r ← s.getFloorRequest floorRequestId
  let status ← releaseStatus r user.userId
  if user.userId = r.userId ∨ user.userId = r.beneficiaryId ∨ user.isChair then
    return r.setStatus status
  none

theorem isOngoing_releaseStatus {userId : Int} {status : RequestStatus}
    (h : releaseStatus r userId = some status) : (r.setStatus status).status.isOngoing = false := by
  unfold releaseStatus at h
  split at h
  · cases h
    rfl
  · split at h
    · split at h <;>
      · cases h
        rfl
    · cases h

/-- The messages that tell of a release: an answer to the user who released the request and, if
another user made it, one to him. -/
def releaseMessages (header : CommonHeader) (released : FloorRequest) (user : User) :
    List ReplyMessage :=
  if user.userId ≠ released.userId then
    [(released.createFloorRequestStatus header.transactionId).setUserId user.userId,
      released.createFloorRequestStatus.setUserId released.userId]
  else
    [(released.createFloorRequestStatus header.transactionId).setUserId user.userId]

theorem requestStatuses_setUserId (released : FloorRequest) (transactionId userId : Int) :
    requestStatuses
        (s.deliveries ((released.createFloorRequestStatus transactionId).setUserId userId)) =
      if userId = released.userId then Users.requestStatus s.users released else [] := by
  rw [FloorRequest.createFloorRequestStatus, ReplyMessage.setUserId,
    requestStatuses_deliveries_floorRequestStatus, requestedBy_setDescription,
    withoutDescription_setDescription]
  dsimp only
  split
  case isTrue h => rw [h, Users.requestStatus]
  case isFalse => rfl

theorem requestStatuses_release (header : CommonHeader) (released : FloorRequest) (user : User) :
    requestStatuses ((releaseMessages header released user).flatMap s.deliveries) =
      Users.requestStatus s.users released := by
  unfold releaseMessages
  split
  case isTrue hne =>
    rw [List.flatMap_cons, List.flatMap_singleton, requestStatuses_append,
      requestStatuses_setUserId, requestStatuses_setUserId, if_neg hne, if_pos rfl, List.nil_append]
  case isFalse heq =>
    rw [List.flatMap_singleton, requestStatuses_setUserId, if_pos (not_not.1 heq)]

theorem floorStatuses_release (header : CommonHeader) (released : FloorRequest) (user : User) :
    floorStatuses ((releaseMessages header released user).flatMap s.deliveries) = [] := by
  have hone : ∀ transactionId userId, floorStatuses
      (s.deliveries ((released.createFloorRequestStatus transactionId).setUserId userId)) = [] :=
    fun _ _ => floorStatuses_deliveries_floorRequestStatus _ _
  unfold releaseMessages
  split
  · rw [List.flatMap_cons, List.flatMap_singleton, floorStatuses_append, hone, hone, List.nil_append]
  · rw [List.flatMap_singleton, hone]

theorem effect_processFloorRelease (hkeyed : s.Keyed) (hI : s.toFloorControl.Inv)
    (header : CommonHeader) (floorRequestId : Int) (user : User) :
    Effect s (s.processFloorRelease header floorRequestId user)
      (s.released floorRequestId user).toList (s.released floorRequestId user).toList := by
  unfold processFloorRelease released
  cases hr : s.getFloorRequest floorRequestId with
  | none => exact effect_replyError ..
  | some r =>
    dsimp only [Option.bind_eq_bind, Option.bind_some]
    have hkey : r.floorRequestId = floorRequestId := hI.key_eq _ r hr
    by_cases hallowed : user.userId = r.userId ∨ user.userId = r.beneficiaryId ∨ user.isChair = true
    case neg =>
      have hrefused : user.userId ≠ r.userId ∧ user.userId ≠ r.beneficiaryId ∧
          (!user.isChair) = true := by
        simpa [not_or] using hallowed
      rw [if_pos hrefused]
      cases releaseStatus r user.userId with
      | none => exact effect_replyError ..
      | some status =>
        rw [Option.bind_some, if_neg hallowed]
        exact effect_replyError ..
    case pos =>
      have hnot : ¬ (user.userId ≠ r.userId ∧ user.userId ≠ r.beneficiaryId ∧
          (!user.isChair) = true) := by
        rintro ⟨hne, hne', hchair⟩
        simp [hne, hne'] at hallowed
        simp [hallowed] at hchair
      rw [if_neg hnot]
      cases hstatus : releaseStatus r user.userId with
      | none => exact effect_replyError ..
      | some status =>
        have hended := isOngoing_releaseStatus hstatus
        rw [Option.bind_some, if_pos hallowed]
        have hconclude := effect_conclude hkeyed (r := r.setStatus status) hended
          _ (requestStatuses_release header (r.setStatus status) user)
          (floorStatuses_release header (r.setStatus status) user)
        subst hkey
        dsimp only
        split
        · exact hconclude.trans (.emit _ rfl rfl)
        · exact hconclude

end Operations

end Server

end Bfcp

end McuMediaServer
