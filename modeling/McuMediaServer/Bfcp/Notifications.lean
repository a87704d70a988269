import McuMediaServer.Bfcp.RequestMap
import Mathlib.Data.List.Pairwise

/-!
# Who hears of a status change

When requests change their status, the users who made them are told and so are those who asked about
their floors. The file says for which steps of a server this is so: those who asked about a floor do
not hear of a new request for it, and a user who is removed does not hear of his own requests.
-/

namespace McuMediaServer

namespace Bfcp

open OrderedMap StepRun

variable {a : Action} {r : FloorRequest} {c : FloorRequest}

namespace Server

/-- The users by whose connections the status of their requests can be told in a step. -/
def reached (s : Server) : Action → Users
  | .userDisconnected userId _ => s.users.modify userId fun user => { user with transport := none }
  | _ => s.users

/-- The requests take the changes of the step, the user who made such a request is told its new
status, once if he is connected, and so is every connected user who asked about a floor of it, once
for each of these floors, and no one else. -/
structure Notified (s : Server) (a : Action) (out : List Output) : Prop where
  outputs : (s.step a).outputs = s.outputs ++ out
  requests : (s.step a).requests = (s.changes a).foldl Requests.change s.requests
  requestStatuses_nodup : (requestStatuses out).Nodup
  mem_requestStatuses : ∀ m, m ∈ requestStatuses out ↔ ∃ r ∈ s.changes a, ∃ transport,
    (s.reached a).transport? r.userId = some transport ∧
      m = (transport, r.createFloorRequestInformation)
  floorStatuses_nodup : (floorStatuses out).Nodup
  mem_floorStatuses : ∀ m, m ∈ floorStatuses out ↔ ∃ r ∈ s.changes a,
    ∃ user ∈ values (s.prepared a).users, ∃ transport floorId,
      user.transport = some transport ∧ r.hasFloorId floorId = true ∧
      user.hasQueriedFloorId floorId = true ∧
      m = (transport, floorStatusMessage s.conferenceId user.userId floorId r)

/-- No connected user asked about a floor of a request that is made, and a user who is removed while
he is connected made none of the requests he benefits from. -/
structure AllHear (s : Server) (a : Action) : Prop where
  requested : ∀ r, s.requested a = some r → ∀ user ∈ values s.users, user.isConnected = true →
    ∀ floorId, r.hasFloorId floorId = true → user.hasQueriedFloorId floorId = false
  removed : ∀ userId, a = .removeUser userId → (Users.transport? s.users userId).isSome = true →
    ∀ r ∈ s.userFloorRequests userId, r.userId ≠ userId

/-! ## The changes of a step are different -/

/-- Two changes that can be told apart. -/
def Differ (c c' : FloorRequest) : Prop :=
  c.floorRequestId ≠ c'.floorRequestId ∨ c.status ≠ c'.status

theorem Differ.information_ne {c c' : FloorRequest} (h : Differ c c') :
    c.createFloorRequestInformation ≠ c'.createFloorRequestInformation := by
  intro heq
  rcases h with hid | hstatus
  · exact hid (congrArg FloorRequestInformation.floorRequestId heq)
  · exact hstatus (congrArg (fun i => i.overallRequestStatus.status) heq)

section Differ

variable {s : Server}

theorem pairwise_map_differ {requests : List FloorRequest} {f : FloorRequest → FloorRequest}
    (hf : ∀ r, (f r).floorRequestId = r.floorRequestId)
    (h : requests.Pairwise fun r r' => r.floorRequestId ≠ r'.floorRequestId) :
    (requests.map f).Pairwise Differ := by
  rw [List.pairwise_map]
  refine h.imp fun {r r'} hne => .inl ?_
  rw [hf, hf]
  exact hne

theorem pairwise_grantChanges (hI : s.toFloorControl.Inv) (floorRequestId : Int) :
    (s.grantChanges floorRequestId).Pairwise Differ := by
  unfold grantChanges
  split
  · exact .nil
  · split
    · exact .nil
    · split
      · refine List.pairwise_append.2 ⟨?_, List.pairwise_singleton _ _, ?_⟩
        · exact pairwise_map_differ (fun _ => rfl) (((pairwise_values hI).filter _).filter _)
        · intro c hc c' hc'
          obtain ⟨r, -, rfl⟩ := List.mem_map.1 hc
          rw [List.mem_singleton.1 hc']
          exact .inr (fun h => nomatch h)
      · exact .nil

theorem status_of_mem_grantChanges {floorRequestId : Int}
    (hc : c ∈ s.grantChanges floorRequestId) : c.status ≠ .pending := by
  unfold grantChanges at hc
  split at hc
  · cases hc
  · split at hc
    · cases hc
    · split at hc
      · rcases List.mem_append.1 hc with hc | hc
        · obtain ⟨r, -, rfl⟩ := List.mem_map.1 hc
          exact fun h => nomatch h
        · rw [List.mem_singleton.1 hc]
          exact fun h => nomatch h
      · cases hc

theorem pairwise_userChanges (hI : s.toFloorControl.Inv) (a : Action) :
    (s.userChanges a).Pairwise Differ := by
  unfold userChanges
  split
  · exact pairwise_map_differ (fun _ => rfl) ((pairwise_values hI).filter _)
  · exact .nil

theorem pairwise_toList {R : FloorRequest → FloorRequest → Prop} (x : Option FloorRequest) :
    x.toList.Pairwise R := by
  cases x with
  | none => exact .nil
  | some r => exact List.pairwise_singleton _ _

theorem inv_of_requested (hI : s.toFloorControl.Inv) (h : s.requested a = some r) :
    (s.withFloorRequest r).toFloorControl.Inv ∧ r.status = .pending := by
  cases a with
  | messageReceived msg =>
    obtain ⟨header, body⟩ := msg
    cases body with
    | floorRequest floorIds beneficiaryId =>
      rw [requested_floorRequest] at h
      split at h
      case isTrue haccepts =>
        cases h
        exact ⟨inv_withFloorRequest hI (Bool.and_eq_true_iff.1 haccepts).2 header,
          newFloorRequest_status ..⟩
      case isFalse => cases h
    | _ => cases h
  | _ => cases h

theorem pairwise_changes (hI : s.toFloorControl.Inv) (a : Action) :
    (s.changes a).Pairwise Differ := by
  cases a with
  | grantFloorRequest floorRequestId => exact pairwise_grantChanges hI floorRequestId
  | denyFloorRequest floorRequestId statusInfo =>
    exact pairwise_map_differ (fun _ => rfl) (pairwise_toList _)
  | revokeFloorRequest floorRequestId statusInfo =>
    exact pairwise_map_differ (fun _ => rfl) (pairwise_toList _)
  | end_ =>
    rw [changes_end]
    split
    · exact .nil
    · exact pairwise_map_differ (fun _ => rfl) (pairwise_values hI)
  | messageReceived msg =>
    obtain ⟨header, body⟩ := msg
    cases body with
    | floorRequest floorIds beneficiaryId =>
      rw [changes_floorRequest]
      cases hr : s.requested (.messageReceived ⟨header, .floorRequest floorIds beneficiaryId⟩) with
      | none => exact .nil
      | some r =>
        rw [Option.toList_some, List.flatMap_singleton, requestChanges]
        obtain ⟨hinv, hpending⟩ := inv_of_requested hI hr
        refine List.pairwise_cons.2 ⟨fun c hc => .inr ?_, ?_⟩
        · split at hc
          · rw [hpending]
            exact (status_of_mem_grantChanges hc).symm
          · cases hc
        · split
          · exact pairwise_grantChanges hinv _
          · exact .nil
    | floorRelease floorRequestId =>
      rw [changes_floorRelease]
      split
      · exact .nil
      · cases s.getUser header.userId with
        | none => exact .nil
        | some user =>
          rw [Option.toList_some, List.flatMap_singleton]
          exact pairwise_toList _
    | _ => exact .nil
  | removeUser userId => exact pairwise_userChanges hI _
  | userConnected userId transport => exact pairwise_userChanges hI _
  | userDisconnected userId closedByServer => exact pairwise_userChanges hI _
  | disconnectUser userId code reason => exact pairwise_userChanges hI _
  | _ => exact .nil

end Differ

/-! ## What users are told -/

section Told

variable {users : Users} {conferenceId : Int} {changes : List FloorRequest}

theorem mem_requestStatus {m : Nat × FloorRequestInformation} :
    m ∈ users.requestStatus r ↔ ∃ transport, users.transport? r.userId = some transport ∧
      m = (transport, r.createFloorRequestInformation) := by
  unfold Users.requestStatus
  rw [List.mem_map]
  constructor
  · rintro ⟨transport, htransport, rfl⟩
    exact ⟨transport, Option.mem_toList.1 htransport, rfl⟩
  · rintro ⟨transport, htransport, rfl⟩
    exact ⟨transport, Option.mem_toList.2 htransport, rfl⟩

theorem mem_floorStatus {m : Nat × ReplyMessage} :
    m ∈ users.floorStatus conferenceId r ↔ ∃ user ∈ values users, ∃ transport floorId,
      user.transport = some transport ∧ r.hasFloorId floorId = true ∧
      user.hasQueriedFloorId floorId = true ∧
      m = (transport, floorStatusMessage conferenceId user.userId floorId r) := by
  unfold Users.floorStatus
  rw [List.mem_flatMap]
  constructor
  · rintro ⟨user, huser, hm⟩
    obtain ⟨transport, htransport, hm⟩ := List.mem_flatMap.1 hm
    obtain ⟨floorId, hfloor, rfl⟩ := List.mem_map.1 hm
    obtain ⟨hfloor, hqueried⟩ := List.mem_filter.1 hfloor
    refine ⟨user, huser, transport, floorId, Option.mem_toList.1 htransport, ?_, hqueried, rfl⟩
    exact Std.TreeSet.contains_iff_mem.2 (Std.TreeSet.mem_toList.1 hfloor)
  · rintro ⟨user, huser, transport, floorId, htransport, hfloor, hqueried, rfl⟩
    refine ⟨user, huser, List.mem_flatMap.2 ⟨transport, Option.mem_toList.2 htransport, ?_⟩⟩
    refine List.mem_map.2 ⟨floorId, List.mem_filter.2 ⟨?_, hqueried⟩, rfl⟩
    exact Std.TreeSet.mem_toList.2 (Std.TreeSet.contains_iff_mem.1 hfloor)

theorem nodup_toList_treeSet (floorIds : Std.TreeSet Int) : floorIds.toList.Nodup := by
  refine floorIds.distinct_toList.imp fun {a b} hab heq => ?_
  rw [heq] at hab
  exact hab Std.ReflCmp.compare_self

theorem nodup_requestStatuses (hchanges : changes.Pairwise Differ) :
    (changes.flatMap users.requestStatus).Nodup := by
  refine List.nodup_flatMap.2 ⟨fun r _ => ?_, hchanges.imp fun {r r'} hdiffer => ?_⟩
  · unfold Users.requestStatus
    cases users.transport? r.userId with
    | none => exact List.nodup_nil
    | some transport => exact List.nodup_singleton _
  · intro m hm hm'
    obtain ⟨transport, -, rfl⟩ := mem_requestStatus.1 hm
    obtain ⟨transport', -, heq⟩ := mem_requestStatus.1 hm'
    exact hdiffer.information_ne (Prod.mk.inj heq).2

theorem nodup_floorStatuses (hkeyed : ∀ (k : Int) user, users[k]? = some user → user.userId = k)
    (hchanges : changes.Pairwise Differ) :
    (changes.flatMap (users.floorStatus conferenceId)).Nodup := by
  have husers : (values users).Pairwise fun user user' => user.userId ≠ user'.userId := by
    rw [values, List.pairwise_map]
    refine users.distinct_keys_toList.imp_of_mem fun {a b} ha hb hab => ?_
    rw [hkeyed a.1 a.2 (mem_toList_iff.1 ha), hkeyed b.1 b.2 (mem_toList_iff.1 hb)]
    exact fun heq => hab (Std.LawfulEqOrd.compare_eq_iff_eq.2 heq)
  refine List.nodup_flatMap.2 ⟨fun r _ => ?_, hchanges.imp fun {r r'} hdiffer => ?_⟩
  · refine List.nodup_flatMap.2 ⟨fun user _ => ?_, husers.imp fun {user user'} hne => ?_⟩
    · cases user.transport with
      | none => exact List.nodup_nil
      | some transport =>
        rw [Option.toList_some, List.flatMap_singleton]
        refine ((nodup_toList_treeSet r.floorIds).filter _).map fun floorId floorId' heq => ?_
        have hbody := congrArg ReplyMessage.body (Prod.mk.inj heq).2
        injection hbody with hfloor
        exact Option.some.inj hfloor
    · intro m hm hm'
      obtain ⟨transport, -, hm⟩ := List.mem_flatMap.1 hm
      obtain ⟨floorId, -, rfl⟩ := List.mem_map.1 hm
      obtain ⟨transport', -, hm'⟩ := List.mem_flatMap.1 hm'
      obtain ⟨floorId', -, heq⟩ := List.mem_map.1 hm'
      exact hne (congrArg (fun msg => msg.header.userId) (Prod.mk.inj heq).2).symm
  · intro m hm hm'
    obtain ⟨user, -, transport, floorId, -, -, -, rfl⟩ := mem_floorStatus.1 hm
    obtain ⟨user', -, transport', floorId', -, -, -, heq⟩ := mem_floorStatus.1 hm'
    have hbody := congrArg ReplyMessage.body (Prod.mk.inj heq).2
    injection hbody with _ hinformations
    exact hdiffer.information_ne (List.cons.inj hinformations).1

end Told

/-! ## One step -/

section Step

variable {s : Server}

theorem foldl_change_perm {changes changes' : List FloorRequest} (hperm : changes.Perm changes')
    (hdistinct : changes'.Pairwise fun c c' => c.floorRequestId ≠ c'.floorRequestId)
    (requests : Requests) :
    changes.foldl Requests.change requests = changes'.foldl Requests.change requests := by
  have hdistinct' := hdistinct.perm hperm.symm fun hne => hne.symm
  refine hperm.foldl_eq' (fun c hc c' hc' z => ?_) requests
  by_cases heq : c = c'
  · rw [heq]
  · have hne : c.floorRequestId ≠ c'.floorRequestId :=
      have : Std.Symm fun c c' : FloorRequest => c.floorRequestId ≠ c'.floorRequestId :=
        ⟨fun _ _ hne => hne.symm⟩
      hdistinct'.forall hc hc' heq
    exact Function.update_comm hne _ _ z

theorem transport?_resetQueriedFloorIds (users : Users) (userId k : Int) :
    Users.transport? (users.modify userId User.resetQueriedFloorIds) k = users.transport? k := by
  unfold Users.transport?
  rw [Std.TreeMap.getElem?_modify]
  split
  case isTrue hk =>
    obtain rfl := Std.LawfulEqOrd.eq_of_compare hk
    cases users[userId]? with
    | none => rfl
    | some user => rfl
  case isFalse => rfl

theorem transport?_prepared {k : Int} (hk : a ≠ .removeUser k) :
    Users.transport? (s.prepared a).users k = (s.reached a).transport? k := by
  cases a with
  | removeUser userId =>
    have hne : k ≠ userId := fun heq => hk (by rw [heq])
    change Users.transport? (s.users.erase userId) k = Users.transport? s.users k
    unfold Users.transport?
    rw [getElem?_erase_ite, if_neg hne]
  | userConnected userId transport => exact transport?_resetQueriedFloorIds _ userId k
  | userDisconnected userId closedByServer => exact transport?_resetQueriedFloorIds _ userId k
  | disconnectUser userId code reason => exact transport?_resetQueriedFloorIds _ userId k
  | messageReceived msg =>
    rcases prepared_messageReceived_eq (s := s) msg with h | h
    · rw [h]
      rfl
    · rw [h]
      rfl
  | _ => rfl

theorem transport?_prepared_removeUser (userId : Int) :
    Users.transport? (s.prepared (.removeUser userId)).users userId = none := by
  change Users.transport? (s.users.erase userId) userId = none
  unfold Users.transport?
  rw [getElem?_erase_ite, if_pos rfl]
  rfl

theorem foldl_changes_perm (hI : s.toFloorControl.Inv) {changes : List FloorRequest}
    (hperm : changes.Perm (s.changes a)) (heq : a ≠ .end_ → changes = s.changes a)
    (requests : Requests) :
    changes.foldl Requests.change requests = (s.changes a).foldl Requests.change requests := by
  by_cases ha : a = .end_
  · subst ha
    refine foldl_change_perm hperm ?_ requests
    rw [changes_end]
    split
    · exact .nil
    · rw [List.pairwise_map]
      exact pairwise_values hI
  · rw [heq ha]

theorem keyed_prepared (hkeyed : s.Keyed) (a : Action) : (s.prepared a).Keyed := by
  cases a with
  | removeUser userId => exact keyed_erase hkeyed userId
  | userConnected userId transport => exact keyed_updateUser hkeyed _ fun _ => rfl
  | userDisconnected userId closedByServer =>
    exact keyed_updateUser (f := User.resetQueriedFloorIds)
      (keyed_updateUser (f := fun user => { user with transport := none }) hkeyed _ fun _ => rfl)
      _ fun _ => rfl
  | disconnectUser userId code reason => exact keyed_updateUser hkeyed _ fun _ => rfl
  | messageReceived msg =>
    rcases prepared_messageReceived_eq (s := s) msg with h | h
    · rw [h]
      exact hkeyed
    · rw [h]
      exact hkeyed
  | _ => exact hkeyed

theorem exists_told (h : Sound s) (ha : isFloorQuery a = false) :
    ∃ out, (s.step a).outputs = s.outputs ++ out ∧
      (s.step a).requests = (s.changes a).foldl Requests.change s.requests ∧
      (requestStatuses out).Perm
        ((s.changes a).flatMap (Users.requestStatus (s.prepared a).users)) ∧
      (floorStatuses out).Perm
        ((s.heard a).flatMap (Users.floorStatus (s.prepared a).users s.conferenceId)) := by
  obtain ⟨changes, told, hperm, htold, heq, u, heffect, hsilent⟩ := takes_step h.good.inv h.keyed ha
  obtain ⟨out, hout, hrequest, hfloor⟩ := heffect.outputs
  obtain ⟨rest, hrest, hrequest', hfloor'⟩ := hsilent.outputs
  refine ⟨out ++ rest, ?_, ?_, ?_, ?_⟩
  · rw [hrest, hout, outputs_prepared, List.append_assoc]
  · rw [hsilent.requests_eq, heffect.requests_eq, requests_prepared]
    exact foldl_changes_perm h.good.inv hperm heq _
  · rw [requestStatuses_append, hrequest, hrequest', List.append_nil]
    exact hperm.flatMap_right _
  · rw [floorStatuses_append, hfloor, hfloor', List.append_nil, conferenceId_prepared]
    exact htold.flatMap_right _

theorem mem_changes_removeUser {userId : Int} : c ∈ s.changes (.removeUser userId) ↔
      s.concludesUser (.removeUser userId) = some userId ∧
        ∃ r ∈ s.userFloorRequests userId, r.concluded = c := by
  change c ∈ s.userChanges (.removeUser userId) ↔ _
  unfold userChanges concludesUser
  dsimp only
  by_cases hcond : (!s.ending && s.hasUser userId) = true
  · simp [hcond]
  · simp [hcond]

theorem transport?_of_allHear (hall : AllHear s a) (hc : c ∈ s.changes a) :
    Users.transport? (s.prepared a).users c.userId = (s.reached a).transport? c.userId := by
  by_cases ha : a = .removeUser c.userId
  · obtain ⟨-, r, hr, hconcluded⟩ := mem_changes_removeUser.1 (ha ▸ hc)
    have huser : r.userId = c.userId := by rw [← hconcluded]; rfl
    have hnone : Users.transport? s.users c.userId = none := by
      rw [← Option.not_isSome_iff_eq_none]
      exact fun hsome => hall.removed c.userId ha hsome r hr huser
    rw [ha, transport?_prepared_removeUser]
    exact hnone.symm
  · exact transport?_prepared ha

theorem changes_of_requested (hr : s.requested a = some r) :
    ∃ rest, s.changes a = r :: rest ∧ s.heard a = rest ∧ (∀ c ∈ rest, c.status ≠ .pending) ∧
      (s.prepared a).users = s.users := by
  have hheard (rest : List FloorRequest) (h : s.changes a = r :: rest) : s.heard a = rest := by
    rw [heard, hr, h]
    rfl
  cases a with
  | messageReceived msg =>
    have husers : (s.prepared (.messageReceived msg)).users = s.users := by
      rcases prepared_messageReceived_eq (s := s) msg with h | h <;> rw [h]
    obtain ⟨header, body⟩ := msg
    cases body with
    | floorRequest floorIds beneficiaryId =>
      have hchanges := s.changes_floorRequest header floorIds beneficiaryId
      rw [hr, Option.toList_some, List.flatMap_singleton, requestChanges] at hchanges
      refine ⟨_, hchanges, hheard _ hchanges, fun c hc => ?_, husers⟩
      split at hc
      · exact status_of_mem_grantChanges hc
      · cases hc
    | _ => cases hr
  | _ => cases hr

theorem heard_sublist (a : Action) : (s.heard a).Sublist (s.changes a) := by
  unfold heard
  split
  · exact List.tail_sublist _
  · exact List.Sublist.refl _

theorem mem_heard_iff (hall : AllHear s a) {m : Nat × ReplyMessage} :
    m ∈ (s.heard a).flatMap (Users.floorStatus (s.prepared a).users s.conferenceId) ↔
      ∃ r ∈ s.changes a, m ∈ Users.floorStatus (s.prepared a).users s.conferenceId r := by
  rw [List.mem_flatMap]
  cases hr : s.requested a with
  | none =>
    rw [heard, hr]
    rfl
  | some r =>
    obtain ⟨rest, hchanges, hheard, -, husers⟩ := changes_of_requested hr
    have hnone : m ∉ Users.floorStatus (s.prepared a).users s.conferenceId r := by
      intro hm
      obtain ⟨user, huser, transport, floorId, htransport, hfloor, hqueried, -⟩ :=
        mem_floorStatus.1 hm
      rw [husers] at huser
      have hconnected : user.isConnected = true := by
        rw [User.isConnected, htransport]
        rfl
      rw [hall.requested r hr user huser hconnected floorId hfloor] at hqueried
      cases hqueried
    rw [hheard, hchanges]
    simp [hnone]

theorem requested_of_notified {out : List Output} (hnotified : Notified s a out)
    (hfloor : (floorStatuses out).Perm
      ((s.heard a).flatMap (Users.floorStatus (s.prepared a).users s.conferenceId)))
    (hr : s.requested a = some r) {user : User} (huser : user ∈ values s.users)
    (hconnected : user.isConnected = true) {floorId : Int} (hfloorId : r.hasFloorId floorId = true)
    (hpending : r.status = .pending) : user.hasQueriedFloorId floorId = false := by
  obtain ⟨rest, hchanges, hheard, hrest, husers⟩ := changes_of_requested hr
  obtain ⟨transport, htransport⟩ := Option.isSome_iff_exists.1 hconnected
  rw [← Bool.not_eq_true]
  intro hqueried
  have hmem := (hnotified.mem_floorStatuses
    (transport, floorStatusMessage s.conferenceId user.userId floorId r)).2
    ⟨r, by rw [hchanges]; exact List.mem_cons_self, user, by rw [husers]; exact huser, transport,
      floorId, htransport, hfloorId, hqueried, rfl⟩
  rw [hfloor.mem_iff, hheard] at hmem
  obtain ⟨c, hc, hm⟩ := List.mem_flatMap.1 hmem
  obtain ⟨user', -, transport', floorId', -, -, -, heq⟩ := mem_floorStatus.1 hm
  have hbody := congrArg ReplyMessage.body (Prod.mk.inj heq).2
  injection hbody with _ hinformations
  have hdiffer : Differ r c := .inr fun hstatus => hrest c hc (hstatus.symm.trans hpending)
  exact hdiffer.information_ne (List.cons.inj hinformations).1

theorem removed_of_notified (h : Sound s) {userId : Int} {out : List Output}
    (hnotified : Notified s (.removeUser userId) out)
    (hrequest : (requestStatuses out).Perm ((s.changes (.removeUser userId)).flatMap
      (Users.requestStatus (s.prepared (.removeUser userId)).users)))
    (hconnected : (Users.transport? s.users userId).isSome = true)
    (hr : r ∈ s.userFloorRequests userId) : r.userId ≠ userId := by
  intro huser
  obtain ⟨transport, htransport⟩ := Option.isSome_iff_exists.1 hconnected
  have hconcludes : s.concludesUser (.removeUser userId) = some userId := by
    have hending : s.ending = false := by
      rw [← Bool.not_eq_true]
      intro hending
      obtain ⟨k, hk⟩ := mem_values_iff.1 (List.mem_filter.1 hr).1
      rw [h.good.ended hending] at hk
      cases hk
    have hhas : s.hasUser userId = true := by
      unfold Users.transport? at htransport
      obtain ⟨user, hget, -⟩ := Option.bind_eq_some_iff.1 htransport
      rw [hasUser, getUser, hget]
      rfl
    simp [concludesUser, hending, hhas]
  have hmem := (hnotified.mem_requestStatuses (transport,
    r.concluded.createFloorRequestInformation)).2 ⟨r.concluded,
      mem_changes_removeUser.2 ⟨hconcludes, r, hr, rfl⟩, transport, by
        change Users.transport? s.users r.userId = some transport
        rw [huser]
        exact htransport, rfl⟩
  rw [hrequest.mem_iff] at hmem
  obtain ⟨c, hc, hm⟩ := List.mem_flatMap.1 hmem
  obtain ⟨transport', htransport', heq⟩ := mem_requestStatus.1 hm
  have hcuser : r.userId = c.userId :=
    congrArg FloorRequestInformation.requestedBy (Prod.mk.inj heq).2
  rw [← hcuser, huser, transport?_prepared_removeUser] at htransport'
  cases htransport'

/-- **Step lemma.** Everybody who should hear of the changes of a step does so exactly if nobody
asked about a request that is made and no removed user loses the status of his own requests. -/
theorem notified_iff_allHear (h : Sound s) (ha : isFloorQuery a = false) :
    (∃ out, Notified s a out) ↔ AllHear s a := by
  obtain ⟨out, houtputs, hrequests, hrequest, hfloor⟩ := exists_told h ha
  have hdiffer := pairwise_changes h.good.inv a
  constructor
  · intro ⟨out', hnotified⟩
    have heq : out' = out := List.append_cancel_left (hnotified.outputs.symm.trans houtputs)
    subst heq
    refine ⟨fun r hr user huser hconnected floorId hfloorId => ?_, fun userId heq hconnected r hr => ?_⟩
    · exact requested_of_notified hnotified hfloor hr huser hconnected hfloorId
        (inv_of_requested h.good.inv hr).2
    · subst heq
      exact removed_of_notified h hnotified hrequest hconnected hr
  · intro hall
    refine ⟨out, houtputs, hrequests, ?_, fun m => ?_, ?_, fun m => ?_⟩
    · exact hrequest.nodup_iff.2 (nodup_requestStatuses hdiffer)
    · rw [hrequest.mem_iff, List.mem_flatMap]
      refine exists_congr fun r => and_congr_right fun hr => ?_
      rw [mem_requestStatus, transport?_of_allHear hall hr]
    · exact hfloor.nodup_iff.2
        (nodup_floorStatuses (keyed_prepared h.keyed a) (hdiffer.sublist (heard_sublist a)))
    · rw [hfloor.mem_iff, mem_heard_iff hall]
      exact exists_congr fun r => and_congr_right fun _ => mem_floorStatus

end Step

/-! ## All runs -/

theorem meets_of_sound {C D : Server → Action → Prop} {conferenceId : Int} {actions : List Action}
    (h : ∀ s a, Sound s → C s a → D s a) (hm : Meets step C (new conferenceId) actions) :
    Meets step D (new conferenceId) actions :=
  Meets.of_invariant (I := fun _ s => Sound s) (sound_new conferenceId)
    (fun _ a hs _ => sound_step hs a) (fun _ a hs hC => h _ a hs hC) actions hm

theorem allHear_of_notified {conferenceId : Int} {actions : List Action}
    (hm : Meets step (fun s a => isFloorQuery a = false → ∃ out, Notified s a out)
      (new conferenceId) actions) :
    Meets step (fun s a => isFloorQuery a = false → AllHear s a) (new conferenceId) actions :=
  meets_of_sound (fun _ _ h hC ha => (notified_iff_allHear h ha).1 (hC ha)) hm

/-- **Notifications.** Along a run everybody who should hear of the changes of each step, other than
a query, does so exactly if along the run nobody asked about a request at the time it is made, and
no user is removed who made a request that he benefits from. -/
theorem notified_iff (conferenceId : Int) (actions : List Action) :
    Meets step (fun s a => isFloorQuery a = false → ∃ out, Notified s a out) (new conferenceId)
        actions ↔
      Meets step (fun s a => isFloorQuery a = false → AllHear s a) (new conferenceId) actions := by
  constructor
  · exact allHear_of_notified
  · exact meets_of_sound fun s a h hC ha => (notified_iff_allHear h ha).2 (hC ha)

/-- User 1 is connected and asks about floor 1, then user 2 requests it: user 1 does not hear of the
request. -/
theorem not_notified_floorRequest :
    ¬ Meets step (fun s a => isFloorQuery a = false → ∃ out, Notified s a out) (new 1)
      [.addUser 1, .addUser 2, .addFloor 1, .userConnected 1 7,
        .messageReceived ⟨⟨1, 1, 1⟩, .floorQuery [1]⟩,
        .messageReceived ⟨⟨1, 1, 2⟩, .floorRequest [1] none⟩] := by
  intro h
  obtain ⟨-, -, -, -, -, h, -⟩ := allHear_of_notified h
  have hqueried := (h rfl).requested _
    ((requested_floorRequest _ ⟨1, 1, 2⟩ [1] none).trans (if_pos (by decide)))
    { userId := 1, conferenceId := 1, transport := some 7, queriedFloorIds := [1] } (by decide) rfl
    1 ((addFloorIds_hasFloorId [1] _ 1).2 (.inl List.mem_cons_self))
  cases hqueried

end Server

end Bfcp

end McuMediaServer
