import McuMediaServer.Bfcp.Steps
import Mathlib.Data.List.Nodup

/-!
# The requests and users of a server

What holds of the requests a server keeps and of its users in every state it can reach, and of the
ids the requests are given. The counter of the ids has 32 bits, so ids are given again once it has
gone round.
-/

namespace McuMediaServer

namespace Bfcp

open OrderedMap StepRun

variable {r : FloorRequest} {a : Action} {c : FloorRequest}

namespace Server

/-! ## Users -/

/-- The ids of the users and who of them is chair. -/
def roles (s : Server) : Int → Option (Int × Bool) :=
  fun k => s.users[k]?.map fun user => (user.userId, user.isChair)

section Roles

variable {s t : Server}

theorem roles_updateUser (userId : Int) {f : User → User}
    (hf : ∀ user, (f user).userId = user.userId ∧ (f user).isChair = user.isChair) :
    (s.updateUser userId f).roles = s.roles := by
  funext k
  change ((s.users.modify userId f)[k]?).map _ = _
  rw [Std.TreeMap.getElem?_modify]
  split
  case isTrue hk =>
    obtain rfl := Std.LawfulEqOrd.eq_of_compare hk
    rw [roles, Option.map_map]
    cases s.users[userId]? with
    | none => rfl
    | some user => simp [hf user]
  case isFalse => rfl

theorem roles_resetQueriedFloorIds (userId : Int) :
    (s.updateUser userId User.resetQueriedFloorIds).roles = s.roles :=
  roles_updateUser userId fun _ => ⟨rfl, rfl⟩

theorem roles_setTransport (userId : Int) (transport : Option Nat) :
    (s.updateUser userId fun user => { user with transport := transport }).roles = s.roles :=
  roles_updateUser userId fun _ => ⟨rfl, rfl⟩

theorem roles_of_users_eq (h : t.users = s.users) : t.roles = s.roles := by
  unfold roles
  rw [h]

theorem roles_closeTransport (userId : Int) (code : Nat) (reason : String) :
    (s.closeTransport userId code reason).roles = s.roles := by
  unfold closeTransport
  split
  · exact roles_setTransport userId none
  · rfl

theorem hasUser_eq (userId : Int) : s.hasUser userId = (s.roles userId).isSome := by
  unfold hasUser getUser roles
  rw [Option.isSome_map]

theorem hasUser_of_roles {userId : Int} {role : Int × Bool} (h : s.roles userId = some role) :
    s.hasUser userId = true := by
  rw [hasUser_eq, h]
  rfl

theorem Effect.roles {changes told : List FloorRequest} (h : Effect s t changes told) :
    t.roles = s.roles :=
  roles_of_users_eq h.users_eq

end Roles

/-- Every user is kept under his id, and at most one of them is chair. -/
structure UsersInv (roles : Int → Option (Int × Bool)) : Prop where
  key_eq : ∀ k role, roles k = some role → role.1 = k
  chair : ∀ k k' role role', roles k = some role → roles k' = some role' → role.2 = true →
    role'.2 = true → k = k'

namespace UsersInv

variable {roles : Int → Option (Int × Bool)}

theorem insert (h : UsersInv roles) (userId : Int) :
    UsersInv (Function.update roles userId (some (userId, false))) := by
  have hold : ∀ k role, Function.update roles userId (some (userId, false)) k = some role →
      role = (userId, false) ∧ k = userId ∨ roles k = some role := by
    intro k role hk
    rw [Function.update_apply] at hk
    split at hk
    case isTrue heq => exact .inl ⟨(Option.some.inj hk).symm, heq⟩
    case isFalse => exact .inr hk
  refine ⟨fun k role hk => ?_, fun k k' role role' hk hk' hchair hchair' => ?_⟩
  · rcases hold k role hk with ⟨rfl, rfl⟩ | hk
    · rfl
    · exact h.key_eq k role hk
  · rcases hold k role hk with ⟨rfl, rfl⟩ | hk
    · cases hchair
    · rcases hold k' role' hk' with ⟨rfl, rfl⟩ | hk'
      · cases hchair'
      · exact h.chair k k' role role' hk hk' hchair hchair'

theorem erase (h : UsersInv roles) (userId : Int) :
    UsersInv (Function.update roles userId none) := by
  have hold : ∀ k role, Function.update roles userId none k = some role → roles k = some role := by
    intro k role hk
    rw [Function.update_apply] at hk
    split at hk
    · cases hk
    · exact hk
  exact ⟨fun k role hk => h.key_eq k role (hold k role hk), fun k k' role role' hk hk' =>
    h.chair k k' role role' (hold k role hk) (hold k' role' hk')⟩

theorem setChair (h : UsersInv roles) (userId : Int) :
    UsersInv fun k => (roles k).map fun role => (role.1, decide (k = userId)) := by
  refine ⟨fun k role hk => ?_, fun k k' role role' hk hk' hchair hchair' => ?_⟩
  · obtain ⟨old, hold, rfl⟩ := Option.map_eq_some_iff.1 hk
    exact h.key_eq k old hold
  · obtain ⟨old, -, rfl⟩ := Option.map_eq_some_iff.1 hk
    obtain ⟨old', -, rfl⟩ := Option.map_eq_some_iff.1 hk'
    exact (of_decide_eq_true hchair).trans (of_decide_eq_true hchair').symm

theorem none : UsersInv fun _ => Option.none :=
  ⟨(fun _ _ h => nomatch h), (fun _ _ _ _ h => nomatch h)⟩

end UsersInv

/-! ## What a step does to the users -/

section RolesStep

variable {s : Server}

theorem roles_addUser (userId : Int) :
    (s.addUser userId).1.roles = s.roles ∨
      (s.addUser userId).1.roles = Function.update s.roles userId (some (userId, false)) := by
  unfold addUser
  split
  · exact .inl rfl
  · split
    · exact .inl rfl
    · split
      · exact .inl rfl
      · right
        funext k
        change ((s.users.insert userId _)[k]?).map _ = _
        rw [getElem?_insert_ite, Function.update_apply]
        split <;> rfl

theorem roles_setChair (userId : Int) :
    (s.setChair userId).1.roles = s.roles ∨
      (s.setChair userId).1.roles =
        fun k => (s.roles k).map fun role => (role.1, decide (k = userId)) := by
  unfold setChair
  split
  · exact .inl rfl
  · split
    · right
      funext k
      change (((s.users.map fun _ user => { user with isChair := false }).modify userId
        fun user => { user with isChair := true })[k]?).map _ = _
      rw [Std.TreeMap.getElem?_modify, Std.TreeMap.getElem?_map, Std.TreeMap.getElem?_map, roles]
      split
      case isTrue hk =>
        obtain rfl := Std.LawfulEqOrd.eq_of_compare hk
        cases s.users[userId]? with
        | none => rfl
        | some user => simp
      case isFalse hk =>
        have hne : k ≠ userId := fun heq => hk (heq ▸ Std.ReflCmp.compare_self)
        cases s.users[k]? with
        | none => rfl
        | some user => simp [hne]
    · exact .inl rfl

theorem roles_addFloor (floorId : Int) : (s.addFloor floorId).1.roles = s.roles := by
  unfold addFloor
  split
  · rfl
  · split
    · rfl
    · split <;> rfl

theorem roles_conclude (floorRequestId : Int) (r : FloorRequest) (messages : List ReplyMessage) :
    (s.conclude floorRequestId r messages).roles = s.roles := by
  unfold conclude
  dsimp only
  rw [foldl_sendMessage, notifyForFloorRequest_eq]
  rfl

theorem roles_denyFloorRequest (floorRequestId : Int) (statusInfo : String) :
    (s.denyFloorRequest floorRequestId statusInfo).1.roles = s.roles := by
  unfold denyFloorRequest
  split
  · rfl
  · split
    · rfl
    · exact roles_conclude ..

theorem roles_revokeFloorRequest (floorRequestId : Int) (statusInfo : String) :
    (s.revokeFloorRequest floorRequestId statusInfo).1.roles = s.roles := by
  unfold revokeFloorRequest
  split
  · rfl
  · split
    · rfl
    · dsimp only
      split <;> exact roles_conclude ..

theorem roles_removeUser (hI : s.toFloorControl.Inv) (hkeyed : s.Keyed) (userId : Int) :
    (s.removeUser userId).1.roles = s.roles ∨
      s.concludesUser (.removeUser userId) = some userId ∧
        (s.removeUser userId).1.roles = Function.update s.roles userId none := by
  unfold removeUser
  split
  · exact .inl rfl
  case isFalse hending =>
    split
    · exact .inl rfl
    case h_2 user huser =>
      right
      refine ⟨by simp [concludesUser, hasUser, hending, huser], ?_⟩
      have heffect := effect_revokeUserFloorRequests (s := { s with users := s.users.erase userId })
        (keyed_erase hkeyed userId) hI userId
      dsimp only
      refine heffect.roles.trans ?_
      funext k
      change ((s.users.erase userId)[k]?).map _ = _
      rw [getElem?_erase_ite, Function.update_apply]
      split <;> rfl

theorem roles_revokeUserFloorRequests (hI : s.toFloorControl.Inv) (hkeyed : s.Keyed)
    (userId : Int) : (s.revokeUserFloorRequests userId).roles = s.roles :=
  (effect_revokeUserFloorRequests hkeyed hI userId).roles

theorem roles_userConnected (hI : s.toFloorControl.Inv) (hkeyed : s.Keyed) (userId : Int)
    (transport : Nat) : (s.userConnected userId transport).1.roles = s.roles := by
  unfold userConnected
  split
  · rfl
  · split
    · rfl
    · dsimp only
      rw [roles_setTransport]
      split
      · rw [roles_closeTransport, roles_revokeUserFloorRequests
          (s := s.updateUser userId User.resetQueriedFloorIds) hI
          (keyed_updateUser hkeyed userId fun _ => rfl), roles_resetQueriedFloorIds]
      · rfl

theorem roles_userDisconnected (hI : s.toFloorControl.Inv) (hkeyed : s.Keyed) (userId : Int)
    (closedByServer : Bool) : (s.userDisconnected userId closedByServer).roles = s.roles := by
  have hprepared : ((s.updateUser userId fun user => { user with transport := none }).updateUser
      userId User.resetQueriedFloorIds).roles = s.roles := by
    rw [roles_resetQueriedFloorIds, roles_setTransport]
  have hset : (s.updateUser userId fun user => { user with transport := none }).Keyed :=
    keyed_updateUser hkeyed userId fun _ => rfl
  have hkeyed' : ((s.updateUser userId fun user => { user with transport := none }).updateUser
      userId User.resetQueriedFloorIds).Keyed :=
    keyed_updateUser hset userId fun _ => rfl
  unfold userDisconnected
  split
  · rfl
  · split
    · rfl
    · dsimp only
      split
      · exact hprepared
      · exact (roles_revokeUserFloorRequests (s := updateUser (s.updateUser userId fun user =>
          { user with transport := none }) userId User.resetQueriedFloorIds) hI hkeyed'
          userId).trans hprepared

theorem roles_disconnectUser (hI : s.toFloorControl.Inv) (hkeyed : s.Keyed) (userId : Int)
    (code : Nat) (reason : String) : (s.disconnectUser userId code reason).roles = s.roles := by
  unfold disconnectUser
  split
  · rfl
  · split
    · rfl
    · dsimp only
      rw [roles_closeTransport, roles_revokeUserFloorRequests
        (s := s.updateUser userId User.resetQueriedFloorIds) hI
        (keyed_updateUser hkeyed _ fun _ => rfl), roles_resetQueriedFloorIds]

theorem roles_sendMessage (msg : ReplyMessage) : (s.sendMessage msg).roles = s.roles := by
  rw [sendMessage_eq]
  rfl

theorem roles_processFloorQuery (header : CommonHeader) (floorIds : List Int) :
    (s.processFloorQuery header floorIds).roles = s.roles := by
  have hqueried : (s.updateUser header.userId fun user =>
      floorIds.foldl User.addQueriedFloorId user.resetQueriedFloorIds).roles = s.roles := by
    refine roles_updateUser _ fun user => ?_
    have hadd : ∀ (l : List Int) (u : User), (l.foldl User.addQueriedFloorId u).userId = u.userId ∧
        (l.foldl User.addQueriedFloorId u).isChair = u.isChair := by
      intro l
      induction l with
      | nil => exact fun _ => ⟨rfl, rfl⟩
      | cons f l ih =>
        intro u
        have hone : (u.addQueriedFloorId f).userId = u.userId ∧
            (u.addQueriedFloorId f).isChair = u.isChair := by
          unfold User.addQueriedFloorId
          split <;> exact ⟨rfl, rfl⟩
        rw [List.foldl_cons, (ih _).1, (ih _).2, hone.1, hone.2]
        exact ⟨rfl, rfl⟩
    exact hadd floorIds user.resetQueriedFloorIds
  have hfold : ∀ {α : Type} (f : Server → α → Server), (∀ t x, (f t x).roles = t.roles) →
      ∀ (l : List α) (t : Server), (l.foldl f t).roles = t.roles := by
    intro α f hf l
    induction l with
    | nil => exact fun _ => rfl
    | cons x l ih =>
      intro t
      rw [List.foldl_cons, ih, hf]
  unfold processFloorQuery
  split
  · exact roles_sendMessage _
  · dsimp only
    split
    · rw [roles_sendMessage, hqueried]
    · rw [hfold _ (fun t x => roles_sendMessage _), hqueried]

theorem roles_messageReceived (hI : s.toFloorControl.Inv) (hkeyed : s.Keyed)
    (msg : RequestMessage) : (s.messageReceived msg).roles = s.roles := by
  unfold messageReceived
  split
  · rfl
  · split
    · exact roles_sendMessage _
    · split
      case h_1 user _ _ floorIds beneficiaryId _ =>
        cases haccepts : s.acceptsFloorRequest floorIds beneficiaryId with
        | false => exact (effect_processFloorRequest_rejected haccepts msg.header user).roles
        | true => exact (effect_processFloorRequest hkeyed hI haccepts msg.header user).roles
      · exact (effect_processFloorRelease hkeyed hI ..).roles
      · exact roles_processFloorQuery ..
      · exact roles_sendMessage _
      · exact roles_sendMessage _

end RolesStep

/-! ## What a step does to the requests -/

theorem foldl_change_eq_some {changes : List FloorRequest} {requests : Requests} {k : Int}
    (h : changes.foldl Requests.change requests k = some r) :
    (r ∈ changes ∧ r.floorRequestId = k ∧ r.status.isOngoing = true) ∨
      (requests k = some r ∧ ∀ c ∈ changes, c.floorRequestId ≠ k) := by
  induction changes generalizing requests with
  | nil => exact .inr ⟨h, fun _ hc => absurd hc List.not_mem_nil⟩
  | cons c changes ih =>
    rcases ih h with ⟨hmem, hrest⟩ | ⟨hold, hne⟩
    · exact .inl ⟨List.mem_cons_of_mem c hmem, hrest⟩
    · rw [Requests.change, Function.update_apply] at hold
      split at hold
      case isTrue hk =>
        split at hold
        case isTrue hongoing =>
          cases hold
          exact .inl ⟨List.mem_cons_self, hk.symm, hongoing⟩
        case isFalse => cases hold
      case isFalse hk =>
        refine .inr ⟨hold, fun c' hc' => ?_⟩
        rcases List.mem_cons.1 hc' with rfl | hc'
        · exact fun heq => hk heq.symm
        · exact hne c' hc'

section RequestsStep

variable {s : Server}

theorem floorQuery_frame (ha : isFloorQuery a = true) :
    (s.step a).toFloorControl = s.toFloorControl ∧ s.requested a = none ∧ s.changes a = [] := by
  cases a with
  | messageReceived msg =>
    obtain ⟨header, body⟩ := msg
    cases body with
    | floorQuery floorIds =>
      refine ⟨?_, rfl, rfl⟩
      change (s.messageReceived ⟨header, .floorQuery floorIds⟩).toFloorControl = s.toFloorControl
      unfold messageReceived
      split
      · rfl
      · split
        · exact toFloorControl_replyError ..
        · exact toFloorControl_processFloorQuery ..
    | _ => cases ha
  | _ => cases ha

theorem floorRequests_step (hI : s.toFloorControl.Inv) (hkeyed : s.Keyed) (a : Action) {k : Int}
    (h : (s.step a).floorRequests[k]? = some r) : (r ∈ s.changes a ∧ r.status.isOngoing = true) ∨
      (s.floorRequests[k]? = some r ∧ ∀ c ∈ s.changes a, c.floorRequestId ≠ k) := by
  cases ha : isFloorQuery a with
  | false =>
    obtain ⟨changes, told, hperm, -, -, u, heffect, hsilent⟩ := takes_step hI hkeyed ha
    have hstep : changes.foldl Requests.change s.requests k = some r := by
      rw [← requests_prepared a, ← heffect.requests_eq, ← hsilent.requests_eq]
      exact h
    rcases foldl_change_eq_some hstep with ⟨hmem, -, hongoing⟩ | ⟨hold, hne⟩
    · exact .inl ⟨hperm.mem_iff.1 hmem, hongoing⟩
    · exact .inr ⟨hold, fun c hc => hne c (hperm.mem_iff.2 hc)⟩
  | true =>
    obtain ⟨hcontrol, -, hchanges⟩ := floorQuery_frame ha
    rw [hcontrol] at h
    rw [hchanges]
    exact .inr ⟨h, fun c hc => absurd hc List.not_mem_nil⟩

/-- Who benefits from a request that is kept is a user. -/
def Benefits (s : Server) : Prop :=
  ∀ (k : Int) r, s.floorRequests[k]? = some r → s.hasUser r.beneficiaryId = true

theorem newFloorRequest_beneficiaryId (header : CommonHeader) (floorIds : List Int)
    (beneficiaryId : Option Int) :
    (s.newFloorRequest header floorIds beneficiaryId).beneficiaryId =
      beneficiaryId.getD header.userId := by
  have hadd : ∀ (l : List Int) (r : FloorRequest),
      (l.foldl FloorRequest.addFloorId r).beneficiaryId = r.beneficiaryId := by
    intro l
    induction l with
    | nil => exact fun _ => rfl
    | cons f l ih => exact fun r => ih (r.addFloorId f)
  exact hadd _ _

theorem not_ongoing_of_mem_userChanges (hc : c ∈ s.userChanges a) : c.status.isOngoing = false := by
  unfold userChanges at hc
  split at hc
  · obtain ⟨r, -, rfl⟩ := List.mem_map.1 hc
    exact r.isOngoing_concluded
  · cases hc

theorem not_ongoing_of_mem_released {floorRequestId : Int} {user : User}
    (hc : s.released floorRequestId user = some c) : c.status.isOngoing = false := by
  unfold released at hc
  obtain ⟨r, -, hc⟩ := Option.bind_eq_some_iff.1 hc
  obtain ⟨status, hstatus, hc⟩ := Option.bind_eq_some_iff.1 hc
  split at hc
  · cases hc
    exact isOngoing_releaseStatus hstatus
  · cases hc

theorem hasUser_of_requested (h : s.requested a = some r) : s.hasUser r.beneficiaryId = true := by
  cases a with
  | messageReceived msg =>
    obtain ⟨header, body⟩ := msg
    cases body with
    | floorRequest floorIds beneficiaryId =>
      rw [requested_floorRequest] at h
      split at h
      case isTrue haccepts =>
        simp only [Bool.and_eq_true, acceptsFloorRequest] at haccepts
        obtain ⟨⟨-, hsender⟩, -, hbeneficiary⟩ := haccepts
        cases h
        rw [newFloorRequest_beneficiaryId]
        cases beneficiaryId with
        | none => exact hsender
        | some beneficiaryId => exact hbeneficiary
      case isFalse => cases h
    | _ => cases h
  | _ => cases h

theorem of_mem_grantChanges {P : FloorRequest → Prop} (hP : ∀ r status, P r → P (r.setStatus status))
    (hold : ∀ (k : Int) r, s.floorRequests[k]? = some r → P r) {floorRequestId : Int}
    (hc : c ∈ s.grantChanges floorRequestId) (hongoing : c.status.isOngoing = true) : P c := by
  unfold grantChanges at hc
  split at hc
  · cases hc
  · split at hc
    · cases hc
    case h_2 r hr =>
      split at hc
      · rcases List.mem_append.1 hc with hrevoked | hgranted
        · obtain ⟨r', -, rfl⟩ := List.mem_map.1 hrevoked
          cases hongoing
        · rw [List.mem_singleton.1 hgranted]
          exact hP r _ (hold floorRequestId r hr)
      · cases hc

theorem of_mem_changes {P : FloorRequest → Prop} (hP : ∀ r status, P r → P (r.setStatus status))
    (hold : ∀ (k : Int) r, s.floorRequests[k]? = some r → P r)
    (hnew : ∀ r, s.requested a = some r → P r) (hc : c ∈ s.changes a)
    (hongoing : c.status.isOngoing = true) : P c := by
  have hended (h : c.status.isOngoing = false) : P c := by
    rw [hongoing] at h
    cases h
  cases a with
  | grantFloorRequest floorRequestId => exact of_mem_grantChanges hP hold hc hongoing
  | denyFloorRequest floorRequestId statusInfo =>
    obtain ⟨r, -, rfl⟩ := List.mem_map.1 hc
    exact hended rfl
  | revokeFloorRequest floorRequestId statusInfo =>
    obtain ⟨r, -, rfl⟩ := List.mem_map.1 hc
    exact hended rfl
  | end_ =>
    rw [changes_end] at hc
    split at hc
    · cases hc
    · obtain ⟨r, -, rfl⟩ := List.mem_map.1 hc
      exact hended r.isOngoing_concluded
  | messageReceived msg =>
    obtain ⟨header, body⟩ := msg
    cases body with
    | floorRequest floorIds beneficiaryId =>
      rw [changes_floorRequest] at hc
      obtain ⟨r, hr, hc⟩ := List.mem_flatMap.1 hc
      have hr := hnew r (Option.mem_toList.1 hr)
      rcases List.mem_cons.1 hc with rfl | hc
      · exact hr
      · split at hc
        · refine of_mem_grantChanges hP (fun k r' hr' => ?_) hc hongoing
          have hget : (s.floorRequests.insert s.floorRequestCounter r)[k]? = some r' := hr'
          rw [getElem?_insert_ite] at hget
          split at hget
          · cases hget
            exact hr
          · exact hold k r' hget
        · cases hc
    | floorRelease floorRequestId =>
      rw [changes_floorRelease] at hc
      split at hc
      · cases hc
      · obtain ⟨user, -, hc⟩ := List.mem_flatMap.1 hc
        exact hended (not_ongoing_of_mem_released (Option.mem_toList.1 hc))
    | floorQuery floorIds => exact absurd hc List.not_mem_nil
    | hello => exact absurd hc List.not_mem_nil
    | other primitive => exact absurd hc List.not_mem_nil
  | addUser userId => exact absurd hc List.not_mem_nil
  | setChair userId => exact absurd hc List.not_mem_nil
  | addFloor floorId => exact absurd hc List.not_mem_nil
  | _ => exact hended (not_ongoing_of_mem_userChanges hc)

end RequestsStep

/-! ## All runs -/

/-- What holds of the requests and users between two calls. -/
structure Sound (s : Server) : Prop where
  good : Good s
  users : UsersInv s.roles
  benefits : s.Benefits

section Sound

variable {s : Server}

theorem UsersInv.keyed (h : UsersInv s.roles) : s.Keyed := by
  intro k user hk
  have hrole : s.roles k = some (user.userId, user.isChair) := by
    rw [roles, hk]
    rfl
  exact h.key_eq k _ hrole

theorem Sound.keyed (h : Sound s) : s.Keyed := h.users.keyed

theorem benefits_before (h : Sound s) {k : Int}
    (hr : (s.step a).floorRequests[k]? = some r) : s.hasUser r.beneficiaryId = true := by
  rcases floorRequests_step h.good.inv h.keyed a hr with ⟨hmem, hongoing⟩ | ⟨hold, -⟩
  · exact of_mem_changes (P := fun r => s.hasUser r.beneficiaryId = true) (fun _ _ hr => hr)
      h.benefits (fun _ hr => hasUser_of_requested hr) hmem hongoing
  · exact h.benefits k r hold

theorem benefits_of_hasUser (h : Sound s)
    (hkeep : ∀ userId, s.hasUser userId = true → (s.step a).hasUser userId = true) :
    (s.step a).Benefits :=
  fun _ _ hr => hkeep _ (benefits_before h hr)

theorem Sound.of_roles (h : Sound s) (hroles : (s.step a).roles = s.roles) : Sound (s.step a) where
  good := good_step h.good a
  users := by
    rw [hroles]
    exact h.users
  benefits := benefits_of_hasUser h fun userId huser => by
    rw [hasUser_eq, hroles, ← hasUser_eq]
    exact huser

theorem sound_addUser (h : Sound s) (userId : Int) : Sound (s.step (.addUser userId)) := by
  rcases roles_addUser (s := s) userId with hroles | hroles
  · exact h.of_roles hroles
  · have hroles' : (s.step (.addUser userId)).roles = _ := hroles
    refine ⟨good_step h.good _, ?_, benefits_of_hasUser h fun k hk => ?_⟩
    · rw [hroles']
      exact h.users.insert userId
    · rw [hasUser_eq, hroles', Function.update_apply]
      split
      · rfl
      · rwa [← hasUser_eq]

theorem sound_setChair (h : Sound s) (userId : Int) : Sound (s.step (.setChair userId)) := by
  rcases roles_setChair (s := s) userId with hroles | hroles
  · exact h.of_roles hroles
  · have hroles' : (s.step (.setChair userId)).roles = _ := hroles
    refine ⟨good_step h.good _, ?_, benefits_of_hasUser h fun k hk => ?_⟩
    · rw [hroles']
      exact h.users.setChair userId
    · rw [hasUser_eq, hroles', Option.isSome_map, ← hasUser_eq]
      exact hk

theorem sound_removeUser (h : Sound s) (userId : Int) : Sound (s.step (.removeUser userId)) := by
  rcases roles_removeUser h.good.inv h.keyed userId with hroles | ⟨hconcludes, hroles⟩
  · exact h.of_roles hroles
  · have hroles' : (s.step (.removeUser userId)).roles = _ := hroles
    refine ⟨good_step h.good _, ?_, fun k r hr => ?_⟩
    · rw [hroles']
      exact h.users.erase userId
    · have huser := benefits_before h hr
      have hne : r.beneficiaryId ≠ userId := by
        intro heq
        have hchanges : s.changes (.removeUser userId) =
            (s.userFloorRequests userId).map .concluded := by
          change s.userChanges (.removeUser userId) = _
          rw [userChanges, hconcludes]
        rcases floorRequests_step h.good.inv h.keyed _ hr with ⟨hmem, hongoing⟩ | ⟨hold, hother⟩
        · rw [not_ongoing_of_mem_userChanges hmem] at hongoing
          cases hongoing
        · have hlisted : r ∈ s.userFloorRequests userId :=
            List.mem_filter.2 ⟨mem_values_iff.2 ⟨k, hold⟩, by simpa using heq⟩
          rw [hchanges] at hother
          exact hother r.concluded (List.mem_map_of_mem hlisted) (h.good.inv.key_eq k r hold)
      rw [hasUser_eq, hroles', Function.update_of_ne hne, ← hasUser_eq]
      exact huser

theorem sound_end (h : Sound s) : Sound (s.step .end_) := by
  have hgood := good_step h.good .end_
  cases hending : s.ending with
  | true =>
    have hstep : s.step .end_ = s := if_pos hending
    rw [hstep]
    exact h
  | false =>
    have hstep : s.step .end_ =
        (endFloorRequests s.floorRequests.size { s with ending := true }).endUsers := by
      simp [step, end_, hending]
    refine ⟨hgood, ?_, fun k r hr => ?_⟩
    · rw [hstep]
      exact UsersInv.none
    · obtain ⟨-, hnone⟩ := endFloorRequests_spec (s := { s with ending := true })
        s.floorRequests.size { h.good.inv with } le_rfl
      rw [hstep] at hr
      have hr' : (endFloorRequests s.floorRequests.size
          { s with ending := true }).floorRequests[k]? = some r := hr
      rw [hnone] at hr'
      cases hr'

/-- **Step lemma.** Every call keeps what holds of the requests and users. -/
theorem sound_step (h : Sound s) (a : Action) : Sound (s.step a) := by
  cases a with
  | addUser userId => exact sound_addUser h userId
  | removeUser userId => exact sound_removeUser h userId
  | setChair userId => exact sound_setChair h userId
  | end_ => exact sound_end h
  | addFloor floorId => exact h.of_roles (roles_addFloor floorId)
  | grantFloorRequest floorRequestId =>
    exact h.of_roles (effect_grantFloorRequest h.keyed h.good.inv floorRequestId).roles
  | denyFloorRequest floorRequestId statusInfo =>
    exact h.of_roles (roles_denyFloorRequest floorRequestId statusInfo)
  | revokeFloorRequest floorRequestId statusInfo =>
    exact h.of_roles (roles_revokeFloorRequest floorRequestId statusInfo)
  | userConnected userId transport =>
    exact h.of_roles (roles_userConnected h.good.inv h.keyed userId transport)
  | userDisconnected userId closedByServer =>
    exact h.of_roles (roles_userDisconnected h.good.inv h.keyed userId closedByServer)
  | disconnectUser userId code reason =>
    exact h.of_roles (roles_disconnectUser h.good.inv h.keyed userId code reason)
  | messageReceived msg => exact h.of_roles (roles_messageReceived h.good.inv h.keyed msg)

theorem sound_new (conferenceId : Int) : Sound (new conferenceId) where
  good := good_new conferenceId
  users := UsersInv.none
  benefits _ _ hr := nomatch hr

theorem sound_run (conferenceId : Int) (actions : List Action) :
    Sound (run step (new conferenceId) actions) :=
  invariant_of_meets (C := fun _ _ => True) (I := fun _ s => Sound s) (sound_new conferenceId)
    (fun _ a h _ => sound_step h a) actions (meets_of_forall (fun _ _ => trivial) actions)

end Sound

/-! ## The ids of the requests -/

/-- The ids the requests of a run are given, in order. -/
def issuedIds (s : Server) : List Action → List Int
  | [] => []
  | a :: actions =>
    (s.requested a).toList.map FloorRequest.floorRequestId ++ issuedIds (s.step a) actions

section Ids

variable {s : Server}

theorem issuedIds_append (actions actions' : List Action) :
    s.issuedIds (actions ++ actions') =
      s.issuedIds actions ++ (run step s actions).issuedIds actions' := by
  induction actions generalizing s with
  | nil => rfl
  | cons a actions ih =>
    rw [List.cons_append, issuedIds, issuedIds, ih, List.append_assoc, run_cons]

theorem floorRequestId_of_requested (h : s.requested a = some r) :
    r.floorRequestId = s.floorRequestCounter := by
  cases a with
  | messageReceived msg =>
    obtain ⟨header, body⟩ := msg
    cases body with
    | floorRequest floorIds beneficiaryId =>
      rw [requested_floorRequest] at h
      split at h
      · cases h
        exact newFloorRequest_floorRequestId ..
      · cases h
    | _ => cases h
  | _ => cases h

theorem counter_step (h : Sound s) (a : Action) :
    (s.step a).floorRequestCounter =
      if (s.requested a).isSome then nextCounter s.floorRequestCounter
      else s.floorRequestCounter := by
  cases ha : isFloorQuery a with
  | false =>
    obtain ⟨changes, told, -, -, -, u, heffect, hsilent⟩ := takes_step h.good.inv h.keyed ha
    rw [hsilent.counter_eq, heffect.counter_eq, counter_prepared]
  | true =>
    obtain ⟨hcontrol, hrequested, -⟩ := floorQuery_frame ha
    rw [hcontrol, hrequested]
    rfl

/-- The number that the counter shows after `n` requests. -/
def idAfter (n : Nat) : Int := (1 + n : Int).bmod (2 ^ 32)

theorem nextCounter_idAfter (n : Nat) : nextCounter (idAfter n) = idAfter (n + 1) := by
  unfold nextCounter idAfter
  rw [Int.bmod_add_bmod]
  congr 1

theorem idAfter_inj {m n : Nat} : idAfter m = idAfter n ↔ m % 2 ^ 32 = n % 2 ^ 32 := by
  unfold idAfter
  rw [Int.bmod_eq_bmod_iff_bmod_sub_eq_zero, ← Int.dvd_iff_bmod_eq_zero]
  omega

theorem issuedIds_eq (conferenceId : Int) (actions : List Action) :
    (run step (new conferenceId) actions).floorRequestCounter =
        idAfter ((new conferenceId).issuedIds actions).length ∧
      (new conferenceId).issuedIds actions =
        (List.range ((new conferenceId).issuedIds actions).length).map idAfter := by
  induction actions using List.reverseRecOn with
  | nil =>
    have hone : (1 : Int) = idAfter 0 := by decide
    exact ⟨hone, rfl⟩
  | append_singleton actions a ih =>
    obtain ⟨hcounter, hids⟩ := ih
    have hstep := counter_step (sound_run conferenceId actions) a
    rw [run_concat, hstep, issuedIds_append, issuedIds, issuedIds, List.append_nil]
    cases hrequested : (run step (new conferenceId) actions).requested a with
    | none =>
      simp only [Option.toList_none, List.map_nil, List.append_nil, Option.isSome_none,
        Bool.false_eq_true, if_false]
      exact ⟨hcounter, hids⟩
    | some r =>
      have hid := floorRequestId_of_requested hrequested
      simp only [Option.toList_some, List.map_cons, List.map_nil, Option.isSome_some, if_true,
        List.length_append, List.length_cons, List.length_nil, Nat.zero_add]
      rw [hcounter, nextCounter_idAfter, List.range_succ, List.map_append, ← hids, hid, hcounter]
      exact ⟨rfl, rfl⟩

theorem nodup_map_idAfter (n : Nat) : ((List.range n).map idAfter).Nodup ↔ n ≤ 2 ^ 32 := by
  constructor
  · intro h
    by_contra hlarge
    have hzero : idAfter 0 = idAfter (2 ^ 32) := idAfter_inj.2 rfl
    have hinj := List.inj_on_of_nodup_map h
    have heq := hinj (List.mem_range.2 (by omega)) (List.mem_range.2 (by omega)) hzero
    cases heq
  · intro h
    refine List.Nodup.map_on ?_ List.nodup_range
    intro i hi j hj heq
    rw [List.mem_range] at hi hj
    have hmod := idAfter_inj.1 heq
    rwa [Nat.mod_eq_of_lt (by omega), Nat.mod_eq_of_lt (by omega)] at hmod

theorem mem_issuedIds (conferenceId : Int) (actions : List Action) {k : Int}
    (hr : (run step (new conferenceId) actions).floorRequests[k]? = some r) :
    k ∈ (new conferenceId).issuedIds actions := by
  induction actions using List.reverseRecOn generalizing k r with
  | nil => cases hr
  | append_singleton actions a ih =>
    have hsound := sound_run conferenceId actions
    have hsound' := sound_run conferenceId (actions ++ [a])
    rw [← hsound'.good.inv.key_eq k r hr]
    rw [run_concat] at hr
    rw [issuedIds_append, issuedIds, issuedIds, List.append_nil]
    have hold : ∀ (k : Int) r, (run step (new conferenceId) actions).floorRequests[k]? = some r →
        r.floorRequestId ∈ (new conferenceId).issuedIds actions ++
          (((run step (new conferenceId) actions).requested a).toList.map
            FloorRequest.floorRequestId) := by
      intro k r hr
      rw [hsound.good.inv.key_eq k r hr]
      exact List.mem_append_left _ (ih hr)
    rcases floorRequests_step hsound.good.inv hsound.keyed a hr with ⟨hmem, hongoing⟩ | ⟨hkept, -⟩
    · refine of_mem_changes (P := fun r => r.floorRequestId ∈ _) (fun _ _ h => h) hold
        (fun r' hr' => ?_) hmem hongoing
      rw [hr']
      exact List.mem_append_right _ List.mem_cons_self
    · exact hold k r hkept

end Ids

/-- What the requests and users satisfy after a run: the requests are ongoing, users benefit from
them, each has an id of its own that no request before it had, one user at most is chair, and ending
the conference leaves no request. -/
structure RequestMap (conferenceId : Int) (actions : List Action) : Prop where
  ongoing : ∀ (k : Int) r, (run step (new conferenceId) actions).floorRequests[k]? = some r →
    r.status = .pending ∨ r.status = .accepted ∨ r.status = .granted
  beneficiary : ∀ (k : Int) r, (run step (new conferenceId) actions).floorRequests[k]? = some r →
    (run step (new conferenceId) actions).hasUser r.beneficiaryId = true
  unique : ∀ (k : Int) r, (run step (new conferenceId) actions).floorRequests[k]? = some r →
    r.floorRequestId = k ∧ k ∈ (new conferenceId).issuedIds actions
  fresh : ((new conferenceId).issuedIds actions).Nodup
  chair : ∀ (k k' : Int) user user', (run step (new conferenceId) actions).users[k]? = some user →
    (run step (new conferenceId) actions).users[k']? = some user' → user.isChair = true →
    user'.isChair = true → k = k'
  loop : ∀ k : Int, (endFloorRequests (run step (new conferenceId) actions).floorRequests.size
    { run step (new conferenceId) actions with ending := true }).floorRequests[k]? = none
  ended : ∀ k : Int, (run step (new conferenceId) actions).end_.floorRequests[k]? = none

section RequestMap

variable (conferenceId : Int) (actions : List Action)

/-- The loop of `End` takes one request away in each turn. -/
theorem loop_of_sound {s : Server} (h : Sound s) (k : Int) :
    (endFloorRequests s.floorRequests.size { s with ending := true }).floorRequests[k]? = none :=
  (endFloorRequests_spec (s := { s with ending := true }) s.floorRequests.size
    { h.good.inv with } le_rfl).2 k

theorem ending_end {s : Server} (h : Sound s) : s.end_.ending = true := by
  unfold end_
  split
  case isTrue hending => exact hending
  case isFalse =>
    obtain ⟨⟨p, hp⟩, -⟩ := endFloorRequests_spec (s := { s with ending := true })
      s.floorRequests.size { h.good.inv with } le_rfl
    exact hp.ending_eq

theorem RequestMap.length_issuedIds_le (h : RequestMap conferenceId actions) :
    ((new conferenceId).issuedIds actions).length ≤ 2 ^ 32 := by
  have hfresh := h.fresh
  rw [(issuedIds_eq conferenceId actions).2, nodup_map_idAfter] at hfresh
  exact hfresh

/-- **The requests of a server.** In every state a server reaches, the requests, the users and what
`End` does to them are as they should be, and no id has been given twice as long as no more than
2^32 requests have been made. -/
theorem requestMap_iff :
    RequestMap conferenceId actions ↔
      ((new conferenceId).issuedIds actions).length ≤ 2 ^ 32 := by
  have hsound := sound_run conferenceId actions
  have hids := (issuedIds_eq conferenceId actions).2
  refine ⟨RequestMap.length_issuedIds_le conferenceId actions, ?_⟩
  intro hfew
  refine ⟨fun k r hr => ?_, hsound.benefits, fun k r hr => ?_, ?_, ?_, loop_of_sound hsound, ?_⟩
  · rcases hsound.good.inv.ongoing k r hr with hgranted | hundecided
    · exact .inr (.inr (FloorRequest.isGranted_iff.1 hgranted))
    · exact (FloorRequest.isUndecided_iff.1 hundecided).imp_right .inl
  · exact ⟨hsound.good.inv.key_eq k r hr, mem_issuedIds conferenceId actions hr⟩
  · rw [hids, nodup_map_idAfter]
    exact hfew
  · intro k k' user user' hk hk' hchair hchair'
    refine hsound.users.chair k k' (user.userId, user.isChair) (user'.userId, user'.isChair)
      ?_ ?_ hchair hchair'
    · rw [roles, hk]
      rfl
    · rw [roles, hk']
      rfl
  · have hended := sound_end hsound
    exact hended.good.ended (ending_end hsound)

end RequestMap

/-! ### A run in which an id is given twice -/

/-- User 1 asks for floor 1. -/
def floorRequest1 : Action :=
  .messageReceived ⟨⟨1, 1, 1⟩, .floorRequest [1] none⟩

/-- User 1 is there, is no chair and may ask for floor 1. -/
structure MayRequest (s : Server) : Prop where
  ending : s.ending = false
  floor : s.hasFloor 1 = true
  user : s.roles 1 = some (1, false)

theorem requested_floorRequest1 {s : Server} (h : MayRequest s) :
    s.requested floorRequest1 = some (s.newFloorRequest ⟨1, 1, 1⟩ [1] none) := by
  have haccepts : s.acceptsFloorRequest [1] none = true := by
    simp [acceptsFloorRequest, h.floor]
  rw [floorRequest1, requested_floorRequest, h.ending, hasUser_of_roles h.user, haccepts]
  rfl

theorem mayRequest_step {s : Server} (h : MayRequest s) : MayRequest (s.step floorRequest1) := by
  have haccepts : s.acceptsFloorRequest [1] none = true := by
    simp [acceptsFloorRequest, h.floor]
  obtain ⟨user, huser, hrole⟩ := Option.map_eq_some_iff.1 h.user
  have hchair : user.isChair = false := (Prod.mk.inj hrole).2
  have hstep : s.step floorRequest1 = s.processFloorRequest ⟨1, 1, 1⟩ [1] none user := by
    have hget : s.getUser 1 = some user := huser
    simp [step, floorRequest1, messageReceived, h.ending, hget]
  rw [hstep, processFloorRequest_of_accepts haccepts]
  dsimp only
  rw [hchair, if_neg Bool.false_ne_true, sendMessage_eq]
  exact ⟨h.ending, h.floor, h.user⟩

theorem length_issuedIds_replicate (n : Nat) {s : Server} (h : MayRequest s) :
    (s.issuedIds (List.replicate n floorRequest1)).length = n := by
  induction n generalizing s with
  | zero => rfl
  | succ n ih =>
    rw [List.replicate_succ, issuedIds, requested_floorRequest1 h, List.length_append,
      ih (mayRequest_step h), Nat.add_comm]
    rfl

theorem not_requestMap_of_lt {n : Nat} (h : 2 ^ 32 < n) :
    ¬ RequestMap 1 (.addUser 1 :: .addFloor 1 :: List.replicate n floorRequest1) := by
  have hready : MayRequest (((new 1).step (.addUser 1)).step (.addFloor 1)) :=
    ⟨by decide, by decide, by decide⟩
  have hids : (new 1).issuedIds (.addUser 1 :: .addFloor 1 :: List.replicate n floorRequest1) =
      (((new 1).step (.addUser 1)).step (.addFloor 1)).issuedIds
        (List.replicate n floorRequest1) := by
    rw [issuedIds, issuedIds]
    rfl
  intro hmap
  have hfew := RequestMap.length_issuedIds_le _ _ hmap
  rw [hids, length_issuedIds_replicate n hready] at hfew
  exact Nat.not_le_of_lt h hfew

/-- After 2^32 requests the next one gets the id of the first one. -/
theorem not_requestMap_replicate :
    ¬ RequestMap 1
      (.addUser 1 :: .addFloor 1 :: List.replicate (2 ^ 32 + 1) floorRequest1) :=
  not_requestMap_of_lt (Nat.lt_succ_self _)

end Server

end Bfcp

end McuMediaServer
