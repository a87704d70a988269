import McuMediaServer.Bfcp.Errors

/-!
# What a server does with connections

A server sends a message on the connection its user has, and gives a user another connection only
when he connects and none only when he disconnects or when it closes the one he has. `Carried` is
for the operations that leave all connections alone, `Moved` for those that may close some.
-/

namespace McuMediaServer

namespace Bfcp

open OrderedMap

/-- The connections that are closed. -/
def Closes (out : List Output) (ws : Nat) : Prop :=
  ∃ code reason, Output.close ws code reason ∈ out

/-- A message goes to the connection of its user, and no connection is closed. -/
def Output.Addressed (transport? : Int → Option Nat) : Output → Prop
  | .message ws msg => transport? msg.header.userId = some ws
  | .close .. => False
  | _ => True

namespace Server

/-- The connection of a user. -/
def transport? (s : Server) (userId : Int) : Option Nat := Users.transport? s.users userId

/-- From `s` to `t` the connections stay, and messages go to them. -/
def Carried (s t : Server) : Prop :=
  t.transport? = s.transport? ∧
    ∃ out, t.outputs = s.outputs ++ out ∧ ∀ o ∈ out, o.Addressed s.transport?

section Carried

variable {s t u : Server}

theorem Carried.of_eq (htransport : t.transport? = s.transport?) (houtputs : t.outputs = s.outputs) :
    Carried s t :=
  ⟨htransport, [], by rw [houtputs, List.append_nil], fun o ho => absurd ho List.not_mem_nil⟩

theorem Carried.refl (s : Server) : Carried s s := .of_eq rfl rfl

theorem Carried.trans (h : Carried s t) (h' : Carried t u) : Carried s u := by
  obtain ⟨htransport, out, hout, haddressed⟩ := h
  obtain ⟨htransport', out', hout', haddressed'⟩ := h'
  refine ⟨htransport'.trans htransport, out ++ out', by rw [hout', hout, List.append_assoc],
    fun o ho => ?_⟩
  rcases List.mem_append.1 ho with ho | ho
  · exact haddressed o ho
  · exact htransport ▸ haddressed' o ho

theorem carried_emit {out : List Output} (h : ∀ o ∈ out, o.Addressed s.transport?) :
    Carried s (s.emit out) :=
  ⟨rfl, out, rfl, h⟩

theorem carried_told {o : Output} (h : ∀ f, o.Addressed f) : Carried s (s.emit [o]) :=
  carried_emit fun o' ho' => by rw [List.mem_singleton.1 ho']; exact h _

theorem carried_sendMessage (msg : ReplyMessage) : Carried s (s.sendMessage msg) := by
  rw [sendMessage_eq]
  refine carried_emit fun o ho => ?_
  obtain ⟨ws, hws, rfl⟩ := List.mem_map.1 ho
  exact Option.mem_toList.1 hws

theorem carried_foldl {α : Type} {f : Server → α → Server} (h : ∀ s a, Carried s (f s a))
    (l : List α) (s : Server) : Carried s (l.foldl f s) := by
  induction l generalizing s with
  | nil => exact .refl s
  | cons a l ih => exact (h s a).trans (ih (f s a))

theorem carried_sendMessages (messages : List ReplyMessage) :
    Carried s (messages.foldl sendMessage s) :=
  carried_foldl (fun _ msg => carried_sendMessage msg) _ _

theorem carried_notifyForFloorRequest (r : FloorRequest) : Carried s (s.notifyForFloorRequest r) :=
  carried_sendMessages _

theorem carried_conclude (floorRequestId : Int) (r : FloorRequest) (messages : List ReplyMessage) :
    Carried s (s.conclude floorRequestId r messages) := by
  have hset : Carried s (s.setFloorRequest floorRequestId r) := .of_eq rfl rfl
  exact (hset.trans (carried_sendMessages messages)).trans
    ((carried_notifyForFloorRequest r).trans (.of_eq rfl rfl))

theorem carried_revokeFloorRequest (floorRequestId : Int) (statusInfo : String) :
    Carried s (s.revokeFloorRequest floorRequestId statusInfo).1 := by
  unfold revokeFloorRequest
  split
  · exact .refl s
  · split
    · exact .refl s
    · dsimp only
      split
      · exact carried_conclude ..
      · exact (carried_conclude ..).trans (carried_told fun _ => trivial)

theorem carried_denyFloorRequest (floorRequestId : Int) (statusInfo : String) :
    Carried s (s.denyFloorRequest floorRequestId statusInfo).1 := by
  unfold denyFloorRequest
  split
  · exact .refl s
  · split
    · exact .refl s
    · exact carried_conclude ..

theorem carried_revokeOrDeny (r : FloorRequest) (statusInfo : String) :
    Carried s (s.revokeOrDeny r statusInfo) := by
  unfold revokeOrDeny
  split
  · exact carried_revokeFloorRequest ..
  · exact carried_denyFloorRequest ..

theorem carried_revokeUserFloorRequests (userId : Int) :
    Carried s (s.revokeUserFloorRequests userId) := by
  refine carried_foldl (fun s floorRequestId => ?_) _ _
  split
  · exact carried_revokeOrDeny ..
  · exact .refl s

theorem carried_endFloorRequests (fuel : Nat) : Carried s (endFloorRequests fuel s) := by
  induction fuel generalizing s with
  | zero => exact .refl s
  | succ fuel ih =>
    unfold endFloorRequests
    split
    · exact .refl s
    · exact (carried_revokeOrDeny ..).trans ih

theorem carried_revokeGranted (requests : List FloorRequest) :
    Carried s (s.revokeGranted requests) := by
  refine carried_foldl (fun s r => ?_) _ _
  split
  · exact carried_revokeFloorRequest ..
  · exact .refl s

theorem carried_grantFloorRequest (floorRequestId : Int) :
    Carried s (s.grantFloorRequest floorRequestId).1 := by
  unfold grantFloorRequest
  split
  · exact .refl s
  · split
    · exact .refl s
    · split
      · exact .refl s
      case h_2 r _ _ =>
        have hset (t : Server) : Carried t (t.setFloorRequest floorRequestId (r.setStatus .granted)) :=
          .of_eq rfl rfl
        dsimp only
        exact ((carried_revokeGranted _).trans ((hset _).trans (carried_sendMessage _))).trans
          ((carried_notifyForFloorRequest _).trans (carried_told fun _ => trivial))

theorem carried_processFloorRequest (header : CommonHeader) (floorIds : List Int)
    (beneficiaryId : Option Int) (user : User) :
    Carried s (s.processFloorRequest header floorIds beneficiaryId user) := by
  cases haccepts : s.acceptsFloorRequest floorIds beneficiaryId with
  | false =>
    obtain ⟨errorCode, errorInfo, h⟩ :=
      @processFloorRequest_of_offends _ _ s header user (offends_floorRequest_iff.2 haccepts)
    rw [h]
    exact carried_sendMessage _
  | true =>
    rw [processFloorRequest_of_accepts haccepts]
    dsimp only
    generalize s.newFloorRequest header floorIds beneficiaryId = r
    have hnew : Carried s (s.withFloorRequest r) := .of_eq rfl rfl
    have hsent := hnew.trans (carried_sendMessage (r.createFloorRequestStatus header.transactionId))
    split
    · exact hsent.trans (carried_grantFloorRequest _)
    · exact hsent.trans (carried_told fun _ => trivial)

theorem carried_processFloorRelease (header : CommonHeader) (floorRequestId : Int) (user : User) :
    Carried s (s.processFloorRelease header floorRequestId user) := by
  unfold processFloorRelease
  split
  · exact carried_sendMessage _
  · split
    · exact carried_sendMessage _
    · split
      · exact carried_sendMessage _
      · dsimp only
        split
        · exact (carried_conclude ..).trans (carried_told fun _ => trivial)
        · exact carried_conclude ..

theorem carried_updateUser (userId : Int) {f : User → User}
    (hf : ∀ user, (f user).transport = user.transport) : Carried s (s.updateUser userId f) := by
  refine .of_eq (funext fun k => ?_) rfl
  change ((s.users.modify userId f)[k]?).bind _ = _
  rw [Std.TreeMap.getElem?_modify]
  split
  case isTrue hk =>
    obtain rfl := Std.LawfulEqOrd.eq_of_compare hk
    rw [transport?, Users.transport?]
    cases s.users[userId]? with
    | none => rfl
    | some user => exact hf user
  case isFalse => rfl

theorem carried_resetQueriedFloorIds (userId : Int) :
    Carried s (s.updateUser userId User.resetQueriedFloorIds) :=
  carried_updateUser userId fun _ => rfl

theorem transport_addQueriedFloorIds (floorIds : List Int) (user : User) :
    (floorIds.foldl User.addQueriedFloorId user).transport = user.transport := by
  induction floorIds generalizing user with
  | nil => rfl
  | cons floorId floorIds ih =>
    rw [List.foldl_cons, ih, User.addQueriedFloorId]
    split <;> rfl

theorem carried_processFloorQuery (header : CommonHeader) (floorIds : List Int) :
    Carried s (s.processFloorQuery header floorIds) := by
  unfold processFloorQuery
  split
  · exact carried_sendMessage _
  · have hupdate := @carried_updateUser s header.userId
      (fun user => floorIds.foldl User.addQueriedFloorId user.resetQueriedFloorIds)
      fun user => transport_addQueriedFloorIds floorIds user.resetQueriedFloorIds
    dsimp only
    split
    · exact hupdate.trans (carried_sendMessage _)
    · exact hupdate.trans (carried_foldl (fun _ _ => carried_sendMessage _) _ _)

theorem carried_messageReceived (msg : RequestMessage) : Carried s (s.messageReceived msg) := by
  unfold messageReceived
  split
  · exact .refl s
  · split
    · exact carried_sendMessage _
    · split
      · exact carried_processFloorRequest ..
      · exact carried_processFloorRelease ..
      · exact carried_processFloorQuery ..
      · exact carried_sendMessage _
      · exact carried_sendMessage _

theorem carried_addUser (userId : Int) : Carried s (s.addUser userId).1 := by
  refine .of_eq ?_ (outputs_addUser userId)
  unfold addUser
  split
  · rfl
  · split
    · rfl
    · split
      · rfl
      case isFalse hnone =>
        funext k
        change ((s.users.insert userId _)[k]?).bind _ = _
        rw [getElem?_insert_ite]
        split
        case isTrue hk =>
          rw [hasUser, getUser, Bool.not_eq_true, Option.isSome_eq_false_iff,
            Option.isNone_iff_eq_none] at hnone
          rw [transport?, Users.transport?, hk, hnone]
          rfl
        case isFalse => rfl

theorem carried_setChair (userId : Int) : Carried s (s.setChair userId).1 := by
  refine .of_eq ?_ (outputs_setChair userId)
  unfold setChair
  split
  · rfl
  · split
    · have hmap : ∀ k, ((s.users.map fun _ user => { user with isChair := false })[k]?).bind
          User.transport = s.transport? k := by
        intro k
        rw [Std.TreeMap.getElem?_map, transport?, Users.transport?]
        cases s.users[k]? <;> rfl
      have hchair := (@carried_updateUser
        { s with users := s.users.map fun _ user => { user with isChair := false } } userId
        (fun user => { user with isChair := true }) fun _ => rfl).1
      exact hchair.trans (funext hmap)
    · rfl

theorem carried_addFloor (floorId : Int) : Carried s (s.addFloor floorId).1 := by
  unfold addFloor
  split
  · exact .refl s
  · split
    · exact .refl s
    · split <;> exact .of_eq rfl rfl

end Carried

/-- From `s` to `t` users may lose their connections, which are closed then. -/
structure Moved (s t : Server) (out : List Output) : Prop where
  outputs : t.outputs = s.outputs ++ out
  addressed : ∀ ws msg, .message ws msg ∈ out → s.transport? msg.header.userId = some ws
  closed : ∀ ws, Closes out ws →
    ∃ userId, s.transport? userId = some ws ∧ t.transport? userId = none
  kept : ∀ userId, t.transport? userId = s.transport? userId ∨
    t.transport? userId = none ∧ ∀ ws, s.transport? userId = some ws → Closes out ws

section Moved

variable {s t u : Server}

theorem Carried.exists_moved (h : Carried s t) : ∃ out, Moved s t out := by
  obtain ⟨htransport, out, hout, haddressed⟩ := h
  refine ⟨out, hout, fun ws msg hmsg => haddressed _ hmsg, fun ws hws => ?_, fun userId =>
    .inl (congrFun htransport userId)⟩
  obtain ⟨code, reason, hmem⟩ := hws
  exact (haddressed _ hmem).elim

theorem Carried.trans_moved (h : Carried s t) {out : List Output} (h' : Moved t u out) :
    ∃ out, Moved s u out := by
  obtain ⟨htransport, out', hout, haddressed⟩ := h
  refine ⟨out' ++ out, by rw [h'.outputs, hout, List.append_assoc], fun ws msg hmsg => ?_,
    fun ws hws => ?_, fun userId => ?_⟩
  · rcases List.mem_append.1 hmsg with hmsg | hmsg
    · exact haddressed _ hmsg
    · exact htransport ▸ h'.addressed ws msg hmsg
  · obtain ⟨code, reason, hmem⟩ := hws
    rcases List.mem_append.1 hmem with hmem | hmem
    · exact (haddressed _ hmem).elim
    · exact htransport ▸ h'.closed ws ⟨code, reason, hmem⟩
  · refine htransport ▸ (h'.kept userId).imp_right fun hnone => ⟨hnone.1, fun ws hws => ?_⟩
    obtain ⟨code, reason, hmem⟩ := hnone.2 ws hws
    exact ⟨code, reason, List.mem_append_right _ hmem⟩

theorem hasUser_updateUser (userId : Int) (f : User → User) (k : Int) :
    (s.updateUser userId f).hasUser k = s.hasUser k := by
  change ((s.users.modify userId f)[k]?).isSome = _
  rw [Std.TreeMap.getElem?_modify, hasUser, getUser]
  split
  case isTrue hk =>
    obtain rfl := Std.LawfulEqOrd.eq_of_compare hk
    exact Option.isSome_map
  case isFalse => rfl

theorem hasUser_closeTransport (userId : Int) (code : Nat) (reason : String) (k : Int) :
    (s.closeTransport userId code reason).hasUser k = s.hasUser k := by
  unfold closeTransport
  split
  · exact hasUser_updateUser _ _ _
  · rfl

theorem users_conclude (floorRequestId : Int) (r : FloorRequest) (messages : List ReplyMessage) :
    (s.conclude floorRequestId r messages).users = s.users := by
  unfold conclude
  dsimp only
  rw [foldl_sendMessage, notifyForFloorRequest_eq]
  rfl

theorem users_revokeOrDeny (r : FloorRequest) (statusInfo : String) :
    (s.revokeOrDeny r statusInfo).users = s.users := by
  unfold revokeOrDeny revokeFloorRequest denyFloorRequest
  split
  · split
    · rfl
    · split
      · rfl
      · dsimp only
        split <;> exact users_conclude ..
  · split
    · rfl
    · split
      · rfl
      · exact users_conclude ..

theorem users_revokeUserFloorRequests (userId : Int) :
    (s.revokeUserFloorRequests userId).users = s.users := by
  unfold revokeUserFloorRequests
  dsimp only
  generalize ((values s.floorRequests).filterMap fun r =>
    if r.beneficiaryId = userId then some r.floorRequestId else none) = ids
  induction ids generalizing s with
  | nil => rfl
  | cons floorRequestId ids ih =>
    rw [List.foldl_cons, ih]
    split
    · exact users_revokeOrDeny ..
    · rfl

theorem transport?_setTransport (userId : Int) (transport : Option Nat) (k : Int) :
    (s.updateUser userId fun user => { user with transport := transport }).transport? k =
      if k = userId ∧ s.hasUser userId then transport else s.transport? k := by
  change ((s.users.modify userId _)[k]?).bind _ = _
  rw [Std.TreeMap.getElem?_modify, hasUser, getUser]
  split
  case isTrue hk =>
    obtain rfl := Std.LawfulEqOrd.eq_of_compare hk
    rw [transport?, Users.transport?]
    cases s.users[userId]? <;> simp
  case isFalse hk =>
    have hne : k ≠ userId := fun heq => hk (heq ▸ Std.ReflCmp.compare_self)
    rw [if_neg fun h => hne h.1]
    rfl

theorem closes_closeOutputs {user : User} {code : Nat} {reason : String} {ws : Nat} :
    Closes (user.closeOutputs code reason) ws ↔ user.transport = some ws := by
  unfold Closes User.closeOutputs
  simp

theorem not_message_mem_closeOutputs {user : User} {code : Nat} {reason : String} {ws : Nat}
    {msg : ReplyMessage} : .message ws msg ∉ user.closeOutputs code reason := by
  unfold User.closeOutputs
  simp

theorem transport?_eq {userId : Int} {user : User} (h : s.users[userId]? = some user) :
    s.transport? userId = user.transport := by
  rw [transport?, Users.transport?, h]
  rfl

theorem moved_closeTransport (userId : Int) (code : Nat) (reason : String) :
    (∃ out, Moved s (s.closeTransport userId code reason) out) ∧
      (s.closeTransport userId code reason).transport? userId = none := by
  unfold closeTransport
  cases huser : s.getUser userId with
  | none =>
    refine ⟨(Carried.refl s).exists_moved, ?_⟩
    have : s.users[userId]? = none := huser
    dsimp only
    rw [transport?, Users.transport?, this]
    rfl
  | some user =>
    have hself : s.transport? userId = user.transport := transport?_eq huser
    have hhas : s.hasUser userId = true := by rw [hasUser, huser]; rfl
    have htransport (k : Int) : ((s.updateUser userId fun user =>
        { user with transport := none }).emit (user.closeOutputs code reason)).transport? k =
          if k = userId then none else s.transport? k := by
      refine (transport?_setTransport userId none k).trans ?_
      rw [hhas]
      simp
    refine ⟨⟨user.closeOutputs code reason, rfl, fun ws msg hmsg => ?_, fun ws hws => ?_,
      fun k => ?_⟩, ?_⟩
    · exact absurd hmsg not_message_mem_closeOutputs
    · refine ⟨userId, hself.trans (closes_closeOutputs.1 hws), ?_⟩
      rw [htransport, if_pos rfl]
    · rw [htransport]
      split
      case isTrue hk =>
        refine .inr ⟨rfl, fun ws hws => ?_⟩
        rw [hk, hself] at hws
        exact closes_closeOutputs.2 hws
      case isFalse => exact .inl rfl
    · dsimp only
      rw [htransport, if_pos rfl]

theorem moved_disconnectUser (userId : Int) (code : Nat) (reason : String) :
    (∃ out, Moved s (s.disconnectUser userId code reason) out) ∧
      (s.ending = false → (s.disconnectUser userId code reason).transport? userId = none) := by
  unfold disconnectUser
  split
  case isTrue hending =>
    exact ⟨(Carried.refl s).exists_moved, fun h => by rw [h] at hending; cases hending⟩
  case isFalse =>
    cases huser : s.getUser userId with
    | none =>
      refine ⟨(Carried.refl s).exists_moved, fun _ => ?_⟩
      have : s.users[userId]? = none := huser
      dsimp only
      rw [transport?, Users.transport?, this]
      rfl
    | some user =>
      have hcarried := (@carried_resetQueriedFloorIds s userId).trans
        (carried_revokeUserFloorRequests userId)
      dsimp only
      generalize (s.updateUser userId User.resetQueriedFloorIds).revokeUserFloorRequests userId = t
        at hcarried ⊢
      obtain ⟨⟨out, hmoved⟩, hnone⟩ := @moved_closeTransport t userId code reason
      exact ⟨hcarried.trans_moved hmoved, fun _ => hnone⟩

theorem moved_removeUser (userId : Int) : ∃ out, Moved s (s.removeUser userId).1 out := by
  unfold removeUser
  split
  · exact (Carried.refl s).exists_moved
  · cases huser : s.getUser userId with
    | none => exact (Carried.refl s).exists_moved
    | some user =>
      have hself : s.transport? userId = user.transport := transport?_eq huser
      have herased (k : Int) : transport? { s with users := s.users.erase userId } k =
          if k = userId then none else s.transport? k := by
        rw [transport?, Users.transport?, getElem?_erase_ite]
        split <;> rfl
      obtain ⟨htransport, out, hout, haddressed⟩ :=
        @carried_revokeUserFloorRequests { s with users := s.users.erase userId } userId
      have hfinal (k : Int) := (congrFun htransport k).trans (herased k)
      dsimp only
      generalize revokeUserFloorRequests { s with users := s.users.erase userId } userId = t
        at htransport hout hfinal ⊢
      refine ⟨out ++ user.closeOutputs 4001 "you have been removed from the BFCP conference", ?_,
        fun ws msg hmsg => ?_, fun ws hws => ?_, fun k => ?_⟩
      · exact (congrArg (· ++ _) hout).trans (List.append_assoc ..)
      · rcases List.mem_append.1 hmsg with hmsg | hmsg
        · have hws := haddressed _ hmsg
          rw [Output.Addressed, herased] at hws
          split at hws
          · cases hws
          · exact hws
        · exact absurd hmsg not_message_mem_closeOutputs
      · obtain ⟨code, reason, hmem⟩ := hws
        rcases List.mem_append.1 hmem with hmem | hmem
        · exact (haddressed _ hmem).elim
        · exact ⟨userId, hself.trans (closes_closeOutputs.1 ⟨code, reason, hmem⟩),
            (hfinal userId).trans (if_pos rfl)⟩
      · rcases eq_or_ne k userId with rfl | hne
        · refine .inr ⟨(hfinal k).trans (if_pos rfl), fun ws hws => ?_⟩
          obtain ⟨code, reason, hmem⟩ := closes_closeOutputs.2 (hself.symm.trans hws)
          exact ⟨code, reason, List.mem_append_right _ hmem⟩
        · exact .inl ((hfinal k).trans (if_neg hne))

theorem moved_end : ∃ out, Moved s s.end_ out := by
  unfold end_
  split
  · exact (Carried.refl s).exists_moved
  · have hcarried : Carried s (endFloorRequests s.floorRequests.size { s with ending := true }) :=
      (Carried.of_eq (s := s) (t := { s with ending := true }) rfl rfl).trans
        (carried_endFloorRequests _)
    dsimp only
    generalize endFloorRequests s.floorRequests.size { s with ending := true } = t at hcarried ⊢
    have hnone (k : Int) : t.endUsers.transport? k = none := by
      rw [transport?, endUsers, Users.transport?, emit]
      dsimp only
      rw [Std.TreeMap.getElem?_emptyc, Option.bind_none]
    suffices hmoved : Moved t t.endUsers ((values t.users).flatMap fun user =>
        User.closeOutputs user 4000 "the BFCP conference has ended") from hcarried.trans_moved hmoved
    refine ⟨rfl, fun ws msg hmsg => ?_, fun ws hws => ?_,
      fun k => .inr ⟨hnone k, fun ws hws => ?_⟩⟩
    · obtain ⟨user, -, hmem⟩ := List.mem_flatMap.1 hmsg
      exact absurd hmem not_message_mem_closeOutputs
    · obtain ⟨code, reason, hmem⟩ := hws
      obtain ⟨user, huser, hmem⟩ := List.mem_flatMap.1 hmem
      obtain ⟨k, hk⟩ := mem_values_iff.1 huser
      exact ⟨k, (transport?_eq hk).trans (closes_closeOutputs.1 ⟨code, reason, hmem⟩), hnone k⟩
    · obtain ⟨user, huser, htransport⟩ := Option.bind_eq_some_iff.1 hws
      obtain ⟨code, reason, hmem⟩ := (@closes_closeOutputs user 4000
        "the BFCP conference has ended" ws).2 htransport
      exact ⟨code, reason, List.mem_flatMap.2 ⟨user, mem_values_iff.2 ⟨k, huser⟩, hmem⟩⟩

theorem moved_userConnected {userId : Int} {ws : Nat} (h : (s.userConnected userId ws).2 = true) :
    ∃ t out, Moved s t out ∧ t.transport? userId = none ∧
      (s.userConnected userId ws).1.outputs = t.outputs ∧
      ∀ k, (s.userConnected userId ws).1.transport? k =
        if k = userId then some ws else t.transport? k := by
  unfold userConnected at h ⊢
  split
  case isTrue hending =>
    rw [if_pos hending] at h
    cases h
  case isFalse hending =>
    rw [if_neg hending] at h
    cases huser : s.getUser userId with
    | none =>
      rw [huser] at h
      cases h
    | some user =>
      dsimp only
      have hhas : s.hasUser userId = true := by rw [hasUser, huser]; rfl
      have hself : s.transport? userId = user.transport := transport?_eq huser
      cases hconnected : user.isConnected with
      | false =>
        rw [if_neg Bool.false_ne_true]
        obtain ⟨out, hmoved⟩ := (Carried.refl s).exists_moved
        refine ⟨s, out, hmoved, ?_, rfl, fun k => ?_⟩
        · rw [hself]
          rwa [User.isConnected, Option.isSome_eq_false_iff, Option.isNone_iff_eq_none]
            at hconnected
        · rw [transport?_setTransport, hhas]
          simp
      | true =>
        rw [if_pos rfl]
        have hcarried := (@carried_resetQueriedFloorIds s userId).trans
          (carried_revokeUserFloorRequests userId)
        have hhas' : (((s.updateUser userId User.resetQueriedFloorIds).revokeUserFloorRequests
            userId).closeTransport userId 4002
              "your user has connected from somewhere else").hasUser userId = true := by
          rw [hasUser_closeTransport, hasUser, getUser, users_revokeUserFloorRequests, ← getUser,
            ← hasUser, hasUser_updateUser, hhas]
        generalize (s.updateUser userId User.resetQueriedFloorIds).revokeUserFloorRequests userId =
          t at hcarried hhas' ⊢
        obtain ⟨⟨out, hmoved⟩, hnone⟩ :=
          @moved_closeTransport t userId 4002 "your user has connected from somewhere else"
        obtain ⟨out, hmoved⟩ := hcarried.trans_moved hmoved
        refine ⟨_, out, hmoved, hnone, rfl, fun k => ?_⟩
        rw [transport?_setTransport, hhas']
        simp

theorem userDisconnected_spec (userId : Int) :
    ∃ out, (s.userDisconnected userId false).outputs = s.outputs ++ out ∧
      (∀ ws msg, .message ws msg ∈ out → s.transport? msg.header.userId = some ws) ∧
      (∀ ws, ¬Closes out ws) ∧
      ∀ k, (s.userDisconnected userId false).transport? k =
        if k = userId then none else s.transport? k := by
  unfold userDisconnected
  cases huser : s.getUser userId with
  | none =>
    refine ⟨[], (List.append_nil _).symm, fun _ _ h => absurd h List.not_mem_nil, ?_, fun k => ?_⟩
    · rintro ws ⟨_, _, h⟩
      exact absurd h List.not_mem_nil
    · dsimp only
      split
      case isTrue hk =>
        have : s.users[k]? = none := hk ▸ huser
        rw [transport?, Users.transport?, this]
        rfl
      case isFalse => rfl
  | some user =>
    have hhas : s.hasUser userId = true := by rw [hasUser, huser]; rfl
    have hset (k : Int) : (s.updateUser userId fun user =>
        { user with transport := none }).transport? k =
          if k = userId then none else s.transport? k := by
      rw [transport?_setTransport, hhas]
      simp
    dsimp only
    rw [if_neg Bool.false_ne_true]
    have hreset := @carried_resetQueriedFloorIds
      (s.updateUser userId fun user => { user with transport := none }) userId
    have hcarried : ∀ {t : Server}, Carried
        (s.updateUser userId fun user => { user with transport := none }) t →
        ∃ out, t.outputs = s.outputs ++ out ∧
          (∀ ws msg, .message ws msg ∈ out → s.transport? msg.header.userId = some ws) ∧
          (∀ ws, ¬Closes out ws) ∧
          ∀ k, t.transport? k = if k = userId then none else s.transport? k := by
      rintro t ⟨htransport, out, hout, haddressed⟩
      refine ⟨out, hout, fun ws msg hmsg => ?_, ?_, fun k => (congrFun htransport k).trans (hset k)⟩
      · have hws := haddressed _ hmsg
        rw [Output.Addressed, hset] at hws
        split at hws
        · cases hws
        · exact hws
      · rintro ws ⟨code, reason, hmem⟩
        exact haddressed _ hmem
    split
    · exact hcarried hreset
    · exact hcarried (hreset.trans (carried_revokeUserFloorRequests userId))

theorem exists_moved_step {a : Action} (hconnected : ∀ userId ws, a ≠ .userConnected userId ws)
    (hdisconnected : ∀ userId, a ≠ .userDisconnected userId false) : ∃ out, Moved s (s.step a) out := by
  cases a with
  | addUser userId => exact (carried_addUser userId).exists_moved
  | removeUser userId => exact moved_removeUser userId
  | setChair userId => exact (carried_setChair userId).exists_moved
  | addFloor floorId => exact (carried_addFloor floorId).exists_moved
  | grantFloorRequest floorRequestId =>
    exact (carried_grantFloorRequest floorRequestId).exists_moved
  | denyFloorRequest floorRequestId statusInfo =>
    exact (carried_denyFloorRequest floorRequestId statusInfo).exists_moved
  | revokeFloorRequest floorRequestId statusInfo =>
    exact (carried_revokeFloorRequest floorRequestId statusInfo).exists_moved
  | end_ => exact moved_end
  | userConnected userId ws => exact absurd rfl (hconnected userId ws)
  | userDisconnected userId closedByServer =>
    cases closedByServer with
    | false => exact absurd rfl (hdisconnected userId)
    | true =>
      have hsame : s.userDisconnected userId true = s := by
        unfold userDisconnected
        cases s.getUser userId <;> rfl
      rw [step, hsame]
      exact (Carried.refl s).exists_moved
  | disconnectUser userId code reason => exact (moved_disconnectUser userId code reason).1
  | messageReceived msg => exact (carried_messageReceived msg).exists_moved

end Moved

end Server

end Bfcp

end McuMediaServer
