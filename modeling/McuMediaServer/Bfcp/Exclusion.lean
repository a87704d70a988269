import McuMediaServer.Base.Tenancy
import McuMediaServer.Bfcp.Server

/-!
# Floors are granted to one request at a time

A granted request holds its floors. In every state a server can reach the granted requests form a
tenancy: no floor is held by two of them. Most of what a server does only takes requests away, and
then the others keep what they hold; granting a request first revokes the granted ones that hold any
of its floors, and then the request takes them.
-/

namespace McuMediaServer

namespace Bfcp

open OrderedMap StepRun

/-- The floors a request holds: its own, once it is granted. -/
def FloorControl.holds (c : FloorControl) (floorRequestId : Int) : Set Int :=
  {floorId | ∃ r, c.floorRequests[floorRequestId]? = some r ∧ r.isGranted = true ∧
    r.hasFloorId floorId = true}

/-- `c'` is `c` without the requests that satisfy `p`. -/
structure Removes (c c' : FloorControl) (p : Int → FloorRequest → Bool) : Prop where
  floors_eq : c'.floors = c.floors
  counter_eq : c'.floorRequestCounter = c.floorRequestCounter
  ending_eq : c'.ending = c.ending
  getElem?_eq : ∀ k : Int, c'.floorRequests[k]? = (c.floorRequests[k]?).filter fun r => !p k r

variable {r : FloorRequest}

namespace Removes

variable {c c' c'' : FloorControl} {p q : Int → FloorRequest → Bool}

theorem refl (c : FloorControl) : Removes c c fun _ _ => false :=
  ⟨rfl, rfl, rfl, fun k => by cases c.floorRequests[k]? <;> rfl⟩

theorem trans (h : Removes c c' p) (h' : Removes c' c'' q) :
    Removes c c'' fun k r => p k r || q k r := by
  refine ⟨h'.floors_eq.trans h.floors_eq, h'.counter_eq.trans h.counter_eq,
    h'.ending_eq.trans h.ending_eq, fun k => ?_⟩
  rw [h'.getElem?_eq, h.getElem?_eq]
  cases c.floorRequests[k]? with
  | none => rfl
  | some r =>
    cases hp : p k r with
    | true => simp
    | false => simp [Option.filter, hp]

theorem congr (h : Removes c c' p)
    (hpq : ∀ (k : Int) r, c.floorRequests[k]? = some r → p k r = q k r) : Removes c c' q := by
  refine ⟨h.floors_eq, h.counter_eq, h.ending_eq, fun k => ?_⟩
  rw [h.getElem?_eq]
  cases hk : c.floorRequests[k]? with
  | none => rfl
  | some r => simp only [Option.filter, hpq k r hk]

/-- A request that is still there was there before, and did not satisfy `p`. -/
theorem of_getElem? (h : Removes c c' p) {k : Int}
    (hr : c'.floorRequests[k]? = some r) : c.floorRequests[k]? = some r ∧ p k r = false := by
  rw [h.getElem?_eq, Option.filter_eq_some_iff] at hr
  exact ⟨hr.1, by simpa using hr.2⟩

/-- A request that does not satisfy `p` is still there. -/
theorem getElem?_of_not (h : Removes c c' p) {k : Int}
    (hr : c.floorRequests[k]? = some r) (hp : p k r = false) : c'.floorRequests[k]? = some r := by
  rw [h.getElem?_eq, Option.filter_eq_some_iff]
  exact ⟨hr, by simp [hp]⟩

end Removes

/-- What holds of the requests of a server in every state it can reach. -/
structure FloorControl.Inv (c : FloorControl) : Prop where
  key_eq : ∀ (k : Int) r, c.floorRequests[k]? = some r → r.floorRequestId = k
  ongoing : ∀ (k : Int) r, c.floorRequests[k]? = some r → r.isGranted = true ∨ r.isUndecided = true
  floors_mem : ∀ (k : Int) r, c.floorRequests[k]? = some r → ∀ floorId, r.hasFloorId floorId = true →
    c.floors.contains floorId = true
  disjoint : Pairwise (Function.onFun Disjoint c.holds)

namespace FloorControl

variable {c c' : FloorControl} {p : Int → FloorRequest → Bool}

/-- The granted requests hold their floors as tenants. -/
def Inv.tenancy (h : c.Inv) : Tenancy Int Int where
  holds := c.holds
  disjoint := h.disjoint

theorem holds_subset_of_removes (h : Removes c c' p) (k : Int) : c'.holds k ⊆ c.holds k := by
  intro floorId hfloor
  obtain ⟨r, hr, hgranted, hmem⟩ := hfloor
  exact ⟨r, (h.of_getElem? hr).1, hgranted, hmem⟩

theorem Inv.of_removes (hI : c.Inv) (h : Removes c c' p) : c'.Inv where
  key_eq k r hr := hI.key_eq k r (h.of_getElem? hr).1
  ongoing k r hr := hI.ongoing k r (h.of_getElem? hr).1
  floors_mem k r hr floorId hmem := by
    rw [h.floors_eq]
    exact hI.floors_mem k r (h.of_getElem? hr).1 floorId hmem
  disjoint := (hI.tenancy.giveBack c'.holds (holds_subset_of_removes h)).disjoint

theorem Inv.insert (hI : c.Inv) {k : Int} (hkey : r.floorRequestId = k)
    (hongoing : r.isGranted = true ∨ r.isUndecided = true)
    (hfloors : ∀ floorId, r.hasFloorId floorId = true → c.floors.contains floorId = true)
    (hfree : r.isGranted = true → ∀ j, j ≠ k →
      Disjoint (c.holds j) {floorId | r.hasFloorId floorId = true}) :
    Inv { c with floorRequests := c.floorRequests.insert k r } := by
  have hget : ∀ {j : Int} {r' : FloorRequest}, (c.floorRequests.insert k r)[j]? = some r' →
      (j = k ∧ r' = r) ∨ (j ≠ k ∧ c.floorRequests[j]? = some r') := by
    intro j r' hr'
    rw [getElem?_insert_ite] at hr'
    split at hr'
    case isTrue hj => exact .inl ⟨hj, (Option.some.inj hr').symm⟩
    case isFalse hj => exact .inr ⟨hj, hr'⟩
  have hself : (c.floorRequests.insert k r)[k]? = some r := by
    rw [getElem?_insert_ite, if_pos rfl]
  refine ⟨?_, ?_, ?_, ?_⟩
  · intro j r' hr'
    rcases hget hr' with ⟨rfl, rfl⟩ | ⟨-, hold⟩
    · exact hkey
    · exact hI.key_eq j r' hold
  · intro j r' hr'
    rcases hget hr' with ⟨rfl, rfl⟩ | ⟨-, hold⟩
    · exact hongoing
    · exact hI.ongoing j r' hold
  · intro j r' hr'
    rcases hget hr' with ⟨rfl, rfl⟩ | ⟨-, hold⟩
    · exact hfloors
    · exact hI.floors_mem j r' hold
  · have hold : ∀ j, j ≠ k →
        holds { c with floorRequests := c.floorRequests.insert k r } j ⊆ c.holds j := by
      intro j hj floorId hfloor
      obtain ⟨r', hr', hgranted, hmem⟩ := hfloor
      rcases hget hr' with ⟨heq, -⟩ | ⟨-, hr'⟩
      · exact absurd heq hj
      · exact ⟨r', hr', hgranted, hmem⟩
    have hnew : holds { c with floorRequests := c.floorRequests.insert k r } k ⊆
        {floorId | r.isGranted = true ∧ r.hasFloorId floorId = true} := by
      intro floorId hfloor
      obtain ⟨r', hr', hgranted, hmem⟩ := hfloor
      rcases hget hr' with ⟨-, rfl⟩ | ⟨hne, -⟩
      · exact ⟨hgranted, hmem⟩
      · exact absurd rfl hne
    have hfree' : ∀ j, j ≠ k → Disjoint (hI.tenancy.holds j)
        {floorId | r.isGranted = true ∧ r.hasFloorId floorId = true} := by
      intro j hj
      rw [Set.disjoint_left]
      intro floorId hheld hfloor
      exact Set.disjoint_left.1 (hfree hfloor.1 j hj) hheld hfloor.2
    refine ((hI.tenancy.take k _ hfree').giveBack (holds _) fun j => ?_).disjoint
    by_cases hj : j = k
    · subst hj
      rw [Tenancy.take_holds_self]
      exact hnew
    · rw [Tenancy.take_holds_of_ne _ hj]
      exact hold j hj

end FloorControl

variable {floorRequestId : Int}

namespace Server

/-! ### What messages, connections and users leave unchanged -/

section Frame

variable (s : Server)

theorem toFloorControl_emit (outputs : List Output) :
    (s.emit outputs).toFloorControl = s.toFloorControl := rfl

theorem toFloorControl_updateUser (userId : Int) (f : User → User) :
    (s.updateUser userId f).toFloorControl = s.toFloorControl := rfl

theorem toFloorControl_sendMessage (msg : ReplyMessage) :
    (s.sendMessage msg).toFloorControl = s.toFloorControl := by
  unfold sendMessage
  split <;> rfl

theorem toFloorControl_replyError (header : CommonHeader) (errorCode : ErrorCode)
    (errorInfo : String) :
    (s.replyError header errorCode errorInfo).toFloorControl = s.toFloorControl :=
  toFloorControl_sendMessage s _

theorem toFloorControl_foldl {α : Type} (f : Server → α → Server)
    (h : ∀ s a, (f s a).toFloorControl = s.toFloorControl) (l : List α) :
    (l.foldl f s).toFloorControl = s.toFloorControl := by
  induction l generalizing s with
  | nil => rfl
  | cons a l ih => exact (ih _).trans (h s a)

theorem toFloorControl_sendMessages (messages : List ReplyMessage) :
    (messages.foldl sendMessage s).toFloorControl = s.toFloorControl :=
  toFloorControl_foldl s _ toFloorControl_sendMessage messages

theorem toFloorControl_notifyForFloorRequest (r : FloorRequest) :
    (s.notifyForFloorRequest r).toFloorControl = s.toFloorControl :=
  toFloorControl_sendMessages s _

theorem toFloorControl_closeTransport (userId : Int) (code : Nat) (reason : String) :
    (s.closeTransport userId code reason).toFloorControl = s.toFloorControl := by
  unfold closeTransport
  split <;> rfl

theorem toFloorControl_addUser (userId : Int) :
    (s.addUser userId).1.toFloorControl = s.toFloorControl := by
  unfold addUser
  split
  · rfl
  · split
    · rfl
    · split <;> rfl

theorem toFloorControl_setChair (userId : Int) :
    (s.setChair userId).1.toFloorControl = s.toFloorControl := by
  unfold setChair
  split
  · rfl
  · split <;> rfl

theorem toFloorControl_processFloorQuery (header : CommonHeader) (floorIds : List Int) :
    (s.processFloorQuery header floorIds).toFloorControl = s.toFloorControl := by
  unfold processFloorQuery
  split
  · exact toFloorControl_replyError ..
  · dsimp only
    split
    · exact toFloorControl_sendMessage ..
    · exact toFloorControl_foldl _ _ (fun s _ => toFloorControl_sendMessage s _) _

end Frame

/-! ### What the operations do to the requests -/

section Requests

variable {s : Server}

theorem toFloorControl_conclude (floorRequestId : Int) (r : FloorRequest)
    (messages : List ReplyMessage) :
    (s.conclude floorRequestId r messages).toFloorControl =
      { s.toFloorControl with floorRequests :=
          (s.floorRequests.insert floorRequestId r).erase floorRequestId } := by
  have h : ((messages.foldl sendMessage
      (s.setFloorRequest floorRequestId r)).notifyForFloorRequest r).toFloorControl =
      (s.setFloorRequest floorRequestId r).toFloorControl :=
    (toFloorControl_notifyForFloorRequest _ r).trans (toFloorControl_sendMessages _ messages)
  unfold conclude
  dsimp only
  rw [h]
  rfl

theorem removes_conclude (floorRequestId : Int) (r : FloorRequest) (messages : List ReplyMessage) :
    Removes s.toFloorControl (s.conclude floorRequestId r messages).toFloorControl
      fun k _ => k = floorRequestId := by
  rw [toFloorControl_conclude]
  refine ⟨rfl, rfl, rfl, fun k => ?_⟩
  rw [getElem?_erase_ite, getElem?_insert_ite]
  by_cases hk : k = floorRequestId
  · simp [hk]
  · simp only [hk, if_false, decide_false, Bool.not_false]
    cases s.floorRequests[k]? <;> rfl

theorem removes_of_getFloorRequest {c : FloorControl}
    (hr : s.getFloorRequest floorRequestId = some r) {cond : FloorRequest → Bool}
    (h : Removes s.toFloorControl c fun k _ => k = floorRequestId) (hcond : cond r = true) :
    Removes s.toFloorControl c fun k r => k = floorRequestId && cond r := by
  refine h.congr fun k r' hr' => ?_
  by_cases hk : k = floorRequestId
  · subst hk
    obtain rfl : r = r' := Option.some.inj (hr.symm.trans hr')
    simp [hcond]
  · simp [hk]

theorem removes_none {cond : FloorRequest → Bool}
    (h : ∀ r, s.getFloorRequest floorRequestId = some r → cond r = false) :
    Removes s.toFloorControl s.toFloorControl fun k r => k = floorRequestId && cond r := by
  refine (Removes.refl _).congr fun k r hr => ?_
  by_cases hk : k = floorRequestId
  · subst hk
    simp [h r hr]
  · simp [hk]

theorem toFloorControl_revokeFloorRequest
    (hr : s.getFloorRequest floorRequestId = some r) (hgranted : r.isGranted = true)
    (statusInfo : String) :
    (s.revokeFloorRequest floorRequestId statusInfo).1.toFloorControl =
      (s.conclude floorRequestId (r.setStatus .revoked)
        [(r.setStatus .revoked).createFloorRequestStatus 0 statusInfo]).toFloorControl := by
  have hout : ∀ (t : Server) outputs,
      (if t.ending then t else t.emit outputs).toFloorControl = t.toFloorControl := by
    intro t outputs
    split <;> rfl
  unfold revokeFloorRequest
  rw [hr]
  simp only [hgranted, Bool.not_true, Bool.false_eq_true, if_false]
  rw [hout]

theorem removes_revokeFloorRequest (floorRequestId : Int) (statusInfo : String) :
    Removes s.toFloorControl (s.revokeFloorRequest floorRequestId statusInfo).1.toFloorControl
      fun k r => k = floorRequestId && r.isGranted := by
  cases hr : s.getFloorRequest floorRequestId with
  | none =>
    unfold revokeFloorRequest
    rw [hr]
    exact removes_none fun r h => by rw [hr] at h; cases h
  | some r =>
    cases hgranted : r.isGranted with
    | false =>
      unfold revokeFloorRequest
      simp only [hr, hgranted, Bool.not_false, if_true]
      refine removes_none fun r' h => ?_
      rw [hr] at h
      rw [← Option.some.inj h, hgranted]
    | true =>
      rw [toFloorControl_revokeFloorRequest hr hgranted]
      exact removes_of_getFloorRequest hr (removes_conclude ..) hgranted

theorem toFloorControl_denyFloorRequest
    (hr : s.getFloorRequest floorRequestId = some r) (hdenied : r.canBeDenied = true)
    (statusInfo : String) :
    (s.denyFloorRequest floorRequestId statusInfo).1.toFloorControl =
      (s.conclude floorRequestId (r.setStatus .denied)
        [(r.setStatus .denied).createFloorRequestStatus 0 statusInfo]).toFloorControl := by
  unfold denyFloorRequest
  rw [hr]
  simp only [hdenied, Bool.not_true, Bool.false_eq_true, if_false]

theorem removes_denyFloorRequest (floorRequestId : Int) (statusInfo : String) :
    Removes s.toFloorControl (s.denyFloorRequest floorRequestId statusInfo).1.toFloorControl
      fun k r => k = floorRequestId && r.canBeDenied := by
  cases hr : s.getFloorRequest floorRequestId with
  | none =>
    unfold denyFloorRequest
    rw [hr]
    exact removes_none fun r h => by rw [hr] at h; cases h
  | some r =>
    cases hdenied : r.canBeDenied with
    | false =>
      unfold denyFloorRequest
      simp only [hr, hdenied, Bool.not_false, if_true]
      refine removes_none fun r' h => ?_
      rw [hr] at h
      rw [← Option.some.inj h, hdenied]
    | true =>
      rw [toFloorControl_denyFloorRequest hr hdenied]
      exact removes_of_getFloorRequest hr (removes_conclude ..) hdenied

theorem removes_revokeOrDeny (r : FloorRequest) (statusInfo : String) :
    Removes s.toFloorControl (s.revokeOrDeny r statusInfo).toFloorControl fun k r' =>
      k = r.floorRequestId && if r.isGranted then r'.isGranted else r'.canBeDenied := by
  unfold revokeOrDeny
  cases r.isGranted with
  | true => exact removes_revokeFloorRequest ..
  | false => exact removes_denyFloorRequest ..

theorem removes_revokeGranted (requests : List FloorRequest) :
    Removes s.toFloorControl (s.revokeGranted requests).toFloorControl fun k r =>
      r.isGranted && requests.any fun r' => r'.isGranted && decide (k = r'.floorRequestId) := by
  induction requests generalizing s with
  | nil => exact (Removes.refl _).congr fun k r _ => by simp
  | cons r' requests ih =>
    rw [revokeGranted, List.foldl_cons]
    cases hgranted : r'.isGranted with
    | false =>
      rw [if_neg (by simp)]
      refine ih.congr fun k r _ => ?_
      simp [hgranted]
    | true =>
      rw [if_pos rfl]
      refine ((removes_revokeFloorRequest ..).trans ih).congr fun k r _ => ?_
      simp only [List.any_cons, hgranted, Bool.true_and]
      cases r.isGranted <;> simp

theorem exists_removes_foldl {α : Type} (f : Server → α → Server)
    (h : ∀ s a, ∃ p, Removes s.toFloorControl (f s a).toFloorControl p) (l : List α) :
    ∃ p, Removes s.toFloorControl (l.foldl f s).toFloorControl p := by
  induction l generalizing s with
  | nil => exact ⟨_, .refl _⟩
  | cons a l ih =>
    obtain ⟨p, hp⟩ := h s a
    obtain ⟨q, hq⟩ := ih (s := f s a)
    exact ⟨_, hp.trans hq⟩

theorem exists_removes_revokeUserFloorRequests (userId : Int) :
    ∃ p, Removes s.toFloorControl (s.revokeUserFloorRequests userId).toFloorControl p := by
  refine exists_removes_foldl _ (fun s floorRequestId => ?_) _
  split
  · exact ⟨_, removes_revokeOrDeny ..⟩
  · exact ⟨_, .refl _⟩

theorem exists_removes_processFloorRelease (header : CommonHeader) (floorRequestId : Int)
    (user : User) : ∃ p, Removes s.toFloorControl
      (s.processFloorRelease header floorRequestId user).toFloorControl p := by
  have herror : ∀ errorCode errorInfo, ∃ p, Removes s.toFloorControl
      (s.replyError header errorCode errorInfo).toFloorControl p := by
    intro errorCode errorInfo
    rw [toFloorControl_replyError]
    exact ⟨_, .refl _⟩
  unfold processFloorRelease
  split
  · exact herror ..
  · split
    · exact herror ..
    · split
      · exact herror ..
      · dsimp only
        split
        · rw [toFloorControl_emit]
          exact ⟨_, removes_conclude ..⟩
        · exact ⟨_, removes_conclude ..⟩

end Requests

/-! ### Granting a request -/

section Grant

variable {s : Server}

theorem disjoint_of_revokeGranted (hI : s.toFloorControl.Inv) (r : FloorRequest) (k : Int) :
    Disjoint ((s.revokeGranted (s.getFloorRequestsForFloors r.floorIds)).toFloorControl.holds k)
      {floorId | r.hasFloorId floorId = true} := by
  rw [Set.disjoint_left]
  intro floorId hheld hfloor
  obtain ⟨r', hr', hgranted, hmem⟩ := hheld
  obtain ⟨hold, hkept⟩ := (removes_revokeGranted _).of_getElem? hr'
  have hlisted : r' ∈ s.getFloorRequestsForFloors r.floorIds := by
    refine List.mem_filter.2 ⟨mem_values_iff.2 ⟨k, hold⟩, List.any_eq_true.2 ⟨floorId, ?_, hmem⟩⟩
    rw [Std.TreeSet.mem_toList]
    exact Std.TreeSet.contains_iff_mem.1 hfloor
  have hany : (s.getFloorRequestsForFloors r.floorIds).any
      (fun r'' => r''.isGranted && decide (k = r''.floorRequestId)) = true := by
    refine List.any_eq_true.2 ⟨r', hlisted, ?_⟩
    rw [hgranted, hI.key_eq k r' hold, decide_eq_true rfl]
    rfl
  rw [hgranted, hany] at hkept
  cases hkept

/-- **Granting.** The granted request takes its floors from those who held them. -/
theorem inv_grantFloorRequest (hI : s.toFloorControl.Inv) (floorRequestId : Int) :
    (s.grantFloorRequest floorRequestId).1.toFloorControl.Inv := by
  unfold grantFloorRequest
  split
  · exact hI
  · split
    · exact hI
    case h_2 r hr =>
      split
      · exact hI
      case isFalse =>
        have hrevoked := removes_revokeGranted (s := s) (s.getFloorRequestsForFloors r.floorIds)
        have hfree := disjoint_of_revokeGranted hI r
        dsimp only
        rw [toFloorControl_emit, toFloorControl_notifyForFloorRequest, toFloorControl_sendMessage]
        refine (hI.of_removes hrevoked).insert (hI.key_eq _ r hr) (.inl rfl) ?_
          fun _ j _ => hfree j
        intro floorId hfloor
        rw [hrevoked.floors_eq]
        exact hI.floors_mem _ r hr floorId hfloor

end Grant

/-! ### Requesting floors -/

section Request

variable {s : Server}

theorem addFloorIds_hasFloorId (floorIds : List Int) (r : FloorRequest) (floorId : Int) :
    (floorIds.foldl FloorRequest.addFloorId r).hasFloorId floorId = true ↔
      floorId ∈ floorIds ∨ r.hasFloorId floorId = true := by
  induction floorIds generalizing r with
  | nil => simp
  | cons f floorIds ih =>
    rw [List.foldl_cons, ih, List.mem_cons]
    have hadd : (r.addFloorId f).hasFloorId floorId = true ↔
        floorId = f ∨ r.hasFloorId floorId = true := by
      simp only [FloorRequest.addFloorId, FloorRequest.hasFloorId, Std.TreeSet.contains_insert,
        Bool.or_eq_true, beq_iff_eq, Std.LawfulEqOrd.compare_eq_iff_eq]
      exact or_congr_left eq_comm
    rw [hadd]
    tauto

theorem addFloorIds_status (floorIds : List Int) (r : FloorRequest) :
    (floorIds.foldl FloorRequest.addFloorId r).status = r.status := by
  induction floorIds generalizing r with
  | nil => rfl
  | cons f floorIds ih => exact ih (r.addFloorId f)

theorem addFloorIds_floorRequestId (floorIds : List Int) (r : FloorRequest) :
    (floorIds.foldl FloorRequest.addFloorId r).floorRequestId = r.floorRequestId := by
  induction floorIds generalizing r with
  | nil => rfl
  | cons f floorIds ih => exact ih (r.addFloorId f)

theorem inv_newFloorRequest (hI : s.toFloorControl.Inv) {floorIds : List Int}
    (hall : ∀ floorId ∈ floorIds, s.floors.contains floorId = true) {new : FloorRequest}
    (hnew : new.floorRequestId = s.floorRequestCounter) (hpending : new.status = .pending)
    (hempty : new.floorIds = {}) :
    FloorControl.Inv
      { s.toFloorControl with
        floorRequestCounter := nextCounter s.floorRequestCounter
        floorRequests := s.floorRequests.insert s.floorRequestCounter
          (floorIds.foldl FloorRequest.addFloorId new) } := by
  have hstatus : (floorIds.foldl FloorRequest.addFloorId new).status = .pending :=
    (addFloorIds_status floorIds new).trans hpending
  have hkey : (floorIds.foldl FloorRequest.addFloorId new).floorRequestId =
      s.floorRequestCounter :=
    (addFloorIds_floorRequestId floorIds new).trans hnew
  have hmem : ∀ floorId, (floorIds.foldl FloorRequest.addFloorId new).hasFloorId floorId = true →
      s.floors.contains floorId = true := by
    intro floorId hfloor
    rcases (addFloorIds_hasFloorId floorIds new floorId).1 hfloor with hin | hnone
    · exact hall floorId hin
    · rw [FloorRequest.hasFloorId, hempty] at hnone
      cases hnone
  have hinsert := hI.insert hkey (.inr (FloorRequest.isUndecided_iff.2 (.inl hstatus))) hmem
    (fun hgranted => by simp [hstatus] at hgranted)
  exact { hinsert with }

theorem inv_processFloorRequest (hI : s.toFloorControl.Inv) (header : CommonHeader)
    (floorIds : List Int) (beneficiaryId : Option Int) (user : User) :
    (s.processFloorRequest header floorIds beneficiaryId user).toFloorControl.Inv := by
  unfold processFloorRequest
  split
  · rw [toFloorControl_replyError]
    exact hI
  case isFalse hfloors =>
    split
    · rw [toFloorControl_replyError]
      exact hI
    · have hall : ∀ floorId ∈ floorIds, s.floors.contains floorId = true := by
        simpa [hasFloor] using hfloors
      dsimp only
      split
      · refine inv_grantFloorRequest ?_ _
        rw [toFloorControl_sendMessage]
        exact inv_newFloorRequest hI hall rfl rfl rfl
      · rw [toFloorControl_emit, toFloorControl_sendMessage]
        exact inv_newFloorRequest hI hall rfl rfl rfl

end Request

/-! ### Ending the conference -/

section End

variable {s : Server}

theorem size_revokeOrDeny_lt (hr : s.getFloorRequest r.floorRequestId = some r)
    (hongoing : r.isGranted = true ∨ r.isUndecided = true) (statusInfo : String) :
    (s.revokeOrDeny r statusInfo).floorRequests.size < s.floorRequests.size := by
  have hconclude : ∀ (r' : FloorRequest) messages,
      (s.conclude r.floorRequestId r' messages).floorRequests.size < s.floorRequests.size := by
    intro r' messages
    rw [toFloorControl_conclude]
    have hself : (s.floorRequests.insert r.floorRequestId r')[r.floorRequestId]? = some r' := by
      rw [getElem?_insert_ite, if_pos rfl]
    have hlt := size_erase_lt hself
    rw [size_insert_of_some hr] at hlt
    exact hlt
  unfold revokeOrDeny
  cases hgranted : r.isGranted with
  | true =>
    rw [if_pos rfl, toFloorControl_revokeFloorRequest hr hgranted]
    exact hconclude ..
  | false =>
    have hdenied : r.canBeDenied = true := by
      rcases hongoing with h | h
      · rw [h] at hgranted
        cases hgranted
      · exact h
    rw [if_neg (by simp), toFloorControl_denyFloorRequest hr hdenied]
    exact hconclude ..

/-- The loop of `End` takes all requests away, in as many steps as there are requests. -/
theorem endFloorRequests_spec (fuel : Nat) (hI : s.toFloorControl.Inv)
    (hfuel : s.floorRequests.size ≤ fuel) :
    (∃ p, Removes s.toFloorControl (endFloorRequests fuel s).toFloorControl p) ∧
      ∀ k : Int, (endFloorRequests fuel s).floorRequests[k]? = none := by
  have hempty : ∀ {t : Server}, first? t.floorRequests = none →
      ∀ k : Int, t.floorRequests[k]? = none := by
    intro t hfirst k
    rw [first?_eq_none] at hfirst
    rw [Option.eq_none_iff_forall_ne_some]
    intro r hr
    rw [← mem_toList_iff, hfirst] at hr
    cases hr
  induction fuel generalizing s with
  | zero =>
    have hnone : first? s.floorRequests = none := by
      rw [first?_eq_none, ← List.length_eq_zero_iff, Std.TreeMap.length_toList]
      omega
    exact ⟨⟨_, .refl _⟩, hempty hnone⟩
  | succ fuel ih =>
    rw [endFloorRequests]
    cases hfirst : first? s.floorRequests with
    | none => exact ⟨⟨_, .refl _⟩, hempty hfirst⟩
    | some entry =>
      obtain ⟨k, r⟩ := entry
      have hr := getElem?_of_first? hfirst
      have hkey := hI.key_eq k r hr
      subst hkey
      have hsize := size_revokeOrDeny_lt hr (hI.ongoing _ r hr) "conference ended"
      have hremoves := removes_revokeOrDeny (s := s) r "conference ended"
      obtain ⟨⟨p, hp⟩, hnone⟩ := ih (hI.of_removes hremoves) (by omega)
      exact ⟨⟨_, hremoves.trans hp⟩, hnone⟩

end End

/-! ### All runs -/

/-- What holds of a server between two calls: the invariant, and no requests once it has ended. -/
structure Good (s : Server) : Prop where
  inv : s.toFloorControl.Inv
  ended : s.ending = true → ∀ k : Int, s.floorRequests[k]? = none

section Step

variable {s : Server}

theorem Good.of_eq (h : Good s) {t : Server} (heq : t.toFloorControl = s.toFloorControl) :
    Good t where
  inv := by
    rw [heq]
    exact h.inv
  ended := by
    rw [heq]
    exact h.ended

theorem Good.of_removes (h : Good s) {t : Server}
    (hremoves : ∃ p, Removes s.toFloorControl t.toFloorControl p) : Good t := by
  obtain ⟨p, hp⟩ := hremoves
  refine ⟨h.inv.of_removes hp, fun hending k => ?_⟩
  rw [hp.ending_eq] at hending
  rw [hp.getElem?_eq, h.ended hending]
  rfl

theorem Good.of_inv {t : Server} (hI : t.toFloorControl.Inv) (hending : t.ending = false) :
    Good t :=
  ⟨hI, fun h => by rw [hending] at h; cases h⟩

theorem ending_grantFloorRequest (floorRequestId : Int) :
    (s.grantFloorRequest floorRequestId).1.ending = s.ending := by
  unfold grantFloorRequest
  split
  · rfl
  · split
    · rfl
    · split
      · rfl
      · dsimp only
        rw [toFloorControl_emit, toFloorControl_notifyForFloorRequest, toFloorControl_sendMessage]
        exact (removes_revokeGranted _).ending_eq

theorem ending_processFloorRequest (header : CommonHeader) (floorIds : List Int)
    (beneficiaryId : Option Int) (user : User) :
    (s.processFloorRequest header floorIds beneficiaryId user).ending = s.ending := by
  unfold processFloorRequest
  split
  · rw [toFloorControl_replyError]
  · split
    · rw [toFloorControl_replyError]
    · dsimp only
      split
      · rw [ending_grantFloorRequest, toFloorControl_sendMessage]
        rfl
      · rw [toFloorControl_emit, toFloorControl_sendMessage]
        rfl

theorem good_removeUser (h : Good s) (userId : Int) : Good (s.removeUser userId).1 := by
  unfold removeUser
  split
  · exact h
  · split
    · exact h
    · obtain ⟨p, hp⟩ := exists_removes_revokeUserFloorRequests
        (s := { s with users := s.users.erase userId }) userId
      exact h.of_removes ⟨p, hp⟩

theorem good_userConnected (h : Good s) (userId : Int) (transport : Nat) :
    Good (s.userConnected userId transport).1 := by
  unfold userConnected
  split
  · exact h
  · split
    · exact h
    · dsimp only
      refine h.of_removes ?_
      rw [toFloorControl_updateUser]
      split
      · rw [toFloorControl_closeTransport]
        exact exists_removes_revokeUserFloorRequests
          (s := s.updateUser userId User.resetQueriedFloorIds) userId
      · exact ⟨_, .refl _⟩

theorem good_userDisconnected (h : Good s) (userId : Int) (closedByServer : Bool) :
    Good (s.userDisconnected userId closedByServer) := by
  unfold userDisconnected
  split
  · exact h
  · split
    · exact h
    · dsimp only
      split
      · exact h.of_eq rfl
      · exact h.of_removes (exists_removes_revokeUserFloorRequests (s := updateUser
          (s.updateUser userId fun user => { user with transport := none }) userId
          User.resetQueriedFloorIds) userId)

theorem good_disconnectUser (h : Good s) (userId : Int) (code : Nat) (reason : String) :
    Good (s.disconnectUser userId code reason) := by
  unfold disconnectUser
  split
  · exact h
  · split
    · exact h
    · dsimp only
      refine h.of_removes ?_
      rw [toFloorControl_closeTransport]
      exact exists_removes_revokeUserFloorRequests
        (s := s.updateUser userId User.resetQueriedFloorIds) userId

theorem good_end (h : Good s) : Good s.end_ := by
  unfold end_
  split
  · exact h
  · dsimp only
    have hI : FloorControl.Inv { s.toFloorControl with ending := true } := { h.inv with }
    obtain ⟨⟨p, hp⟩, hnone⟩ := endFloorRequests_spec (s := { s with ending := true })
      s.floorRequests.size hI le_rfl
    exact ⟨hI.of_removes hp, fun _ => hnone⟩

theorem good_addFloor (h : Good s) (floorId : Int) : Good (s.addFloor floorId).1 := by
  unfold addFloor
  split
  · exact h
  case isFalse hending =>
    split
    · exact h
    · split
      · exact h
      · refine .of_inv { h.inv with floors_mem := ?_ } (by simpa using hending)
        intro k r hr f hf
        rw [Std.TreeSet.contains_insert, h.inv.floors_mem k r hr f hf, Bool.or_true]

theorem good_messageReceived (h : Good s) (msg : RequestMessage) : Good (s.messageReceived msg) := by
  unfold messageReceived
  split
  · exact h
  case isFalse hending =>
    have hfalse : s.ending = false := by simpa using hending
    split
    · exact h.of_eq (toFloorControl_replyError ..)
    · split
      · exact .of_inv (inv_processFloorRequest h.inv ..)
          ((ending_processFloorRequest ..).trans hfalse)
      · exact h.of_removes (exists_removes_processFloorRelease ..)
      · exact h.of_eq (toFloorControl_processFloorQuery ..)
      · exact h.of_eq (toFloorControl_sendMessage ..)
      · exact h.of_eq (toFloorControl_replyError ..)

/-- **Step lemma.** Every call keeps what holds of the server. -/
theorem good_step (h : Good s) (a : Action) : Good (s.step a) := by
  cases a with
  | addUser userId => exact h.of_eq (toFloorControl_addUser s userId)
  | removeUser userId => exact good_removeUser h userId
  | setChair userId => exact h.of_eq (toFloorControl_setChair s userId)
  | addFloor floorId => exact good_addFloor h floorId
  | grantFloorRequest floorRequestId =>
    cases hending : s.ending with
    | true =>
      have heq : s.grantFloorRequest floorRequestId = (s, false) := if_pos hending
      rw [step, heq]
      exact h
    | false =>
      exact .of_inv (inv_grantFloorRequest h.inv floorRequestId)
        ((ending_grantFloorRequest floorRequestId).trans hending)
  | denyFloorRequest floorRequestId statusInfo =>
    exact h.of_removes ⟨_, removes_denyFloorRequest ..⟩
  | revokeFloorRequest floorRequestId statusInfo =>
    exact h.of_removes ⟨_, removes_revokeFloorRequest ..⟩
  | end_ => exact good_end h
  | userConnected userId transport => exact good_userConnected h userId transport
  | userDisconnected userId closedByServer => exact good_userDisconnected h userId closedByServer
  | disconnectUser userId code reason => exact good_disconnectUser h userId code reason
  | messageReceived msg => exact good_messageReceived h msg

theorem good_new (conferenceId : Int) : Good (new conferenceId) := by
  have hnone : ∀ k : Int, (new conferenceId).floorRequests[k]? = none := fun _ => rfl
  refine ⟨⟨?_, ?_, ?_, ?_⟩, fun _ => hnone⟩
  · exact fun k r hr => absurd hr (by simp [hnone])
  · exact fun k r hr => absurd hr (by simp [hnone])
  · exact fun k r hr => absurd hr (by simp [hnone])
  · intro i j _
    refine Set.disjoint_left.2 fun floorId hfloor => ?_
    obtain ⟨r, hr, -⟩ := hfloor
    rw [hnone] at hr
    cases hr

end Step

/-- No floor is granted to two requests, and `GetGrantedFloorRequestId` answers with the request a
floor is granted to, or with 0. -/
structure FloorExclusion (s : Server) : Prop where
  unique : ∀ (floorId id₁ id₂ : Int) r₁ r₂,
    s.floorRequests[id₁]? = some r₁ → r₁.isGranted = true → r₁.hasFloorId floorId = true →
    s.floorRequests[id₂]? = some r₂ → r₂.isGranted = true → r₂.hasFloorId floorId = true →
    id₁ = id₂
  granted : ∀ (floorId id : Int) r, s.floorRequests[id]? = some r → r.isGranted = true →
    r.hasFloorId floorId = true → s.getGrantedFloorRequestId floorId = r.floorRequestId
  free : ∀ floorId : Int, (∀ (id : Int) r, s.floorRequests[id]? = some r → r.isGranted = true →
    r.hasFloorId floorId = false) → s.getGrantedFloorRequestId floorId = 0

theorem Good.exclusive {s : Server} (h : Good s) : FloorExclusion s := by
  have hfind : ∀ {floorId : Int} {r : FloorRequest},
      (s.getFloorRequestsForFloor floorId).find? FloorRequest.isGranted = some r →
        ∃ id : Int, s.floorRequests[id]? = some r ∧ r.isGranted = true ∧
          r.hasFloorId floorId = true := by
    intro floorId r hfound
    obtain ⟨hvalue, hmem⟩ := List.mem_filter.1 (List.mem_of_find?_eq_some hfound)
    obtain ⟨id, hid⟩ := mem_values_iff.1 hvalue
    exact ⟨id, hid, List.find?_some hfound, hmem⟩
  have hunique : ∀ (floorId id₁ id₂ : Int) r₁ r₂,
      s.floorRequests[id₁]? = some r₁ → r₁.isGranted = true → r₁.hasFloorId floorId = true →
      s.floorRequests[id₂]? = some r₂ → r₂.isGranted = true → r₂.hasFloorId floorId = true →
      id₁ = id₂ := by
    intro floorId id₁ id₂ r₁ r₂ hr₁ hgranted₁ hmem₁ hr₂ hgranted₂ hmem₂
    exact h.inv.tenancy.eq_of_mem ⟨r₁, hr₁, hgranted₁, hmem₁⟩ ⟨r₂, hr₂, hgranted₂, hmem₂⟩
  refine ⟨hunique, ?_, ?_⟩
  · intro floorId id r hr hgranted hmem
    have hending : ¬ s.ending = true := by
      intro hending
      rw [h.ended hending] at hr
      cases hr
    have hfloor : s.hasFloor floorId = true := h.inv.floors_mem id r hr floorId hmem
    rw [getGrantedFloorRequestId, if_neg hending, if_neg (by simp [hfloor])]
    cases hfound : (s.getFloorRequestsForFloor floorId).find? FloorRequest.isGranted with
    | none =>
      have hlisted : r ∈ s.getFloorRequestsForFloor floorId :=
        List.mem_filter.2 ⟨mem_values_iff.2 ⟨id, hr⟩, hmem⟩
      exact absurd hgranted (List.find?_eq_none.1 hfound r hlisted)
    | some r' =>
      obtain ⟨id', hr', hgranted', hmem'⟩ := hfind hfound
      obtain rfl := hunique floorId id id' r r' hr hgranted hmem hr' hgranted' hmem'
      rw [Option.some.inj (hr.symm.trans hr')]
  · intro floorId hfree
    rw [getGrantedFloorRequestId]
    split
    · rfl
    · split
      · rfl
      · cases hfound : (s.getFloorRequestsForFloor floorId).find? FloorRequest.isGranted with
        | none => rfl
        | some r =>
          obtain ⟨id, hr, hgranted, hmem⟩ := hfind hfound
          rw [hfree id r hr hgranted] at hmem
          cases hmem

/-- **Floor exclusion.** In every state a server reaches from its construction, by any calls in any
order, no floor is granted to two requests, and `GetGrantedFloorRequestId` answers with the request
it is granted to. -/
theorem floorExclusion (conferenceId : Int) (actions : List Action) :
    FloorExclusion (run step (new conferenceId) actions) := by
  have hgood : Good (run step (new conferenceId) actions) :=
    invariant_of_meets (C := fun _ _ => True) (I := fun _ s => Good s) (good_new conferenceId)
      (fun _ a h _ => good_step h a) actions (meets_of_forall (fun _ _ => trivial) actions)
  exact hgood.exclusive

end Server

end Bfcp

end McuMediaServer
