import McuMediaServer.Web.Accounting

/-!
# The handlers of a conference and their order

Every handler takes its participant through a sequence of states (`Call.path`, `handle_eq_foldl`),
which ends with DESTROYED if it has it at all. From this, and from the lemmas about such sequences,
one input keeps the books of the conference right exactly if it is `Proper`, and so do runs.
-/

namespace McuMediaServer.Web

open SipServlet Conference

/-- The states a positive answer leads through. -/
def SipServlet.Answer.path : Answer → List State
  | .malformed => []
  | .refused => [.error, .destroyed]
  | .unjoined => [.connected, .error, .destroyed]
  | .joined => [.connected]

/-- The states a response to INVITE leads through. -/
def responsePath (part : Participant) (code : Int) (answer : Answer) : List State :=
  if part.state ≠ .connecting then []
  else if code < 200 then []
  else if code < 300 then answer.path
  else if code ≥ 400 then ((failure code).map fun state => [state, .destroyed]).getD []
  else []

/-- The states a timer leads through. -/
def timeoutPath (part : Participant) (rtp : RTPParticipant) (refreshOver : Bool)
    (num : Option Int) : List State :=
  match part.state with
  | .connected =>
    if refreshOver ∨ rtp.useRTPTimeout ∧ num.isSome ∧ rtp.totalPacketCount = num then
      [.timeout, .destroyed]
    else []
  | .connecting => [.timeout, .destroyed]
  | _ => [.destroyed]

/-- The states a participant ends through. -/
def endPath (part : Participant) : List State :=
  match part.state with
  | .connecting | .connected => [.disconnected, .destroyed]
  | _ => [.destroyed]

/-- The states a handler takes its participant through. -/
def Call.path (part : Participant) (rtp : RTPParticipant) : Call → List State
  | .onInviteRequest _ ringing processed sent =>
    if ringing ∧ processed then
      if part.autoAccept ∧ ¬sent then [.waitingAccept, .error, .destroyed] else [.waitingAccept]
    else []
  | .doInvite _ receiving offered => if receiving ∧ offered then [.connecting] else []
  | .onInviteResponse _ code answer => responsePath part code answer
  | .onCancelResponse => [.destroyed]
  | .onByeResponse | .onUpdatesRequest _ => []
  | .onByeRequest | .onCancelRequest => [.disconnected, .destroyed]
  | .onAckRequest processed => if processed ∧ part.state ≠ .connected then [.connected] else []
  | .onTimeout refreshOver num => timeoutPath part rtp refreshOver num
  | .accept sent => if part.state = .waitingAccept ∧ ¬sent then [.error, .destroyed] else []
  | .reject sent =>
    if part.state = .waitingAccept then [if sent then .declined else .error, .destroyed] else []
  | .endParticipant => endPath part

namespace SipServlet

section Paths

variable {c : SipServlet} {p : Nat} {part : Participant} {state : State}

theorem error_eq_foldl (hstate : state ≠ .destroyed) :
    c.error onStateChanged p state = [state, .destroyed].foldl (move p) c := by
  rw [List.foldl_cons, List.foldl_cons, List.foldl_nil, move, move, if_pos rfl, if_neg hstate]
  rfl

theorem setState_eq_foldl (hstate : state ≠ .destroyed) :
    c.setState onStateChanged p state = [state].foldl (move p) c := by
  rw [List.foldl_cons, List.foldl_nil, move, if_neg hstate]

theorem destroyParticipant_eq_foldl :
    c.destroyParticipant onStateChanged p = [State.destroyed].foldl (move p) c := by
  rw [List.foldl_cons, List.foldl_nil, move, if_pos rfl]

theorem getElem?_setState (hp : c.conference.parts[p]? = some part) (hstate : state ≠ .destroyed) :
    (c.setState onStateChanged p state).conference.parts[p]? = some { part with state } := by
  have hget := (getElem?_record hp state p).trans (if_pos rfl)
  cases hdestroying : c.conference.isDestroying with
  | true =>
    rw [← setState_ignore hdestroying, setState_of_getElem? ignore hp]
    exact hget
  | false =>
    rw [setState_conference hdestroying hp hstate]
    exact hget

theorem failure_ne_destroyed {code : Int} (h : failure code = some state) :
    state ≠ .destroyed ∧ state ≠ .created := by
  unfold failure at h
  split at h
  · cases h
  · split at h
    · cases h
      decide
    · split at h
      · cases h
        decide
      · split at h
        · cases h
          decide
        · split at h <;> (cases h; decide)

/-- A handler that starts in `c` and ends in `d` takes its participant through `states`; what it
does besides does not concern the conference. -/
def Follows (c : SipServlet) (p : Nat) (states : List State) (d : SipServlet) : Prop :=
  ∃ c' : SipServlet, c'.conference = c.conference ∧
    d.conference = (states.foldl (move p) c').conference

theorem follows_nil {d : SipServlet} (h : d.conference = c.conference) : Follows c p [] d :=
  ⟨c, rfl, h⟩

theorem follows_error (c' : SipServlet) (h : c'.conference = c.conference)
    (hstate : state ≠ .destroyed) :
    Follows c p [state, .destroyed] (c'.error onStateChanged p state) :=
  ⟨c', h, congrArg _ (error_eq_foldl hstate)⟩

theorem follows_setState (c' : SipServlet) (h : c'.conference = c.conference)
    (hstate : state ≠ .destroyed) :
    Follows c p [state] (c'.setState onStateChanged p state) :=
  ⟨c', h, congrArg _ (setState_eq_foldl hstate)⟩

theorem follows_destroyParticipant :
    Follows c p [.destroyed] (c.destroyParticipant onStateChanged p) :=
  ⟨c, rfl, congrArg _ destroyParticipant_eq_foldl⟩

theorem accept_follows (hp : c.conference.parts[p]? = some part) (sent : Bool) :
    Follows c p (if part.state = .waitingAccept ∧ ¬sent then [.error, .destroyed] else [])
      (c.accept p sent) := by
  unfold accept
  rw [getState_of_getElem? hp]
  rcases Classical.em (part.state = .waitingAccept) with hstate | hstate
  · rw [if_neg (not_not.2 (congrArg some hstate))]
    cases sent with
    | true =>
      rw [if_neg fun h => h.2 rfl]
      exact follows_nil rfl
    | false =>
      rw [if_pos ⟨hstate, Bool.false_ne_true⟩]
      exact follows_error c rfl fun h => nomatch h
  · rw [if_pos fun h => hstate (Option.some.inj h), if_neg fun h => hstate h.1]
    exact follows_nil rfl

theorem accept_sent : c.accept p true = c := by
  unfold accept
  split <;> rfl

theorem accept_not_sent (h : c.getState p = some .waitingAccept) :
    c.accept p false = c.error onStateChanged p .error :=
  if_neg (not_not.2 h)

theorem reject_follows (hp : c.conference.parts[p]? = some part) (sent : Bool) :
    Follows c p (if part.state = .waitingAccept then
      [if sent then .declined else .error, .destroyed] else []) (c.reject p sent) := by
  unfold reject
  rw [getState_of_getElem? hp]
  rcases Classical.em (part.state = .waitingAccept) with hstate | hstate
  · rw [if_neg (not_not.2 (congrArg some hstate)), if_pos hstate]
    refine follows_error c rfl ?_
    split <;> exact fun h => nomatch h
  · rw [if_pos fun h => hstate (Option.some.inj h), if_neg hstate]
    exact follows_nil rfl

theorem onInviteRequest_follows (hp : c.conference.parts[p]? = some part) (s : SipSession)
    (ringing processed sent : Bool) :
    Follows c p (Call.path part (c.rtp p) (.onInviteRequest s ringing processed sent))
      (c.onInviteRequest p s ringing processed sent) := by
  cases ringing with
  | false => exact follows_nil rfl
  | true =>
    cases processed with
    | false => exact follows_nil rfl
    | true =>
      have hne : State.waitingAccept ≠ .destroyed := fun h => nomatch h
      let c₁ := (c.setAppSession p s.application).setSession p s
      have hget : (c₁.setState onStateChanged p .waitingAccept).conference.parts[p]? = _ :=
        getElem?_setState (c := c₁) hp hne
      have hauto : (c₁.setState onStateChanged p .waitingAccept).isAutoAccept p =
          part.autoAccept := by
        rw [isAutoAccept, hget]
        rfl
      change Follows c p (if part.autoAccept ∧ ¬sent then _ else _)
        (if (c₁.setState onStateChanged p .waitingAccept).isAutoAccept p then _ else _)
      rw [hauto]
      cases hpart : part.autoAccept with
      | false =>
        rw [if_neg Bool.false_ne_true, if_neg fun h => Bool.false_ne_true h.1]
        exact follows_setState c₁ rfl hne
      | true =>
        rw [if_pos rfl]
        cases sent with
        | true =>
          rw [if_neg fun h => h.2 rfl, accept_sent]
          exact follows_setState c₁ rfl hne
        | false =>
          have herror : State.error ≠ .destroyed := fun h => nomatch h
          rw [if_pos ⟨rfl, Bool.false_ne_true⟩, accept_not_sent (getState_of_getElem? hget),
            error_eq_foldl herror, setState_eq_foldl (c := c₁) hne, ← List.foldl_append]
          exact ⟨c₁, rfl, rfl⟩

theorem doInvite_follows (s : SipSession) (receiving offered : Bool) :
    Follows c p (Call.path part (c.rtp p) (.doInvite s receiving offered))
      (c.doInvite p s receiving offered) := by
  cases receiving with
  | false => exact follows_nil rfl
  | true =>
    cases offered with
    | false => exact follows_nil rfl
    | true =>
      exact follows_setState ((c.setAppSession p s.application).setSession p s) rfl
        fun h => nomatch h

theorem onInviteResponse_follows (hp : c.conference.parts[p]? = some part) (s : SipSession)
    (code : Int) (answer : Answer) :
    Follows c p (responsePath part code answer)
      (c.onInviteResponse p s code answer) := by
  unfold onInviteResponse responsePath
  rw [getState_of_getElem? hp]
  rcases Classical.em (part.state = .connecting) with hstate | hstate
  · rw [if_neg (not_not.2 (congrArg some hstate)), if_neg (not_not.2 hstate)]
    split
    · exact follows_nil rfl
    · split
      · cases answer with
        | malformed => exact follows_nil rfl
        | refused => exact follows_error (c.setSession p s) rfl fun h => nomatch h
        | unjoined =>
          have hne : State.connected ≠ .destroyed := fun h => nomatch h
          change Follows c p _ (error onStateChanged
            ((c.setSession p s).setState onStateChanged p .connected) p .error)
          have herror : State.error ≠ .destroyed := fun h => nomatch h
          rw [error_eq_foldl herror, setState_eq_foldl (c := c.setSession p s) hne,
            ← List.foldl_append]
          exact ⟨c.setSession p s, rfl, rfl⟩
        | joined => exact follows_setState (c.setSession p s) rfl fun h => nomatch h
      · split
        · cases hfailure : failure code with
          | none => exact follows_nil rfl
          | some state => exact follows_error c rfl (failure_ne_destroyed hfailure).1
        · exact follows_nil rfl
  · rw [if_pos fun h => hstate (Option.some.inj h), if_pos hstate]
    exact follows_nil rfl

theorem onAckRequest_follows (hp : c.conference.parts[p]? = some part) (processed : Bool) :
    Follows c p (if processed ∧ part.state ≠ .connected then [.connected] else [])
      (c.onAckRequest p processed) := by
  unfold onAckRequest
  rw [getState_of_getElem? hp]
  cases processed with
  | false => exact follows_nil rfl
  | true =>
    rcases Classical.em (part.state = .connected) with hstate | hstate
    · rw [if_neg (not_not.2 rfl), if_neg (not_not.2 (congrArg some hstate)),
        if_neg fun h => h.2 hstate]
      exact follows_nil rfl
    · rw [if_neg (not_not.2 rfl), if_pos fun h => hstate (Option.some.inj h),
        if_pos ⟨rfl, hstate⟩]
      exact follows_setState c rfl fun h => nomatch h

theorem onTimeout_follows (hp : c.conference.parts[p]? = some part) (refreshOver : Bool)
    (num : Option Int) :
    Follows c p (timeoutPath part (c.rtp p) refreshOver num)
      (c.onTimeout p refreshOver num) := by
  unfold onTimeout timeoutPath
  rw [getState_of_getElem? hp]
  cases hstate : part.state with
  | connected =>
    cases refreshOver with
    | true => exact follows_error c rfl fun h => nomatch h
    | false =>
      cases num with
      | none =>
        simp only [Option.isSome_none, Bool.false_eq_true, false_and, and_false, or_false, if_false]
        exact follows_nil rfl
      | some num =>
        rcases Classical.em ((c.rtp p).totalPacketCount = some num) with htotal | htotal
        · cases huse : (c.rtp p).useRTPTimeout with
          | true =>
            simp only [htotal, huse, Option.isSome_some, Bool.false_eq_true, if_false, ne_eq,
              not_true_eq_false, and_self, or_true, if_true]
            exact follows_error c rfl fun h => nomatch h
          | false =>
            simp only [htotal, huse, Bool.false_eq_true, if_false, ne_eq, not_true_eq_false,
              false_and, or_false]
            exact follows_nil rfl
        · simp only [htotal, Bool.false_eq_true, if_false, ne_eq, not_false_eq_true,
            if_true, and_false, or_false]
          exact follows_nil rfl
  | connecting => exact follows_error c rfl fun h => nomatch h
  | _ => exact follows_destroyParticipant

theorem endParticipant_follows (hp : c.conference.parts[p]? = some part) :
    Follows c p (endPath part)
      (c.endParticipant onStateChanged p) := by
  unfold endParticipant endPath
  rw [getState_of_getElem? hp]
  cases hstate : part.state with
  | connected => exact follows_error c rfl fun h => nomatch h
  | connecting => exact follows_error c rfl fun h => nomatch h
  | _ => exact follows_destroyParticipant

/-- **The handlers.** A handler takes its participant through the states of its path. -/
theorem handle_follows (hp : c.conference.parts[p]? = some part) (call : Call) :
    Follows c p (call.path part (c.rtp p)) (c.handle p call) := by
  cases call with
  | onInviteRequest s ringing processed sent =>
    exact onInviteRequest_follows hp s ringing processed sent
  | doInvite s receiving offered => exact doInvite_follows s receiving offered
  | onInviteResponse s code answer => exact onInviteResponse_follows hp s code answer
  | onCancelResponse => exact follows_destroyParticipant
  | onByeResponse => exact follows_nil rfl
  | onUpdatesRequest s => exact follows_nil rfl
  | onByeRequest => exact follows_error c rfl fun h => nomatch h
  | onAckRequest processed => exact onAckRequest_follows hp processed
  | onCancelRequest => exact follows_error c rfl fun h => nomatch h
  | onTimeout refreshOver num => exact onTimeout_follows hp refreshOver num
  | accept sent => exact accept_follows hp sent
  | reject sent => exact reject_follows hp sent
  | endParticipant => exact endParticipant_follows hp

end Paths

end SipServlet

/-! ## The condition -/

/-- The handler changes the state of a participant that is DESTROYED. -/
def Call.ChangesDestroyed : Call → Prop
  | .onInviteRequest _ ringing processed _ => ringing ∧ processed
  | .doInvite _ receiving offered => receiving ∧ offered
  | .onAckRequest processed => processed
  | .onCancelResponse | .onByeRequest | .onCancelRequest | .onTimeout _ _ | .endParticipant => True
  | .onInviteResponse _ _ _ | .onByeResponse | .onUpdatesRequest _ | .accept _ | .reject _ => False

/-- The handler takes a participant straight from CREATED to DESTROYED. -/
def Call.DestroysCreated : Call → Prop
  | .onCancelResponse | .onTimeout _ _ | .endParticipant => True
  | _ => False

section Paths

variable {part : Participant} {rtp : RTPParticipant}

attribute [local simp] Call.path timeoutPath endPath

theorem descends_pair {state : State} (hcreated : state ≠ .created) (hstate : state ≠ .destroyed) :
    Descends [state, .destroyed] :=
  ⟨hcreated, fun h => absurd h hstate, (fun h => nomatch h), fun _ => rfl, trivial⟩

theorem descends_destroyed : Descends [.destroyed] :=
  ⟨(fun h => nomatch h), fun _ => rfl, trivial⟩

theorem descends_singleton {state : State} (hcreated : state ≠ .created) : Descends [state] :=
  ⟨hcreated, fun _ => rfl, trivial⟩

theorem descends_cons {state : State} {states : List State} (hcreated : state ≠ .created)
    (hstate : state ≠ .destroyed) (h : Descends states) : Descends (state :: states) :=
  ⟨hcreated, fun heq => absurd heq hstate, h⟩

theorem descends_responsePath (code : Int) (answer : Answer) :
    Descends (responsePath part code answer) := by
  unfold responsePath
  split
  · trivial
  · split
    · trivial
    · split
      · cases answer with
        | malformed => trivial
        | refused => exact descends_pair (by decide) (by decide)
        | unjoined =>
          exact descends_cons (by decide) (by decide) (descends_pair (by decide) (by decide))
        | joined => exact descends_singleton (by decide)
      · split
        · cases hfailure : failure code with
          | none => trivial
          | some state =>
            obtain ⟨hstate, hcreated⟩ := failure_ne_destroyed hfailure
            exact descends_pair hcreated hstate
        · trivial

theorem descends_path (call : Call) : Descends (call.path part rtp) := by
  cases call with
  | onInviteRequest s ringing processed sent =>
    rw [Call.path]
    split
    · split
      · exact descends_cons (by decide) (by decide) (descends_pair (by decide) (by decide))
      · exact descends_singleton (by decide)
    · trivial
  | doInvite s receiving offered =>
    rw [Call.path]
    split
    · exact descends_singleton (by decide)
    · trivial
  | onInviteResponse s code answer => exact descends_responsePath code answer
  | onCancelResponse => exact descends_destroyed
  | onByeResponse => trivial
  | onUpdatesRequest s => trivial
  | onByeRequest => exact descends_pair (by decide) (by decide)
  | onAckRequest processed =>
    rw [Call.path]
    split
    · exact descends_singleton (by decide)
    · trivial
  | onCancelRequest => exact descends_pair (by decide) (by decide)
  | onTimeout refreshOver num =>
    rw [Call.path, timeoutPath]
    split
    · split
      · exact descends_pair (by decide) (by decide)
      · trivial
    · exact descends_pair (by decide) (by decide)
    · exact descends_destroyed
  | accept sent =>
    rw [Call.path]
    split
    · exact descends_pair (by decide) (by decide)
    · trivial
  | reject sent =>
    rw [Call.path]
    split
    · refine descends_pair ?_ ?_ <;> (split <;> decide)
    · trivial
  | endParticipant =>
    rw [Call.path, endPath]
    split
    · exact descends_pair (by decide) (by decide)
    · exact descends_pair (by decide) (by decide)
    · exact descends_destroyed

theorem path_ne_nil_iff (h : part.state = .destroyed) (call : Call) :
    call.path part rtp ≠ [] ↔ call.ChangesDestroyed := by
  cases call with
  | onInviteRequest s ringing processed sent =>
    rw [Call.path, Call.ChangesDestroyed]
    split
    case isTrue hboth => exact iff_of_true (by split <;> exact List.cons_ne_nil _ _) hboth
    case isFalse hnot => exact iff_of_false (fun hne => hne rfl) hnot
  | doInvite s receiving offered =>
    rw [Call.path, Call.ChangesDestroyed]
    split
    case isTrue hboth => exact iff_of_true (List.cons_ne_nil _ _) hboth
    case isFalse hnot => exact iff_of_false (fun hne => hne rfl) hnot
  | onInviteResponse s code answer =>
    refine iff_of_false (fun hne => hne ?_) id
    exact if_pos fun heq => nomatch h.symm.trans heq
  | onAckRequest processed =>
    have hne : part.state ≠ .connected := fun heq => nomatch h.symm.trans heq
    rw [Call.path, Call.ChangesDestroyed]
    split
    case isTrue hboth => exact iff_of_true (List.cons_ne_nil _ _) hboth.1
    case isFalse hnot =>
      exact iff_of_false (fun hne => hne rfl) fun hprocessed => hnot ⟨hprocessed, hne⟩
  | onTimeout refreshOver num =>
    refine iff_of_true ?_ trivial
    rw [Call.path, timeoutPath, h]
    exact List.cons_ne_nil _ _
  | endParticipant =>
    refine iff_of_true ?_ trivial
    rw [Call.path, endPath, h]
    exact List.cons_ne_nil _ _
  | accept sent =>
    refine iff_of_false (fun hne => hne ?_) id
    exact if_neg fun hboth : part.state = .waitingAccept ∧ ¬sent => nomatch h.symm.trans hboth.1
  | reject sent =>
    refine iff_of_false (fun hne => hne ?_) id
    exact if_neg fun heq : part.state = .waitingAccept => nomatch h.symm.trans heq
  | onCancelResponse => exact iff_of_true (List.cons_ne_nil _ _) trivial
  | onByeRequest => exact iff_of_true (List.cons_ne_nil _ _) trivial
  | onCancelRequest => exact iff_of_true (List.cons_ne_nil _ _) trivial
  | onByeResponse => exact iff_of_false (fun hne => hne rfl) id
  | onUpdatesRequest s => exact iff_of_false (fun hne => hne rfl) id

theorem destroysCreated_of_head (h : part.state = .created) (call : Call)
    (hhead : (call.path part rtp).head? = some .destroyed) : call.DestroysCreated := by
  cases call with
  | onInviteRequest s ringing processed sent =>
    rw [Call.path] at hhead
    split at hhead
    · split at hhead <;> cases hhead
    · cases hhead
  | doInvite s receiving offered =>
    rw [Call.path] at hhead
    split at hhead <;> cases hhead
  | onInviteResponse s code answer =>
    have hpath : responsePath part code answer = [] :=
      if_pos fun heq => nomatch h.symm.trans heq
    rw [Call.path, hpath] at hhead
    cases hhead
  | onAckRequest processed =>
    rw [Call.path] at hhead
    split at hhead <;> cases hhead
  | accept sent =>
    rw [Call.path] at hhead
    split at hhead <;> cases hhead
  | reject sent =>
    rw [Call.path] at hhead
    split at hhead
    · split at hhead <;> cases hhead
    · cases hhead
  | onByeRequest => cases hhead
  | onCancelRequest => cases hhead
  | onByeResponse => cases hhead
  | onUpdatesRequest s => cases hhead
  | onCancelResponse => trivial
  | onTimeout refreshOver num => trivial
  | endParticipant => trivial

theorem path_of_destroysCreated (h : part.state = .created) {call : Call}
    (hcall : call.DestroysCreated) : call.path part rtp = [.destroyed] := by
  cases call with
  | onCancelResponse => rfl
  | onTimeout refreshOver num => simp [h]
  | endParticipant => simp [h]
  | _ => exact absurd hcall id

end Paths

/-! ## Runs -/

/-- The handler does not change the state of a participant that is DESTROYED, and does not take it
straight from CREATED to DESTROYED while no other is active. -/
def Conference.Allows (conf : Conference) (part : Participant) (call : Call) : Prop :=
  (part.state = .destroyed → ¬call.ChangesDestroyed) ∧
    (part.state = .created → call.DestroysCreated → conf.HasActive)

/-- The mixer answers with the identifier that the conference gives, and the handler is allowed. -/
def Proper (c : SipServlet) (i : Input) : Prop :=
  c.conference.isDestroying = false →
    (∀ partId, i = .createParticipant .sip (some partId) → partId = c.conference.nextId) ∧
    ∀ (p : Nat) (call : Call) (part : Participant), c.callee i = some (p, call) →
      c.conference.parts[p]? = some part → c.conference.Allows part call

/-- A conference until it is being destroyed. -/
def live (c : SipServlet) (i : Input) : SipServlet :=
  if c.conference.isDestroying then c else c.step i

section Steps

variable {c : SipServlet} {conf : Conference}

theorem getElem?_createParticipant (conf : Conference) (partId : Int) (p : Nat) :
    (conf.createParticipant .sip (some partId)).parts[p]? =
      if p = conf.parts.length then
        some { id := conf.nextId, partId, autoAccept := conf.autoAccept }
      else conf.parts[p]? := by
  change (conf.parts ++ [_])[p]? = _
  rw [List.getElem?_append]
  rcases Nat.lt_trichotomy p conf.parts.length with hlt | rfl | hgt
  · rw [if_pos hlt, if_neg (Nat.ne_of_lt hlt)]
  · rw [if_neg (Nat.lt_irrefl _), if_pos rfl, Nat.sub_self]
    rfl
  · rw [if_neg (Nat.not_lt_of_lt hgt), if_neg (Nat.ne_of_gt hgt),
      List.getElem?_eq_none (Nat.le_of_lt hgt)]
    exact List.getElem?_eq_none (Nat.sub_pos_of_lt hgt)

/-- **Step lemma.** A participant is made under the identifier of the conference. -/
theorem inv_createParticipant (h : Inv conf) :
    Inv (conf.createParticipant .sip (some conf.nextId)) := by
  have hget := getElem?_createParticipant conf conf.nextId
  have hlast : conf.parts[conf.parts.length]? = none := List.getElem?_eq_none (Nat.le_refl _)
  have hcount := h.count_eq
  have hnext : conf.nextId = (conf.parts.length : Int) + 2 := by
    rw [Conference.nextId]
    omega
  have hevents : ∀ id, ∀ event ∈ announcements id,
      (conf.createParticipant .sip (some conf.nextId)).events.count event =
        conf.events.count event := by
    intro id event hevent
    refine List.count_cons_of_ne ?_
    rintro rfl
    rcases List.mem_cons.1 hevent with heq | hevent
    · cases heq
    · cases List.mem_singleton.1 hevent
  refine ⟨⟨h.isDestroying, ?_, ?_, ?_, ?_, h.terminal, ?_, ?_, ?_⟩, ?_⟩
  · change conf.nextId = ((conf.parts ++ [_]).length : Int) + 1
    rw [List.length_append, List.length_singleton]
    omega
  · intro p part hp
    rw [hget] at hp
    split at hp
    case isTrue heq =>
      cases hp
      rw [heq]
      exact hnext
    case isFalse => exact h.id_eq p part hp
  · intro k p
    change (conf.participants.insert conf.nextId conf.parts.length)[k]? = some p ↔ _
    rw [OrderedMap.getElem?_insert_ite, hget]
    have hfresh : ∀ (q : Nat) (part : Participant), conf.parts[q]? = some part →
        conf.nextId ≠ part.id := by
      intro q part hq heq
      have := h.id_eq q part hq
      have := (List.getElem?_eq_some_iff.1 hq).1
      omega
    split
    case isTrue hk =>
      subst hk
      constructor
      · intro hp
        cases hp
        rw [if_pos rfl]
        exact ⟨_, rfl, (fun heq => nomatch heq), rfl⟩
      · rintro ⟨part, hpart, -, hid⟩
        split at hpart
        case isTrue heq => rw [heq]
        case isFalse => exact absurd hid (hfresh p part hpart)
    case isFalse hk =>
      refine (h.participants_iff k p).trans ?_
      split
      case isTrue heq =>
        subst heq
        rw [hlast]
        refine iff_of_false (fun ⟨_, hnone, _⟩ => nomatch hnone) ?_
        rintro ⟨part, hpart, -, rfl⟩
        cases hpart
        exact hk rfl
      case isFalse => exact Iff.rfl
  · change conf.numActParticipants = (((conf.parts ++ [_]).countP _ : Nat) : Int)
    rw [List.countP_append, h.numActParticipants_eq]
    rfl
  · intro id event hevent hmem
    have hle := h.known id event hevent
      (List.count_pos_iff.1 (hevents id event hevent ▸ List.count_pos_iff.2 hmem))
    change id ≤ conf.count + 1
    omega
  · intro p part hp event hevent
    rw [hevents _ event hevent]
    rw [hget] at hp
    split at hp
    case isTrue heq =>
      cases hp
      refine List.count_eq_zero_of_not_mem fun hmem => ?_
      have hle := h.known _ event hevent hmem
      change conf.nextId ≤ conf.count at hle
      rw [Conference.nextId] at hle
      omega
    case isFalse => exact h.count_event p part hp event hevent
  · intro hmem
    rcases List.mem_cons.1 hmem with heq | hmem
    · cases heq
    · exact h.not_ended hmem
  · intro hleft
    obtain ⟨part, hpart, hactive⟩ := h.active hleft
    exact ⟨part, List.mem_append_left _ hpart, hactive⟩

theorem not_accounted_createParticipant (h : Inv conf) {partId : Int}
    (hne : partId ≠ conf.nextId) :
    ¬Accounted (conf.createParticipant .sip (some partId)) := by
  intro hacc
  have hmap : (conf.participants.insert partId conf.parts.length)[partId]? =
      some conf.parts.length := by
    rw [OrderedMap.getElem?_insert_ite, if_pos rfl]
  obtain ⟨part, hpart, -, hid⟩ := (hacc.participants_iff h.isDestroying _ _).1 hmap
  rw [getElem?_createParticipant, if_pos rfl] at hpart
  cases hpart
  exact hne hid

theorem conference_prepare (p : Nat) (i : Input) : (c.prepare p i).conference = c.conference := by
  cases i <;> rfl

theorem handle_spec (h : Inv c.conference) {p : Nat} {part : Participant}
    (hp : c.conference.parts[p]? = some part) (call : Call) :
    (c.conference.Allows part call → Settled (c.handle p call).conference) ∧
      (Accounted (c.handle p call).conference → c.conference.Allows part call) := by
  obtain ⟨c', hc', hhandle⟩ := handle_follows hp call
  have hp' : c'.conference.parts[p]? = some part := hc' ▸ hp
  have h' : Inv c'.conference := hc' ▸ h
  rw [hhandle]
  constructor
  · rintro ⟨hchanges, hcreated⟩
    rcases Classical.em (part.state = .destroyed) with hstate | hlive
    · have hnil : call.path part (c.rtp p) = [] := by
        by_contra hne
        exact hchanges hstate ((path_ne_nil_iff hstate call).1 hne)
      rw [hnil]
      exact .inl h'
    · refine settled_foldl_move _ (descends_path call) c' part h' hp' hlive ?_
      intro hstate hhead
      rw [hc']
      exact hcreated hstate (destroysCreated_of_head hstate call hhead)
  · intro hacc
    refine ⟨fun hstate hchanges => ?_, fun hstate hdestroys => ?_⟩
    · exact not_accounted_foldl_move hp' hstate ((path_ne_nil_iff hstate call).2 hchanges) hacc
    · rw [path_of_destroysCreated hstate hdestroys, ← destroyParticipant_eq_foldl] at hacc
      by_contra hnone
      exact not_accounted_destroyParticipant h' hp' hstate (hc' ▸ hnone) hacc

theorem handle_of_none {p : Nat} (hp : c.conference.parts[p]? = none) (call : Call) :
    (c.handle p call).conference = c.conference := by
  have hset : ∀ (c : SipServlet) (state : State), c.conference.parts[p]? = none →
      c.setState onStateChanged p state = c := by
    intro c state hnone
    rw [setState, hnone]
  have hdestroy : ∀ c : SipServlet, c.conference.parts[p]? = none →
      (c.destroyParticipant onStateChanged p).conference = c.conference := by
    intro c hnone
    rw [destroyParticipant, hset (c.removeAttributes p) .destroyed hnone]
    rfl
  have herror : ∀ state, (c.error onStateChanged p state).conference = c.conference := by
    intro state
    rw [error, hset c state hp]
    exact hdestroy c hp
  have hstate : c.getState p = none := by
    rw [getState, hp]
    rfl
  have hne : ∀ state : State, c.getState p ≠ some state := by
    intro state heq
    rw [hstate] at heq
    cases heq
  cases call with
  | onInviteRequest s ringing processed sent =>
    let c₁ := (c.setAppSession p s.application).setSession p s
    have hauto : c₁.isAutoAccept p = false := by
      change (Option.map Participant.autoAccept (c.conference.parts[p]?)).getD false = false
      rw [hp]
      rfl
    cases ringing with
    | false => rfl
    | true =>
      cases processed with
      | false => rfl
      | true =>
        change SipServlet.conference
          (if (c₁.setState onStateChanged p .waitingAccept).isAutoAccept p then _
            else c₁.setState onStateChanged p .waitingAccept) = _
        rw [hset c₁ _ hp, hauto]
        rfl
  | doInvite s receiving offered =>
    cases receiving with
    | false => rfl
    | true =>
      cases offered with
      | false => rfl
      | true =>
        change SipServlet.conference (((c.setAppSession p s.application).setSession p s).setState
          onStateChanged p .connecting) = _
        rw [hset ((c.setAppSession p s.application).setSession p s) .connecting hp]
        rfl
  | onInviteResponse s code answer => exact congrArg _ (if_pos (hne .connecting))
  | onCancelResponse => exact hdestroy c hp
  | onByeResponse => rfl
  | onUpdatesRequest s => rfl
  | onByeRequest => exact herror _
  | onAckRequest processed =>
    cases processed with
    | false => rfl
    | true => exact congrArg _ ((if_pos (hne .connected)).trans (hset c .connected hp))
  | onCancelRequest => exact herror _
  | onTimeout refreshOver num =>
    change (c.onTimeout p refreshOver num).conference = _
    unfold onTimeout
    rw [hstate]
    exact hdestroy c hp
  | accept sent => exact congrArg _ (if_pos (hne .waitingAccept))
  | reject sent => exact congrArg _ (if_pos (hne .waitingAccept))
  | endParticipant =>
    change (c.endParticipant onStateChanged p).conference = _
    rw [endParticipant, hstate]
    exact hdestroy c hp

theorem dispatch_spec (h : Inv c.conference) (i : Input) :
    ((∀ (p : Nat) (call : Call) (part : Participant), c.callee i = some (p, call) →
      c.conference.parts[p]? = some part → c.conference.Allows part call) →
      Settled (c.dispatch i).conference) ∧
    (Accounted (c.dispatch i).conference → ∀ (p : Nat) (call : Call) (part : Participant),
      c.callee i = some (p, call) → c.conference.parts[p]? = some part →
        c.conference.Allows part call) := by
  unfold dispatch
  cases hcallee : c.callee i with
  | none => exact ⟨fun _ => .inl h, fun _ _ _ _ hnone => nomatch hnone⟩
  | some target =>
    obtain ⟨p, call⟩ := target
    have hprepare := conference_prepare (c := c) p i
    cases hp : c.conference.parts[p]? with
    | none =>
      have hnone := handle_of_none (c := c.prepare p i) (hprepare ▸ hp) call
      rw [hprepare] at hnone
      refine ⟨fun _ => .inl (hnone ▸ h), fun _ p' call' part hsome hpart => ?_⟩
      cases hsome
      rw [hp] at hpart
      cases hpart
    | some part =>
      obtain ⟨hkeeps, hneeds⟩ :=
        handle_spec (c := c.prepare p i) (hprepare ▸ h) (hprepare ▸ hp) call
      rw [hprepare] at hkeeps hneeds
      refine ⟨fun hall => hkeeps (hall p call part rfl hp), ?_⟩
      intro hacc p' call' part' hsome hpart
      cases hsome
      rw [hp] at hpart
      cases hpart
      exact hneeds hacc

/-- **Step lemma.** An input keeps the books right exactly if it is proper. -/
theorem step_spec (h : Inv c.conference) (i : Input) :
    (Proper c i → Settled (c.step i).conference) ∧
      (Accounted (c.step i).conference → Proper c i) := by
  have hdispatch : c.step i = c.dispatch i →
      (∀ partId, i ≠ .createParticipant .sip (some partId)) →
      (Proper c i → Settled (c.step i).conference) ∧
        (Accounted (c.step i).conference → Proper c i) := by
    intro hstep hne
    obtain ⟨hkeeps, hneeds⟩ := dispatch_spec h i
    rw [hstep]
    exact ⟨fun hproper => hkeeps (hproper h.isDestroying).2, fun hacc _ =>
      ⟨fun partId heq => absurd heq (hne partId), hneeds hacc⟩⟩
  have hnothing : Settled (c.step i).conference → c.callee i = none →
      (∀ partId, i ≠ .createParticipant .sip (some partId)) →
      (Proper c i → Settled (c.step i).conference) ∧
        (Accounted (c.step i).conference → Proper c i) := by
    intro hsettled hnone hne
    refine ⟨fun _ => hsettled, fun _ _ => ⟨fun partId heq => absurd heq (hne partId), ?_⟩⟩
    intro p call part hsome
    rw [hnone] at hsome
    cases hsome
  cases i with
  | setAutoAccept autoAccept =>
    refine hnothing (.inl ⟨⟨h.isDestroying, h.count_eq, h.id_eq, h.participants_iff,
      h.numActParticipants_eq, h.terminal, h.known, h.count_event, h.not_ended⟩, h.active⟩) rfl ?_
    exact fun _ heq => nomatch heq
  | createParticipant type partId =>
    cases type with
    | web => exact hnothing (.inl h) rfl fun _ heq => nomatch heq
    | sip =>
      cases partId with
      | none => exact hnothing (.inl h) rfl fun _ heq => nomatch heq
      | some partId =>
        refine ⟨fun hproper => ?_, fun hacc _ => ⟨fun partId' heq => ?_, fun _ _ _ hnone => ?_⟩⟩
        · rw [(hproper h.isDestroying).1 partId rfl]
          exact .inl (inv_createParticipant h)
        · cases heq
          by_contra hne
          exact not_accounted_createParticipant h hne hacc
        · cases hnone
  | _ => exact hdispatch rfl fun _ heq => nomatch heq

end Steps

theorem inv_init : Inv {} where
  isDestroying := rfl
  count_eq := rfl
  id_eq _ _ h := nomatch h
  participants_iff k p := by
    refine iff_of_false (fun h => ?_) fun ⟨_, h, _⟩ => nomatch h
    rw [Std.TreeMap.getElem?_emptyc] at h
    cases h
  numActParticipants_eq := rfl
  terminal _ h := nomatch h
  known _ _ _ h := nomatch h
  count_event _ _ h := nomatch h
  not_ended := List.not_mem_nil
  active := fun ⟨_, h, _⟩ => nomatch h

/-- **Participant accounting.** At every point of a run the books of the conference are right
exactly if all inputs until it is being destroyed are proper. -/
theorem accounted_iff_proper (inputs : List Input) :
    (∀ before, before <+: inputs → (StepRun.run live {} before).conference.Accounted) ↔
      StepRun.Meets live Proper {} inputs := by
  refine StepRun.forall_prefix_iff_meets (I := fun _ (c : SipServlet) => Settled c.conference)
    (P := fun _ (c : SipServlet) => Accounted c.conference) (.inl inv_init) inv_init.accounted
    ?_ ?_ inputs
  · intro before i hsettled hacc hproper
    unfold live
    split
    case isTrue => exact hsettled
    case isFalse hlive =>
      rcases hsettled with hinv | ⟨hdestroying, -⟩
      · exact (step_spec hinv i).1 hproper
      · exact absurd hdestroying hlive
  · intro before i hsettled hacc
    unfold live
    split
    case isTrue hdestroying =>
      exact iff_of_true hacc fun hfalse => nomatch hdestroying.symm.trans hfalse
    case isFalse hlive =>
      rcases hsettled with hinv | ⟨hdestroying, -⟩
      · obtain ⟨hkeeps, hneeds⟩ := step_spec hinv i
        exact ⟨hneeds, fun hproper => (hkeeps hproper).accounted⟩
      · exact absurd hdestroying hlive

/-- A mixer numbers its participants from 500 on, a conference from 2 on, for examples. -/
def createOne : List Input :=
  [.createParticipant .sip (some 502)]

/-- The first participant of a conference is listed under the identifier of the mixer. -/
theorem not_accounted_createOne :
    ¬ ∀ before, before <+: createOne →
      (StepRun.run live {} before).conference.Accounted := by
  intro h
  have hacc := h createOne (List.prefix_refl _)
  have hmap : (StepRun.run live {} createOne).conference.participants[(502 : Int)]? = some 0 := by
    decide
  have hid : (StepRun.run live {} createOne).conference.parts.map Participant.id = [2] := by
    decide
  obtain ⟨part, hpart, -, hk⟩ := (hacc.participants_iff (by decide) _ _).1 hmap
  have hpart' := congrArg (Option.map Participant.id) hpart
  rw [← List.getElem?_map, hid] at hpart'
  have hsame : (2 : Int) = part.id := Option.some.inj hpart'
  omega

end McuMediaServer.Web
