import Mathlib.Data.List.Nodup
import McuMediaServer.Base.Run
import McuMediaServer.Web.Conference

/-!
# Accounting for the participants of a conference

What a conference keeps about its participants is right (`Conference.Accounted`): its map holds
those that are not DESTROYED under their own identifiers, its count is that of the active ones,
DESTROYED is the last state and is announced once, and the conference ends when its last active
participant goes. All handlers are sequences of changes of state (`handle_eq_foldl`), so that the
step lemma is about one change (`move_spec`, `leave_spec`).

In runs this holds exactly as long as the steps are `Proper`. The map is filled under the
identifiers of the mixer and emptied under those of the conference, so that the two have to agree;
the handlers do not check for DESTROYED; and a participant that goes straight from CREATED to
DESTROYED counts as one that was active (`accounted_iff_proper`).
-/

namespace McuMediaServer.Web

open Std

/-- A participant that has left CREATED and is not DESTROYED. -/
def Participant.Active (part : Participant) : Prop :=
  part.state ≠ .created ∧ part.state ≠ .destroyed

instance (part : Participant) : Decidable part.Active :=
  inferInstanceAs (Decidable (_ ∧ _))

/-- An active participant is DESTROYED. -/
def Change.Leaves (change : Change) : Prop :=
  change.prev ≠ .created ∧ change.state = .destroyed

/-- The two announcements that a participant is DESTROYED. -/
def announcements (id : Int) : List Event :=
  [.participantStateChanged id .destroyed, .participantDestroyed id]

namespace Conference

/-- The conference has an active participant. -/
def HasActive (conf : Conference) : Prop :=
  ∃ part ∈ conf.parts, part.Active

/-- The books of a conference are right. Map and announcements are those of a conference that is not
being destroyed, since its listener is silent afterwards. -/
structure Accounted (conf : Conference) : Prop where
  participants_iff : conf.isDestroying = false → ∀ (k : Int) (p : Nat),
    (conf.participants[k]? = some p ↔
      ∃ part : Participant, conf.parts[p]? = some part ∧ part.state ≠ .destroyed ∧ k = part.id)
  numActParticipants_eq : conf.numActParticipants = conf.parts.countP (·.Active)
  terminal : ∀ change ∈ conf.log, change.prev ≠ .destroyed
  announced_once : ∀ part ∈ conf.parts, ∀ event ∈ announcements part.id,
    conf.events.count event ≤ 1
  announced : conf.isDestroying = false → ∀ part ∈ conf.parts, ∀ event ∈ announcements part.id,
    (event ∈ conf.events ↔ part.state = .destroyed)
  ended : conf.events.count .conferenceEnded = if conf.isDestroying then 1 else 0
  isDestroying_iff : conf.isDestroying = true ↔
    (∃ change ∈ conf.log, change.Leaves) ∧ ¬conf.HasActive

/-- The books of a conference that is not being destroyed, entry by entry. -/
structure Books (conf : Conference) : Prop where
  isDestroying : conf.isDestroying = false
  count_eq : conf.count = conf.parts.length + 1
  id_eq : ∀ (p : Nat) (part : Participant), conf.parts[p]? = some part → part.id = (p : Int) + 2
  participants_iff : ∀ (k : Int) (p : Nat), conf.participants[k]? = some p ↔
    ∃ part : Participant, conf.parts[p]? = some part ∧ part.state ≠ .destroyed ∧ k = part.id
  numActParticipants_eq : conf.numActParticipants = conf.parts.countP (·.Active)
  terminal : ∀ change ∈ conf.log, change.prev ≠ .destroyed
  known : ∀ id, ∀ event ∈ announcements id, event ∈ conf.events → id ≤ conf.count
  count_event : ∀ (p : Nat) (part : Participant), conf.parts[p]? = some part →
    ∀ event ∈ announcements part.id,
      conf.events.count event = if part.state = .destroyed then 1 else 0
  not_ended : .conferenceEnded ∉ conf.events

/-- The invariant of a conference that is not being destroyed. -/
structure Inv (conf : Conference) : Prop extends Books conf where
  active : (∃ change ∈ conf.log, change.Leaves) → conf.HasActive

/-- The invariant, or a conference that has ended with its books right. -/
def Settled (conf : Conference) : Prop :=
  conf.Inv ∨ conf.isDestroying = true ∧ conf.Accounted

section Counting

variable {conf : Conference} {p : Nat} {part : Participant} {state : State}

theorem mem_parts (h : conf.parts[p]? = some part) : part ∈ conf.parts :=
  List.mem_of_getElem? h

theorem hasActive_iff : conf.HasActive ↔ 0 < conf.parts.countP (·.Active) := by
  rw [List.countP_pos_iff]
  exact exists_congr fun _ => and_congr_right fun _ => decide_eq_true_iff.symm

theorem countP_set (h : conf.parts[p]? = some part) (state : State) :
    (conf.parts.set p { part with state }).countP (·.Active) + (if part.Active then 1 else 0) =
      conf.parts.countP (·.Active) + if Participant.Active { part with state } then 1 else 0 := by
  obtain ⟨hlt, hget⟩ := List.getElem?_eq_some_iff.1 h
  have hle : part.Active → 0 < conf.parts.countP (·.Active) := fun hactive =>
    List.countP_pos_iff.2 ⟨part, mem_parts h, decide_eq_true hactive⟩
  rw [List.countP_set hlt, hget, if_congr decide_eq_true_iff rfl rfl,
    if_congr decide_eq_true_iff rfl rfl]
  split
  case isTrue hactive =>
    have := hle hactive
    omega
  case isFalse => omega

end Counting

section Changes

variable {conf : Conference} {p : Nat} {part : Participant} {state : State}

theorem getElem?_record (h : conf.parts[p]? = some part) (state : State) (q : Nat) :
    (conf.record p part state).parts[q]? =
      if q = p then some { part with state } else conf.parts[q]? := by
  change (conf.parts.set p _)[q]? = _
  rw [List.getElem?_set]
  rcases Classical.em (p = q) with rfl | hne
  · rw [if_pos rfl, if_pos rfl, if_pos (List.getElem?_eq_some_iff.1 h).1]
  · rw [if_neg hne, if_neg (Ne.symm hne)]

theorem Books.id_inj (h : Books conf) {q : Nat} {part' : Participant}
    (hp : conf.parts[p]? = some part) (hq : conf.parts[q]? = some part')
    (heq : part.id = part'.id) : p = q := by
  have := h.id_eq p part hp
  have := h.id_eq q part' hq
  omega

/-- The conference after a change to a state other than DESTROYED. -/
def advance (conf : Conference) (p : Nat) (part : Participant) (state : State) : Conference :=
  ((conf.record p part state).fire (.participantStateChanged part.id state)).countUp part.state

/-- The conference after a change to DESTROYED, before it is destroyed itself. -/
def leave (conf : Conference) (p : Nat) (part : Participant) : Conference :=
  (conf.advance p part .destroyed).remove part

theorem count_announcement_advance {id : Int} {event : Event} (hevent : event ∈ announcements id)
    (hne : part.id = id → state ≠ .destroyed) :
    (conf.advance p part state).events.count event = conf.events.count event := by
  refine List.count_cons_of_ne fun heq => ?_
  rcases List.mem_cons.1 hevent with rfl | hevent
  · cases heq
    exact hne rfl rfl
  · rcases List.mem_singleton.1 hevent with rfl
    cases heq

/-- **Step lemma.** A change to an active state keeps the books. -/
theorem Inv.advance (h : Inv conf) (hp : conf.parts[p]? = some part)
    (hlive : part.state ≠ .destroyed) (hcreated : state ≠ .created)
    (hstate : state ≠ .destroyed) : Inv (conf.advance p part state) := by
  have hget : ∀ q, (conf.advance p part state).parts[q]? =
      if q = p then some { part with state } else conf.parts[q]? := getElem?_record hp state
  refine ⟨⟨h.isDestroying, ?_, ?_, ?_, ?_, ?_, ?_, ?_, ?_⟩, ?_⟩
  · change conf.count = ((conf.parts.set p _).length : Int) + 1
    rw [List.length_set]
    exact h.count_eq
  · intro q part' hq
    rw [hget] at hq
    split at hq
    case isTrue heq =>
      cases hq
      exact heq ▸ h.id_eq p part hp
    case isFalse => exact h.id_eq q part' hq
  · intro k q
    refine (h.participants_iff k q).trans ?_
    rw [hget]
    split
    case isTrue heq =>
      subst heq
      rw [hp]
      constructor
      · rintro ⟨_, hsome, -, rfl⟩
        cases hsome
        exact ⟨_, rfl, hstate, rfl⟩
      · rintro ⟨_, hsome, -, rfl⟩
        cases hsome
        exact ⟨part, rfl, hlive, rfl⟩
    case isFalse => exact Iff.rfl
  · have hcount := countP_set hp state
    have hnew : Participant.Active { part with state } := ⟨hcreated, hstate⟩
    rw [if_pos hnew] at hcount
    have hnum := h.numActParticipants_eq
    change (if part.state = .created then _ else _) =
      (((conf.parts.set p { part with state }).countP (·.Active) : Nat) : Int)
    split
    case isTrue hprev =>
      rw [if_neg fun hactive : part.Active => hactive.1 hprev] at hcount
      change conf.numActParticipants + 1 = _
      omega
    case isFalse hprev =>
      have hactive : part.Active := ⟨hprev, hlive⟩
      rw [if_pos hactive] at hcount
      change conf.numActParticipants = _
      omega
  · intro change hchange
    rcases List.mem_cons.1 hchange with rfl | hchange
    · exact hlive
    · exact h.terminal change hchange
  · intro id event hevent hmem
    refine h.known id event hevent (List.count_pos_iff.1 ?_)
    have hcount : (conf.advance p part state).events.count event = conf.events.count event :=
      count_announcement_advance hevent fun _ => hstate
    rw [← hcount]
    exact List.count_pos_iff.2 hmem
  · intro q part' hq event hevent
    rw [count_announcement_advance hevent fun _ => hstate]
    rw [hget] at hq
    split at hq
    case isTrue heq =>
      cases hq
      rw [h.count_event p part hp event hevent, if_neg hlive, if_neg hstate]
    case isFalse => exact h.count_event q part' hq event hevent
  · intro hmem
    rcases List.mem_cons.1 hmem with heq | hmem
    · cases heq
    · exact h.not_ended hmem
  · intro _
    refine ⟨{ part with state }, ?_, hcreated, hstate⟩
    refine List.mem_of_getElem? (i := p) ?_
    rw [hget, if_pos rfl]

/-- **Step lemma.** A participant that was not DESTROYED leaves, and the books stay right. -/
theorem Books.leave (h : Books conf) (hp : conf.parts[p]? = some part)
    (hlive : part.state ≠ .destroyed) : Books (conf.leave p part) := by
  have hget : ∀ q, (conf.leave p part).parts[q]? =
      if q = p then some { part with state := .destroyed } else conf.parts[q]? :=
    getElem?_record hp .destroyed
  have hcount : ∀ event id, event ∈ announcements id → (conf.leave p part).events.count event =
      conf.events.count event + if part.id = id then 1 else 0 := by
    intro event id hevent
    change (Event.participantDestroyed part.id :: .participantStateChanged part.id .destroyed ::
      conf.events).count event = _
    rw [List.count_cons, List.count_cons]
    rcases List.mem_cons.1 hevent with rfl | hevent
    · simp
    · rcases List.mem_singleton.1 hevent with rfl
      simp
  refine ⟨h.isDestroying, ?_, ?_, ?_, ?_, ?_, ?_, ?_, ?_⟩
  · change conf.count = ((conf.parts.set p _).length : Int) + 1
    rw [List.length_set]
    exact h.count_eq
  · intro q part' hq
    rw [hget] at hq
    split at hq
    case isTrue heq =>
      cases hq
      exact heq ▸ h.id_eq p part hp
    case isFalse => exact h.id_eq q part' hq
  · intro k q
    change (conf.participants.erase part.id)[k]? = some q ↔ _
    rw [OrderedMap.getElem?_erase_ite, hget]
    split
    case isTrue heq =>
      subst heq
      refine iff_of_false (fun hnone => nomatch hnone) ?_
      rintro ⟨part', hpart', hlive', hid⟩
      split at hpart'
      case isTrue =>
        cases hpart'
        exact hlive' rfl
      case isFalse hne => exact hne (h.id_inj hp hpart' hid).symm
    case isFalse hne =>
      refine (h.participants_iff k q).trans ?_
      split
      case isTrue heq =>
        subst heq
        refine iff_of_false ?_ ?_
        · rintro ⟨part', hpart', -, rfl⟩
          rw [hp] at hpart'
          cases hpart'
          exact hne rfl
        · rintro ⟨part', hpart', hlive', -⟩
          cases hpart'
          exact hlive' rfl
      case isFalse => exact Iff.rfl
  · have hcountP := countP_set hp .destroyed
    rw [if_neg fun hactive : Participant.Active { part with state := .destroyed } =>
      hactive.2 rfl] at hcountP
    have hnum := h.numActParticipants_eq
    change (if part.state = .created then conf.numActParticipants + 1
      else conf.numActParticipants) - 1 =
      (((conf.parts.set p { part with state := .destroyed }).countP (·.Active) : Nat) : Int)
    split
    case isTrue hprev =>
      rw [if_neg fun hactive : part.Active => hactive.1 hprev] at hcountP
      omega
    case isFalse hprev =>
      have hactive : part.Active := ⟨hprev, hlive⟩
      rw [if_pos hactive] at hcountP
      omega
  · intro change hchange
    rcases List.mem_cons.1 hchange with rfl | hchange
    · exact hlive
    · exact h.terminal change hchange
  · intro id event hevent hmem
    have hpos := List.count_pos_iff.2 hmem
    rw [hcount event id hevent] at hpos
    split at hpos
    case isTrue heq =>
      have hid := h.id_eq p part hp
      have hlt := (List.getElem?_eq_some_iff.1 hp).1
      have := h.count_eq
      change id ≤ conf.count
      omega
    case isFalse => exact h.known id event hevent (List.count_pos_iff.1 hpos)
  · intro q part' hq event hevent
    rw [hcount event part'.id hevent]
    rw [hget] at hq
    split at hq
    case isTrue heq =>
      cases hq
      rw [h.count_event p part hp event hevent, if_neg hlive, if_pos rfl, if_pos rfl]
    case isFalse hne =>
      rw [h.count_event q part' hq event hevent, if_neg fun heq => hne (h.id_inj hp hq heq).symm]
      rfl
  · intro hmem
    rcases List.mem_cons.1 hmem with heq | hmem
    · cases heq
    · rcases List.mem_cons.1 hmem with heq | hmem
      · cases heq
      · exact h.not_ended hmem

theorem Books.inv (h : Books conf) (hactive : conf.HasActive) : Inv conf :=
  ⟨h, fun _ => hactive⟩

theorem hasActive_leave (h : Books conf) (hp : conf.parts[p]? = some part)
    (hlive : part.state ≠ .destroyed) :
    (conf.leave p part).HasActive ↔ 0 < (conf.leave p part).numActParticipants := by
  rw [hasActive_iff, (h.leave hp hlive).numActParticipants_eq, Int.natCast_pos]

theorem Inv.accounted (h : Inv conf) : Accounted conf where
  participants_iff _ := h.participants_iff
  numActParticipants_eq := h.numActParticipants_eq
  terminal := h.terminal
  announced_once part hpart event hevent := by
    obtain ⟨p, hp⟩ := List.mem_iff_getElem?.1 hpart
    rw [h.count_event p part hp event hevent]
    split <;> omega
  announced _ part hpart event hevent := by
    obtain ⟨p, hp⟩ := List.mem_iff_getElem?.1 hpart
    rw [← List.count_pos_iff, h.count_event p part hp event hevent]
    split
    case isTrue hstate => exact iff_of_true Nat.zero_lt_one hstate
    case isFalse hstate => exact iff_of_false (Nat.lt_irrefl 0) hstate
  ended := by
    rw [h.isDestroying, List.count_eq_zero_of_not_mem h.not_ended]
    rfl
  isDestroying_iff := by
    rw [h.isDestroying]
    exact iff_of_false Bool.false_ne_true fun hleft => hleft.2 (h.active hleft.1)

theorem Settled.accounted (h : Settled conf) : Accounted conf :=
  h.elim Inv.accounted And.right

end Changes

/-! ## The end of a conference -/

/-- The participants `ps`, which were in CREATED, are DESTROYED without the listener. -/
structure Buried (ps : List Nat) (conf conf' : Conference) : Prop where
  getElem?_parts : ∀ q, conf'.parts[q]? =
    conf.parts[q]?.map fun part => if q ∈ ps then { part with state := .destroyed } else part
  log : ∃ changes, conf'.log = changes ++ conf.log ∧ ∀ change ∈ changes, change.prev = .created
  rest : conf' = { conf with parts := conf'.parts, log := conf'.log }

theorem Buried.cons {p : Nat} {part : Participant} {ps : List Nat} {conf conf' : Conference}
    (hp : conf.parts[p]? = some part) (hstate : part.state = .created)
    (h : Buried ps (conf.record p part .destroyed) conf') : Buried (p :: ps) conf conf' where
  getElem?_parts q := by
    rw [h.getElem?_parts, getElem?_record hp]
    rcases Classical.em (q = p) with rfl | hne
    · rw [if_pos rfl, hp, Option.map_some, Option.map_some, if_pos List.mem_cons_self]
      split <;> rfl
    · rw [if_neg hne]
      refine congrArg (Option.map · _) (funext fun part' => if_congr ?_ rfl rfl)
      rw [List.mem_cons]
      exact (or_iff_right hne).symm
  log := by
    obtain ⟨changes, hlog, hchanges⟩ := h.log
    refine ⟨changes ++ [⟨p, part.state, .destroyed⟩], ?_, fun change hchange => ?_⟩
    · rw [hlog, List.append_assoc]
      rfl
    · rcases List.mem_append.1 hchange with hchange | hchange
      · exact hchanges change hchange
      · rw [List.mem_singleton.1 hchange]
        exact hstate
  rest := h.rest

/-- A conference has destroyed itself: the participants of its map are DESTROYED, too. -/
structure Ended (conf conf' : Conference) : Prop where
  isDestroying : conf'.isDestroying = true
  events : conf'.events = .conferenceEnded :: conf.events
  numActParticipants : conf'.numActParticipants = conf.numActParticipants
  getElem?_parts : ∀ (q : Nat) (part' : Participant), conf'.parts[q]? = some part' →
    ∃ part : Participant, conf.parts[q]? = some part ∧ part'.id = part.id ∧
      (part'.Active → part.Active)
  log : ∃ changes, conf'.log = changes ++ conf.log ∧ ∀ change ∈ changes, change.prev = .created

section Endings

variable {conf conf' : Conference}

theorem Ended.not_hasActive (h : Ended conf conf') (hnone : ¬conf.HasActive) :
    ¬conf'.HasActive := by
  rintro ⟨part', hpart', hactive⟩
  obtain ⟨q, hq⟩ := List.mem_iff_getElem?.1 hpart'
  obtain ⟨part, hpart, -, himp⟩ := h.getElem?_parts q part' hq
  exact hnone ⟨part, mem_parts hpart, himp hactive⟩

theorem Ended.exists_leaves_iff (h : Ended conf conf') :
    (∃ change ∈ conf'.log, change.Leaves) ↔ ∃ change ∈ conf.log, change.Leaves := by
  obtain ⟨changes, hlog, hchanges⟩ := h.log
  rw [hlog]
  constructor
  · rintro ⟨change, hmem, hleaves⟩
    rcases List.mem_append.1 hmem with hmem | hmem
    · exact absurd (hchanges change hmem) hleaves.1
    · exact ⟨change, hmem, hleaves⟩
  · rintro ⟨change, hmem, hleaves⟩
    exact ⟨change, List.mem_append_right _ hmem, hleaves⟩

theorem Ended.accounted (h : Ended conf conf') (hbooks : Books conf) (hnone : ¬conf.HasActive)
    (hleft : ∃ change ∈ conf.log, change.Leaves) : Accounted conf' := by
  have hnot := h.not_hasActive hnone
  refine ⟨fun hfalse => ?_, ?_, ?_, ?_, fun hfalse => ?_, ?_, ?_⟩
  · rw [h.isDestroying] at hfalse
    cases hfalse
  · rw [hasActive_iff, Nat.not_lt, Nat.le_zero] at hnone hnot
    rw [h.numActParticipants, hbooks.numActParticipants_eq, hnone, hnot]
  · obtain ⟨changes, hlog, hchanges⟩ := h.log
    rw [hlog]
    intro change hchange
    rcases List.mem_append.1 hchange with hchange | hchange
    · rw [hchanges change hchange]
      exact fun heq => nomatch heq
    · exact hbooks.terminal change hchange
  · intro part' hpart' event hevent
    obtain ⟨q, hq⟩ := List.mem_iff_getElem?.1 hpart'
    obtain ⟨part, hpart, hid, -⟩ := h.getElem?_parts q part' hq
    rw [hid] at hevent
    have hne : Event.conferenceEnded ≠ event := by
      rintro rfl
      rcases List.mem_cons.1 hevent with heq | hevent
      · cases heq
      · cases List.mem_singleton.1 hevent
    rw [h.events, List.count_cons_of_ne hne, hbooks.count_event q part hpart event hevent]
    split <;> omega
  · rw [h.isDestroying] at hfalse
    cases hfalse
  · rw [h.events, h.isDestroying, List.count_cons_self,
      List.count_eq_zero_of_not_mem hbooks.not_ended]
    rfl
  · exact iff_of_true h.isDestroying ⟨h.exists_leaves_iff.2 hleft, hnot⟩

theorem Ended.not_accounted (h : Ended conf conf')
    (hleft : ¬∃ change ∈ conf.log, change.Leaves) : ¬Accounted conf' :=
  fun hacc => hleft (h.exists_leaves_iff.1 (hacc.isDestroying_iff.1 h.isDestroying).1)

end Endings

end Conference

namespace SipServlet

open Conference

section Ends

variable {c : SipServlet} {p : Nat} {part : Participant} {state : State}

theorem getState_of_getElem? (h : c.conference.parts[p]? = some part) :
    c.getState p = some part.state := by
  rw [getState, h]
  rfl

theorem setState_of_getElem? (listener : Listener) (h : c.conference.parts[p]? = some part) :
    c.setState listener p state =
      listener { c with conference := c.conference.record p part state } p state part.state := by
  rw [setState, h]

theorem setState_ignore (h : c.conference.isDestroying = true) :
    c.setState ignore p state = c.setState onStateChanged p state := by
  unfold setState
  split
  case h_1 => exact (if_pos h).symm
  case h_2 => rfl

theorem isDestroying_setState_ignore :
    (c.setState ignore p state).conference.isDestroying = c.conference.isDestroying := by
  unfold setState
  split <;> rfl

theorem endParticipant_ignore (h : c.conference.isDestroying = true) :
    c.endParticipant ignore p = c.endParticipant onStateChanged p := by
  have herror : ∀ state, c.error ignore p state = c.error onStateChanged p state := by
    intro state
    have hset : (c.setState ignore p state).conference.isDestroying = c.conference.isDestroying :=
      isDestroying_setState_ignore
    rw [error, error, destroyParticipant, destroyParticipant, ← setState_ignore h]
    exact setState_ignore (hset.trans h)
  unfold endParticipant
  split
  case h_1 => exact herror _
  case h_2 => exact herror _
  case h_3 => exact setState_ignore h

theorem endParticipant_created (h : c.conference.parts[p]? = some part)
    (hstate : part.state = .created) :
    (c.endParticipant ignore p).conference = c.conference.record p part .destroyed := by
  rw [endParticipant, getState_of_getElem? h, hstate]
  change ((c.removeAttributes p).setState ignore p .destroyed).conference = _
  have h' : (c.removeAttributes p).conference.parts[p]? = some part := h
  rw [setState_of_getElem? ignore h']
  rfl

theorem foldl_endParticipant (ps : List Nat) (hnodup : ps.Nodup) :
    ∀ c : SipServlet, (∀ p ∈ ps, c.getState p = some .created) →
      Buried ps c.conference (ps.foldl (endParticipant ignore) c).conference := by
  induction ps with
  | nil =>
    intro c _
    refine ⟨fun q => ?_, ⟨[], rfl, fun _ h => nomatch h⟩, rfl⟩
    exact (Option.map_id' (x := c.conference.parts[q]?)).symm
  | cons p ps ih =>
    intro c hcreated
    obtain ⟨hnot, hnodup⟩ := List.nodup_cons.1 hnodup
    obtain ⟨part, hp, hstate⟩ := Option.map_eq_some_iff.1 (hcreated p List.mem_cons_self)
    have hconf := endParticipant_created hp hstate
    have hrest : ∀ q ∈ ps, (c.endParticipant ignore p).getState q = some .created := by
      intro q hq
      have hne : q ≠ p := fun heq => hnot (heq ▸ hq)
      rw [getState, hconf, getElem?_record hp, if_neg hne]
      exact hcreated q (List.mem_cons_of_mem _ hq)
    have hburied := ih hnodup (c.endParticipant ignore p) hrest
    rw [hconf] at hburied
    exact hburied.cons hp hstate

theorem nodup_values (h : Books c.conference) :
    (OrderedMap.values c.conference.participants).Nodup := by
  refine List.Nodup.map_on (fun ⟨k, p⟩ hk ⟨k', p'⟩ hk' heq => ?_) (OrderedMap.nodup_toList _)
  change p = p' at heq
  subst heq
  obtain ⟨part, hpart, -, rfl⟩ := (h.participants_iff k p).1 (OrderedMap.mem_toList_iff.1 hk)
  obtain ⟨part', hpart', -, rfl⟩ := (h.participants_iff k' p).1 (OrderedMap.mem_toList_iff.1 hk')
  rw [hpart] at hpart'
  cases hpart'
  rfl

theorem destroy_spec (h : Books c.conference) (hnone : ¬c.conference.HasActive) :
    Ended c.conference c.destroy.conference := by
  have hcreated : ∀ p ∈ OrderedMap.values c.conference.participants,
      c.getState p = some .created := by
    intro p hp
    obtain ⟨k, hk⟩ := OrderedMap.mem_values_iff.1 hp
    obtain ⟨part, hpart, hlive, -⟩ := (h.participants_iff k p).1 hk
    rw [getState_of_getElem? hpart]
    by_contra hstate
    exact hnone ⟨part, mem_parts hpart, fun heq => hstate (congrArg some heq), hlive⟩
  have hburied := foldl_endParticipant _ (nodup_values h)
    { c with conference := { c.conference with isDestroying := true } } hcreated
  have hrest := hburied.rest
  have hfalse : ¬c.conference.isDestroying = true := by
    rw [h.isDestroying]
    exact Bool.false_ne_true
  rw [destroy, if_neg hfalse]
  have hdestroying := congrArg Conference.isDestroying hrest
  have hnum := congrArg Conference.numActParticipants hrest
  refine ⟨hdestroying, ?_, hnum, ?_, hburied.log⟩
  · exact congrArg (.conferenceEnded :: ·) (congrArg Conference.events hrest)
  · intro q part' hq
    obtain ⟨part, hpart, rfl⟩ :=
      Option.map_eq_some_iff.1 ((hburied.getElem?_parts q).symm.trans hq)
    refine ⟨part, hpart, ?_, fun hactive => ?_⟩
    · split <;> rfl
    · split at hactive
      case isTrue => exact absurd rfl hactive.2
      case isFalse => exact hactive

theorem not_isDestroying (h : c.conference.isDestroying = false) :
    ¬c.conference.isDestroying = true := by
  rw [h]
  exact Bool.false_ne_true

theorem onStateChanged_of_ne (hdestroying : c.conference.isDestroying = false)
    (hp : c.conference.parts[p]? = some part) (hstate : state ≠ .destroyed) (prev : State) :
    onStateChanged c p state prev =
      { c with
        conference := (c.conference.fire
          (.participantStateChanged part.id state)).countUp prev } := by
  unfold onStateChanged
  rw [if_neg (not_isDestroying hdestroying)]
  simp only [hp]
  rw [if_neg hstate]

theorem onStateChanged_destroyed (hdestroying : c.conference.isDestroying = false)
    (hp : c.conference.parts[p]? = some part) (prev : State) (conf : Conference)
    (hconf : conf = ((c.conference.fire
      (.participantStateChanged part.id .destroyed)).countUp prev).remove part) :
    onStateChanged c p .destroyed prev =
      if conf.numActParticipants < 1 then destroy { c with conference := conf }
      else { c with conference := conf } := by
  have hiff : (conf.numActParticipants < 1 ∧ conf.isDestroying = false) ↔
      conf.numActParticipants < 1 := by
    subst hconf
    exact and_iff_left hdestroying
  unfold onStateChanged
  rw [if_neg (not_isDestroying hdestroying)]
  simp only [hp, if_true, ← hconf]
  exact if_congr hiff rfl rfl

theorem setState_conference (hdestroying : c.conference.isDestroying = false)
    (hp : c.conference.parts[p]? = some part) (hstate : state ≠ .destroyed) :
    (c.setState onStateChanged p state).conference = c.conference.advance p part state := by
  have hget := (getElem?_record hp state p).trans (if_pos rfl)
  have hchanged := onStateChanged_of_ne
    (c := { c with conference := c.conference.record p part state }) hdestroying hget hstate
    part.state
  rw [setState_of_getElem? onStateChanged hp, hchanged]
  rfl

theorem destroyParticipant_conference (hdestroying : c.conference.isDestroying = false)
    (hp : c.conference.parts[p]? = some part) :
    (c.destroyParticipant onStateChanged p).conference =
      if (c.conference.leave p part).numActParticipants < 1 then
        (destroy { c.removeAttributes p with conference := c.conference.leave p part }).conference
      else c.conference.leave p part := by
  have hget := (getElem?_record hp .destroyed p).trans (if_pos rfl)
  have hp' : (c.removeAttributes p).conference.parts[p]? = some part := hp
  have hchanged := onStateChanged_destroyed
    (c := { c.removeAttributes p with conference := c.conference.record p part .destroyed })
    hdestroying hget part.state (c.conference.leave p part) rfl
  rw [destroyParticipant, setState_of_getElem? onStateChanged hp']
  exact (congrArg SipServlet.conference hchanged).trans (apply_ite SipServlet.conference _ _ _)

theorem destroyParticipant_spec (h : Books c.conference) (hp : c.conference.parts[p]? = some part)
    (hlive : part.state ≠ .destroyed) :
    ((c.conference.leave p part).HasActive ∧
      (c.destroyParticipant onStateChanged p).conference = c.conference.leave p part) ∨
    (¬(c.conference.leave p part).HasActive ∧
      Ended (c.conference.leave p part) (c.destroyParticipant onStateChanged p).conference) := by
  rw [destroyParticipant_conference h.isDestroying hp]
  have hactive := hasActive_leave h hp hlive
  split
  case isTrue hlt =>
    have hnone : ¬(c.conference.leave p part).HasActive := by
      rw [hactive]
      omega
    have hended := destroy_spec
      (c := { c.removeAttributes p with conference := c.conference.leave p part })
      (h.leave hp hlive) hnone
    exact .inr ⟨hnone, hended⟩
  case isFalse hle =>
    have hpos : 0 < (c.conference.leave p part).numActParticipants := by omega
    exact .inl ⟨hactive.2 hpos, rfl⟩

theorem hasActive_leave_created (h : Books c.conference)
    (hp : c.conference.parts[p]? = some part) (hcreated : part.state = .created) :
    (c.conference.leave p part).HasActive ↔ c.conference.HasActive := by
  have hlive : part.state ≠ .destroyed := by
    rw [hcreated]
    exact fun heq => nomatch heq
  have hnum : (c.conference.leave p part).numActParticipants = c.conference.numActParticipants := by
    change (if part.state = .created then c.conference.numActParticipants + 1
      else c.conference.numActParticipants) - 1 = _
    rw [if_pos hcreated]
    omega
  rw [hasActive_leave h hp hlive, hnum, hasActive_iff, h.numActParticipants_eq, Int.natCast_pos]

theorem settled_destroyParticipant (h : Inv c.conference)
    (hp : c.conference.parts[p]? = some part) (hlive : part.state ≠ .destroyed)
    (hcreated : part.state = .created → c.conference.HasActive) :
    Settled (c.destroyParticipant onStateChanged p).conference := by
  have hbooks := h.toBooks.leave hp hlive
  rcases destroyParticipant_spec h.toBooks hp hlive with ⟨hactive, heq⟩ | ⟨hnone, hended⟩
  · rw [heq]
    exact .inl (hbooks.inv hactive)
  · have hprev : part.state ≠ .created := fun heq =>
      hnone ((hasActive_leave_created h.toBooks hp heq).2 (hcreated heq))
    have hleft : ∃ change ∈ (c.conference.leave p part).log, change.Leaves :=
      ⟨⟨p, part.state, .destroyed⟩, List.mem_cons_self, hprev, rfl⟩
    exact .inr ⟨hended.isDestroying, hended.accounted hbooks hnone hleft⟩

theorem not_accounted_destroyParticipant (h : Inv c.conference)
    (hp : c.conference.parts[p]? = some part) (hcreated : part.state = .created)
    (hnone : ¬c.conference.HasActive) :
    ¬Accounted (c.destroyParticipant onStateChanged p).conference := by
  have hlive : part.state ≠ .destroyed := by
    rw [hcreated]
    exact fun heq => nomatch heq
  have hnone' := fun hactive => hnone ((hasActive_leave_created h.toBooks hp hcreated).1 hactive)
  rcases destroyParticipant_spec h.toBooks hp hlive with ⟨hactive, -⟩ | ⟨-, hended⟩
  · exact absurd hactive hnone'
  · refine hended.not_accounted ?_
    rintro ⟨change, hmem, hleaves⟩
    rcases List.mem_cons.1 hmem with rfl | hmem
    · exact hleaves.1 hcreated
    · exact hnone (h.active ⟨change, hmem, hleaves⟩)

end Ends

/-! ## Sequences of states -/

/-- A participant takes a state, DESTROYED by `destroy`. -/
def move (p : Nat) (c : SipServlet) (state : State) : SipServlet :=
  if state = .destroyed then c.destroyParticipant onStateChanged p
  else c.setState onStateChanged p state

/-- DESTROYED is the last state of the sequence, and CREATED is not in it. -/
def Descends : List State → Prop
  | [] => True
  | state :: rest => state ≠ .created ∧ (state = .destroyed → rest = []) ∧ Descends rest

section Moves

variable {c : SipServlet} {p : Nat} {part : Participant} {state : State}

/-- **Run lemma.** A sequence of states keeps the books right, from a participant that is not
DESTROYED and does not go there straight from CREATED while no other is active. -/
theorem settled_foldl_move (states : List State) (hstates : Descends states) :
    ∀ (c : SipServlet) (part : Participant), Inv c.conference →
      c.conference.parts[p]? = some part → part.state ≠ .destroyed →
      (part.state = .created → states.head? = some .destroyed → c.conference.HasActive) →
      Settled (states.foldl (move p) c).conference := by
  induction states with
  | nil => exact fun c part h _ _ _ => .inl h
  | cons state rest ih =>
    intro c part h hp hlive hcreated
    obtain ⟨hstate, hlast, hrest⟩ := hstates
    rw [List.foldl_cons, move]
    split
    case isTrue hdestroyed =>
      rw [hlast hdestroyed]
      exact settled_destroyParticipant h hp hlive fun heq =>
        hcreated heq (congrArg some hdestroyed)
    case isFalse hdestroyed =>
      have hconf : (c.setState onStateChanged p state).conference =
          c.conference.advance p part state := setState_conference h.isDestroying hp hdestroyed
      refine ih hrest _ { part with state } ?_ ?_ hdestroyed fun heq => absurd heq hstate
      · rw [hconf]
        exact h.advance hp hlive hstate hdestroyed
      · rw [hconf]
        exact (getElem?_record hp _ p).trans (if_pos rfl)

/-! The log only grows, so that a change from DESTROYED stays in it. -/

theorem log_setState_ignore :
    c.conference.log <:+ (c.setState ignore p state).conference.log := by
  unfold setState
  split
  case h_1 => exact List.suffix_cons _ _
  case h_2 => exact List.suffix_refl _

theorem log_endParticipant_ignore :
    c.conference.log <:+ (c.endParticipant ignore p).conference.log := by
  have hdestroy : ∀ c : SipServlet,
      c.conference.log <:+ (c.destroyParticipant ignore p).conference.log :=
    fun c => log_setState_ignore (c := c.removeAttributes p)
  unfold endParticipant
  split
  case h_1 => exact log_setState_ignore.trans (hdestroy _)
  case h_2 => exact log_setState_ignore.trans (hdestroy _)
  case h_3 => exact hdestroy c

theorem log_destroy : c.conference.log <:+ c.destroy.conference.log := by
  unfold destroy
  split
  case isTrue => exact List.suffix_refl _
  case isFalse =>
    have hfold : ∀ (ps : List Nat) (c : SipServlet),
        c.conference.log <:+ (ps.foldl (endParticipant ignore) c).conference.log := by
      intro ps
      induction ps with
      | nil => exact fun c => List.suffix_refl _
      | cons p ps ih => exact fun c => log_endParticipant_ignore.trans (ih _)
    exact hfold _ { c with conference := { c.conference with isDestroying := true } }

theorem log_onStateChanged (prev : State) :
    c.conference.log <:+ (onStateChanged c p state prev).conference.log := by
  unfold onStateChanged
  split
  case isTrue => exact List.suffix_refl _
  case isFalse =>
    split
    case h_1 part _ =>
      dsimp only
      split
      case isTrue =>
        split
        case isTrue =>
          have hlog := log_destroy (c := { c with
            conference := ((c.conference.fire
              (.participantStateChanged part.id state)).countUp prev).remove part })
          exact hlog
        case isFalse => exact List.suffix_refl _
      case isFalse => exact List.suffix_refl _
    case h_2 => exact List.suffix_refl _

theorem change_mem_move (hp : c.conference.parts[p]? = some part) :
    ⟨p, part.state, state⟩ ∈ (move p c state).conference.log := by
  have hset : ∀ c : SipServlet, c.conference.parts[p]? = some part →
      ⟨p, part.state, state⟩ ∈ (c.setState onStateChanged p state).conference.log := by
    intro c hp
    rw [setState_of_getElem? onStateChanged hp]
    exact (log_onStateChanged part.state).subset List.mem_cons_self
  unfold move
  split
  case isTrue hstate =>
    subst hstate
    exact hset (c.removeAttributes p) hp
  case isFalse => exact hset c hp

theorem log_setState : c.conference.log <:+ (c.setState onStateChanged p state).conference.log := by
  unfold setState
  split
  case h_1 part _ =>
    have hcons := List.suffix_cons ⟨p, part.state, state⟩ c.conference.log
    exact hcons.trans (log_onStateChanged
      (c := { c with conference := c.conference.record p part state }) part.state)
  case h_2 => exact List.suffix_refl _

theorem log_foldl_move (states : List State) :
    ∀ c : SipServlet, c.conference.log <:+ (states.foldl (move p) c).conference.log := by
  induction states with
  | nil => exact fun c => List.suffix_refl _
  | cons state rest ih =>
    intro c
    refine List.IsSuffix.trans ?_ (ih (move p c state))
    unfold move
    split
    case isTrue => exact log_setState (c := c.removeAttributes p)
    case isFalse => exact log_setState

theorem not_accounted_foldl_move {states : List State} (hp : c.conference.parts[p]? = some part)
    (hdestroyed : part.state = .destroyed) (hstates : states ≠ []) :
    ¬Accounted (states.foldl (move p) c).conference := by
  obtain ⟨state, rest, rfl⟩ := List.exists_cons_of_ne_nil hstates
  intro hacc
  have hmem := (log_foldl_move (p := p) rest (move p c state)).subset (change_mem_move hp)
  exact hacc.terminal _ hmem hdestroyed

end Moves

end SipServlet

end McuMediaServer.Web
