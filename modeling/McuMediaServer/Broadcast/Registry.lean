import McuMediaServer.Base.Run
import McuMediaServer.Amf.Utf8
import Mathlib.Logic.Function.Basic

/-!
# The registry of broadcasts

The broadcaster keeps the broadcasts by number, the numbers of the published ones by pin, and the
numbers for which somebody holds a token. Who works with a broadcast holds a reference, and a
delete waits until there is none: it lets go of the lock, sleeps, and looks for the broadcast again.

`Record` is what the callers know from the results of their calls, and `Consistent` says that the
registry agrees with it. A broadcast that is published under the empty pin counts as not published,
tokens are neither checked when they are added nor taken away with their broadcast, and the count of
references goes below 0.
-/

namespace McuMediaServer

open Function (update update_self update_of_ne update_apply)
open Amf (WString)

/-- Reference: `broadcaster.h:62`. Sessions are numbered in the order of their creation. -/
structure BroadcastEntry where
  id : Nat
  numRef : Nat
  enabled : Bool
  name : WString
  tag : WString
  pin : WString
  session : Nat

/-- Reference: `broadcaster.h:78`. -/
structure Broadcaster where
  broadcasts : Nat → Option BroadcastEntry := fun _ => none
  published : WString → Option Nat := fun _ => none
  tokens : WString → Option Nat := fun _ => none
  maxId : Nat := 100

namespace Broadcaster

variable (b : Broadcaster)

/-- The number of the broadcast, and what is left. Reference: `broadcaster.cpp:91`. -/
def createBroadcast (name tag : WString) (session : Nat) : Nat × Broadcaster :=
  (b.maxId, { b with
    maxId := (b.maxId + 1) % 2 ^ 32
    broadcasts := update b.broadcasts b.maxId (some ⟨b.maxId, 0, true, name, tag, [], session⟩) })

/-- Reference: `broadcaster.cpp:129`. -/
def publishBroadcast (id : Nat) (pin : WString) : Bool × Broadcaster :=
  match b.broadcasts id with
  | none => (false, b)
  | some entry =>
    if entry.pin ≠ [] then (false, b)
    else if (b.published pin).isSome then (false, b)
    else (true, { b with
      published := update b.published pin (some id)
      broadcasts := update b.broadcasts id (some { entry with pin := pin }) })

/-- Reference: `broadcaster.cpp:190`. -/
def addBroadcastToken (id : Nat) (token : WString) : Bool × Broadcaster :=
  if (b.tokens token).isSome then (false, b)
  else (true, { b with tokens := update b.tokens token (some id) })

/-- Reference: `broadcaster.cpp:219`. -/
def unPublishBroadcast (id : Nat) : Bool × Broadcaster :=
  match b.broadcasts id with
  | none => (false, b)
  | some entry =>
    if entry.pin = [] then (false, b)
    else (true, { b with
      published := update b.published entry.pin none
      broadcasts := update b.broadcasts id (some { entry with pin := [] }) })

/-- The number, or 0. Reference: `broadcaster.cpp:293`. -/
def getTokenBroadcastId (token : WString) : Nat × Broadcaster :=
  match b.tokens token with
  | some id => (id, { b with tokens := update b.tokens token none })
  | none => (0, b)

/-- Reference: `broadcaster.cpp:325`. -/
def getBroadcastRef (id : Nat) : Option Nat × Broadcaster :=
  match b.broadcasts id with
  | none => (none, b)
  | some entry => (some entry.session, { b with
      broadcasts := update b.broadcasts id
        (some { entry with numRef := (entry.numRef + 1) % 2 ^ 32 }) })

/-- Reference: `broadcaster.cpp:365`. -/
def releaseBroadcastRef (id : Nat) : Bool × Broadcaster :=
  match b.broadcasts id with
  | none => (false, b)
  | some entry => (true, { b with
      broadcasts := update b.broadcasts id
        (some { entry with numRef := (entry.numRef + 2 ^ 32 - 1) % 2 ^ 32 }) })

/-- What becomes of a delete that has the lock. -/
inductive Deletion where
  | notFound
  | waits (session : Nat)
  | deletes (session : Nat)

/-- A delete, from where it looks for the broadcast to where it lets go of the lock. Reference:
`broadcaster.cpp:403`. -/
def deleteBroadcast (id : Nat) : Deletion × Broadcaster :=
  match b.broadcasts id with
  | none => (.notFound, b)
  | some entry =>
    if 0 < entry.numRef then (.waits entry.session, b)
    else (.deletes entry.session, { b with
      published := if entry.pin ≠ [] then update b.published entry.pin none else b.published
      broadcasts := update b.broadcasts id none })

end Broadcaster

namespace BroadcastRegistry

open Broadcaster

/-- What the callers know from the results of their calls: the sessions of the broadcasts that
exist, the pins under which broadcasts were published and not unpublished since, for what tokens
were added that were not resolved since, and how many references of a session are held. -/
structure Record where
  session : Nat → Option Nat := fun _ => none
  pin : Nat → Option WString := fun _ => none
  token : WString → Option Nat := fun _ => none
  refs : Nat → Nat := fun _ => 0

/-- The broadcaster, how many sessions have been created, which have been ended and deleted, and the
deletes that wait, each with the number and the session of the broadcast it has found. -/
structure System where
  broadcaster : Broadcaster := {}
  created : Nat := 0
  ended : List Nat := []
  waiting : List (Nat × Nat) := []
  record : Record := {}

/-- The calls, and the waking up of a delete that waits. -/
inductive Action where
  | create (name tag : WString)
  | publish (id : Nat) (pin : WString)
  | unPublish (id : Nat)
  | addToken (id : Nat) (token : WString)
  | getToken (token : WString)
  | getRef (id : Nat)
  | releaseRef (id : Nat)
  | delete (id : Nat)
  | wake (id session : Nat)

namespace System

variable (s : System)

/-- The session of a broadcast is ended and deleted. Reference: `broadcaster.cpp:463`. -/
def finish (id session : Nat) (broadcaster : Broadcaster) : System :=
  { s with
    broadcaster := broadcaster
    ended := s.ended ++ [session]
    record := { s.record with session := update s.record.session id none } }

/-- A call is made. -/
def call : Action → System
  | .create name tag =>
    let (id, broadcaster) := s.broadcaster.createBroadcast name tag s.created
    { s with
      broadcaster := broadcaster
      created := s.created + 1
      record := { s.record with
        session := update s.record.session id (some s.created)
        pin := update s.record.pin id none } }
  | .publish id pin =>
    let (ok, broadcaster) := s.broadcaster.publishBroadcast id pin
    { s with
      broadcaster := broadcaster
      record := if ok then { s.record with pin := update s.record.pin id (some pin) } else s.record }
  | .unPublish id =>
    let (ok, broadcaster) := s.broadcaster.unPublishBroadcast id
    { s with
      broadcaster := broadcaster
      record := if ok then { s.record with pin := update s.record.pin id none } else s.record }
  | .addToken id token =>
    let (ok, broadcaster) := s.broadcaster.addBroadcastToken id token
    { s with
      broadcaster := broadcaster
      record :=
        if ok then { s.record with token := update s.record.token token (some id) } else s.record }
  | .getToken token =>
    let (_, broadcaster) := s.broadcaster.getTokenBroadcastId token
    { s with
      broadcaster := broadcaster
      record := { s.record with token := update s.record.token token none } }
  | .getRef id =>
    let (session, broadcaster) := s.broadcaster.getBroadcastRef id
    { s with
      broadcaster := broadcaster
      record := match session with
        | some session =>
          { s.record with refs := update s.record.refs session (s.record.refs session + 1) }
        | none => s.record }
  | .releaseRef id =>
    let (ok, broadcaster) := s.broadcaster.releaseBroadcastRef id
    { s with
      broadcaster := broadcaster
      record := match ok, s.record.session id with
        | true, some session =>
          { s.record with refs := update s.record.refs session (s.record.refs session - 1) }
        | _, _ => s.record }
  | .delete id =>
    match s.broadcaster.deleteBroadcast id with
    | (.notFound, _) => s
    | (.waits session, _) => { s with waiting := (id, session) :: s.waiting }
    | (.deletes session, broadcaster) => s.finish id session broadcaster
  | .wake id session =>
    match s.broadcaster.deleteBroadcast id with
    | (.notFound, _) => { s with waiting := s.waiting.erase (id, session) }
    | (.waits _, _) => s
    | (.deletes session', broadcaster) =>
      { s.finish id session' broadcaster with waiting := s.waiting.erase (id, session) }

/-- A step. Nothing happens when there is no such delete to wake up. One that wakes up writes what
it finds through its reference to the entry it found before, which has to be the same one.
Reference: `broadcaster.cpp:447`. -/
def step : Action → Option System
  | .wake id session =>
    if (id, session) ∈ s.waiting then
      match s.broadcaster.broadcasts id with
      | some entry => if entry.session = session then some (s.call (.wake id session)) else none
      | none => some (s.call (.wake id session))
    else some s
  | action => some (s.call action)

/-! ## What is asked of it -/

/-- The registry agrees with what the callers know: the map of pins has one entry for each broadcast
that exists and is published, and no others; a token that would be resolved was added for the
broadcast, which exists; a delete would not wait exactly when no reference is held; and of the
sessions that were created those are ended, each of them once, whose broadcasts do not exist. -/
structure Consistent : Prop where
  published : ∀ pin id, s.broadcaster.published pin = some id ↔
    (s.record.session id).isSome ∧ s.record.pin id = some pin
  tokens : ∀ token id, (s.broadcaster.getTokenBroadcastId token).1 = id → id ≠ 0 →
    s.record.token token = some id ∧ (s.record.session id).isSome
  refs : ∀ id entry, s.broadcaster.broadcasts id = some entry →
    (entry.numRef = 0 ↔ s.record.refs entry.session = 0)
  nodup : s.ended.Nodup
  ended : ∀ session, session ∈ s.ended ↔
    session < s.created ∧ ∀ id, s.record.session id ≠ some session

/-- A broadcast that may be deleted: it is not published under the empty pin and nobody holds a
token for it. -/
def Deletable (id : Nat) : Prop :=
  s.broadcaster.published [] ≠ some id ∧
    (id ≠ 0 → ∀ token, s.broadcaster.tokens token ≠ some id)

/-- What a step must meet: no broadcast has the next number; one that is published under the empty
pin is not published again, unless the pin is in use; tokens are added for broadcasts that exist; a
`DWORD` counts the references, and no more are released than are held; a delete that does not wait
finds a broadcast that may be deleted, and one that wakes up finds the broadcast it has waited for,
if any. -/
def Orderly : Action → Prop
  | .create _ _ => s.broadcaster.broadcasts s.broadcaster.maxId = none
  | .publish id pin => s.broadcaster.published [] = some id → s.broadcaster.published pin ≠ none
  | .addToken id token => id ≠ 0 → s.broadcaster.tokens token = none →
      s.broadcaster.broadcasts id ≠ none
  | .getRef id => ∀ entry, s.broadcaster.broadcasts id = some entry → entry.numRef + 1 < 2 ^ 32
  | .releaseRef id => ∀ entry, s.broadcaster.broadcasts id = some entry → entry.numRef ≠ 0
  | .delete id => ∀ entry, s.broadcaster.broadcasts id = some entry → entry.numRef = 0 →
      s.Deletable id
  | .wake id session => (id, session) ∈ s.waiting → ∀ entry,
      s.broadcaster.broadcasts id = some entry →
        entry.session = session ∧ (entry.numRef = 0 → s.Deletable id)
  | _ => True

/-- What the registry keeps: what is asked, and that the entries are as the callers know. -/
structure Inv : Prop where
  session : ∀ id, (s.broadcaster.broadcasts id).map BroadcastEntry.session = s.record.session id
  pin : ∀ id entry, s.broadcaster.broadcasts id = some entry →
    entry.pin = (s.record.pin id).getD []
  published : ∀ pin id, s.broadcaster.published pin = some id ↔
    (s.record.session id).isSome ∧ s.record.pin id = some pin
  tokens : ∀ token id, s.broadcaster.tokens token = some id →
    s.record.token token = some id ∧ (id ≠ 0 → (s.record.session id).isSome)
  refs : ∀ id entry, s.broadcaster.broadcasts id = some entry →
    entry.numRef = s.record.refs entry.session ∧ entry.numRef < 2 ^ 32
  refs_new : ∀ session, s.created ≤ session → s.record.refs session = 0
  session_lt : ∀ id session, s.record.session id = some session → session < s.created
  session_inj : ∀ id id' session, s.record.session id = some session →
    s.record.session id' = some session → id = id'
  nodup : s.ended.Nodup
  ended : ∀ session, session ∈ s.ended ↔
    session < s.created ∧ ∀ id, s.record.session id ≠ some session

/-! ## What the calls do -/

section Calls

variable {s} {id session : Nat} {pin token : WString}

theorem call_publish : s.call (.publish id pin) = s ∨ ∃ entry,
    s.broadcaster.broadcasts id = some entry ∧ entry.pin = [] ∧
      s.broadcaster.published pin = none ∧
      s.call (.publish id pin) = { s with
        broadcaster := { s.broadcaster with
          published := update s.broadcaster.published pin (some id)
          broadcasts := update s.broadcaster.broadcasts id (some { entry with pin := pin }) }
        record := { s.record with pin := update s.record.pin id (some pin) } } := by
  rw [call, publishBroadcast]
  cases hentry : s.broadcaster.broadcasts id with
  | none => exact .inl rfl
  | some entry =>
    dsimp only
    by_cases hpin : entry.pin = []
    · rw [if_neg (not_not.2 hpin)]
      cases hpublished : s.broadcaster.published pin with
      | some other => exact .inl rfl
      | none => exact .inr ⟨entry, rfl, hpin, rfl, rfl⟩
    · rw [if_pos hpin]
      exact .inl rfl

theorem call_unPublish : s.call (.unPublish id) = s ∨ ∃ entry,
    s.broadcaster.broadcasts id = some entry ∧ entry.pin ≠ [] ∧
      s.call (.unPublish id) = { s with
        broadcaster := { s.broadcaster with
          published := update s.broadcaster.published entry.pin none
          broadcasts := update s.broadcaster.broadcasts id (some { entry with pin := [] }) }
        record := { s.record with pin := update s.record.pin id none } } := by
  rw [call, unPublishBroadcast]
  cases hentry : s.broadcaster.broadcasts id with
  | none => exact .inl rfl
  | some entry =>
    dsimp only
    by_cases hpin : entry.pin = []
    · rw [if_pos hpin]
      exact .inl rfl
    · rw [if_neg hpin]
      exact .inr ⟨entry, rfl, hpin, rfl⟩

theorem call_addToken : s.call (.addToken id token) = s ∨
    s.broadcaster.tokens token = none ∧ s.call (.addToken id token) = { s with
      broadcaster := { s.broadcaster with
        tokens := update s.broadcaster.tokens token (some id) }
      record := { s.record with token := update s.record.token token (some id) } } := by
  rw [call, addBroadcastToken]
  cases htoken : s.broadcaster.tokens token with
  | some other => exact .inl rfl
  | none => exact .inr ⟨rfl, rfl⟩

theorem call_getToken : s.call (.getToken token) = { s with
    broadcaster := { s.broadcaster with tokens := update s.broadcaster.tokens token none }
    record := { s.record with token := update s.record.token token none } } := by
  rw [call, getTokenBroadcastId]
  cases htoken : s.broadcaster.tokens token with
  | some id => rfl
  | none =>
    dsimp only
    rw [← htoken, Function.update_eq_self]

theorem call_getRef : s.call (.getRef id) = s ∨ ∃ entry,
    s.broadcaster.broadcasts id = some entry ∧ s.call (.getRef id) = { s with
      broadcaster := { s.broadcaster with
        broadcasts := update s.broadcaster.broadcasts id
          (some { entry with numRef := (entry.numRef + 1) % 2 ^ 32 }) }
      record := { s.record with
        refs := update s.record.refs entry.session (s.record.refs entry.session + 1) } } := by
  rw [call, getBroadcastRef]
  cases hentry : s.broadcaster.broadcasts id with
  | none => exact .inl rfl
  | some entry => exact .inr ⟨entry, rfl, rfl⟩

theorem call_releaseRef (hsession : ∀ entry, s.broadcaster.broadcasts id = some entry →
    s.record.session id = some entry.session) : s.call (.releaseRef id) = s ∨ ∃ entry,
      s.broadcaster.broadcasts id = some entry ∧ s.call (.releaseRef id) = { s with
        broadcaster := { s.broadcaster with
          broadcasts := update s.broadcaster.broadcasts id
            (some { entry with numRef := (entry.numRef + 2 ^ 32 - 1) % 2 ^ 32 }) }
        record := { s.record with
          refs := update s.record.refs entry.session (s.record.refs entry.session - 1) } } := by
  rw [call, releaseBroadcastRef]
  cases hentry : s.broadcaster.broadcasts id with
  | none => exact .inl rfl
  | some entry =>
    refine .inr ⟨entry, rfl, ?_⟩
    dsimp only
    rw [hsession entry hentry]

theorem deleteBroadcast_cases (b : Broadcaster) (id : Nat) :
    (b.broadcasts id = none ∧ b.deleteBroadcast id = (.notFound, b)) ∨
    (∃ entry, b.broadcasts id = some entry ∧ 0 < entry.numRef ∧
      b.deleteBroadcast id = (.waits entry.session, b)) ∨
    (∃ entry, b.broadcasts id = some entry ∧ entry.numRef = 0 ∧
      b.deleteBroadcast id = (.deletes entry.session, { b with
        published := if entry.pin ≠ [] then update b.published entry.pin none else b.published
        broadcasts := update b.broadcasts id none })) := by
  rw [deleteBroadcast]
  cases hentry : b.broadcasts id with
  | none => exact .inl ⟨rfl, rfl⟩
  | some entry =>
    dsimp only
    by_cases hrefs : 0 < entry.numRef
    · rw [if_pos hrefs]
      exact .inr (.inl ⟨entry, rfl, hrefs, rfl⟩)
    · rw [if_neg hrefs]
      exact .inr (.inr ⟨entry, rfl, by omega, rfl⟩)

end Calls

/-! ## What the calls keep -/

section Keeps

variable {s} {id : Nat} {entry : BroadcastEntry}

theorem Inv.session_of (h : s.Inv) (hentry : s.broadcaster.broadcasts id = some entry) :
    s.record.session id = some entry.session := by
  rw [← h.session, hentry]
  rfl

theorem Inv.isSome_session (h : s.Inv) (id : Nat) :
    (s.record.session id).isSome ↔ s.broadcaster.broadcasts id ≠ none := by
  rw [← h.session, Option.isSome_map, Option.isSome_iff_ne_none]

theorem Inv.lt_created (h : s.Inv) (hentry : s.broadcaster.broadcasts id = some entry) :
    entry.session < s.created := h.session_lt id _ (h.session_of hentry)

theorem Inv.session_update (h : s.Inv) (hentry : s.broadcaster.broadcasts id = some entry)
    {entry' : BroadcastEntry} (hsession : entry'.session = entry.session) (id' : Nat) :
    (update s.broadcaster.broadcasts id (some entry') id').map BroadcastEntry.session =
      s.record.session id' := by
  rw [update_apply]
  split
  · rename_i heq
    rw [heq, h.session_of hentry, Option.map_some, hsession]
  · exact h.session id'

theorem forall_update {P : Nat → BroadcastEntry → Prop} {broadcasts : Nat → Option BroadcastEntry}
    {entry' : BroadcastEntry} (hnew : P id entry')
    (hold : ∀ id' e, id' ≠ id → broadcasts id' = some e → P id' e) (id' : Nat) (e : BroadcastEntry)
    (he : update broadcasts id (some entry') id' = some e) : P id' e := by
  rw [update_apply] at he
  split at he
  · rename_i heq
    cases he
    rw [heq]
    exact hnew
  · rename_i hne
    exact hold id' e hne he

theorem Inv.waiting (h : s.Inv) (waiting : List (Nat × Nat)) :
    Inv { s with waiting := waiting } where
  session := h.session
  pin := h.pin
  published := h.published
  tokens := h.tokens
  refs := h.refs
  refs_new := h.refs_new
  session_lt := h.session_lt
  session_inj := h.session_inj
  nodup := h.nodup
  ended := h.ended

theorem Inv.session_ne (h : s.Inv) (hentry : s.broadcaster.broadcasts id = some entry) {id' : Nat}
    {e : BroadcastEntry} (he : s.broadcaster.broadcasts id' = some e) (hne : id' ≠ id) :
    e.session ≠ entry.session := by
  intro heq
  exact hne (h.session_inj id' id _ (heq ▸ h.session_of he) (h.session_of hentry))

theorem Inv.create (h : s.Inv) (name tag : WString)
    (hfree : s.broadcaster.broadcasts s.broadcaster.maxId = none) :
    (s.call (.create name tag)).Inv := by
  have hnone : s.record.session s.broadcaster.maxId = none := by
    rw [← h.session, hfree]
    rfl
  have hother {id session : Nat} (hid : s.record.session id = some session) :
      id ≠ s.broadcaster.maxId := by
    rintro rfl
    rw [hnone] at hid
    cases hid
  constructor <;> dsimp only [call, createBroadcast]
  case session =>
    intro id
    rw [update_apply, update_apply]
    split
    · rfl
    · exact h.session id
  case pin =>
    refine forall_update ?_ fun id e hne he => ?_
    · rw [update_self]
      rfl
    · rw [update_of_ne hne]
      exact h.pin id e he
  case published =>
    intro pin id
    rw [h.published, update_apply, update_apply]
    split
    · rename_i heq
      rw [heq, hnone]
      simp
    · rfl
  case tokens =>
    intro token id htoken
    obtain ⟨hadded, hsome⟩ := h.tokens token id htoken
    refine ⟨hadded, fun hid => ?_⟩
    rw [update_apply]
    split
    · rfl
    · exact hsome hid
  case refs =>
    refine forall_update ⟨(h.refs_new s.created (Nat.le_refl _)).symm, Nat.two_pow_pos 32⟩ ?_
    exact fun id e _ he => h.refs id e he
  case refs_new => exact fun session hsession => h.refs_new session (by omega)
  case session_lt =>
    intro id session hid
    rw [update_apply] at hid
    split at hid
    · cases hid
      exact Nat.lt_succ_self _
    · exact Nat.lt_succ_of_lt (h.session_lt id session hid)
  case session_inj =>
    intro id id' session hid hid'
    rw [update_apply] at hid hid'
    split at hid <;> split at hid'
    · rename_i heq heq'
      rw [heq, heq']
    · cases hid
      exact absurd (h.session_lt id' _ hid') (Nat.lt_irrefl _)
    · cases hid'
      exact absurd (h.session_lt id _ hid) (Nat.lt_irrefl _)
    · exact h.session_inj id id' session hid hid'
  case nodup => exact h.nodup
  case ended =>
    intro session
    rw [h.ended]
    constructor
    · rintro ⟨hlt, hno⟩
      refine ⟨by omega, fun id hid => ?_⟩
      rw [update_apply] at hid
      split at hid
      · cases hid
        omega
      · exact hno id hid
    · rintro ⟨hlt, hno⟩
      refine ⟨?_, fun id hid => ?_⟩
      · refine Nat.lt_of_le_of_ne (Nat.le_of_lt_succ hlt) ?_
        rintro rfl
        exact hno s.broadcaster.maxId (update_self ..)
      · exact hno id (by rw [update_of_ne (hother hid)]; exact hid)

theorem Inv.publish (h : s.Inv) (id : Nat) (pin : WString)
    (hempty : s.broadcaster.published [] = some id → s.broadcaster.published pin ≠ none) :
    (s.call (.publish id pin)).Inv := by
  rcases @call_publish s id pin with hcall | ⟨entry, hentry, hpin, hfree, hcall⟩
  · rw [hcall]
    exact h
  rw [hcall]
  have hsome : (s.record.session id).isSome := by
    rw [h.session_of hentry]
    rfl
  -- before, the broadcast is not published under any pin
  have hno : s.record.pin id = none := by
    cases hrecord : s.record.pin id with
    | none => rfl
    | some pin' =>
      have hget := h.pin id entry hentry
      rw [hpin, hrecord] at hget
      obtain rfl : [] = pin' := hget
      exact absurd hfree (hempty ((h.published [] id).2 ⟨hsome, hrecord⟩))
  constructor <;> dsimp only
  case session => exact h.session_update hentry rfl
  case pin =>
    refine forall_update ?_ fun id' e hne he => ?_
    · rw [update_self]
      rfl
    · rw [update_of_ne hne]
      exact h.pin id' e he
  case published =>
    intro pin' id'
    rw [update_apply, update_apply]
    by_cases hid : id' = id
    · subst hid
      rw [if_pos rfl, and_iff_right hsome, Option.some.injEq]
      split
      · rename_i heq
        exact iff_of_true rfl heq.symm
      · rename_i hne
        rw [h.published, hno]
        exact iff_of_false (fun hfalse => by cases hfalse.2) (fun heq => hne heq.symm)
    · rw [if_neg hid, ← h.published]
      split
      · rename_i heq
        rw [heq, hfree]
        exact iff_of_false (fun heq => hid (Option.some.inj heq).symm) (fun hfalse => by cases hfalse)
      · rfl
  case tokens => exact h.tokens
  case refs =>
    refine forall_update (h.refs id entry hentry) ?_
    exact fun id' e _ he => h.refs id' e he
  case refs_new => exact h.refs_new
  case session_lt => exact h.session_lt
  case session_inj => exact h.session_inj
  case nodup => exact h.nodup
  case ended => exact h.ended

theorem Inv.unPublish (h : s.Inv) (id : Nat) : (s.call (.unPublish id)).Inv := by
  rcases @call_unPublish s id with hcall | ⟨entry, hentry, hpin, hcall⟩
  · rw [hcall]
    exact h
  rw [hcall]
  have hrecord : s.record.pin id = some entry.pin := by
    have hget := h.pin id entry hentry
    cases hrecord : s.record.pin id with
    | none =>
      rw [hrecord] at hget
      exact absurd hget hpin
    | some pin =>
      rw [hrecord] at hget
      exact congrArg some hget.symm
  constructor <;> dsimp only
  case session => exact h.session_update hentry rfl
  case pin =>
    refine forall_update ?_ fun id' e hne he => ?_
    · rw [update_self]
      rfl
    · rw [update_of_ne hne]
      exact h.pin id' e he
  case published =>
    intro pin' id'
    rw [update_apply, update_apply]
    by_cases hid : id' = id
    · subst hid
      rw [if_pos rfl]
      split
      · simp
      · rename_i hne
        rw [h.published, hrecord, Option.some.injEq]
        exact iff_of_false (fun heq => hne heq.2.symm) (fun hfalse => by cases hfalse.2)
    · rw [if_neg hid, ← h.published]
      split
      · rename_i heq
        refine iff_of_false (fun hfalse => by cases hfalse) fun hother => ?_
        rw [heq, (h.published entry.pin id).2 ⟨by rw [h.session_of hentry]; rfl, hrecord⟩] at hother
        exact hid (Option.some.inj hother).symm
      · rfl
  case tokens => exact h.tokens
  case refs =>
    refine forall_update (h.refs id entry hentry) ?_
    exact fun id' e _ he => h.refs id' e he
  case refs_new => exact h.refs_new
  case session_lt => exact h.session_lt
  case session_inj => exact h.session_inj
  case nodup => exact h.nodup
  case ended => exact h.ended

theorem Inv.addToken (h : s.Inv) (id : Nat) (token : WString)
    (hexists : id ≠ 0 → s.broadcaster.tokens token = none → s.broadcaster.broadcasts id ≠ none) :
    (s.call (.addToken id token)).Inv := by
  rcases @call_addToken s id token with hcall | ⟨hfree, hcall⟩
  · rw [hcall]
    exact h
  rw [hcall]
  refine { h with tokens := ?_ }
  intro token' id' htoken
  dsimp only at htoken ⊢
  rw [update_apply] at htoken ⊢
  split at htoken
  · rename_i heq
    cases htoken
    rw [if_pos heq]
    exact ⟨rfl, fun hid => (h.isSome_session id).2 (hexists hid hfree)⟩
  · rename_i hne
    rw [if_neg hne]
    exact h.tokens token' id' htoken

theorem Inv.getToken (h : s.Inv) (token : WString) : (s.call (.getToken token)).Inv := by
  rw [call_getToken]
  refine { h with tokens := ?_ }
  intro token' id htoken
  dsimp only at htoken ⊢
  rw [update_apply] at htoken ⊢
  split at htoken
  · cases htoken
  · rename_i hne
    rw [if_neg hne]
    exact h.tokens token' id htoken

theorem Inv.setRefs (h : s.Inv) (hentry : s.broadcaster.broadcasts id = some entry) {numRef : Nat}
    (hlt : numRef < 2 ^ 32) : Inv { s with
      broadcaster := { s.broadcaster with
        broadcasts := update s.broadcaster.broadcasts id (some { entry with numRef := numRef }) }
      record := { s.record with refs := update s.record.refs entry.session numRef } } where
  session := h.session_update hentry rfl
  pin := forall_update (h.pin id entry hentry) fun id' e _ he => h.pin id' e he
  published := h.published
  tokens := h.tokens
  refs := by
    dsimp only
    refine forall_update ⟨?_, hlt⟩ fun id' e hne he => ?_
    · rw [update_self]
    · rw [update_of_ne (h.session_ne hentry he hne)]
      exact h.refs id' e he
  refs_new session hsession := by
    dsimp only at hsession ⊢
    have hlt := h.lt_created hentry
    rw [update_of_ne (by omega)]
    exact h.refs_new session hsession
  session_lt := h.session_lt
  session_inj := h.session_inj
  nodup := h.nodup
  ended := h.ended

theorem Inv.getRef (h : s.Inv) (id : Nat)
    (hlt : ∀ entry, s.broadcaster.broadcasts id = some entry → entry.numRef + 1 < 2 ^ 32) :
    (s.call (.getRef id)).Inv := by
  rcases @call_getRef s id with hcall | ⟨entry, hentry, hcall⟩
  · rw [hcall]
    exact h
  rw [hcall, ← (h.refs id entry hentry).1, Nat.mod_eq_of_lt (hlt entry hentry)]
  exact h.setRefs hentry (hlt entry hentry)

theorem Inv.releaseRef (h : s.Inv) (id : Nat)
    (hne : ∀ entry, s.broadcaster.broadcasts id = some entry → entry.numRef ≠ 0) :
    (s.call (.releaseRef id)).Inv := by
  rcases @call_releaseRef s id fun entry hentry => h.session_of hentry with
    hcall | ⟨entry, hentry, hcall⟩
  · rw [hcall]
    exact h
  have hpos := hne entry hentry
  have hlt := (h.refs id entry hentry).2
  have hmod : (entry.numRef + 2 ^ 32 - 1) % 2 ^ 32 = entry.numRef - 1 := by
    rw [show entry.numRef + 2 ^ 32 - 1 = entry.numRef - 1 + 2 ^ 32 by omega, Nat.add_mod_right]
    exact Nat.mod_eq_of_lt (by omega)
  rw [hcall, ← (h.refs id entry hentry).1, hmod]
  exact h.setRefs hentry (by omega)

theorem Inv.finish (h : s.Inv) (hentry : s.broadcaster.broadcasts id = some entry)
    (hdeletable : s.Deletable id) : Inv (s.finish id entry.session { s.broadcaster with
      published := if entry.pin ≠ [] then update s.broadcaster.published entry.pin none
        else s.broadcaster.published
      broadcasts := update s.broadcaster.broadcasts id none }) := by
  have hsession := h.session_of hentry
  have hsome : (s.record.session id).isSome := by
    rw [hsession]
    rfl
  have hwas {id' session : Nat} (hid' : update s.record.session id none id' = some session) :
      id' ≠ id ∧ s.record.session id' = some session := by
    rw [update_apply] at hid'
    split at hid'
    · cases hid'
    · rename_i hne
      exact ⟨hne, hid'⟩
  constructor <;> dsimp only [System.finish]
  case session =>
    intro id'
    rw [update_apply, update_apply]
    split
    · rfl
    · exact h.session id'
  case pin =>
    intro id' e he
    rw [update_apply] at he
    split at he
    · cases he
    · exact h.pin id' e he
  case published =>
    -- the one entry of the broadcast is that of its pin
    have hpublished (pin : WString) : s.broadcaster.published pin = some id ↔
        s.record.pin id = some pin := by
      rw [h.published, and_iff_right hsome]
    have hentryPin := h.pin id entry hentry
    intro pin id'
    have hmap : (if entry.pin ≠ [] then update s.broadcaster.published entry.pin none
        else s.broadcaster.published) pin = some id' ↔
          id' ≠ id ∧ s.broadcaster.published pin = some id' := by
      by_cases hpin : entry.pin = []
      · rw [if_neg (not_not.2 hpin)]
        refine ⟨fun hother => ⟨?_, hother⟩, And.right⟩
        rintro rfl
        rw [(hpublished pin).1 hother, hpin] at hentryPin
        obtain rfl : [] = pin := hentryPin
        exact hdeletable.1 hother
      · rw [if_pos hpin, update_apply]
        split
        · rename_i heq
          refine iff_of_false (fun hfalse => by cases hfalse) ?_
          rintro ⟨hne, hother⟩
          cases hrecord : s.record.pin id with
          | none =>
            rw [hrecord] at hentryPin
            exact hpin hentryPin
          | some pin' =>
            rw [hrecord] at hentryPin
            obtain rfl : entry.pin = pin' := hentryPin
            rw [heq, (hpublished _).2 hrecord] at hother
            exact hne (Option.some.inj hother).symm
        · rename_i hne
          refine ⟨fun hother => ⟨?_, hother⟩, And.right⟩
          rintro rfl
          rw [(hpublished pin).1 hother] at hentryPin
          exact hne hentryPin.symm
    rw [hmap, h.published, update_apply]
    split
    · rename_i heq
      simp [heq]
    · rename_i hne
      exact and_iff_right hne
  case tokens =>
    intro token id' htoken
    obtain ⟨hadded, hsome'⟩ := h.tokens token id' htoken
    refine ⟨hadded, fun hid' => ?_⟩
    rw [update_of_ne]
    · exact hsome' hid'
    · rintro rfl
      exact hdeletable.2 hid' token htoken
  case refs =>
    intro id' e he
    rw [update_apply] at he
    split at he
    · cases he
    · exact h.refs id' e he
  case refs_new => exact h.refs_new
  case session_lt =>
    intro id' session hid'
    exact h.session_lt id' session (hwas hid').2
  case session_inj =>
    intro id' id'' session hid' hid''
    exact h.session_inj id' id'' session (hwas hid').2 (hwas hid'').2
  case nodup =>
    refine List.nodup_append.2 ⟨h.nodup, List.nodup_singleton _, ?_⟩
    intro session hmem session' hmem' heq
    rw [heq, List.mem_singleton.1 hmem'] at hmem
    exact ((h.ended _).1 hmem).2 id hsession
  case ended =>
    intro session
    rw [List.mem_append, h.ended, List.mem_singleton]
    constructor
    · rintro (⟨hlt, hno⟩ | rfl)
      · exact ⟨hlt, fun id' hid' => hno id' (hwas hid').2⟩
      · refine ⟨h.lt_created hentry, fun id' hid' => ?_⟩
        exact (hwas hid').1 (h.session_inj id' id _ (hwas hid').2 hsession)
    · rintro ⟨hlt, hno⟩
      by_cases heq : session = entry.session
      · exact .inr heq
      · refine .inl ⟨hlt, fun id' hid' => hno id' ?_⟩
        rw [update_of_ne]
        · exact hid'
        · rintro rfl
          rw [hsession] at hid'
          exact heq (Option.some.inj hid').symm

theorem Inv.delete (h : s.Inv) (id : Nat) (hdeletable : ∀ entry,
    s.broadcaster.broadcasts id = some entry → entry.numRef = 0 → s.Deletable id) :
    (s.call (.delete id)).Inv := by
  rw [call]
  rcases deleteBroadcast_cases s.broadcaster id with
    ⟨-, hdelete⟩ | ⟨entry, -, -, hdelete⟩ | ⟨entry, hentry, hrefs, hdelete⟩ <;> rw [hdelete]
  · exact h
  · exact h.waiting _
  · exact h.finish hentry (hdeletable entry hentry hrefs)

theorem Inv.wake (h : s.Inv) (id session : Nat) (hdeletable : ∀ entry,
    s.broadcaster.broadcasts id = some entry → entry.numRef = 0 → s.Deletable id) :
    (s.call (.wake id session)).Inv := by
  rw [call]
  rcases deleteBroadcast_cases s.broadcaster id with
    ⟨-, hdelete⟩ | ⟨entry, -, -, hdelete⟩ | ⟨entry, hentry, hrefs, hdelete⟩ <;> rw [hdelete]
  · exact h.waiting _
  · exact h
  · exact (h.finish hentry (hdeletable entry hentry hrefs)).waiting _

theorem Inv.consistent (h : s.Inv) : s.Consistent where
  published := h.published
  tokens token id hid hne := by
    rw [getTokenBroadcastId] at hid
    cases htoken : s.broadcaster.tokens token with
    | none =>
      rw [htoken] at hid
      exact absurd hid.symm hne
    | some id' =>
      rw [htoken] at hid
      obtain rfl : id' = id := hid
      obtain ⟨hadded, hsome⟩ := h.tokens token id' htoken
      exact ⟨hadded, hsome hne⟩
  refs id entry hentry := by rw [(h.refs id entry hentry).1]
  nodup := h.nodup
  ended := h.ended

theorem Inv.exists_step (h : s.Inv) {a : Action} (ha : s.Orderly a) :
    ∃ u, s.step a = some u ∧ u.Inv := by
  cases a with
  | create name tag => exact ⟨_, rfl, h.create name tag ha⟩
  | publish id pin => exact ⟨_, rfl, h.publish id pin ha⟩
  | unPublish id => exact ⟨_, rfl, h.unPublish id⟩
  | addToken id token => exact ⟨_, rfl, h.addToken id token ha⟩
  | getToken token => exact ⟨_, rfl, h.getToken token⟩
  | getRef id => exact ⟨_, rfl, h.getRef id ha⟩
  | releaseRef id => exact ⟨_, rfl, h.releaseRef id ha⟩
  | delete id => exact ⟨_, rfl, h.delete id ha⟩
  | wake id session =>
    by_cases hwaiting : (id, session) ∈ s.waiting
    · refine ⟨s.call (.wake id session), ?_, h.wake id session fun entry hentry =>
        (ha hwaiting entry hentry).2⟩
      rw [step, if_pos hwaiting]
      cases hentry : s.broadcaster.broadcasts id with
      | none => rfl
      | some entry => exact if_pos (ha hwaiting entry hentry).1
    · exact ⟨s, if_neg hwaiting, h⟩

end Keeps

/-! ## What the calls need -/

section Needs

variable {s} {id : Nat} {entry : BroadcastEntry}

theorem free_of_create (h : s.Inv) {name tag : WString}
    (hu : (s.call (.create name tag)).Consistent) :
    s.broadcaster.broadcasts s.broadcaster.maxId = none := by
  cases hentry : s.broadcaster.broadcasts s.broadcaster.maxId with
  | none => rfl
  | some entry =>
    have hsession := h.session_of hentry
    have hlt := h.lt_created hentry
    have hended := (hu.ended entry.session).2
    dsimp only [call, createBroadcast] at hended
    refine absurd hsession (((h.ended entry.session).1 (hended ⟨by omega, ?_⟩)).2 _)
    intro id' hid'
    rw [update_apply] at hid'
    split at hid'
    · have heq := Option.some.inj hid'
      omega
    · rename_i hne
      exact hne (h.session_inj id' _ _ hid' hsession)

theorem used_of_publish (h : s.Inv) {pin : WString} (hu : (s.call (.publish id pin)).Consistent)
    (hempty : s.broadcaster.published [] = some id) : s.broadcaster.published pin ≠ none := by
  intro hfree
  obtain ⟨hsome, hrecord⟩ := (h.published [] id).1 hempty
  obtain ⟨entry, hentry⟩ := Option.ne_none_iff_exists'.1 ((h.isSome_session id).1 hsome)
  have hpin : entry.pin = [] := by
    rw [h.pin id entry hentry, hrecord]
    rfl
  have hne : [] ≠ pin := by
    rintro rfl
    rw [hempty] at hfree
    cases hfree
  rcases @call_publish s id pin with hcall | ⟨entry', -, -, -, hcall⟩
  · have hbroadcaster := congrArg (fun s => s.broadcaster.published pin) hcall
    rw [call, publishBroadcast, hentry] at hbroadcaster
    dsimp only at hbroadcaster
    rw [if_neg (not_not.2 hpin), hfree, if_neg (by simp)] at hbroadcaster
    cases (update_self ..).symm.trans hbroadcaster
  · rw [hcall] at hu
    have hlater := ((hu.published [] id).1 ((update_of_ne hne ..).trans hempty)).2
    dsimp only at hlater
    rw [update_self] at hlater
    exact hne (Option.some.inj hlater).symm

theorem exists_of_addToken (h : s.Inv) {token : WString}
    (hu : (s.call (.addToken id token)).Consistent) (hid : id ≠ 0)
    (hfree : s.broadcaster.tokens token = none) : s.broadcaster.broadcasts id ≠ none := by
  rw [← h.isSome_session]
  have hget := (hu.tokens token id · hid)
  rw [call, addBroadcastToken, hfree] at hget
  exact (hget (by simp [getTokenBroadcastId])).2

theorem lt_of_getRef (h : s.Inv) (hu : (s.call (.getRef id)).Consistent)
    (hentry : s.broadcaster.broadcasts id = some entry) : entry.numRef + 1 < 2 ^ 32 := by
  obtain ⟨hrefs, hlt⟩ := h.refs id entry hentry
  by_contra hwraps
  rw [call, getBroadcastRef, hentry] at hu
  have hboth := hu.refs id _ (update_self ..)
  dsimp only at hboth
  rw [update_self] at hboth
  omega

theorem ne_of_releaseRef (h : s.Inv) (hu : (s.call (.releaseRef id)).Consistent)
    (hentry : s.broadcaster.broadcasts id = some entry) : entry.numRef ≠ 0 := by
  intro hzero
  have hrefs := (h.refs id entry hentry).1
  rw [call, releaseBroadcastRef, hentry] at hu
  dsimp only at hu
  rw [h.session_of hentry] at hu
  have hboth := hu.refs id _ (update_self ..)
  dsimp only at hboth
  rw [update_self] at hboth
  omega

theorem deletable_of_finish (h : s.Inv) (hentry : s.broadcaster.broadcasts id = some entry)
    (hu : (s.finish id entry.session { s.broadcaster with
      published := if entry.pin ≠ [] then update s.broadcaster.published entry.pin none
        else s.broadcaster.published
      broadcasts := update s.broadcaster.broadcasts id none }).Consistent) : s.Deletable id := by
  constructor
  · intro hempty
    have hpin : entry.pin = [] := by
      rw [h.pin id entry hentry, ((h.published [] id).1 hempty).2]
      rfl
    have hsome := ((hu.published [] id).1 ?_).1
    · dsimp only [finish] at hsome
      rw [update_self] at hsome
      cases hsome
    · dsimp only [finish]
      rw [if_neg (not_not.2 hpin)]
      exact hempty
  · intro hid token htoken
    have hsome := (hu.tokens token id ?_ hid).2
    · dsimp only [finish] at hsome
      rw [update_self] at hsome
      cases hsome
    · dsimp only [finish]
      rw [getTokenBroadcastId]
      dsimp only
      rw [htoken]

theorem Consistent.waiting {waiting : List (Nat × Nat)}
    (h : Consistent { s with waiting := waiting }) : s.Consistent where
  published := h.published
  tokens := h.tokens
  refs := h.refs
  nodup := h.nodup
  ended := h.ended

theorem deletable_of_delete (h : s.Inv) (hu : (s.call (.delete id)).Consistent)
    (hentry : s.broadcaster.broadcasts id = some entry) (hrefs : entry.numRef = 0) :
    s.Deletable id := by
  refine deletable_of_finish h hentry ?_
  rw [call, deleteBroadcast, hentry] at hu
  dsimp only at hu
  rw [if_neg (by omega)] at hu
  exact hu

theorem deletable_of_wake (h : s.Inv) {session : Nat} (hu : (s.call (.wake id session)).Consistent)
    (hentry : s.broadcaster.broadcasts id = some entry) (hrefs : entry.numRef = 0) :
    s.Deletable id := by
  refine deletable_of_finish h hentry ?_
  rw [call, deleteBroadcast, hentry] at hu
  dsimp only at hu
  rw [if_neg (by omega)] at hu
  exact hu.waiting

theorem Inv.orderly (h : s.Inv) {a : Action} {u : System} (hstep : s.step a = some u)
    (hu : u.Consistent) : s.Orderly a := by
  cases a with
  | create name tag =>
    cases hstep
    exact free_of_create h hu
  | publish id pin =>
    cases hstep
    exact used_of_publish h hu
  | addToken id token =>
    cases hstep
    exact exists_of_addToken h hu
  | getRef id =>
    cases hstep
    exact fun entry hentry => lt_of_getRef h hu hentry
  | releaseRef id =>
    cases hstep
    exact fun entry hentry => ne_of_releaseRef h hu hentry
  | delete id =>
    cases hstep
    exact fun entry hentry hrefs => deletable_of_delete h hu hentry hrefs
  | wake id session =>
    intro hwaiting entry hentry
    rw [step, if_pos hwaiting, hentry] at hstep
    dsimp only at hstep
    split at hstep
    · rename_i hsession
      cases hstep
      exact ⟨hsession, deletable_of_wake h hu hentry⟩
    · cases hstep
  | unPublish id => trivial
  | getToken token => trivial

end Needs

/-! ## Runs -/

theorem inv_init : Inv {} where
  session _ := rfl
  pin _ _ h := by cases h
  published pin id := by simp
  tokens _ _ h := by cases h
  refs _ _ h := by cases h
  refs_new _ _ := rfl
  session_lt _ _ h := by cases h
  session_inj _ _ _ h := by cases h
  nodup := List.nodup_nil
  ended session := by simp

/-- At every point of a run the registry agrees with what the callers know if and only if every step
meets what it must. -/
theorem consistent_iff_orderly (actions : List Action) :
    (∀ before, before <+: actions → ∃ s : System, before.foldlM step {} = some s ∧ s.Consistent) ↔
      StepRun.MeetsM step Orderly {} actions :=
  StepRun.forall_prefix_foldlM_iff_meetsM (fun _ h => h.consistent) (fun _ _ h ha => h.exists_step ha)
    (fun _ _ _ h hstep hu => h.orderly hstep hu) inv_init actions

/-- A broadcast is published under the empty pin, and then again. -/
def publishedTwice : List Action := [.create [] [], .publish 100 [], .publish 100 [49]]

/-- A token is added for a broadcast, which is deleted. -/
def tokenLeft : List Action := [.create [] [], .addToken 100 [49], .delete 100]

/-- The broadcast has two entries, and the token is resolved to a broadcast that does not exist. -/
theorem not_consistent :
    (¬∃ s : System, publishedTwice.foldlM step {} = some s ∧ s.Consistent) ∧
      ¬∃ s : System, tokenLeft.foldlM step {} = some s ∧ s.Consistent := by
  constructor
  · rintro ⟨s, hs, hconsistent⟩
    cases hs
    exact absurd ((hconsistent.published [] 100).1 rfl).2 (by decide)
  · rintro ⟨s, hs, hconsistent⟩
    cases hs
    exact absurd (hconsistent.tokens [49] 100 rfl (by decide)).2 (by decide)

end System

end BroadcastRegistry

end McuMediaServer
