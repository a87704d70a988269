import McuMediaServer.Base.SortedMap
import McuMediaServer.Bfcp.Transports

/-!
# The connections of BFCP users

`BFCP` binds the web sockets that it accepts to a user of a conference, and hands their messages and
their ends to the floor control server of the conference. A user who connects again has his old
connection closed, which goes on for a while: its messages still arrive, and its end comes late. The
end is marked as the server's doing and does no harm. A message that cannot be read, or that is not
from the user or for the conference of its connection, disconnects the user, whichever connection he
has by now (`BFCP.keepsConnections_iff`).
-/

namespace McuMediaServer

open Bfcp StepRun

/-- What is kept of a connection, except for the text of a message. Reference: `bfcp.h:61`. -/
structure BFCP.ConnectionData where
  conferenceId : Int
  userId : Int
  closedByServer : Bool := false
  deriving DecidableEq

/-- The conferences, and the data of the connections that have not ended. The connections are
numbered in the order in which they were accepted; `accepted` has the conference and the user of
each. Reference: `bfcp.h:56`. -/
structure BFCP where
  conferences : List (Int × Server) := []
  userData : Nat → Option BFCP.ConnectionData := fun _ => none
  accepted : List (Int × Int) := []

namespace BFCP

/-- A message that has arrived as a whole: its text is no UTF-8, or no BFCP, or it is parsed. -/
inductive Received where
  | invalidUTF8
  | invalidJSON
  | parsed (msg : RequestMessage)
  deriving DecidableEq

/-- What is done to the outside: by the server of a conference, or on a connection itself. -/
inductive Effect where
  | server (conferenceId : Int) (output : Output)
  | message (ws : Nat) (msg : ReplyMessage)
  | close (ws : Nat) (code : Nat) (reason : String)

variable (s : BFCP)

/-- Reference: `bfcp.cpp:100`. -/
def getConference (conferenceId : Int) : Option Server := SortedMap.get? conferenceId s.conferences

/-- Whether a connection is closed by what a server does. -/
def closesIn (out : List Output) (ws : Nat) : Bool :=
  out.any fun
    | .close transport _ _ => transport == ws
    | _ => false

/-- A connection that the server closes is marked first. Reference: `BFCPUser.cpp:82`. -/
def ConnectionData.mark (out : List Output) (ws : Nat) (d : ConnectionData) : ConnectionData :=
  if closesIn out ws then { d with closedByServer := true } else d

/-- Call the server of a conference, if there is one. -/
def call (conferenceId : Int) (a : Bfcp.Action) : BFCP × List Effect :=
  match s.getConference conferenceId with
  | none => (s, [])
  | some server =>
    let server' := server.step a
    let out := server'.outputs.drop server.outputs.length
    ({ s with
        conferences := SortedMap.set conferenceId server' s.conferences
        userData := fun ws => (s.userData ws).map (ConnectionData.mark out ws) },
      out.map (.server conferenceId))

/-- Reference: `bfcp.cpp:28`. -/
def createConference (conferenceId : Int) : BFCP :=
  if (s.getConference conferenceId).isSome then s
  else
    { s with
      conferences := SortedMap.set conferenceId (Server.new conferenceId) s.conferences }

/-- Reference: `bfcp.cpp:54`. -/
def removeConference (conferenceId : Int) : BFCP × List Effect :=
  let ended := s.call conferenceId .end_
  ({ ended.1 with
      conferences := ended.1.conferences.filter fun e => e.1 ≠ conferenceId }, ended.2)

/-- Reference: `bfcp.cpp:75`. -/
def connectTransport (conferenceId userId : Int) : BFCP × List Effect :=
  let ws := s.accepted.length
  match s.getConference conferenceId with
  | none => (s, [])
  | some server =>
    if (server.userConnected userId ws).2 then
      let connected := s.call conferenceId (.userConnected userId ws)
      ({ connected.1 with
          userData := Function.update connected.1.userData ws (some { conferenceId, userId })
          accepted := s.accepted ++ [(conferenceId, userId)] }, connected.2)
    else
      (s, [])

/-- The data is deleted: nothing comes behind the end of a connection. Reference: `bfcp.cpp:181`. -/
def onClose (ws : Nat) : BFCP × List Effect :=
  match s.userData ws with
  | none => (s, [])
  | some d =>
    { s with userData := Function.update s.userData ws none }.call d.conferenceId
      (.userDisconnected d.userId d.closedByServer)

/-- Reference: `bfcp.cpp:206`. -/
def onError (ws : Nat) : BFCP × List Effect := s.onClose ws

/-- What is done with a connection on which something is wrong: its user is disconnected, or itself
is closed when its conference is gone. Reference: `bfcp.cpp:245`. -/
def refuse (ws : Nat) (d : ConnectionData) (code : Nat) (reason : String) : BFCP × List Effect :=
  if (s.getConference d.conferenceId).isSome then
    s.call d.conferenceId (.disconnectUser d.userId code reason)
  else
    (s, [.close ws code reason])

/-- Answer a message that is not taken on the connection it came from. -/
def refuseMessage (ws : Nat) (d : ConnectionData) (msg : RequestMessage) (errorCode : ErrorCode)
    (errorInfo reason : String) : BFCP × List Effect :=
  let refused := s.refuse ws d 4003 reason
  (refused.1, .message ws { header := msg.header, body := .error errorCode errorInfo } :: refused.2)

/-- Reference: `bfcp.cpp:233`. -/
def onMessageEnd (ws : Nat) (received : Received) : BFCP × List Effect :=
  match s.userData ws with
  | none => (s, [])
  | some d =>
    match received with
    | .invalidUTF8 => s.refuse ws d 1007 "invalid UTF8 in the WebSocket message"
    | .invalidJSON => s.refuse ws d 4003 "invalid JSON BFCP message"
    | .parsed msg =>
      if msg.header.userId ≠ d.userId then
        s.refuseMessage ws d msg .unauthorizedOperation
          "userId in message does not match the userId for this connection"
          "userId does not match the userId for this WebSocket connection"
      else if msg.header.conferenceId ≠ d.conferenceId then
        s.refuseMessage ws d msg .unauthorizedOperation
          "conferenceId in the message does not match the conferenceId for this connection"
          "conferenceId does not match the conferenceId for this WebSocket connection"
      else if (s.getConference d.conferenceId).isNone then
        s.refuseMessage ws d msg .conferenceDoesNotExist "the conference does no longer exist"
          "conference does not longer exist"
      else
        s.call d.conferenceId (.messageReceived msg)

/-- What the chair asks of the server of a conference. Reference: `BFCPFloorControlServer.h:42`. -/
inductive Management where
  | addUser (userId : Int)
  | removeUser (userId : Int)
  | setChair (userId : Int)
  | addFloor (floorId : Int)
  | grantFloorRequest (floorRequestId : Int)
  | denyFloorRequest (floorRequestId : Int) (statusInfo : String)
  | revokeFloorRequest (floorRequestId : Int) (statusInfo : String)
  | end_

def Management.toAction : Management → Bfcp.Action
  | .addUser userId => .addUser userId
  | .removeUser userId => .removeUser userId
  | .setChair userId => .setChair userId
  | .addFloor floorId => .addFloor floorId
  | .grantFloorRequest floorRequestId => .grantFloorRequest floorRequestId
  | .denyFloorRequest floorRequestId statusInfo => .denyFloorRequest floorRequestId statusInfo
  | .revokeFloorRequest floorRequestId statusInfo => .revokeFloorRequest floorRequestId statusInfo
  | .end_ => .end_

/-- The calls of the conferences, and the events of the connections. -/
inductive Action where
  | createConference (conferenceId : Int)
  | removeConference (conferenceId : Int)
  | manage (conferenceId : Int) (management : Management)
  | connectTransport (conferenceId userId : Int)
  | onClose (ws : Nat)
  | onError (ws : Nat)
  | onMessageEnd (ws : Nat) (received : Received)

/-- What an action does, and what is done to the outside in it. -/
def act : Action → BFCP × List Effect
  | .createConference conferenceId => (s.createConference conferenceId, [])
  | .removeConference conferenceId => s.removeConference conferenceId
  | .manage conferenceId management => s.call conferenceId management.toAction
  | .connectTransport conferenceId userId => s.connectTransport conferenceId userId
  | .onClose ws => s.onClose ws
  | .onError ws => s.onError ws
  | .onMessageEnd ws received => s.onMessageEnd ws received

def step (a : Action) : BFCP := (s.act a).1

/-! ## What is asked of the connections -/

/-- The connection of a user. -/
def connection (conferenceId userId : Int) : Option Nat :=
  (s.getConference conferenceId).bind fun server => server.transport? userId

/-- The connection was the last one that was accepted for the user. -/
def MostRecent (conferenceId userId : Int) (ws : Nat) : Prop :=
  s.accepted[ws]? = some (conferenceId, userId) ∧
    ∀ ws', ws < ws' → s.accepted[ws']? ≠ some (conferenceId, userId)

/-- Neither the client nor the server has closed the connection. -/
def IsOpen (ws : Nat) : Prop :=
  ∃ d, s.userData ws = some d ∧ d.closedByServer = false

/-- A message that is not handed to the server. -/
def Received.IsRefused (d : ConnectionData) : Received → Prop
  | .parsed msg => msg.header.userId ≠ d.userId ∨ msg.header.conferenceId ≠ d.conferenceId
  | _ => True

/-- The events that end a connection, or should. -/
def Action.Troubles (d : ConnectionData) (ws : Nat) : Action → Prop
  | .onClose ws' => ws' = ws
  | .onError ws' => ws' = ws
  | .onMessageEnd ws' received => ws' = ws ∧ received.IsRefused d
  | _ => False

/-- What is asked of a step. -/
structure KeepsConnections (s : BFCP) (a : Action) : Prop where
  /-- A user is connected exactly if the last connection accepted for him is open, and by that. -/
  connected : ∀ conferenceId userId ws,
    (s.step a).connection conferenceId userId = some ws ↔
      (s.step a).MostRecent conferenceId userId ws ∧ (s.step a).IsOpen ws
  /-- A message to a user goes to the connection he has. -/
  addressed : ∀ conferenceId ws msg, .server conferenceId (.message ws msg) ∈ (s.act a).2 →
    s.connection conferenceId msg.header.userId = some ws
  /-- A connection that is not that of its user does nothing to the one that is. -/
  undisturbed : ∀ ws d ws', s.userData ws = some d → a.Troubles d ws →
    s.connection d.conferenceId d.userId = some ws' → ws' ≠ ws →
      (∀ c, (s.step a).getConference c = s.getConference c) ∧
        (s.step a).userData ws' = s.userData ws'

/-- A message that is refused does not come from a connection whose user has another one. -/
def NotLate (s : BFCP) (a : Action) : Prop :=
  ∀ ws received d, a = .onMessageEnd ws received → s.userData ws = some d → received.IsRefused d →
    ∀ ws', s.connection d.conferenceId d.userId = some ws' → ws' = ws

/-! ## Calls of a server -/

variable {d : ConnectionData} {ws : Nat}

section Call

variable {s}

theorem closesIn_iff {out : List Output} : closesIn out ws = true ↔ Closes out ws := by
  rw [closesIn, List.any_eq_true]
  constructor
  · rintro ⟨o, ho, hcloses⟩
    cases o with
    | close transport code reason =>
      obtain rfl := eq_of_beq hcloses
      exact ⟨code, reason, ho⟩
    | _ => cases hcloses
  · rintro ⟨code, reason, ho⟩
    exact ⟨_, ho, beq_self_eq_true ws⟩

theorem mark_eq_open_iff {out : List Output} {c u : Int} :
    d.mark out ws = ⟨c, u, false⟩ ↔ d = ⟨c, u, false⟩ ∧ ¬Closes out ws := by
  rw [ConnectionData.mark, ← closesIn_iff]
  split
  case isTrue h => simp [h]
  case isFalse h => simp [h]

/-- What holds between two actions. -/
structure Inv (s : BFCP) : Prop where
  servers : ∀ c server, s.getConference c = some server → server.Sound ∧ server.Vacated
  bound : ∀ ws c u, s.connection c u = some ws ↔ s.userData ws = some ⟨c, u, false⟩
  known : ∀ ws d, s.userData ws = some d → s.accepted[ws]? = some (d.conferenceId, d.userId)
  latest : ∀ ws c u, s.userData ws = some ⟨c, u, false⟩ →
    ∀ ws', ws < ws' → s.accepted[ws']? ≠ some (c, u)

variable {c : Int} {server : Server} {a : Bfcp.Action} {out : List Output}

theorem call_eq (hget : s.getConference c = some server)
    (hout : (server.step a).outputs = server.outputs ++ out) :
    s.call c a =
      ({ s with
          conferences := SortedMap.set c (server.step a) s.conferences
          userData := fun ws => (s.userData ws).map (ConnectionData.mark out ws) },
        out.map (.server c)) := by
  rw [call, hget]
  dsimp only
  rw [hout, List.drop_left]

theorem call_of_none (hget : s.getConference c = none) : s.call c a = (s, []) := by
  rw [call, hget]

theorem getConference_call (hget : s.getConference c = some server) (k : Int) :
    (s.call c a).1.getConference k = if k = c then some (server.step a) else s.getConference k := by
  rw [call, hget]
  exact SortedMap.get?_set _ _ _ _

theorem connection_call (hget : s.getConference c = some server) (k u : Int) :
    (s.call c a).1.connection k u =
      if k = c then (server.step a).transport? u else s.connection k u := by
  rw [connection, getConference_call hget]
  split <;> rfl

theorem connection_eq (hget : s.getConference c = some server) (u : Int) :
    s.connection c u = server.transport? u := by
  rw [connection, hget]
  rfl

theorem servers_call (h : ∀ c server, s.getConference c = some server →
    server.Sound ∧ server.Vacated) :
    ∀ k server, (s.call c a).1.getConference k = some server → server.Sound ∧ server.Vacated := by
  intro k server hserver
  cases hget : s.getConference c with
  | none =>
    rw [call_of_none hget] at hserver
    exact h k server hserver
  | some before =>
    rw [getConference_call hget] at hserver
    split at hserver
    case isTrue =>
      obtain rfl := Option.some.inj hserver
      obtain ⟨hsound, hvacated⟩ := h c before hget
      exact ⟨Server.sound_step hsound a, Server.vacated_step hsound hvacated a⟩
    case isFalse => exact h k server hserver

theorem Inv.bound_moved (h : s.Inv) (hget : s.getConference c = some server) {t : Server}
    (hmoved : Server.Moved server t out) (ws : Nat) (k u : Int) :
    (if k = c then t.transport? u else s.connection k u) = some ws ↔
      (s.userData ws).map (ConnectionData.mark out ws) = some ⟨k, u, false⟩ := by
  have hself (v : Int) := connection_eq hget v
  rw [Option.map_eq_some_iff]
  simp only [mark_eq_open_iff]
  constructor
  · intro hconnection
    split at hconnection
    case isTrue hk =>
      subst hk
      have hsame : server.transport? u = some ws := by
        rcases hmoved.kept u with heq | ⟨hnone, -⟩
        · rw [← heq, hconnection]
        · rw [hnone] at hconnection
          cases hconnection
      have hdata := (h.bound ws k u).1 ((hself u).trans hsame)
      refine ⟨_, hdata, rfl, fun hcloses => ?_⟩
      obtain ⟨v, hv, hnone⟩ := hmoved.closed ws hcloses
      have hv' := (h.bound ws k v).1 ((hself v).trans hv)
      rw [hdata, Option.some.injEq, ConnectionData.mk.injEq] at hv'
      rw [← hv'.2.1, hconnection] at hnone
      cases hnone
    case isFalse hk =>
      have hdata := (h.bound ws k u).1 hconnection
      refine ⟨_, hdata, rfl, fun hcloses => hk ?_⟩
      obtain ⟨v, hv, -⟩ := hmoved.closed ws hcloses
      have hv' := (h.bound ws c v).1 ((hself v).trans hv)
      rw [hdata, Option.some.injEq, ConnectionData.mk.injEq] at hv'
      exact hv'.1
  · rintro ⟨d, hd, rfl, hopen⟩
    have hconnection := (h.bound ws k u).2 hd
    split
    case isTrue hk =>
      subst hk
      have hsame := (hself u).symm.trans hconnection
      rcases hmoved.kept u with heq | ⟨-, hclosed⟩
      · rw [heq, hsame]
      · exact absurd (hclosed ws hsame) hopen
    case isFalse => exact hconnection

theorem Inv.known_mark (h : s.Inv)
    (hd : (s.userData ws).map (ConnectionData.mark out ws) = some d) :
    s.accepted[ws]? = some (d.conferenceId, d.userId) := by
  obtain ⟨d₀, hd₀, rfl⟩ := Option.map_eq_some_iff.1 hd
  rw [ConnectionData.mark]
  split <;> exact h.known ws d₀ hd₀

theorem Inv.latest_mark (h : s.Inv) {k u : Int}
    (hd : (s.userData ws).map (ConnectionData.mark out ws) = some ⟨k, u, false⟩) :
    ∀ ws', ws < ws' → s.accepted[ws']? ≠ some (k, u) := by
  obtain ⟨d, hd, heq⟩ := Option.map_eq_some_iff.1 hd
  obtain ⟨rfl, -⟩ := mark_eq_open_iff.1 heq
  exact h.latest ws k u hd

theorem Inv.call (h : s.Inv) (hget : s.getConference c = some server)
    (hmoved : Server.Moved server (server.step a) out) : (s.call c a).1.Inv := by
  refine ⟨servers_call h.servers, fun ws k u => ?_, fun ws d hd => ?_, fun ws k u hd => ?_⟩
  · rw [connection_call hget, call_eq hget hmoved.outputs]
    exact h.bound_moved hget hmoved ws k u
  · rw [call_eq hget hmoved.outputs] at hd ⊢
    exact h.known_mark hd
  · rw [call_eq hget hmoved.outputs] at hd ⊢
    exact h.latest_mark hd

theorem mem_call (hget : s.getConference c = some server)
    (hmoved : Server.Moved server (server.step a) out) {k : Int} {msg : ReplyMessage}
    (hmem : .server k (.message ws msg) ∈ (s.call c a).2) :
    s.connection k msg.header.userId = some ws := by
  rw [call_eq hget hmoved.outputs] at hmem
  obtain ⟨o, ho, heq⟩ := List.mem_map.1 hmem
  cases heq
  rw [connection_eq hget]
  exact hmoved.addressed ws msg ho

end Call

/-! ## What an action does -/

section Step

variable {s}

/-- A call that is none of a connection itself. -/
structure Served (s : BFCP) (r : BFCP × List Effect) : Prop where
  inv : r.1.Inv
  addressed : ∀ c ws msg, .server c (.message ws msg) ∈ r.2 →
    s.connection c msg.header.userId = some ws

theorem Inv.served (h : s.Inv) : Served s (s, []) :=
  ⟨h, fun _ _ _ hmem => absurd hmem List.not_mem_nil⟩

theorem Inv.served_call (h : s.Inv) (c : Int) {a : Bfcp.Action}
    (hconnected : ∀ userId ws, a ≠ .userConnected userId ws)
    (hdisconnected : ∀ userId, a ≠ .userDisconnected userId false) : Served s (s.call c a) := by
  cases hget : s.getConference c with
  | none =>
    rw [call_of_none hget]
    exact h.served
  | some server =>
    obtain ⟨out, hmoved⟩ := Server.exists_moved_step (s := server) hconnected hdisconnected
    exact ⟨h.call hget hmoved, fun _ _ _ hmem => mem_call hget hmoved hmem⟩

theorem Inv.congr (h : s.Inv) {t : BFCP} (hconferences : ∀ c server,
      t.getConference c = some server → server.Sound ∧ server.Vacated)
    (hconnection : ∀ c u, t.connection c u = s.connection c u) (huserData : t.userData = s.userData)
    (haccepted : t.accepted = s.accepted) : t.Inv := by
  refine ⟨hconferences, fun ws c u => ?_, fun ws d hd => ?_, fun ws c u hd => ?_⟩
  · rw [hconnection, huserData]
    exact h.bound ws c u
  · rw [haccepted]
    exact h.known ws d (huserData ▸ hd)
  · rw [haccepted]
    exact h.latest ws c u (huserData ▸ hd)

theorem served_createConference (h : s.Inv) (c : Int) : Served s (s.createConference c, []) := by
  refine ⟨?_, fun _ _ _ hmem => absurd hmem List.not_mem_nil⟩
  rw [createConference]
  split
  case isTrue => exact h
  case isFalse hnone =>
    rw [Bool.not_eq_true, Option.isSome_eq_false_iff, Option.isNone_iff_eq_none] at hnone
    have hget (k : Int) : getConference { s with
        conferences := SortedMap.set c (Server.new c) s.conferences } k =
          if k = c then some (Server.new c) else s.getConference k :=
      SortedMap.get?_set _ _ _ _
    refine h.congr (fun k server hserver => ?_) (fun k u => ?_) rfl rfl
    · rw [hget] at hserver
      split at hserver
      case isTrue =>
        obtain rfl := Option.some.inj hserver
        exact ⟨Server.sound_new c, fun hending => by cases hending⟩
      case isFalse => exact h.servers k server hserver
    · rw [connection, hget, connection]
      split
      case isTrue hk =>
        rw [hk, hnone]
        change (({} : Std.TreeMap Int User)[u]?).bind User.transport = _
        rw [Std.TreeMap.getElem?_emptyc]
        rfl
      case isFalse => rfl

theorem transport?_of_ended {server : Server} (hvacated : server.Vacated)
    (hending : server.ending = true) (u : Int) : server.transport? u = none := by
  rw [Server.transport?, Users.transport?, hvacated hending]
  rfl

theorem served_removeConference (h : s.Inv) (c : Int) : Served s (s.removeConference c) := by
  obtain ⟨hinv, haddressed⟩ := h.served_call c (a := .end_) (fun _ _ h => by cases h)
    fun _ h => by cases h
  refine ⟨?_, haddressed⟩
  have hget (k : Int) : (s.removeConference c).1.getConference k =
      if k = c then none else (s.call c .end_).1.getConference k := by
    refine (SortedMap.get?_filter (fun k => decide (k ≠ c)) k _).trans ?_
    by_cases hk : k = c
    · rw [if_neg (by simpa using hk), if_pos hk]
    · rw [if_pos (by simpa using hk), if_neg hk]
      rfl
  refine hinv.congr (fun k server hserver => ?_) (fun k u => ?_) rfl rfl
  · rw [hget] at hserver
    split at hserver
    case isTrue => cases hserver
    case isFalse => exact hinv.servers k server hserver
  · rw [connection, hget]
    split
    case isTrue hk =>
      subst hk
      rw [connection]
      cases hend : (s.call k .end_).1.getConference k with
      | none => rfl
      | some ended =>
        have hending : ended.ending = true := by
          cases hbefore : s.getConference k with
          | none =>
            rw [call_of_none hbefore, hbefore] at hend
            cases hend
          | some server =>
            rw [getConference_call hbefore, if_pos rfl, Option.some.injEq] at hend
            rw [← hend]
            exact Server.ending_end (h.servers k server hbefore).1
        exact (transport?_of_ended (hinv.servers k ended hend).2 hending u).symm
    case isFalse => rfl

theorem served_connectTransport (h : s.Inv) (c u : Int) : Served s (s.connectTransport c u) := by
  rw [connectTransport]
  cases hget : s.getConference c with
  | none => exact h.served
  | some server =>
    dsimp only
    split
    case isFalse => exact h.served
    case isTrue hconnected =>
      obtain ⟨t, out, hmoved, hnone, houtputs, htransport⟩ := Server.moved_userConnected hconnected
      have hout : (server.step (.userConnected u s.accepted.length)).outputs =
          server.outputs ++ out := houtputs.trans hmoved.outputs
      have hnew : s.userData s.accepted.length = none := by
        cases hd : s.userData s.accepted.length with
        | none => rfl
        | some d =>
          have := h.known _ d hd
          rw [List.getElem?_eq_none (Nat.le_refl _)] at this
          cases this
      have hdata : (s.call c (.userConnected u s.accepted.length)).1.userData =
          fun ws => (s.userData ws).map (ConnectionData.mark out ws) := by
        rw [call_eq hget hout]
      have hconnection (k v : Int) :
          (s.call c (.userConnected u s.accepted.length)).1.connection k v =
            if k = c ∧ v = u then some s.accepted.length
            else if k = c then t.transport? v else s.connection k v := by
        rw [connection_call hget]
        by_cases hk : k = c
        · rw [if_pos hk, if_pos hk]
          exact (htransport v).trans (if_congr (and_iff_right hk).symm rfl rfl)
        · rw [if_neg hk, if_neg hk, if_neg fun h => hk h.1]
      refine ⟨⟨servers_call h.servers, fun ws k v => ?_, fun ws d hd => ?_, fun ws k v hd => ?_⟩,
        fun k ws msg hmem => ?_⟩
      · refine (Eq.congr_left (hconnection k v)).trans ?_
        dsimp only
        have hbound := h.bound_moved hget hmoved ws k v
        rw [hdata, Function.update_apply]
        by_cases hws : ws = s.accepted.length
        · subst hws
          rw [hnew, Option.map_none] at hbound
          rw [if_pos rfl, Option.some.injEq, ConnectionData.mk.injEq]
          by_cases hkv : k = c ∧ v = u
          · rw [if_pos hkv]
            exact iff_of_true rfl ⟨hkv.1.symm, hkv.2.symm, rfl⟩
          · rw [if_neg hkv]
            exact iff_of_false (fun heq => by cases hbound.1 heq) fun heq =>
              hkv ⟨heq.1.symm, heq.2.1.symm⟩
        · rw [if_neg hws, ← hbound]
          by_cases hkv : k = c ∧ v = u
          · rw [if_pos hkv, if_pos hkv.1, hkv.2, hnone, Option.some.injEq]
            exact iff_of_false (fun heq => hws heq.symm) (fun heq => by cases heq)
          · rw [if_neg hkv]
      · dsimp only at hd ⊢
        rw [hdata, Function.update_apply] at hd
        split at hd
        case isTrue hws =>
          obtain rfl := Option.some.inj hd
          rw [hws, List.getElem?_concat_length]
        case isFalse =>
          have hknown := h.known_mark hd
          rwa [List.getElem?_append_left (List.getElem?_eq_some_iff.1 hknown).1]
      · dsimp only at hd ⊢
        intro ws' hlt
        rw [hdata, Function.update_apply] at hd
        split at hd
        case isTrue hws =>
          rw [List.getElem?_eq_none (by rw [List.length_append, List.length_singleton]; omega)]
          exact Option.some_ne_none _ |>.symm
        case isFalse hws =>
          rcases Nat.lt_trichotomy ws' s.accepted.length with hlt' | heq | hgt
          · rw [List.getElem?_append_left hlt']
            exact h.latest_mark hd ws' hlt
          · rw [heq, List.getElem?_concat_length]
            intro hcu
            rw [Option.some.injEq, Prod.mk.injEq] at hcu
            have hbound := (h.bound_moved hget hmoved ws k v).2 hd
            rw [if_pos hcu.1.symm, ← hcu.2, hnone] at hbound
            cases hbound
          · rw [List.getElem?_eq_none (by rw [List.length_append, List.length_singleton]; omega)]
            exact Option.some_ne_none _ |>.symm
      · rw [call_eq hget hout] at hmem
        obtain ⟨o, ho, heq⟩ := List.mem_map.1 hmem
        cases heq
        rw [connection_eq hget]
        exact hmoved.addressed ws msg ho

/-- The state without the data of a connection that has ended. -/
def forget (s : BFCP) (ws : Nat) : BFCP :=
  { s with userData := Function.update s.userData ws none }

theorem userData_forget {ws ws' : Nat}
    (hd : (s.forget ws).userData ws' = some d) : ws' ≠ ws ∧ s.userData ws' = some d := by
  rw [forget] at hd
  dsimp only at hd
  rw [Function.update_apply] at hd
  split at hd
  case isTrue => cases hd
  case isFalse hne => exact ⟨hne, hd⟩

theorem Inv.known_forget (h : s.Inv) {ws ws' : Nat} (hd : (s.forget ws).userData ws' = some d) :
    (s.forget ws).accepted[ws']? = some (d.conferenceId, d.userId) :=
  h.known ws' d (userData_forget hd).2

theorem Inv.latest_forget (h : s.Inv) {ws ws' : Nat} {c u : Int}
    (hd : (s.forget ws).userData ws' = some ⟨c, u, false⟩) :
    ∀ ws'', ws' < ws'' → (s.forget ws).accepted[ws'']? ≠ some (c, u) :=
  h.latest ws' c u (userData_forget hd).2

theorem Inv.forget_closed (h : s.Inv) (hd : s.userData ws = some d)
    (hclosed : d.closedByServer = true) : (s.forget ws).Inv := by
  refine ⟨h.servers, fun ws' c u => (h.bound ws' c u).trans ?_, fun _ _ => h.known_forget,
    fun _ _ _ => h.latest_forget⟩
  rw [forget]
  dsimp only
  rw [Function.update_apply]
  split
  case isTrue hws =>
    refine iff_of_false (fun heq => ?_) (fun heq => by cases heq)
    rw [hws, hd, Option.some.injEq] at heq
    rw [heq] at hclosed
    cases hclosed
  case isFalse => rfl

theorem Inv.forget_open (h : s.Inv) {c u : Int} (hd : s.userData ws = some ⟨c, u, false⟩) :
    Served s ((s.forget ws).call c (.userDisconnected u false)) := by
  have hself := (h.bound ws c u).2 hd
  obtain ⟨server, hget, htransport⟩ := Option.bind_eq_some_iff.1 hself
  obtain ⟨out, houtputs, haddressed, hcloses, hnone⟩ := @Server.userDisconnected_spec server u
  have hout : (server.step (.userDisconnected u false)).outputs = server.outputs ++ out := houtputs
  have hget' : (s.forget ws).getConference c = some server := hget
  have hmark : ∀ ws', ((s.forget ws).userData ws').map (ConnectionData.mark out ws') =
      (s.forget ws).userData ws' := by
    intro ws'
    have hid : ConnectionData.mark out ws' = id := by
      funext d
      exact if_neg fun hin => hcloses ws' (closesIn_iff.1 hin)
    rw [hid, Option.map_id, id]
  have hdata : ((s.forget ws).call c (.userDisconnected u false)).1.userData =
      (s.forget ws).userData := by
    rw [call_eq hget' hout]
    exact funext hmark
  have hconnection (k v : Int) :
      ((s.forget ws).call c (.userDisconnected u false)).1.connection k v =
        if k = c ∧ v = u then none else s.connection k v := by
    rw [connection_call hget']
    by_cases hk : k = c
    · rw [if_pos hk, hk, connection_eq hget]
      exact (hnone v).trans (if_congr (and_iff_right rfl).symm rfl rfl)
    · rw [if_neg hk, if_neg fun h => hk h.1]
      rfl
  have haccepted : ((s.forget ws).call c (.userDisconnected u false)).1.accepted =
      (s.forget ws).accepted := by
    rw [call_eq hget' hout]
  refine ⟨⟨servers_call h.servers, fun ws' k v => ?_, fun ws' d hd => ?_, fun ws' k v hd => ?_⟩,
    fun k ws' msg hmem => ?_⟩
  · rw [hconnection, hdata, forget]
    dsimp only
    rw [Function.update_apply]
    by_cases hkv : k = c ∧ v = u
    · rw [if_pos hkv]
      refine iff_of_false (fun heq => by cases heq) fun heq => ?_
      split at heq
      case isTrue => cases heq
      case isFalse hws =>
        have := (h.bound ws' k v).2 heq
        rw [hkv.1, hkv.2, hself, Option.some.injEq] at this
        exact hws this.symm
    · rw [if_neg hkv, h.bound]
      split
      case isTrue hws =>
        refine iff_of_false (fun heq => ?_) (fun heq => by cases heq)
        rw [hws, hd, Option.some.injEq, ConnectionData.mk.injEq] at heq
        exact hkv ⟨heq.1.symm, heq.2.1.symm⟩
      case isFalse => rfl
  · rw [haccepted]
    exact h.known_forget (hdata ▸ hd)
  · rw [haccepted]
    exact h.latest_forget (hdata ▸ hd)
  · rw [call_eq hget' hout] at hmem
    obtain ⟨o, ho, heq⟩ := List.mem_map.1 hmem
    cases heq
    rw [connection_eq hget]
    exact haddressed ws' msg ho

theorem served_onClose (h : s.Inv) (ws : Nat) : Served s (s.onClose ws) := by
  rw [onClose]
  cases hd : s.userData ws with
  | none => exact h.served
  | some d =>
    obtain ⟨c, u, closedByServer⟩ := d
    cases closedByServer with
    | false => exact h.forget_open hd
    | true =>
      have hforget := h.forget_closed hd rfl
      have hserved := hforget.served_call c (a := .userDisconnected u true)
        (fun _ _ h => by cases h) fun _ h => by cases h
      exact ⟨hserved.inv, hserved.addressed⟩

theorem served_refuse (h : s.Inv) (ws : Nat) (d : ConnectionData) (code : Nat) (reason : String) :
    Served s (s.refuse ws d code reason) := by
  rw [refuse]
  split
  · exact h.served_call _ (fun _ _ h => by cases h) fun _ h => by cases h
  · refine ⟨h, fun c ws' msg hmem => ?_⟩
    cases List.mem_singleton.1 hmem

theorem served_refuseMessage (h : s.Inv) (ws : Nat) (d : ConnectionData) (msg : RequestMessage)
    (errorCode : ErrorCode) (errorInfo reason : String) :
    Served s (s.refuseMessage ws d msg errorCode errorInfo reason) := by
  have hrefused := served_refuse h ws d 4003 reason
  refine ⟨hrefused.inv, fun c ws' msg' hmem => ?_⟩
  rcases List.mem_cons.1 hmem with heq | hmem
  · cases heq
  · exact hrefused.addressed c ws' msg' hmem

theorem served_onMessageEnd (h : s.Inv) (ws : Nat) (received : Received) :
    Served s (s.onMessageEnd ws received) := by
  rw [onMessageEnd]
  cases s.userData ws with
  | none => exact h.served
  | some d =>
    cases received with
    | invalidUTF8 => exact served_refuse h ..
    | invalidJSON => exact served_refuse h ..
    | parsed msg =>
      dsimp only
      split_ifs
      · exact served_refuseMessage h ..
      · exact served_refuseMessage h ..
      · exact served_refuseMessage h ..
      · exact h.served_call _ (fun _ _ h => by cases h) fun _ h => by cases h

/-- **Every action** keeps the invariant, and sends to users on the connections they have. -/
theorem served_act (h : s.Inv) (a : Action) : Served s (s.act a) := by
  cases a with
  | createConference conferenceId => exact served_createConference h conferenceId
  | removeConference conferenceId => exact served_removeConference h conferenceId
  | manage conferenceId management =>
    refine h.served_call _ (fun _ _ heq => ?_) fun _ heq => ?_
    · cases management <;> cases heq
    · cases management <;> cases heq
  | connectTransport conferenceId userId => exact served_connectTransport h conferenceId userId
  | onClose ws => exact served_onClose h ws
  | onError ws => exact served_onClose h ws
  | onMessageEnd ws received => exact served_onMessageEnd h ws received

end Step

/-! ## All runs -/

section Runs

variable {s}

theorem inv_new : ({} : BFCP).Inv where
  servers _ _ h := by cases h
  bound _ _ _ := iff_of_false (fun h => by cases h) (fun h => by cases h)
  known _ _ h := by cases h
  latest _ _ _ h := by cases h

theorem Inv.connected (h : s.Inv) (c u : Int) (ws : Nat) :
    s.connection c u = some ws ↔ s.MostRecent c u ws ∧ s.IsOpen ws := by
  rw [h.bound]
  constructor
  · intro hd
    exact ⟨⟨h.known ws _ hd, h.latest ws c u hd⟩, _, hd, rfl⟩
  · rintro ⟨⟨haccepted, -⟩, d, hd, hopen⟩
    have hknown := h.known ws d hd
    rw [haccepted, Option.some.injEq, Prod.mk.injEq] at hknown
    obtain ⟨c', u', closedByServer⟩ := d
    obtain ⟨rfl, rfl⟩ := hknown
    subst hopen
    exact hd

theorem connection_of_refused (h : s.Inv) {ws ws' : Nat} {received : Received}
    (hd : s.userData ws = some d) (hrefused : received.IsRefused d)
    (hconnection : s.connection d.conferenceId d.userId = some ws') :
    (s.onMessageEnd ws received).1.connection d.conferenceId d.userId = none := by
  obtain ⟨server, hget, htransport⟩ := Option.bind_eq_some_iff.1 hconnection
  have hending : server.ending = false := by
    by_contra hended
    rw [transport?_of_ended (h.servers _ _ hget).2 (eq_true_of_ne_false hended)] at htransport
    cases htransport
  have hrefuse (code : Nat) (reason : String) :
      (s.refuse ws d code reason).1.connection d.conferenceId d.userId = none := by
    rw [refuse, hget, Option.isSome_some, if_pos rfl, connection_call hget, if_pos rfl]
    exact Server.moved_disconnectUser d.userId code reason |>.2 hending
  rw [onMessageEnd, hd]
  cases received with
  | invalidUTF8 => exact hrefuse _ _
  | invalidJSON => exact hrefuse _ _
  | parsed msg =>
    dsimp only
    rcases hrefused with huser | hconference
    · rw [if_pos huser]
      exact hrefuse _ _
    · by_cases huser : msg.header.userId ≠ d.userId
      · rw [if_pos huser]
        exact hrefuse _ _
      · rw [if_neg huser, if_pos hconference]
        exact hrefuse _ _

theorem onClose_undisturbed (h : s.Inv) {ws ws' : Nat}
    (hd : s.userData ws = some d) (hconnection : s.connection d.conferenceId d.userId = some ws')
    (hne : ws' ≠ ws) :
    (∀ c, (s.onClose ws).1.getConference c = s.getConference c) ∧
      (s.onClose ws).1.userData ws' = s.userData ws' := by
  obtain ⟨c, u, closedByServer⟩ := d
  cases closedByServer with
  | false =>
    rw [(h.bound ws c u).2 hd, Option.some.injEq] at hconnection
    exact absurd hconnection.symm hne
  | true =>
    obtain ⟨server, hget, -⟩ := Option.bind_eq_some_iff.1 hconnection
    have hsame : server.step (.userDisconnected u true) = server := by
      change server.userDisconnected u true = server
      unfold Server.userDisconnected
      cases server.getUser u <;> rfl
    have hget' : (s.forget ws).getConference c = some server := hget
    have hcall : s.onClose ws = (s.forget ws).call c (.userDisconnected u true) := by
      rw [onClose, hd]
      rfl
    rw [hcall]
    constructor
    · intro k
      rw [getConference_call hget', hsame]
      split
      case isTrue hk => rw [hk, hget]
      case isFalse => rfl
    · rw [call_eq hget' (show _ = _ ++ ([] : List _) by rw [hsame, List.append_nil])]
      dsimp only
      have hid : ConnectionData.mark [] ws' = id := rfl
      rw [hid, Option.map_id, id, forget]
      exact Function.update_of_ne hne _ _

theorem keepsConnections_iff_notLate (h : s.Inv) (a : Action) :
    s.KeepsConnections a ↔ s.NotLate a := by
  have hserved := served_act h a
  constructor
  · intro hkeeps ws received d ha hd hrefused ws' hconnection
    by_contra hne
    subst ha
    obtain ⟨hconferences, -⟩ :=
      hkeeps.undisturbed ws d ws' hd ⟨rfl, hrefused⟩ hconnection hne
    have hsame : (s.step (.onMessageEnd ws received)).connection d.conferenceId d.userId =
        s.connection d.conferenceId d.userId := by
      rw [connection, hconferences, connection]
    have hnone := connection_of_refused h hd hrefused hconnection
    rw [← hsame] at hconnection
    exact absurd (hconnection.symm.trans hnone) (Option.some_ne_none ws')
  · intro hlate
    refine ⟨fun c u ws => hserved.inv.connected c u ws, hserved.addressed,
      fun ws d ws' hd htroubles hconnection hne => ?_⟩
    cases a with
    | onClose w =>
      obtain rfl : w = ws := htroubles
      exact onClose_undisturbed h hd hconnection hne
    | onError w =>
      obtain rfl : w = ws := htroubles
      exact onClose_undisturbed h hd hconnection hne
    | onMessageEnd w received =>
      obtain ⟨rfl, hrefused⟩ := htroubles
      exact absurd (hlate w received d rfl hd hrefused ws' hconnection) hne
    | _ => exact htroubles.elim

end Runs

/-- **The connections of users.** In a run of calls and events, in any order, users are connected by
the last connections accepted for them, are sent messages on these, and these are left alone by the
events of older ones, exactly if no message that is refused comes from a connection whose user has
another one by then. -/
theorem keepsConnections_iff (actions : List Action) :
    Meets step KeepsConnections {} actions ↔ Meets step NotLate {} actions :=
  meets_congr (I := Inv) (fun _ a h => keepsConnections_iff_notLate h a)
    (fun _ a h => (served_act h a).inv) inv_new actions

/-- User 7 connects, connects again, and his first connection ends. -/
def reconnect : List Action :=
  [.createConference 1, .manage 1 (.addUser 7), .connectTransport 1 7, .connectTransport 1 7]

theorem keepsConnections_reconnect :
    Meets step KeepsConnections {} (reconnect ++ [.onClose 0]) := by
  have hnot : ∀ (s : BFCP) (a : Action), (∀ ws received, a ≠ .onMessageEnd ws received) →
      s.NotLate a :=
    fun s a ha ws received d heq => absurd heq (ha ws received)
  refine (keepsConnections_iff _).2 ⟨hnot _ _ ?_, hnot _ _ ?_, hnot _ _ ?_, hnot _ _ ?_,
    hnot _ _ ?_, trivial⟩
  all_goals intro ws received heq; cases heq

/-- A text that is no UTF-8 comes from the first connection when there is the second one. -/
theorem not_keepsConnections_late :
    ¬Meets step KeepsConnections {} (reconnect ++ [.onMessageEnd 0 .invalidUTF8]) := by
  have hdata : (run step {} reconnect).userData 0 = some ⟨1, 7, true⟩ := by decide
  have hconnection : (run step {} reconnect).connection 1 7 = some 1 := by decide
  have hinv : (run step {} reconnect).Inv :=
    invariant_of_meets (C := fun _ _ => True) (I := fun _ (s : BFCP) => s.Inv) inv_new
      (fun _ a h _ => (served_act h a).inv) reconnect (meets_of_forall (fun _ _ => trivial) _)
  rw [meets_concat, keepsConnections_iff_notLate hinv]
  rintro ⟨-, hlate⟩
  cases hlate 0 .invalidUTF8 _ rfl hdata trivial 1 hconnection

end BFCP

end McuMediaServer
