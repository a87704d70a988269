import McuMediaServer.Base.OrderedMap
import Mathlib.Logic.Function.Basic

/-!
# Participants of a web conference

A web conference makes a participant for every call, and follows its states through the listener
`onStateChanged`: it counts the participants that have left CREATED, takes those that are DESTROYED
out of its map, and destroys itself when the count falls to zero. The states change in the handlers
of the SIP messages and of the timers, which the servlet calls on the participant it finds in the
session of the message, and in the calls of the web interface.

What the handlers get from outside (answers of the mixer, exceptions of the SIP stack, the time) is
an argument of theirs.
-/

namespace McuMediaServer.Web

open Std

/-- Reference: `Participant.State` (`Participant.java:93`). -/
inductive State
  | created
  | connecting
  | waitingAccept
  | connected
  | error
  | timeout
  | busy
  | declined
  | notFound
  | disconnected
  | destroyed
  deriving DecidableEq

/-- Reference: `Participant.Type` (`Participant.java:94`). -/
inductive ParticipantType
  | sip
  | web
  deriving DecidableEq

/-- The part of a participant that its base class holds: `id` is given by the conference, `partId`
by the mixer. Reference: `Participant` (`Participant.java:42`). -/
structure Participant where
  id : Int
  partId : Int
  state : State := .created
  autoAccept : Bool
  deriving DecidableEq

/-- What `setState` logs: a participant, the state it leaves and the state it takes. -/
structure Change where
  participant : Nat
  prev : State
  state : State
  deriving DecidableEq

/-- What the listeners of a conference are told. Reference: `Conference.Listener`
(`Conference.java:68`). -/
inductive Event
  | conferenceEnded
  | participantCreated (id : Int)
  | participantStateChanged (id : Int) (state : State)
  | participantDestroyed (id : Int)
  deriving DecidableEq

/-- A conference. `parts` are all participants it ever made, which the map leads to by their place
in the list; `log` and `events` have the newest entry first. Reference: `Conference`
(`Conference.java:60`). -/
structure Conference where
  participants : TreeMap Int Nat := ∅
  numActParticipants : Int := 0
  autoAccept : Bool := true
  isDestroying : Bool := false
  count : Int := 1
  parts : List Participant := []
  log : List Change := []
  events : List Event := []

namespace Conference

variable (conf : Conference)

/-- Tell the listeners. Reference: `fireOnParticipantStateChanged` (`Conference.java:827`). -/
def fire (event : Event) : Conference :=
  { conf with events := event :: conf.events }

/-- A participant takes a state. Reference: `Participant.setState` (`Participant.java:216`). -/
def record (p : Nat) (part : Participant) (state : State) : Conference :=
  { conf with
    parts := conf.parts.set p { part with state }
    log := ⟨p, part.state, state⟩ :: conf.log }

/-- The identifier the next participant gets, `count.incrementAndGet()`. -/
def nextId : Int :=
  conf.count + 1

/-- Make a participant; `partId` is the answer of the mixer, which may fail. Only SIP participants
are made: for the others `part` stays null, and the exception it raises is logged. Reference:
`Conference.createParticipant` (`Conference.java:455`). -/
def createParticipant (type : ParticipantType) (partId : Option Int) : Conference :=
  match type, partId with
  | .sip, some partId =>
    { conf with
      count := conf.nextId
      parts := conf.parts ++ [{ id := conf.nextId, partId, autoAccept := conf.autoAccept }]
      participants := conf.participants.insert partId conf.parts.length
      events := .participantCreated conf.nextId :: conf.events }
  | _, _ => conf

/-- Count a participant that has left CREATED. Reference: `Conference.onStateChanged`
(`Conference.java:736`). -/
def countUp (prev : State) : Conference :=
  { conf with
    numActParticipants :=
      if prev = .created then conf.numActParticipants + 1 else conf.numActParticipants }

/-- Take out a participant that is DESTROYED. Reference: `Conference.onStateChanged`
(`Conference.java:744`). -/
def remove (part : Participant) : Conference :=
  { conf.fire (.participantDestroyed part.id) with
    numActParticipants := conf.numActParticipants - 1
    participants := conf.participants.erase part.id }

end Conference

/-- A SIP session, and the application session it belongs to. -/
structure SipSession where
  id : Nat
  application : Nat
  deriving DecidableEq

/-- The part of a participant that belongs to its call. Reference: `RTPParticipant`
(`RTPParticipant.java:78`). -/
structure RTPParticipant where
  session : Option SipSession := none
  appSession : Option Nat := none
  totalPacketCount : Option Int := none
  useRTPTimeout : Bool := true

/-- The servlet with one conference. `user` and `appUser` are the attributes "user" of the SIP and
the application sessions; `uninvited` are the participants whose creator still has to send or to
answer the INVITE. Reference: `MCUSipServlet` (`MCUSipServlet.java:41`). -/
structure SipServlet where
  conference : Conference := {}
  rtp : Nat → RTPParticipant := fun _ => {}
  user : Nat → Option Nat := fun _ => none
  appUser : Nat → Option Nat := fun _ => none
  uninvited : List Nat := []

/-- What a change of state calls. Reference: `Participant.Listener` (`Participant.java:87`). -/
abbrev Listener :=
  SipServlet → Nat → State → State → SipServlet

namespace SipServlet

variable (listener : Listener) (c : SipServlet) (p : Nat)

/-- The state of a participant. Reference: `Participant.getState` (`Participant.java:248`). -/
def getState : Option State :=
  c.conference.parts[p]?.map Participant.state

/-- Reference: `Participant.setState` (`Participant.java:216`). -/
def setState (state : State) : SipServlet :=
  match c.conference.parts[p]? with
  | some part =>
    listener { c with conference := c.conference.record p part state } p state part.state
  | none => c

/-- The sessions of the participant forget it. Reference: `RTPParticipant.destroy`
(`RTPParticipant.java:2485`). -/
def removeAttributes : SipServlet :=
  { c with
    user := ((c.rtp p).session.map fun s => Function.update c.user s.id none).getD c.user
    appUser := ((c.rtp p).appSession.map fun a => Function.update c.appUser a none).getD c.appUser }

/-- Reference: `RTPParticipant.destroy` (`RTPParticipant.java:2467`). -/
def destroyParticipant : SipServlet :=
  (c.removeAttributes p).setState listener p .destroyed

/-- Reference: `Participant.error` (`Participant.java:199`). -/
def error (state : State) : SipServlet :=
  (c.setState listener p state).destroyParticipant listener p

/-- What the CANCEL request throws is only logged. Reference: `RTPParticipant.doCancel`
(`RTPParticipant.java:2376`). -/
def doCancel (timedout : Bool) : SipServlet :=
  c.error listener p (if timedout then .timeout else .disconnected)

/-- What the BYE request throws is only logged. Reference: `RTPParticipant.doBye`
(`RTPParticipant.java:2400`). -/
def doBye (timeout : Bool) : SipServlet :=
  c.error listener p (if timeout then .timeout else .disconnected)

/-- Reference: `RTPParticipant.end` (`RTPParticipant.java:2448`). -/
def endParticipant : SipServlet :=
  match c.getState p with
  | some .connecting => c.doCancel listener p false
  | some .connected => c.doBye listener p false
  | _ => c.destroyParticipant listener p

/-- The listener of a conference that is being destroyed. -/
def ignore : Listener :=
  fun c _ _ _ => c

/-- While the conference is being destroyed, its listener does nothing (`endParticipant_ignore`).
Reference: `Conference.destroy` (`Conference.java:236`). -/
def destroy : SipServlet :=
  if c.conference.isDestroying then c
  else
    let c := { c with conference := { c.conference with isDestroying := true } }
    let c := (OrderedMap.values c.conference.participants).foldl (endParticipant ignore) c
    { c with conference := c.conference.fire .conferenceEnded }

/-- Reference: `Conference.onStateChanged` (`Conference.java:729`). -/
def onStateChanged : Listener := fun c p state prev =>
  if c.conference.isDestroying then c
  else
    match c.conference.parts[p]? with
    | some part =>
      let conf := (c.conference.fire (.participantStateChanged part.id state)).countUp prev
      if state = .destroyed then
        let conf := conf.remove part
        -- the check for an ad hoc conference, which the comment names, is not made
        if conf.numActParticipants < 1 ∧ conf.isDestroying = false then
          destroy { c with conference := conf }
        else { c with conference := conf }
      else { c with conference := conf }
    | none => c

/-! ## Handlers of a participant -/

/-- A session of the participant, which leads back to it. -/
def setSession (s : SipSession) : SipServlet :=
  { c with
    rtp := Function.update c.rtp p { c.rtp p with session := some s }
    user := Function.update c.user s.id (some p) }

/-- The application session of the participant. -/
def setAppSession (a : Nat) : SipServlet :=
  { c with
    rtp := Function.update c.rtp p { c.rtp p with appSession := some a }
    appUser := Function.update c.appUser a (some p) }

/-- `sent` says that the answer was made and sent. Reference: `RTPParticipant.accept`
(`RTPParticipant.java:1880`). -/
def accept (sent : Bool) : SipServlet :=
  if c.getState p ≠ some .waitingAccept then c
  else if sent then c
  else c.error onStateChanged p .error

/-- Reference: `RTPParticipant.reject` (`RTPParticipant.java:1948`). -/
def reject (sent : Bool) : SipServlet :=
  if c.getState p ≠ some .waitingAccept then c
  else c.error onStateChanged p (if sent then .declined else .error)

/-- Whether the call is accepted at once. Reference: `Participant.isAutoAccept`
(`Participant.java:187`). -/
def isAutoAccept : Bool :=
  (c.conference.parts[p]?.map Participant.autoAccept).getD false

/-- `ringing` says that nothing is thrown before the sessions lead to the participant, `processed`
that the content is processed, `sent` that a call accepted at once is answered. Reference:
`RTPParticipant.onInviteRequest` (`RTPParticipant.java:1658`). -/
def onInviteRequest (s : SipSession) (ringing processed sent : Bool) : SipServlet :=
  if ¬ringing then c
  else
    let c := (c.setAppSession p s.application).setSession p s
    if ¬processed then c
    else
      let c := c.setState onStateChanged p .waitingAccept
      if c.isAutoAccept p then c.accept p sent else c

/-- `receiving` says that nothing is thrown before the sessions lead to the participant, `offered`
that the offer is made. What sending throws is only logged. Reference: `RTPParticipant.doInvite`
(`RTPParticipant.java:1989`). -/
def doInvite (s : SipSession) (receiving offered : Bool) : SipServlet :=
  if ¬receiving then c
  else
    let c := (c.setAppSession p s.application).setSession p s
    if ¬offered then c else c.setState onStateChanged p .connecting

/-- How a positive answer fares: the header `Session-Expires` is no number, the content is not
negotiated or acknowledged, the participant does not join or send, all goes well. -/
inductive Answer
  | malformed
  | refused
  | unjoined
  | joined
  deriving DecidableEq

/-- The state after a negative answer. Reference: `RTPParticipant.onInviteResponse`
(`RTPParticipant.java:2222`). -/
def failure (code : Int) : Option State :=
  if code = 422 then none
  else if code = 404 then some .notFound
  else if code = 486 then some .busy
  else if code = 603 then some .declined
  else if code = 408 ∨ code = 480 ∨ code = 487 then some .timeout
  else some .error

/-- Reference: `RTPParticipant.onInviteResponse` (`RTPParticipant.java:2091`). -/
def onInviteResponse (s : SipSession) (code : Int) (answer : Answer) : SipServlet :=
  if c.getState p ≠ some .connecting then c
  else if code < 200 then c
  else if code < 300 then
    match answer with
    | .malformed => c
    | .refused => (c.setSession p s).error onStateChanged p .error
    | .unjoined =>
      ((c.setSession p s).setState onStateChanged p .connected).error onStateChanged p .error
    | .joined => (c.setSession p s).setState onStateChanged p .connected
  else if code ≥ 400 then
    match failure code with
    | some state => c.error onStateChanged p state
    | none => c
  else c

/-- `refreshOver` says that the session was not refreshed in time, `num` is the number of packets
received, which the mixer may fail to tell. Reference: `RTPParticipant.onTimeout`
(`RTPParticipant.java:2283`). -/
def onTimeout (refreshOver : Bool) (num : Option Int) : SipServlet :=
  match c.getState p with
  | some .connected =>
    if refreshOver then c.doBye onStateChanged p true
    else
      match num with
      | none => c
      | some num =>
        if (c.rtp p).totalPacketCount ≠ some num then
          { c with rtp := Function.update c.rtp p { c.rtp p with totalPacketCount := some num } }
        else if (c.rtp p).useRTPTimeout then c.doBye onStateChanged p true
        else c
  | some .connecting => c.doCancel onStateChanged p true
  | _ => c.destroyParticipant onStateChanged p

/-- `processed` says that the content, if any, is processed; that the participant does not join or
send is only logged. Reference: `RTPParticipant.onAckRequest` (`RTPParticipant.java:2338`). -/
def onAckRequest (processed : Bool) : SipServlet :=
  if ¬processed then c
  else if c.getState p ≠ some .connected then c.setState onStateChanged p .connected
  else c

/-- Reference: `RTPParticipant.onByeRequest` (`RTPParticipant.java:2430`). -/
def onByeRequest : SipServlet :=
  c.error onStateChanged p .disconnected

/-- Reference: `RTPParticipant.onCancelRequest` (`RTPParticipant.java:1623`). -/
def onCancelRequest : SipServlet :=
  c.error onStateChanged p .disconnected

/-- Reference: `RTPParticipant.onCancelResponse` (`RTPParticipant.java:1639`). -/
def onCancelResponse : SipServlet :=
  c.destroyParticipant onStateChanged p

/-- Reference: `RTPParticipant.onUpdatesRequest` (`RTPParticipant.java:1770`). -/
def onUpdatesRequest (s : SipSession) : SipServlet :=
  c.setSession p s

end SipServlet

open SipServlet (Answer)

/-- A call of a handler. -/
inductive Call
  | onInviteRequest (s : SipSession) (ringing processed sent : Bool)
  | doInvite (s : SipSession) (receiving offered : Bool)
  | onInviteResponse (s : SipSession) (code : Int) (answer : Answer)
  | onCancelResponse
  | onByeResponse
  | onUpdatesRequest (s : SipSession)
  | onByeRequest
  | onAckRequest (processed : Bool)
  | onCancelRequest
  | onTimeout (refreshOver : Bool) (num : Option Int)
  | accept (sent : Bool)
  | reject (sent : Bool)
  | endParticipant

/-- The handler runs for a participant. -/
def SipServlet.handle (c : SipServlet) (p : Nat) : Call → SipServlet
  | .onInviteRequest s ringing processed sent => c.onInviteRequest p s ringing processed sent
  | .doInvite s receiving offered => c.doInvite p s receiving offered
  | .onInviteResponse s code answer => c.onInviteResponse p s code answer
  | .onCancelResponse => c.onCancelResponse p
  | .onByeResponse => c
  | .onUpdatesRequest s => c.onUpdatesRequest p s
  | .onByeRequest => c.onByeRequest p
  | .onAckRequest processed => c.onAckRequest p processed
  | .onCancelRequest => c.onCancelRequest p
  | .onTimeout refreshOver num => c.onTimeout p refreshOver num
  | .accept sent => c.accept p sent
  | .reject sent => c.reject p sent
  | .endParticipant => c.endParticipant SipServlet.onStateChanged p

/-! ## The servlet -/

/-- A response; those to INFO and BYE are handled alike. -/
inductive Response
  | invite (code : Int) (answer : Answer)
  | cancel
  | bye

/-- A request within a dialog; INFO and OPTIONS change nothing. -/
inductive Request
  | update
  | bye
  | ack (processed : Bool)
  | cancel

/-- Reference: `MCUSipServlet.doResponse` (`MCUSipServlet.java:75`). -/
def Response.call (s : SipSession) : Response → Call
  | .invite code answer => .onInviteResponse s code answer
  | .cancel => .onCancelResponse
  | .bye => .onByeResponse

/-- Reference: `MCUSipServlet.doInvite`, `doUpdate`, `doBye`, `doAck`, `doCancel`
(`MCUSipServlet.java:107`). -/
def Request.call (s : SipSession) : Request → Call
  | .update => .onUpdatesRequest s
  | .bye => .onByeRequest
  | .ack processed => .onAckRequest processed
  | .cancel => .onCancelRequest

/-- What happens to a conference: its creator makes a participant and sends or answers the INVITE,
a message arrives, a timer of an application session runs off, the web interface calls. -/
inductive Input
  | setAutoAccept (autoAccept : Bool)
  | createParticipant (type : ParticipantType) (partId : Option Int)
  | onInviteRequest (p : Nat) (s : SipSession) (ringing processed sent : Bool)
  | doInvite (p : Nat) (s : SipSession) (receiving offered : Bool)
  | doResponse (s : SipSession) (response : Response)
  | doRequest (s : SipSession) (request : Request)
  | sessionExpired (a : Nat) (refreshOver : Bool) (num : Option Int)
  | acceptParticipant (id : Int) (sent : Bool)
  | rejectParticipant (id : Int) (sent : Bool)
  | removeParticipant (id : Int)

namespace SipServlet

variable (c : SipServlet)

/-- The participant a response is for: the session leads to it, or the application session.
Reference: `MCUSipServlet.doResponse` (`MCUSipServlet.java:46`). -/
def respondent (s : SipSession) : Option Nat :=
  (c.user s.id).or (c.appUser s.application)

/-- The participant and the handler an input is for. Reference: `MCUSipServlet`
(`MCUSipServlet.java:46`), `Conference.getParticipant` (`Conference.java:351`). -/
def callee : Input → Option (Nat × Call)
  | .setAutoAccept _ | .createParticipant _ _ => none
  | .onInviteRequest p s ringing processed sent =>
    if p ∈ c.uninvited then some (p, .onInviteRequest s ringing processed sent) else none
  | .doInvite p s receiving offered =>
    if p ∈ c.uninvited then some (p, .doInvite s receiving offered) else none
  | .doResponse s response => (c.respondent s).map fun p => (p, response.call s)
  | .doRequest s request => (c.user s.id).map fun p => (p, request.call s)
  | .sessionExpired a refreshOver num => (c.appUser a).map fun p => (p, .onTimeout refreshOver num)
  | .acceptParticipant id sent => c.conference.participants[id]?.map fun p => (p, .accept sent)
  | .rejectParticipant id sent => c.conference.participants[id]?.map fun p => (p, .reject sent)
  | .removeParticipant id => c.conference.participants[id]?.map fun p => (p, .endParticipant)

/-- What happens before the handler runs: the session of a response leads to the participant, and
the creator of a participant handles it once. -/
def prepare (p : Nat) : Input → SipServlet
  | .doResponse s _ => { c with user := Function.update c.user s.id (some p) }
  | .onInviteRequest _ _ _ _ _ | .doInvite _ _ _ _ => { c with uninvited := c.uninvited.erase p }
  | _ => c

/-- The handler of an input runs for its participant, if there is one. -/
def dispatch (i : Input) : SipServlet :=
  match c.callee i with
  | some (p, call) => (c.prepare p i).handle p call
  | none => c

/-- One input. -/
def step (i : Input) : SipServlet :=
  match i with
  | .setAutoAccept autoAccept => { c with conference := { c.conference with autoAccept } }
  | .createParticipant type partId =>
    { c with
      conference := c.conference.createParticipant type partId
      uninvited := if type = .sip ∧ partId.isSome then c.conference.parts.length :: c.uninvited
        else c.uninvited }
  | i => c.dispatch i

end SipServlet

end McuMediaServer.Web
