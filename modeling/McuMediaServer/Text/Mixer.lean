import McuMediaServer.Text.Writers

/-!
# The text mixer of a conference

A text mixer has the text sources of the participants, each with the worker that mixes what its
participant sees, and private sources, whose text only one participant sees. A participant's worker
takes part in the mixing once the participant is initialised.

Each worker knows its writers by bare ids. Here it is kept whose writer each of them is: the address
of the source or of the private source that it was added for.
-/

namespace McuMediaServer

open Amf (WString)

namespace TextMixer

/-- Who a writer in a worker is for. -/
inductive Owner where
  | source (address : Nat)
  | priv (address : Nat)
  deriving DecidableEq, Repr

/-- Reference: `textmixer.h:48`. Whether the worker is one of `workers` is kept here. -/
structure TextSource where
  address : Nat
  name : WString
  output : WString := []
  worker : TextMixerWorker Owner := {}
  inWorkers : Bool := false
  deriving DecidableEq, Repr

/-- Reference: `textmixer.h:57`. -/
structure TextPrivate where
  address : Nat
  target : TextId
  name : WString
  output : WString := []
  inited : Bool := false
  deriving DecidableEq, Repr

/-- A text that has been written to the writer of someone in a worker, the worker of the source with
this address. -/
structure Delivery where
  worker : Nat
  owner : Owner
  text : WString
  deriving DecidableEq, Repr

end TextMixer

/-- Reference: `textmixer.h:16`. The addresses below `allocated` have been given away, and `written`
tells what has been written to the workers. -/
structure TextMixer where
  sources : List (TextId × TextMixer.TextSource) := []
  privates : List (TextId × TextMixer.TextPrivate) := []
  allocated : Nat := 0
  written : List TextMixer.Delivery := []
  deriving DecidableEq, Repr

namespace TextMixer

/-- Reference: `pipetextoutput.cpp:17`. -/
def sendFrame (text fifoBuffer : WString) : WString :=
  let fifoBuffer := if 1024 < fifoBuffer.length + text.length then [] else fifoBuffer
  if 1024 < fifoBuffer.length + text.length then fifoBuffer else fifoBuffer ++ text

/-- Text arrives. Reference: `pipetextoutput.cpp:17`. -/
def TextPrivate.receive (text : WString) (priv : TextPrivate) : TextPrivate :=
  { priv with output := sendFrame text priv.output }

/-- The text has been read. Reference: `pipetextoutput.cpp:85`. -/
def TextPrivate.clear (priv : TextPrivate) : TextPrivate :=
  { priv with output := [] }

/-- Reference: `textmixer.cpp:550`. -/
def TextPrivate.init (priv : TextPrivate) : TextPrivate :=
  { priv with inited := true }

namespace TextSource

variable (source : TextSource)

/-- Text arrives. Reference: `pipetextoutput.cpp:17`. -/
def receive (text : WString) : TextSource :=
  { source with output := sendFrame text source.output }

/-- The text has been read. Reference: `pipetextoutput.cpp:85`. -/
def clear : TextSource :=
  { source with output := [] }

/-- Reference: `textmixer.cpp:302`. -/
def addWritter (owner : Owner) (id : TextId) (name : WString) (realtime : Bool) : TextSource :=
  { source with worker := source.worker.addWritter owner id name realtime }

/-- Reference: `textmixer.cpp:399`. -/
def removeWritter (id : TextId) : TextSource :=
  { source with worker := source.worker.removeWritter id }

/-- Reference: `textmixer.cpp:88`. -/
def writeText (id : TextId) (text : WString) : TextSource :=
  { source with worker := source.worker.writeText id text }

/-- Reference: `textmixer.cpp:118`. -/
def processText (waited : TextId → Nat) : TextSource :=
  { source with worker := source.worker.processText waited }

/-- Only what takes part in the mixing is changed. -/
def ifInWorkers (f : TextSource → TextSource) : TextSource :=
  if source.inWorkers then f source else source

/-- Only the source of an id is changed. -/
def ifTarget (target k : TextId) (f : TextSource → TextSource) : TextSource :=
  if k = target then f source else source

/-- All sources become writers for the participant, except his own. Reference:
`textmixer.cpp:305`. -/
def addOthers (id : TextId) (sources : List (TextId × TextSource)) : TextSource :=
  sources.foldl (fun source other =>
    if other.1 ≠ id then source.addWritter (.source other.2.address) other.1 other.2.name true
    else source) source

/-- Reference: `textmixer.cpp:295`. -/
def start (id : TextId) (sources : List (TextId × TextSource)) : TextSource :=
  let source := { source with worker := source.worker.addReader id }
  { source.addOthers id sources with inWorkers := true }

/-- What becomes of the source of `k` when the participant of `id` is initialised. Reference:
`textmixer.cpp:300`. -/
def joined (id : TextId) (text : TextSource) (sources : List (TextId × TextSource)) (k : TextId) :
    TextSource :=
  let source := source.ifInWorkers (·.addWritter (.source text.address) id text.name true)
  if k = id then source.start id sources else source

end TextSource

variable (s : TextMixer)

def source? (id : TextId) : Option TextSource := SortedMap.get? id s.sources

def private? (id : TextId) : Option TextPrivate := SortedMap.get? id s.privates

/-- Change all sources. -/
def mapSources (f : TextId → TextSource → TextSource) : TextMixer :=
  { s with sources := s.sources.map fun e => (e.1, f e.1 e.2) }

/-- Reference: `textmixer.cpp:217`. -/
def createMixer (id : TextId) (name : WString) : TextMixer :=
  if (s.source? id).isSome then s
  else
    { s with
      sources := SortedMap.set id { address := s.allocated, name } s.sources
      allocated := s.allocated + 1 }

/-- A participant becomes a writer for the others, and they for him. Reference:
`textmixer.cpp:265`. -/
def initMixer (id : TextId) : TextMixer :=
  match s.source? id with
  | none => s
  | some text =>
    s.mapSources fun k source => source.joined id text s.sources k

/-- Reference: `textmixer.cpp:371`. -/
def deleteMixer (id : TextId) : TextMixer :=
  if (s.source? id).isNone then s
  else
    mapSources { s with sources := s.sources.filter fun e => e.1 ≠ id } fun _ source =>
      source.ifInWorkers (·.removeWritter id)

/-- Reference: `textmixer.cpp:485`. -/
def createPrivate (id target : TextId) (name : WString) : TextMixer :=
  if (s.private? id).isSome then s
  else
    { s with
      privates := SortedMap.set id { address := s.allocated, target, name } s.privates
      allocated := s.allocated + 1 }

/-- A private source becomes a writer for the participant it is meant for, if there is one.
Reference: `textmixer.cpp:529`. -/
def initPrivate (id : TextId) : TextMixer :=
  match s.private? id with
  | none => s
  | some priv =>
    mapSources { s with privates := SortedMap.modify id TextPrivate.init s.privates }
      fun k source =>
        source.ifTarget priv.target k (·.addWritter (.priv priv.address) id priv.name false)

/-- Reference: `textmixer.cpp:610`. -/
def deletePrivate (id : TextId) : TextMixer :=
  match s.private? id with
  | none => s
  | some priv =>
    mapSources { s with privates := s.privates.filter fun e => e.1 ≠ id } fun k source =>
      source.ifTarget priv.target k (·.removeWritter id)

/-- Text of a participant arrives. Reference: `textmixer.cpp:446`. -/
def sendText (id : TextId) (text : WString) : TextMixer :=
  s.mapSources fun k source => source.ifTarget id k (·.receive text)

/-- Text of a private source arrives. Reference: `textmixer.cpp:656`. -/
def sendPrivate (id : TextId) (text : WString) : TextMixer :=
  { s with privates := SortedMap.modify id (TextPrivate.receive text) s.privates }

/-! ## Mixing -/

/-- What is written when a worker is given the text of an id: nothing if it has no such writer. -/
def TextSource.deliver (id : TextId) (text : WString) (source : TextSource) : List Delivery :=
  (source.worker.owner? id).toList.map fun owner => ⟨source.address, owner, text⟩

/-- The text of a source goes to all workers but its own. Reference: `textmixer.cpp:71`. -/
def mixSource (e : TextId × TextSource) : TextMixer :=
  if e.2.output = [] then s
  else
    let written := s.sources.flatMap fun e' =>
      if e'.2.inWorkers ∧ e'.1 ≠ e.1 then e'.2.deliver e.1 e.2.output else []
    { s.mapSources fun k source =>
        if k = e.1 then source.clear
        else source.ifInWorkers (·.writeText e.1 e.2.output) with
      written := s.written ++ written }

/-- The text of a private source goes to the worker of the participant it is meant for, if there is
one. Reference: `textmixer.cpp:95`. -/
def mixPrivate (e : TextId × TextPrivate) : TextMixer :=
  if e.2.output = [] then s
  else
    let written := (s.source? e.2.target).toList.flatMap (TextSource.deliver e.1 e.2.output)
    { s.mapSources fun k source =>
        source.ifTarget e.2.target k (·.writeText e.1 e.2.output) with
      privates := SortedMap.modify e.1 TextPrivate.clear s.privates
      written := s.written ++ written }

/-- A round of the mixing. Reference: `textmixer.cpp:57`. -/
def mixText (waited : TextId → TextId → Nat) : TextMixer :=
  let s' := s.privates.foldl mixPrivate (s.sources.foldl mixSource s)
  s'.mapSources fun k source => source.ifInWorkers (·.processText (waited k))

/-- What can be asked of a text mixer. -/
inductive Operation where
  | createMixer (id : TextId) (name : WString)
  | initMixer (id : TextId)
  | deleteMixer (id : TextId)
  | createPrivate (id target : TextId) (name : WString)
  | initPrivate (id : TextId)
  | deletePrivate (id : TextId)
  | sendText (id : TextId) (text : WString)
  | sendPrivate (id : TextId) (text : WString)
  | mixText (waited : TextId → TextId → Nat)

def step : Operation → TextMixer
  | .createMixer id name => s.createMixer id name
  | .initMixer id => s.initMixer id
  | .deleteMixer id => s.deleteMixer id
  | .createPrivate id target name => s.createPrivate id target name
  | .initPrivate id => s.initPrivate id
  | .deletePrivate id => s.deletePrivate id
  | .sendText id text => s.sendText id text
  | .sendPrivate id text => s.sendPrivate id text
  | .mixText waited => s.mixText waited

end TextMixer

end McuMediaServer
