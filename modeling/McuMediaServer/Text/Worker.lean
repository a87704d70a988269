import McuMediaServer.Amf.Utf8
import McuMediaServer.Base.Run
import McuMediaServer.Base.SortedMap
import Mathlib.Algebra.Ring.Nat
import Mathlib.Order.Fin.Basic

/-!
# The text mixer of one participant

A worker has writers, whose text waits in queues, and readers, who see the text of one writer at a
time: the turn of a writer begins with a label that shows his name, and ends with a separator. In
his turn a writer may erase what he has written, and `displayed` counts how much of it there is.

What is written to a reader is kept with who it comes from: a writer, or the mixer itself for the
labels and the separators. The program has no such mark.
-/

namespace McuMediaServer

open Amf (WString)

/-- The 32 bits of an id, which is an `int` in `TextMixer` and a `DWORD` in its workers. -/
abbrev TextId := Fin (2 ^ 32)

/-- A character that is written to a reader, and whose it is: nobody's if it comes from the mixer
itself. -/
structure Sent (τ : Type*) where
  char : Nat
  owner : Option τ
  deriving DecidableEq, Repr

namespace TextMixerWorker

/-- Reference: `textmixerworker.cpp:11`. -/
def bom : Nat := 0xFEFF

/-- Reference: `textmixerworker.cpp:12`. -/
def crlf : WString := [0x0D, 0x0A]

/-- Reference: `textmixerworker.cpp:13`. -/
def lf : Nat := 0x0A

/-- Reference: `textmixerworker.cpp:15`. -/
def bel : Nat := 0x07

/-- Reference: `textmixerworker.cpp:16`. -/
def backspace : Nat := 0x08

/-- Reference: `textmixerworker.cpp:17`. -/
def erasureRepl : Nat := 0x58

/-- Reference: `textmixerworker.cpp:18`. -/
def labelStart : WString := [0x5B]

/-- Reference: `textmixerworker.cpp:19`. -/
def labelEnd : WString := [0x5D, 0x20]

/-- Reference: `textmixerworker.cpp:23`. -/
def lineSeparator : Nat := 0x2028

/-- Reference: `textmixerworker.cpp:24`. -/
def paragraphSeparator : Nat := 0x2029

/-- The characters of the buffers. Reference: `textmixerworker.cpp:186`. -/
def size : Nat := 1024

/-- Reference: `textmixerworker.cpp:203`. -/
def maxLabelNameSize : Nat := 12

/-- Reference: `textmixerworker.cpp:204`. -/
def maxLabelSize : Nat := maxLabelNameSize + labelStart.length + labelEnd.length

/-- A writer, and whose text he writes. Of the time since which he waits only whether it is set is
kept: how long that is comes from the clock. Reference: `textmixerworker.h:30`. -/
structure TextWritter (τ : Type*) where
  owner : τ
  name : WString
  realtime : Bool
  textQueue : WString := []
  waitingSince : Bool := false
  firstSentenceDelimiterCharFound : Bool := false
  deriving DecidableEq, Repr

/-- A reader, and the texts that have been written to its input. Reference:
`textmixerworker.h:53`. -/
structure TextReader (τ : Type*) where
  isFirst : Bool := true
  displayed : Nat := 0
  input : List (List (Sent τ)) := []
  deriving DecidableEq, Repr

end TextMixerWorker

/-- Reference: `textmixerworker.h:12`. -/
structure TextMixerWorker (τ : Type*) where
  writters : List (TextId × TextMixerWorker.TextWritter τ) := []
  readers : List (TextId × TextMixerWorker.TextReader τ) := []
  currentWritter : Option TextId := none
  deriving DecidableEq, Repr

namespace TextMixerWorker

variable {τ : Type*}

/-! ## Writers -/

/-- What does not fit into the queue is left out. Reference: `fifo.h:27`. -/
def TextWritter.push (text : TextWritter τ) (data : WString) : TextWritter τ :=
  if 1024 < text.textQueue.length + data.length then text
  else { text with textQueue := text.textQueue ++ data }

/-- The text between two byte order marks is pushed as a whole. Reference:
`textmixerworker.cpp:84`. -/
def TextWritter.writeText (pending : WString) : WString → TextWritter τ → TextWritter τ
  | [], text => if pending = [] then text else text.push pending
  | c :: data, text =>
    if c = bom then
      TextWritter.writeText [] data (if pending = [] then text else text.push pending)
    else TextWritter.writeText (pending ++ [c]) data text

variable (s : TextMixerWorker τ)

/-- Reference: `textmixerworker.cpp:57`. -/
def addWritter (owner : τ) (id : TextId) (name : WString) (realtime : Bool) : TextMixerWorker τ :=
  if (SortedMap.get? id s.writters).isSome then s
  else { s with writters := SortedMap.set id { owner, name, realtime } s.writters }

/-- The text is lost if there is no such writer. Reference: `textmixerworker.cpp:70`. -/
def writeText (id : TextId) (data : WString) : TextMixerWorker τ :=
  { s with writters := SortedMap.modify id (TextWritter.writeText [] data) s.writters }

/-! ## Readers -/

/-- Reference: `pipetextinput.cpp:90`. -/
def TextReader.write (reader : TextReader τ) (text : List (Sent τ)) : TextReader τ :=
  { reader with input := reader.input ++ [text] }

/-- What the mixer itself writes. -/
def mixerText (text : WString) : List (Sent τ) :=
  text.map fun c => ⟨c, none⟩

/-- Reference: `textmixerworker.cpp:398`. -/
def TextWritter.label (text : TextWritter τ) : List (Sent τ) :=
  mixerText (labelStart ++ text.name.take maxLabelNameSize ++ labelEnd)

/-- What is sent of the characters of a writer when so many of them are displayed, and how many are
then. Reference: `textmixerworker.cpp:425`. -/
def sendChars (owner : τ) : WString → Nat → List (Sent τ) × Nat
  | [], displayed => ([], displayed)
  | c :: text, displayed =>
    if c = bom then sendChars owner text displayed
    else if c = backspace then
      if displayed ≠ 0 then
        let sent := sendChars owner text (displayed - 1)
        (⟨backspace, owner⟩ :: sent.1, sent.2)
      else
        let sent := sendChars owner text displayed
        (⟨erasureRepl, owner⟩ :: sent.1, sent.2)
    else if c = bel then
      let sent := sendChars owner text displayed
      (⟨bel, owner⟩ :: sent.1, sent.2)
    else
      let sent := sendChars owner text ((displayed + 1) % 2 ^ 32)
      (⟨c, owner⟩ :: sent.1, sent.2)

/-- Some text of a writer is written to a reader, after his label if it is the first of his turn.
Reference: `textmixerworker.cpp:385`. -/
def TextReader.deliver (text : TextWritter τ) (chunk : WString) (reader : TextReader τ) :
    TextReader τ :=
  let sent := sendChars text.owner chunk (if reader.isFirst then 0 else reader.displayed)
  let reader' := reader.write ((if reader.isFirst then text.label else []) ++ sent.1)
  { reader' with isFirst := false, displayed := sent.2 }

/-- The turn of a writer ends. Reference: `textmixerworker.cpp:505`. -/
def TextReader.endTurn (message : Bool) (reader : TextReader τ) : TextReader τ :=
  let reader' := if message then reader else reader.write (mixerText [lineSeparator])
  { reader' with isFirst := true, displayed := 0 }

/-- Reference: `textmixerworker.cpp:130`. -/
def TextReader.removeCurrent (reader : TextReader τ) : TextReader τ :=
  { reader.write (mixerText crlf) with isFirst := true }

def mapReaders (f : TextReader τ → TextReader τ) : TextMixerWorker τ :=
  { s with readers := s.readers.map fun e => (e.1, f e.2) }

/-- Reference: `textmixerworker.cpp:112`. -/
def removeWritter (id : TextId) : TextMixerWorker τ :=
  if (SortedMap.get? id s.writters).isNone then s
  else
    let s :=
      if s.currentWritter = some id then
        { s.mapReaders TextReader.removeCurrent with currentWritter := none }
      else s
    { s with writters := s.writters.filter fun e => e.1 ≠ id }

/-- Reference: `textmixerworker.cpp:149`. -/
def addReader (id : TextId) : TextMixerWorker τ :=
  if (SortedMap.get? id s.readers).isSome then s
  else { s with readers := SortedMap.set id (TextReader.write {} (mixerText [bom])) s.readers }

/-- Reference: `textmixerworker.cpp:167`. -/
def removeReader (id : TextId) : TextMixerWorker τ :=
  { s with readers := s.readers.filter fun e => e.1 ≠ id }

/-! ## Turns -/

/-- Who comes next, and whether at once. Reference: `textmixerworker.cpp:190`. -/
structure Candidate where
  maxWaitingTime : Nat := 0
  nextCurrentParticipant : Option TextId := none
  switchParticipant : Bool := false
  deriving DecidableEq, Repr

/-- A writer who has waited longer than the others comes before them. Reference:
`textmixerworker.cpp:235`. -/
def Candidate.offer (best : Candidate) (id : TextId) (waitingTime : Nat) : Candidate :=
  if best.maxWaitingTime < waitingTime then
    { best with maxWaitingTime := waitingTime, nextCurrentParticipant := some id }
  else best

/-- Reference: `textmixerworker.cpp:248`. -/
def Candidate.orElse (best : Candidate) (id : TextId) : Candidate :=
  if best.nextCurrentParticipant.isNone then { best with nextCurrentParticipant := some id }
  else best

/-- All writers are looked at, up to one who is not a realtime one and has text. The clock says how
many milliseconds a writer has waited. Reference: `textmixerworker.cpp:207`. -/
def lookFor (waited : TextId → Nat) (current : Option TextId) :
    List (TextId × TextWritter τ) → Candidate → List (TextId × TextWritter τ) × Candidate
  | [], best => ([], best)
  | (id, text) :: writters, best =>
    if current = some id ∨ text.textQueue = [] then
      let found := lookFor waited current writters best
      ((id, text) :: found.1, found.2)
    else if ¬text.realtime then
      ((id, text) :: writters,
        { best with nextCurrentParticipant := some id, switchParticipant := true })
    else if text.waitingSince then
      let found := lookFor waited current writters ((best.offer id (waited id)).orElse id)
      ((id, text) :: found.1, found.2)
    else
      let found := lookFor waited current writters (best.orElse id)
      ((id, { text with waitingSince := true }) :: found.1, found.2)

/-- Reference: `textmixerworker.cpp:199`. -/
def maxWaitingTimeLimit : Nat := 20000

/-- Reference: `textmixerworker.cpp:200`. -/
def timeExtension : Nat := 7000

/-- Reference: `textmixerworker.cpp:201`. -/
def maxCurrentParticipantInactiveLimit : Nat := 7000

/-- How much of the text that was read is sent, and which delimiters were found in it. -/
structure Cut where
  len : Nat
  foundWordDelimiter : Bool := false
  foundSentenceDelimiter : Bool := false
  foundMessageDelimiter : Bool := false
  firstSentenceDelimiterCharFound : Bool := false
  deriving DecidableEq, Repr

def isSentenceEnd (c : Nat) : Bool := c = 0x3F || c = 0x21 || c = 0x2E

section Delimiters

variable (buffer : WString)

/-- The text is cut before its last space. Reference: `textmixerworker.cpp:284`. -/
def Cut.searchWord (cut : Cut) : Cut :=
  match (List.range cut.len).reverse.find? fun i => buffer.getD i 0 = 0x20 with
  | none => cut
  | some i => { cut with len := i, foundWordDelimiter := true }

/-- The text is cut after the last character that ends a sentence and that a space follows.
Reference: `textmixerworker.cpp:300`. -/
def Cut.searchSentence (first : Bool) (cut : Cut) : Cut :=
  if first then
    if buffer.getD 0 0 = 0x20 then { cut with len := 1, foundSentenceDelimiter := true } else cut
  else
    let ends (i : Nat) : Bool := isSentenceEnd (buffer.getD i 0) && buffer.getD (i + 1) 0 = 0x20
    match (List.range (cut.len - 1)).reverse.find? ends with
    | none => cut
    | some i => { cut with len := i + 1, foundSentenceDelimiter := true }

/-- Reference: `textmixerworker.cpp:332`. -/
def Cut.setFirst (cut : Cut) : Cut :=
  { cut with
    firstSentenceDelimiterCharFound := 0 < cut.len && isSentenceEnd (buffer.getD (cut.len - 1) 0) }

/-- Where a delimiter of messages ends that begins here. Reference: `textmixerworker.cpp:346`. -/
def messageDelimiter (len i : Nat) : Option Nat :=
  let c := buffer.getD i 0
  if c = lineSeparator ∨ c = paragraphSeparator then some (i + 1)
  else if i + 1 < len ∧ [c, buffer.getD (i + 1) 0] = crlf then some (i + 2)
  else if c = lf then some (i + 1)
  else none

/-- The text is cut after the first delimiter of messages. Reference:
`textmixerworker.cpp:340`. -/
def Cut.searchMessage (cut : Cut) : Cut :=
  match (List.range cut.len).findSome? (messageDelimiter buffer cut.len) with
  | none => cut
  | some len => { cut with len, foundMessageDelimiter := true }

/-- Reference: `textmixerworker.cpp:278`. -/
def cut (searchWordDelimiter first : Bool) : Cut :=
  let cut := { len := buffer.length : Cut }
  let cut := if searchWordDelimiter then cut.searchWord buffer else cut
  ((cut.searchSentence buffer first).setFirst buffer).searchMessage buffer

end Delimiters

/-- The writer whose turn it is. -/
def current? : Option (TextId × TextWritter τ) :=
  s.currentWritter.bind fun id => (SortedMap.get? id s.writters).map (id, ·)

/-- Reference: `textmixerworker.cpp:380`. -/
def TextWritter.remove (len : Nat) (text : TextWritter τ) : TextWritter τ :=
  { text with textQueue := text.textQueue.drop len }

/-- A writer after some of his text has been sent. Reference: `textmixerworker.cpp:475`. -/
def TextWritter.spoke (cut : Cut) (text : TextWritter τ) : TextWritter τ :=
  { text.remove cut.len with
    waitingSince := true
    firstSentenceDelimiterCharFound := cut.firstSentenceDelimiterCharFound }

/-- Reference: `textmixerworker.cpp:519`. -/
def TextWritter.stopWaiting (text : TextWritter τ) : TextWritter τ :=
  { text with waitingSince := false }

/-- The text of the current writer is sent to all readers up to where it is cut. Reference:
`textmixerworker.cpp:380`. -/
def speak (id : TextId) (text : TextWritter τ) (cut : Cut) : TextMixerWorker τ :=
  { s.mapReaders (TextReader.deliver text (text.textQueue.take cut.len)) with
    writters := SortedMap.modify id (TextWritter.spoke cut) s.writters }

/-- Another writer comes, or nobody after one that is not a realtime one. Reference:
`textmixerworker.cpp:496`. -/
def switchTo (next : Option TextId) (message : Bool) : TextMixerWorker τ :=
  if s.currentWritter = next then s
  else
    match s.current? with
    | none => { s with currentWritter := next }
    | some (id, text) =>
      if next.isSome ∨ ¬text.realtime then
        { s.mapReaders (TextReader.endTurn message) with
          writters := SortedMap.modify id TextWritter.stopWaiting s.writters
          currentWritter := next }
      else s

/-- Reference: `textmixerworker.cpp:184`. -/
def processText (waited : TextId → Nat) : TextMixerWorker τ :=
  let found := lookFor waited s.currentWritter s.writters {}
  let waiting := found.2.maxWaitingTime
  let next := found.2.nextCurrentParticipant
  let urgent : Bool := maxWaitingTimeLimit + timeExtension < waiting
  let switch := found.2.switchParticipant || urgent
  let s := { s with writters := found.1 }
  match s.current? with
  | none => s.switchTo next false
  | some (id, text) =>
    if text.textQueue = [] then
      if switch || maxCurrentParticipantInactiveLimit < waited id then s.switchTo next false else s
    else
      let cut := cut (text.textQueue.take (size - maxLabelSize))
        (!urgent && maxWaitingTimeLimit < waiting) text.firstSentenceDelimiterCharFound
      let s := s.speak id text cut
      if switch || !text.realtime || cut.foundMessageDelimiter || cut.foundSentenceDelimiter ||
          cut.foundWordDelimiter then
        s.switchTo next cut.foundMessageDelimiter
      else s

/-! ## Flushing -/

/-- Who is flushed next: of the writers who have text the one who has waited longest. Reference:
`textmixerworker.cpp:668`. -/
def nextToFlush (waited : TextId → Nat) (writters : List (TextId × TextWritter τ)) : Candidate :=
  writters.foldl (fun best e =>
    if e.2.textQueue = [] then best
    else if e.2.waitingSince then (best.orElse e.1).offer e.1 (waited e.1)
    else best.orElse e.1) {}

/-- Reference: `textmixerworker.cpp:554`. -/
def flushCurrent (id : TextId) (text : TextWritter τ) : TextMixerWorker τ :=
  if text.textQueue = [] then s
  else
    let len := size - maxLabelSize
    { s.mapReaders fun reader =>
        (reader.deliver text (text.textQueue.take len)).endTurn false with
      writters := SortedMap.modify id (TextWritter.remove len) s.writters }

/-- Reference: `textmixerworker.cpp:543`. -/
def flushRound (waited : TextId → Nat) : TextMixerWorker τ :=
  match s.current? with
  | none => s
  | some (id, text) =>
    let s := s.flushCurrent id text
    { s with currentWritter := (nextToFlush waited s.writters).nextCurrentParticipant }

/-- So many rounds at most, each with its own clock. -/
def flushLoop (waited : Nat → TextId → Nat) : Nat → TextMixerWorker τ → TextMixerWorker τ
  | 0, s => s
  | rounds + 1, s =>
    if s.currentWritter.isNone then s
    else flushLoop waited rounds (s.flushRound (waited rounds))

/-- How many characters are queued. -/
def queued : Nat :=
  (s.writters.map fun e => e.2.textQueue.length).sum

/-- Each round but the first one takes text out of a queue. Reference:
`textmixerworker.cpp:533`. -/
def flushText (waited : Nat → TextId → Nat) : TextMixerWorker τ :=
  flushLoop waited (s.queued + 2) s

/-! ## Runs -/

/-- What a client can ask of a worker. -/
inductive Operation (τ : Type*) where
  | addWritter (owner : τ) (id : TextId) (name : WString) (realtime : Bool)
  | writeText (id : TextId) (data : WString)
  | removeWritter (id : TextId)
  | addReader (id : TextId)
  | removeReader (id : TextId)
  | processText (waited : TextId → Nat)
  | flushText (waited : Nat → TextId → Nat)

def step : Operation τ → TextMixerWorker τ
  | .addWritter owner id name realtime => s.addWritter owner id name realtime
  | .writeText id data => s.writeText id data
  | .removeWritter id => s.removeWritter id
  | .addReader id => s.addReader id
  | .removeReader id => s.removeReader id
  | .processText waited => s.processText waited
  | .flushText waited => s.flushText waited

end TextMixerWorker

end McuMediaServer
