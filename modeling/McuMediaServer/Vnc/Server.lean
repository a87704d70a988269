import Mathlib.Data.Finset.Lattice.Fold
import Mathlib.Data.Finset.Max
import Mathlib.Data.Finset.Prod
import Mathlib.Order.Interval.Finset.Nat
import McuMediaServer.Base.Run
import McuMediaServer.Base.SortedMap
import McuMediaServer.Vnc.FrameBuffer

/-!
# The VNC server

The picture of a presenter is shown to the participants that have connected to the server. One of
them may be the editor, whose keys and clicks go back to the presenter, and one may be the only one
to view the picture. Each client has a thread that waits until it is signalled, and then sends what
has been modified since and has been asked for. A signal only lets a thread go round; since a thread
that waits may also wake up without one, a round may happen at any time here.
-/

namespace McuMediaServer

namespace Vnc

open SortedMap

/-! ## Regions -/

/-- Places in the picture. Reference: `rfbregion.h`. -/
abbrev Region := Finset (Nat × Nat)

/-- Reference: `rfbregion.c`, `sraRgnCreateRect`. -/
def rect (x1 y1 x2 y2 : Nat) : Region :=
  Finset.Ico x1 x2 ×ˢ Finset.Ico y1 y2

/-- Reference: `rfbregion.c`, `sraRgnBBox`. -/
def bbox (region : Region) : Region :=
  if h : region.Nonempty then
    Finset.Icc ((region.image Prod.fst).min' (h.image _)) ((region.image Prod.fst).max' (h.image _))
      ×ˢ Finset.Icc ((region.image Prod.snd).min' (h.image _))
        ((region.image Prod.snd).max' (h.image _))
  else ∅

/-! ## Clients -/

/-- What a client sends. The messages up to the initialisation are one. Reference:
`rfbserver.c:614`. -/
inductive Message where
  | initialise
  | setEncodings (newFBSize cursorShape : Bool)
  | framebufferUpdateRequest (incremental : Bool) (x y w h : Nat)
  | keyEvent (down : Bool) (key : UInt32)
  | pointerEvent (buttonMask : UInt8) (x y : UInt16)
  deriving DecidableEq, Repr

/-- Reference: `VNCServer.h:45` and `rfb.h:490`. -/
structure Client where
  ws : Nat
  buffer : List Message := []
  viewOnly : Bool := true
  reset : Bool := false
  freeze : Bool := false
  normal : Bool := false
  useNewFBSize : Bool := false
  newFBSizePending : Bool := false
  cursorWasChanged : Bool := false
  modifiedRegion : Region
  requestedRegion : Region := ∅

/-- What goes out: an event to the listener, or a message to a client. -/
inductive Output where
  | onKeyboardEvent (client : Int) (down : Bool) (key : UInt32)
  | onMouseEvent (client : Int) (buttonMask : UInt8) (x y : UInt16)
  | reset (client : Int)
  | newFBSize (client : Int) (width height : Nat)
  | framebufferUpdate (client : Int) (region : Region)

/-- The id of a participant: 0 stands for nobody, and the participants of a conference are numbered
from 500 on. Reference: `multiconf.cpp:34`. -/
abbrev ParticipantId := {id : Int // 0 < id}

/-- The server, with the clients under their ids. Of the picture there is its size. Each connection
comes on a socket of its own. Reference: `VNCServer.h:22`. -/
structure VNCServer where
  listener : Bool
  editorId : Int := 0
  viewerId : Int := 0
  width : Nat := 0
  height : Nat := 0
  clients : List (Int × Client) := []
  sockets : Nat := 0

namespace Client

/-- Reference: `VNCServer.cpp:1226`. -/
def setReset (client : Client) : Client :=
  { client with reset := true }

/-- Reference: `VNCServer.cpp:1213`. -/
def resizeScreen (client : Client) : Client :=
  { client with newFBSizePending := true }

/-- Reference: `VNCServer.cpp:1234`. -/
def setViewOnly (viewOnly : Bool) (client : Client) : Client :=
  { client with viewOnly }

/-- Reference: `server.c:394`, `rfbMarkRegionAsModified`. -/
def mark (region : Region) (client : Client) : Client :=
  { client with modifiedRegion := client.modifiedRegion ∪ region }

/-- Something is to be sent. Reference: `rfb.h:705`, `FB_UPDATE_PENDING`. -/
def UpdatePending (client : Client) : Prop :=
  client.cursorWasChanged ∨ (client.useNewFBSize ∧ client.newFBSizePending) ∨
    client.modifiedRegion ≠ ∅

instance decidableUpdatePending (client : Client) : Decidable client.UpdatePending :=
  inferInstanceAs (Decidable (_ ∨ (_ ∧ _) ∨ _ ≠ _))

/-- The part of the picture that is to be sent: what has been modified, unless the client is frozen,
as far as it has been asked for. Reference: `VNCServer.cpp:1133` and `rfbserver.c:2718`. -/
def updateRegion (client : Client) : Region :=
  (if client.freeze then ∅ else client.modifiedRegion) ∩ client.requestedRegion

/-- What is sent of a picture: when the region takes too many rectangles, its bounding box.
Reference: `rfbserver.c:2893`. -/
def sentRegion (client : Client) (tooMany : Bool) : Region :=
  if tooMany then bbox client.updateRegion else client.updateRegion

/-- The update of a client, behind whose modified region nothing is left. Reference:
`rfbserver.c:2570`, `rfbSendFramebufferUpdate`. -/
def sendFramebufferUpdate (client : Client) (id : Int) (width height : Nat) (tooMany : Bool) :
    Client × List Output :=
  if client.useNewFBSize ∧ client.newFBSizePending then
    ({ client with newFBSizePending := false, modifiedRegion := ∅ }, [.newFBSize id width height])
  else if client.updateRegion = ∅ ∧ ¬ client.cursorWasChanged then
    ({ client with modifiedRegion := ∅ }, [])
  else
    ({ client with cursorWasChanged := false, modifiedRegion := ∅, requestedRegion := ∅ },
      [.framebufferUpdate id (client.sentRegion tooMany)])

/-- A round of the thread of a client. Reference: `VNCServer.cpp:1094`. -/
def run (client : Client) (id : Int) (width height : Nat) (tooMany : Bool) :
    Client × List Output :=
  if client.normal ∧ client.requestedRegion ≠ ∅ then
    let resets := if client.reset then [Output.reset id] else []
    let client := { client with reset := false }
    if client.UpdatePending then
      let sent := client.sendFramebufferUpdate id width height tooMany
      (sent.1, resets ++ sent.2)
    else
      (client, resets)
  else
    (client, [])

/-- A request for a rectangle, as far as it is in the picture. Reference: `rfbserver.c:839` and
`rfbserver.c:2231`. -/
def request (client : Client) (width height : Nat) (incremental : Bool) (x y w h : Nat) : Client :=
  if width < x ∨ height < y then client
  else
    let region := rect x y (min (x + w) width) (min (y + h) height)
    { client with
      requestedRegion := client.requestedRegion ∪ region
      modifiedRegion :=
        if incremental then client.modifiedRegion else client.modifiedRegion ∪ region }

section Outputs

variable {client : Client} {id : Int} {width height : Nat} {tooMany : Bool}

theorem mem_sendFramebufferUpdate {output : Output}
    (h : output ∈ (client.sendFramebufferUpdate id width height tooMany).2) :
    output = .newFBSize id width height ∨
      output = .framebufferUpdate id (client.sentRegion tooMany) := by
  rw [sendFramebufferUpdate] at h
  split_ifs at h
  · exact .inl (List.mem_singleton.1 h)
  · cases h
  · exact .inr (List.mem_singleton.1 h)

theorem mem_run {output : Output} (h : output ∈ (client.run id width height tooMany).2) :
    output = .reset id ∨ output = .newFBSize id width height ∨
      output = .framebufferUpdate id (client.sentRegion tooMany) := by
  have hresets (hmem : output ∈ if client.reset then [Output.reset id] else []) :
      output = .reset id := by
    split at hmem
    · exact List.mem_singleton.1 hmem
    · cases hmem
  rw [run] at h
  split at h
  · dsimp only at h
    split at h
    · rcases List.mem_append.1 h with hreset | hsent
      · exact .inl (hresets hreset)
      · rcases mem_sendFramebufferUpdate hsent with rfl | rfl
        · exact .inr (.inl rfl)
        · exact .inr (.inr rfl)
    · exact .inl (hresets h)
  · cases h

end Outputs

end Client

namespace VNCServer

/-- A message of a client. An event is passed on if the client is not view-only, and after another
look at who the editor is. The pointer client is never set. Reference: `rfbserver.c:1876` and
`VNCServer.cpp:617`. -/
def processClientMessage (s : VNCServer) (id : Int) (client : Client) :
    Message → Client × List Output
  | .initialise => ({ client with normal := true }, [])
  | .setEncodings newFBSize cursorShape =>
    if client.normal then
      ({ client with useNewFBSize := newFBSize, cursorWasChanged := cursorShape }, [])
    else (client, [])
  | .framebufferUpdateRequest incremental x y w h =>
    if client.normal then (client.request s.width s.height incremental x y w h, [])
    else (client, [])
  | .keyEvent down key =>
    (client, if client.normal ∧ ¬ client.viewOnly ∧ s.editorId = id ∧ s.listener then
      [.onKeyboardEvent id down key] else [])
  | .pointerEvent buttonMask x y =>
    (client, if client.normal ∧ ¬ client.viewOnly ∧ s.editorId = id ∧ s.listener then
      [.onMouseEvent id buttonMask x y] else [])

/-- The messages that have arrived. Reference: `VNCServer.cpp:1083`. -/
def processMessage (s : VNCServer) (id : Int) (client : Client) : Client × List Output :=
  client.buffer.foldl (fun (client, outputs) message =>
    let processed := s.processClientMessage id client message
    (processed.1, outputs ++ processed.2)) ({ client with buffer := [] }, [])

/-- The client that has been set as the data of a socket. -/
def clientOf (s : VNCServer) (ws : Nat) : Option (Int × Client) :=
  s.clients.find? fun e => e.2.ws = ws

/-- Clients are changed, each by its id. -/
def mapClients (s : VNCServer) (f : Int → Client → Client) : VNCServer :=
  { s with clients := s.clients.map fun e => (e.1, f e.1 e.2) }

/-- Reference: `VNCServer.cpp:248`. -/
def setViewer (s : VNCServer) (viewerId : Int) : VNCServer :=
  let s' :=
    if viewerId ≠ 0 then
      s.mapClients fun id client => if id ≠ viewerId then client.setReset else client
    else if s.viewerId ≠ 0 then
      s.mapClients fun id client => if id ≠ s.viewerId then client.resizeScreen else client
    else s
  { s' with viewerId }

/-- Reference: `VNCServer.cpp:287`. -/
def setEditor (s : VNCServer) (editorId : Int) : VNCServer :=
  let old :=
    if s.editorId ≠ 0 then modify s.editorId (Client.setViewOnly true) s.clients else s.clients
  { s with editorId, clients := modify editorId (Client.setViewOnly false) old }

/-- A client that was there under the same id is closed and deleted. Reference:
`VNCServer.cpp:342`. -/
def connect (s : VNCServer) (partId : ParticipantId) (freeze : Bool) : VNCServer :=
  let client : Client :=
    { ws := s.sockets
      viewOnly := partId.1 ≠ s.editorId
      freeze
      modifiedRegion := rect 0 0 s.width s.height }
  { s with clients := set partId.1 client s.clients, sockets := s.sockets + 1 }

/-- Reference: `VNCServer.cpp:391`. -/
def disconnect (s : VNCServer) (ws : Nat) : VNCServer :=
  match s.clientOf ws with
  | none => s
  | some (id, _) => { s with clients := s.clients.filter fun e => e.1 ≠ id }

/-- Reference: `VNCServer.cpp:427`. -/
def reset (s : VNCServer) : VNCServer :=
  { s.mapClients fun _ client => client.setReset with width := 0, height := 0 }

/-- A client that is told about the picture: any, or the viewer if there is one. Reference:
`VNCServer.cpp:509`. -/
def Told (s : VNCServer) (id : Int) : Prop :=
  s.viewerId = 0 ∨ id = s.viewerId

instance decidableTold (s : VNCServer) (id : Int) : Decidable (s.Told id) :=
  inferInstanceAs (Decidable (_ ∨ _))

/-- Reference: `VNCServer.cpp:457`. -/
def setSize (s : VNCServer) (width height : Nat) : VNCServer :=
  if maxSize < width * height ∨ (width = s.width ∧ height = s.height) then s
  else
    { s.mapClients fun id client => if s.Told id then client.resizeScreen else client with
      width, height }

/-- A rectangle of the picture has changed: this is marked for all clients, and all are signalled.
Reference: `server.c:411`, `rfbMarkRectAsModified`. -/
def markRectAsModified (s : VNCServer) (x y w h : Nat) : VNCServer :=
  s.mapClients fun _ => Client.mark (rect x y (min (x + w) s.width) (min (y + h) s.height))

/-- What the server is asked from outside, and the rounds of the threads. `frameBufferUpdateDone`
and `onWriteBufferEmpty` only signal a thread. -/
inductive Input where
  | setViewer (viewerId : Int)
  | setEditor (editorId : Int)
  | connect (partId : ParticipantId) (freeze : Bool)
  | disconnect (ws : Nat)
  | reset
  | setSize (width height : Nat)
  | frameBufferUpdate (x y width height : Nat)
  | copyRect (destX destY width height : Nat)
  | frameBufferUpdateDone
  | onWriteBufferEmpty (ws : Nat)
  | onMessageData (ws : Nat) (data : List Message)
  | onMessageEnd (ws : Nat)
  | run (id : Int) (tooMany : Bool)

/-- The server after an input, and what goes out. -/
def step (s : VNCServer) : Input → VNCServer × List Output
  | .setViewer viewerId => (s.setViewer viewerId, [])
  | .setEditor editorId => (s.setEditor editorId, [])
  | .connect partId freeze => (s.connect partId freeze, [])
  | .disconnect ws => (s.disconnect ws, [])
  | .reset => (s.reset, [])
  | .setSize width height => (s.setSize width height, [])
  | .frameBufferUpdate x y width height => (s.markRectAsModified x y width height, [])
  | .copyRect destX destY width height => (s.markRectAsModified destX destY width height, [])
  | .frameBufferUpdateDone => (s, [])
  | .onWriteBufferEmpty _ => (s, [])
  | .onMessageData ws data =>
    match s.clientOf ws with
    | none => (s, [])
    | some (id, client) =>
      ({ s with clients := set id { client with buffer := client.buffer ++ data } s.clients }, [])
  | .onMessageEnd ws =>
    match s.clientOf ws with
    | none => (s, [])
    | some (id, client) =>
      let processed := s.processMessage id client
      ({ s with clients := set id processed.1 s.clients }, processed.2)
  | .run id tooMany =>
    match get? id s.clients with
    | none => (s, [])
    | some client =>
      let ran := client.run id s.width s.height tooMany
      ({ s with clients := set id ran.1 s.clients }, ran.2)

/-- The server after some inputs. -/
def after (listener : Bool) (inputs : List Input) : VNCServer :=
  StepRun.run (fun s input => (s.step input).1) { listener } inputs

end VNCServer

end Vnc

end McuMediaServer
