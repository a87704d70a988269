import McuMediaServer.WebSocket.Header

/-!
# WebSocket connections

What a connection that has been upgraded does with the data it receives and with a message that is
sent: the frames it queues and the events it reports to its listener. The socket, the thread and the
upgrade are not part of this file.
-/

namespace McuMediaServer

namespace WebSocket

open ByteSeq

/-- Reference: `websockets.h:14`. -/
inductive MessageType where
  | text
  | binary
  deriving DecidableEq, Repr

/-- What the listener of a connection is told. Reference: `websockets.h:23`. -/
inductive Event where
  | messageStart (type : MessageType) (length : Nat)
  | messageData (data : List UInt8)
  | messageEnd
  deriving DecidableEq, Repr

/-- A frame to send: `written` is what has been put into its buffer of `size` bytes. Reference:
`websocketconnection.h:223`. -/
structure Frame where
  opCode : OpCode
  written : List UInt8
  size : Nat
  headerSize : Nat
  deriving DecidableEq, Repr

namespace Frame

/-- Data that does not fit is left out. Reference: `websocketconnection.h:248`. -/
def append (f : Frame) (data : List UInt8) : Frame :=
  if f.size < (data.length + f.written.length) % 2 ^ 32 then
    f
  else
    { f with written := f.written ++ data }

/-- A frame with room for a payload of `size` bytes, a `DWORD`. Reference:
`websocketconnection.h:226`. -/
def new (fin : Bool) (opCode : OpCode) (data : Option (List UInt8)) (size : Nat) : Frame :=
  let header := WebSocketFrameHeader.new fin opCode size 0
  let f : Frame :=
    { opCode := opCode
      written := header.data
      size := (size + header.getSize) % 2 ^ 32
      headerSize := header.getSize }
  match data with
  | some data => f.append data
  | none => f

/-- What is sent of a frame: its buffer, which starts as zeros. Reference:
`websocketconnection.h:268`. -/
def getData (f : Frame) : List UInt8 :=
  (f.written ++ List.replicate (f.size - f.written.length) 0).take f.size

end Frame

/-- Reference: `websocketconnection.h:217`. -/
structure Connection where
  headerParser : Parser := {}
  header : Option WebSocketFrameHeader := none
  framePos : Nat := 0
  pong : Option Frame := none
  /-- The frames to send. -/
  frames : List Frame := []
  /-- What the listener has been told. -/
  events : List Event := []
  /-- The connection has been closed by the other side. -/
  ended : Bool := false
  deriving DecidableEq, Repr

namespace Connection

/-- Tell the listener. -/
def notify (c : Connection) (event : Event) : Connection :=
  { c with events := c.events ++ [event] }

/-- What a complete header leads to. Reference: `websocketconnection.cpp:542`. -/
def headerReceived (c : Connection) (h : WebSocketFrameHeader) : Connection :=
  match h.getOpCode with
  | .textFrame => c.notify (.messageStart .text (h.getPayloadLength % 2 ^ 32))
  | .binaryFrame => c.notify (.messageStart .binary (h.getPayloadLength % 2 ^ 32))
  | .close => { c with ended := true }
  | .ping => { c with pong := some (.new true .pong none (h.getPayloadLength % 2 ^ 32)) }
  | _ => c

/-- Parse some of a header; returns how much. Reference: `websocketconnection.cpp:527`. -/
def receiveHeader (c : Connection) (data : List UInt8) : Connection × Nat :=
  let (parser, len) := c.headerParser.parse data
  match parser.parsed? with
  | some h =>
    ({ c with headerParser := {}, framePos := 0, header := some h }.headerReceived h, len)
  | none => ({ c with headerParser := parser }, len)

/-- Unmask data from a position of the payload on. Reference: `websocketconnection.cpp:593`. -/
def unmask (h : WebSocketFrameHeader) (framePos : Nat) (data : List UInt8) : List UInt8 :=
  if h.isMasked then
    data.mapIdx fun i b => b ^^^ (be4 h.getMask).getD ((framePos + i) % 4) 0
  else
    data

/-- What data of the payload leads to. Reference: `websocketconnection.cpp:604`. -/
def payloadReceived (c : Connection) (h : WebSocketFrameHeader) (data : List UInt8) : Connection :=
  match h.getOpCode with
  | .continuationFrame | .textFrame | .binaryFrame => c.notify (.messageData data)
  | .ping => { c with pong := c.pong.map fun pong => pong.append data }
  | _ => c

/-- What the end of a frame leads to. Reference: `websocketconnection.cpp:631`. -/
def frameReceived (c : Connection) (h : WebSocketFrameHeader) : Connection :=
  match h.getOpCode with
  | .continuationFrame | .textFrame | .binaryFrame => if h.isFin then c.notify .messageEnd else c
  | .ping => { c with frames := c.frames ++ c.pong.toList, pong := none }
  | _ => c

/-- Take some of the payload; returns how much. Reference: `websocketconnection.cpp:586`. -/
def receivePayload (c : Connection) (h : WebSocketFrameHeader) (data : List UInt8) :
    Connection × Nat :=
  let len := min (h.getPayloadLength - c.framePos) data.length
  let c := c.payloadReceived h (unmask h c.framePos (data.take len))
  let c := { c with framePos := c.framePos + len }
  if c.framePos = h.getPayloadLength then
    ({ c.frameReceived h with header := none }, len)
  else
    (c, len)

/-- The loop over the data, in at most `fuel` turns. Reference: `websocketconnection.cpp:523`. -/
def processLoop : Nat → Connection → List UInt8 → Option Connection
  | _, c, [] => some c
  | 0, _, _ :: _ => none
  | fuel + 1, c, byte :: rest =>
    let data := byte :: rest
    let (c, len) :=
      match c.header with
      | none => c.receiveHeader data
      | some h => c.receivePayload h data
    processLoop fuel c (data.drop len)

/-- Each byte takes a turn at most, and so does each frame that ends. Reference:
`websocketconnection.cpp:509`. -/
def processData (c : Connection) (data : List UInt8) : Option Connection :=
  processLoop (2 * data.length + 1) c data

/-- The data of one call after the other. -/
def processChunks (c : Connection) (chunks : List (List UInt8)) : Option Connection :=
  chunks.foldlM processData c

/-- The loop that cuts a message into frames of 1300 bytes. Reference:
`websocketconnection.cpp:712`. -/
def sendFrames : Nat → OpCode → List UInt8 → List Frame
  | 0, _, _ => []
  | fuel + 1, code, data =>
    let len := min data.length 1300
    let last : Bool := len = data.length
    let frame := Frame.new last code (some (data.take len)) len
    frame :: if last then [] else sendFrames fuel .continuationFrame (data.drop len)

/-- The code of the first frame of a message. -/
def messageCode : MessageType → OpCode
  | .text => .textFrame
  | .binary => .binaryFrame

/-- Queue a message; an empty one is not sent. Reference: `websocketconnection.cpp:674`. -/
def sendMessage (c : Connection) (type : MessageType) (data : List UInt8) : Connection :=
  if data.isEmpty then
    c
  else
    { c with frames := c.frames ++ sendFrames data.length (messageCode type) data }

end Connection

end WebSocket

end McuMediaServer
