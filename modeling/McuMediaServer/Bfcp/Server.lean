import McuMediaServer.Base.OrderedMap
import McuMediaServer.Base.Run
import McuMediaServer.Bfcp.FloorRequest

/-!
# The floor control server

A `BFCPFloorControlServer` handles one conference: its users, its floors and the requests for them.
The chair adds users and floors and decides the requests; the transport reports connections and
messages. Everything the server does to the outside is appended to `outputs`, in order. The listener
does not call back.
-/

namespace McuMediaServer

namespace Bfcp

open OrderedMap

/-- The floors and the requests for them. -/
structure FloorControl where
  floors : Std.TreeSet Int := {}
  floorRequests : Std.TreeMap Int FloorRequest := {}
  /-- The id of the next request. -/
  floorRequestCounter : Int := 1
  /-- The conference has ended. -/
  ending : Bool := false

/-- Reference: `BFCPFloorControlServer.h:17`. -/
structure Server extends FloorControl where
  conferenceId : Int
  users : Std.TreeMap Int User := {}
  removedUsers : List User := []
  outputs : List Output := []

namespace Server

/-- Reference: `BFCPFloorControlServer.cpp:660`, `GetUser`. -/
def getUser (s : Server) (userId : Int) : Option User :=
  s.users[userId]?

/-- Reference: `BFCPFloorControlServer.cpp:654`, `HasUser`. -/
def hasUser (s : Server) (userId : Int) : Bool :=
  (s.getUser userId).isSome

/-- Reference: `BFCPFloorControlServer.cpp:841`, `HasFloor`. -/
def hasFloor (s : Server) (floorId : Int) : Bool :=
  s.floors.contains floorId

/-- Reference: `BFCPFloorControlServer.cpp:684`, `GetFloorRequest`. -/
def getFloorRequest (s : Server) (floorRequestId : Int) : Option FloorRequest :=
  s.floorRequests[floorRequestId]?

/-- Reference: `BFCPFloorControlServer.cpp:694`, `GetFloorRequestsForFloor`. -/
def getFloorRequestsForFloor (s : Server) (floorId : Int) : List FloorRequest :=
  (values s.floorRequests).filter fun r => r.hasFloorId floorId

/-- Reference: `BFCPFloorControlServer.cpp:709`, `GetFloorRequestsForFloors`. -/
def getFloorRequestsForFloors (s : Server) (floorIds : Std.TreeSet Int) : List FloorRequest :=
  (values s.floorRequests).filter fun r => floorIds.toList.any r.hasFloorId

/-- Do something to the outside. -/
def emit (s : Server) (outputs : List Output) : Server :=
  { s with outputs := s.outputs ++ outputs }

/-- Change a user. -/
def updateUser (s : Server) (userId : Int) (f : User → User) : Server :=
  { s with users := s.users.modify userId f }

/-- Send a message to the user it is for, if there is one and he is connected. Reference:
`BFCPFloorControlServer.cpp:1104`, `SendMessage`. -/
def sendMessage (s : Server) (msg : ReplyMessage) : Server :=
  match s.getUser msg.header.userId with
  | some user => s.emit (user.transport.toList.map fun transport => .message transport msg)
  | none => s

/-- Reference: `BFCPFloorControlServer.cpp:1131`, `ReplyError`. -/
def replyError (s : Server) (header : CommonHeader) (errorCode : ErrorCode) (errorInfo : String) :
    Server :=
  s.sendMessage { header := header, body := .error errorCode errorInfo }

/-- Reference: `BFCPUser.cpp:74`, `CloseTransport`. -/
def closeTransport (s : Server) (userId : Int) (code : Nat) (reason : String) : Server :=
  match s.getUser userId with
  | some user =>
    (s.updateUser userId fun user => { user with transport := none }).emit
      (user.closeOutputs code reason)
  | none => s

/-- Tell every user who asked about a floor of a request the status of the request. The server goes
through the users in the order of their addresses, here it is that of their ids. Reference:
`BFCPFloorControlServer.cpp:731`, `NotifyForFloorRequest`. -/
def notifyForFloorRequest (s : Server) (r : FloorRequest) : Server :=
  let messages := (values s.users).flatMap fun user =>
    (r.floorIds.toList.filter user.hasQueriedFloorId).map fun floorId =>
      ({ header := { transactionId := 0, conferenceId := s.conferenceId, userId := user.userId }
         body := .floorStatus (some floorId) [r.createFloorRequestInformation] } : ReplyMessage)
  messages.foldl sendMessage s

/-- Put a request under its id. -/
def setFloorRequest (s : Server) (floorRequestId : Int) (r : FloorRequest) : Server :=
  { s with floorRequests := s.floorRequests.insert floorRequestId r }

/-- Give a request its last status, send `messages` about it, notify the users who asked about its
floors, and remove it. Reference: `BFCPFloorControlServer.cpp:286`, `:344` and `:968`. -/
def conclude (s : Server) (floorRequestId : Int) (r : FloorRequest) (messages : List ReplyMessage) :
    Server :=
  let s := s.setFloorRequest floorRequestId r
  let s := (messages.foldl sendMessage s).notifyForFloorRequest r
  { s with floorRequests := s.floorRequests.erase floorRequestId }

/-- Reference: `BFCPFloorControlServer.cpp:51`, `AddUser`. -/
def addUser (s : Server) (userId : Int) : Server × Bool :=
  if s.ending then
    (s, false)
  else if userId < 1 then
    (s, false)
  else if s.hasUser userId then
    (s, false)
  else
    let user : User := { userId := userId, conferenceId := s.conferenceId }
    ({ s with users := s.users.insert userId user }, true)

/-- Reference: `BFCPFloorControlServer.cpp:133`, `SetChair`. -/
def setChair (s : Server) (userId : Int) : Server × Bool :=
  if s.ending then
    (s, false)
  else if s.hasUser userId then
    let users := s.users.map fun _ user => { user with isChair := false }
    ({ s with users := users.modify userId fun user => { user with isChair := true } }, true)
  else
    (s, false)

/-- Reference: `BFCPFloorControlServer.cpp:163`, `AddFloor`. -/
def addFloor (s : Server) (floorId : Int) : Server × Bool :=
  if s.ending then
    (s, false)
  else if floorId < 1 then
    (s, false)
  else if s.hasFloor floorId then
    (s, false)
  else
    ({ s with floors := s.floors.insert floorId }, true)

/-- Reference: `BFCPFloorControlServer.cpp:321`, `RevokeFloorRequest`. -/
def revokeFloorRequest (s : Server) (floorRequestId : Int) (statusInfo : String := "") :
    Server × Bool :=
  match s.getFloorRequest floorRequestId with
  | none => (s, false)
  | some r =>
    if !r.isGranted then
      (s, false)
    else
      let r := r.setStatus .revoked
      let s := s.conclude floorRequestId r [r.createFloorRequestStatus 0 statusInfo]
      (if s.ending then s else
        s.emit [.onFloorReleased floorRequestId r.beneficiaryId r.floorIds.toList], true)

/-- Reference: `BFCPFloorControlServer.cpp:262`, `DenyFloorRequest`. -/
def denyFloorRequest (s : Server) (floorRequestId : Int) (statusInfo : String := "") :
    Server × Bool :=
  match s.getFloorRequest floorRequestId with
  | none => (s, false)
  | some r =>
    if !r.canBeDenied then
      (s, false)
    else
      let r := r.setStatus .denied
      (s.conclude floorRequestId r [r.createFloorRequestStatus 0 statusInfo], true)

/-- Revoke those of the requests that are granted. Reference: `BFCPFloorControlServer.cpp:206`. -/
def revokeGranted (s : Server) (requests : List FloorRequest) : Server :=
  requests.foldl (fun s r =>
    if r.isGranted then (s.revokeFloorRequest r.floorRequestId "granted to other user").1 else s) s

/-- Reference: `BFCPFloorControlServer.cpp:186`, `GrantFloorRequest`. -/
def grantFloorRequest (s : Server) (floorRequestId : Int) : Server × Bool :=
  if s.ending then
    (s, false)
  else
    match s.getFloorRequest floorRequestId with
    | none => (s, false)
    | some r =>
      if !r.canBeGranted then
        (s, false)
      else
        let s := s.revokeGranted (s.getFloorRequestsForFloors r.floorIds)
        let r := r.setStatus .granted
        let s := s.setFloorRequest floorRequestId r
        let s := s.sendMessage r.createFloorRequestStatus
        let s := s.notifyForFloorRequest r
        (s.emit [.onFloorGranted floorRequestId r.beneficiaryId r.floorIds.toList], true)

/-- The request that owns a floor, 0 if there is none. Reference: `BFCPFloorControlServer.cpp:395`,
`GetGrantedFloorRequestId`. -/
def getGrantedFloorRequestId (s : Server) (floorId : Int) : Int :=
  if s.ending then
    0
  else if !s.hasFloor floorId then
    0
  else
    match (s.getFloorRequestsForFloor floorId).find? FloorRequest.isGranted with
    | some r => r.floorRequestId
    | none => 0

/-- Revoke a request that is granted and deny one that is not. -/
def revokeOrDeny (s : Server) (r : FloorRequest) (statusInfo : String) : Server :=
  if r.isGranted then
    (s.revokeFloorRequest r.floorRequestId statusInfo).1
  else
    (s.denyFloorRequest r.floorRequestId statusInfo).1

/-- Revoke or deny the requests a user benefits from. Reference: `BFCPFloorControlServer.cpp:800`,
`RevokeUserFloorRequests`. -/
def revokeUserFloorRequests (s : Server) (userId : Int) : Server :=
  let userFloorRequests :=
    (values s.floorRequests).filterMap fun r =>
      if r.beneficiaryId = userId then some r.floorRequestId else none
  userFloorRequests.foldl (fun s floorRequestId =>
    match s.getFloorRequest floorRequestId with
    | some r => s.revokeOrDeny r "FloorRequests from this user have been revoked or denied"
    | none => s) s

/-- Reference: `BFCPFloorControlServer.cpp:87`, `RemoveUser`. -/
def removeUser (s : Server) (userId : Int) : Server × Bool :=
  if s.ending then
    (s, false)
  else
    match s.getUser userId with
    | none => (s, false)
    | some user =>
      let s := { s with users := s.users.erase userId }
      let s := s.revokeUserFloorRequests userId
      let s := s.emit (user.closeOutputs 4001 "you have been removed from the BFCP conference")
      ({ s with removedUsers := s.removedUsers ++ [{ user with transport := none }] }, true)

/-- Revoke or deny the first request until there is none left, in at most `fuel` steps. Reference:
`BFCPFloorControlServer.cpp:431`. -/
def endFloorRequests : Nat → Server → Server
  | 0, s => s
  | fuel + 1, s =>
    match first? s.floorRequests with
    | none => s
    | some (_, r) => endFloorRequests fuel (s.revokeOrDeny r "conference ended")

/-- Close the connections of all users and delete them. Reference:
`BFCPFloorControlServer.cpp:452`. -/
def endUsers (s : Server) : Server :=
  { s with users := {} }.emit
    ((values s.users).flatMap fun user => User.closeOutputs user 4000 "the BFCP conference has ended")

/-- Reference: `BFCPFloorControlServer.cpp:419`, `End`. -/
def end_ (s : Server) : Server :=
  if s.ending then
    s
  else
    let s := { s with ending := true }
    (endFloorRequests s.floorRequests.size s).endUsers

/-- Reference: `BFCPFloorControlServer.cpp:484`, `UserConnected`. -/
def userConnected (s : Server) (userId : Int) (transport : Nat) : Server × Bool :=
  if s.ending then
    (s, false)
  else
    match s.getUser userId with
    | none => (s, false)
    | some user =>
      let s :=
        if user.isConnected then
          let s := s.updateUser userId User.resetQueriedFloorIds
          let s := s.revokeUserFloorRequests userId
          s.closeTransport userId 4002 "your user has connected from somewhere else"
        else
          s
      (s.updateUser userId fun user => { user with transport := some transport }, true)

/-- Reference: `BFCPFloorControlServer.cpp:525`, `UserDisconnected`. -/
def userDisconnected (s : Server) (userId : Int) (closedByServer : Bool) : Server :=
  match s.getUser userId with
  | none => s
  | some _ =>
    if closedByServer then
      s
    else
      let s := s.updateUser userId fun user => { user with transport := none }
      let s := s.updateUser userId User.resetQueriedFloorIds
      if s.ending then s else s.revokeUserFloorRequests userId

/-- Reference: `BFCPFloorControlServer.cpp:561`, `DisconnectUser`. -/
def disconnectUser (s : Server) (userId : Int) (code : Nat) (reason : String) : Server :=
  if s.ending then
    s
  else
    match s.getUser userId with
    | none => s
    | some _ =>
      let s := s.updateUser userId User.resetQueriedFloorIds
      let s := s.revokeUserFloorRequests userId
      s.closeTransport userId code reason

/-- The next number of a 32-bit counter. -/
def nextCounter (n : Int) : Int :=
  (n + 1).bmod (2 ^ 32)

/-- Reference: `BFCPFloorControlServer.cpp:847`, `ProcessFloorRequest`. -/
def processFloorRequest (s : Server) (header : CommonHeader) (floorIds : List Int)
    (beneficiaryId : Option Int) (user : User) : Server :=
  if !floorIds.all s.hasFloor then
    s.replyError header .invalidFloorId "requested floor does not exist"
  else if !beneficiaryId.all s.hasUser then
    s.replyError header .userDoesNotExist "beneficiary does not exist"
  else
    let floorRequestId := s.floorRequestCounter
    let s := { s with floorRequestCounter := nextCounter floorRequestId }
    let r := FloorRequest.new floorRequestId header.userId s.conferenceId
    let r := { r with beneficiaryId := beneficiaryId.getD r.beneficiaryId }
    let r := floorIds.foldl FloorRequest.addFloorId r
    let s := s.setFloorRequest floorRequestId r
    let s := s.sendMessage (r.createFloorRequestStatus header.transactionId)
    if user.isChair then
      (s.grantFloorRequest floorRequestId).1
    else
      s.emit [.onFloorRequest floorRequestId r.userId r.beneficiaryId r.floorIds.toList]

/-- The status a request gets when it is released by a user, if it can be released. Reference:
`BFCPFloorControlServer.cpp:935`. -/
def releaseStatus (r : FloorRequest) (floorReleaseSender : Int) : Option RequestStatus :=
  if !r.isGranted && r.canBeCancelled then
    some .cancelled
  else if r.isGranted then
    if floorReleaseSender = r.beneficiaryId then some .released else some .revoked
  else
    none

/-- Reference: `BFCPFloorControlServer.cpp:907`, `ProcessFloorRelease`. -/
def processFloorRelease (s : Server) (header : CommonHeader) (floorRequestId : Int) (user : User) :
    Server :=
  match s.getFloorRequest floorRequestId with
  | none => s.replyError header .floorRequestIdDoesNotExist "FloorRequest does not exist"
  | some r =>
    if user.userId ≠ r.userId ∧ user.userId ≠ r.beneficiaryId ∧ !user.isChair then
      s.replyError header .unauthorizedOperation "you cannot release that FloorRequest"
    else
      match releaseStatus r user.userId with
      | none =>
        s.replyError header .unauthorizedOperation
          "cannot release or cancel the FloorRequest due to its current status"
      | some status =>
        let released := r.setStatus status
        let reply := (released.createFloorRequestStatus header.transactionId).setUserId user.userId
        let notification := released.createFloorRequestStatus.setUserId r.userId
        let messages := if user.userId ≠ r.userId then [reply, notification] else [reply]
        let s := s.conclude floorRequestId released messages
        if r.isGranted then
          s.emit [.onFloorReleased floorRequestId r.beneficiaryId r.floorIds.toList]
        else
          s

/-- Reference: `BFCPFloorControlServer.cpp:1026`, `ProcessFloorQuery`. -/
def processFloorQuery (s : Server) (header : CommonHeader) (floorIds : List Int) : Server :=
  if !floorIds.all s.hasFloor then
    s.replyError header .invalidFloorId "requested floor does not exist"
  else
    let s := s.updateUser header.userId fun user =>
      floorIds.foldl User.addQueriedFloorId user.resetQueriedFloorIds
    let queriedFloorIds := ((s.getUser header.userId).map User.queriedFloorIds).getD []
    if queriedFloorIds.isEmpty then
      s.sendMessage
        { header := { header with conferenceId := s.conferenceId }, body := .floorStatus none [] }
    else
      -- The first status answers the query, the others are notifications
      queriedFloorIds.zipIdx.foldl (fun s (floorId, i) =>
        s.sendMessage
          { header :=
              { transactionId := if i = 0 then header.transactionId else 0
                conferenceId := s.conferenceId
                userId := header.userId }
            body := .floorStatus (some floorId)
              ((s.getFloorRequestsForFloor floorId).map FloorRequest.createFloorRequestInformation)
          }) s

/-- Reference: `BFCPFloorControlServer.cpp:1097`, `ProcessHello`. -/
def processHello (s : Server) (header : CommonHeader) : Server :=
  s.sendMessage { header := header, body := .hello }

/-- Reference: `BFCPFloorControlServer.cpp:596`, `MessageReceived`. -/
def messageReceived (s : Server) (msg : RequestMessage) : Server :=
  if s.ending then
    s
  else
    match s.getUser msg.header.userId with
    | none => s.replyError msg.header .userDoesNotExist "user does not exist"
    | some user =>
      match msg.body with
      | .floorRequest floorIds beneficiaryId =>
        s.processFloorRequest msg.header floorIds beneficiaryId user
      | .floorRelease floorRequestId => s.processFloorRelease msg.header floorRequestId user
      | .floorQuery floorIds => s.processFloorQuery msg.header floorIds
      | .hello => s.processHello msg.header
      | .other _ =>
        s.replyError msg.header .unknownPrimitive "unknown or unsupported primitive"

end Server

/-- What the chair and the transport do with a server. Reference: `BFCPFloorControlServer.h:76`. -/
inductive Action where
  | addUser (userId : Int)
  | removeUser (userId : Int)
  | setChair (userId : Int)
  | addFloor (floorId : Int)
  | grantFloorRequest (floorRequestId : Int)
  | denyFloorRequest (floorRequestId : Int) (statusInfo : String)
  | revokeFloorRequest (floorRequestId : Int) (statusInfo : String)
  | end_
  | userConnected (userId : Int) (transport : Nat)
  | userDisconnected (userId : Int) (closedByServer : Bool)
  | disconnectUser (userId : Int) (code : Nat) (reason : String)
  | messageReceived (msg : RequestMessage)

namespace Server

def step (s : Server) : Action → Server
  | .addUser userId => (s.addUser userId).1
  | .removeUser userId => (s.removeUser userId).1
  | .setChair userId => (s.setChair userId).1
  | .addFloor floorId => (s.addFloor floorId).1
  | .grantFloorRequest floorRequestId => (s.grantFloorRequest floorRequestId).1
  | .denyFloorRequest floorRequestId statusInfo => (s.denyFloorRequest floorRequestId statusInfo).1
  | .revokeFloorRequest floorRequestId statusInfo =>
    (s.revokeFloorRequest floorRequestId statusInfo).1
  | .end_ => s.end_
  | .userConnected userId transport => (s.userConnected userId transport).1
  | .userDisconnected userId closedByServer => s.userDisconnected userId closedByServer
  | .disconnectUser userId code reason => s.disconnectUser userId code reason
  | .messageReceived msg => s.messageReceived msg

/-- A server with no users and no floors. Reference: `BFCPFloorControlServer.cpp:8`. -/
def new (conferenceId : Int) : Server where
  conferenceId := conferenceId

end Server

end Bfcp

end McuMediaServer
