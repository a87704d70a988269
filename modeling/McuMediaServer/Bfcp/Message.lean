import Mathlib.Algebra.Ring.Nat
import Mathlib.Tactic.Common

/-!
# BFCP messages

The messages a floor control server receives and sends, with the attributes it reads and fills in,
and the events it reports to its listener. How messages are written as JSON text is not part of this
file.
-/

namespace McuMediaServer

namespace Bfcp

/-- Reference: `BFCPAttrRequestStatus.h:27`. -/
inductive RequestStatus where
  | pending
  | accepted
  | granted
  | denied
  | cancelled
  | released
  | revoked
  deriving DecidableEq, Repr

/-- Reference: `BFCPAttrErrorCode.h:15`. -/
inductive ErrorCode where
  | conferenceDoesNotExist
  | userDoesNotExist
  | unknownPrimitive
  | unknownMandatoryAttribute
  | unauthorizedOperation
  | invalidFloorId
  | floorRequestIdDoesNotExist
  | floorRequestMaxNumberReached
  | useTls
  deriving DecidableEq, Repr

/-- Reference: `BFCPMessage.h:36`. -/
inductive Primitive where
  | floorRequest
  | floorRelease
  | floorRequestQuery
  | floorRequestStatus
  | userQuery
  | userStatus
  | floorQuery
  | floorStatus
  | chairAction
  | chairActionAck
  | hello
  | helloAck
  | error
  deriving DecidableEq, Repr

/-- What all messages start with. Reference: `BFCPMessage.h:78`. -/
structure CommonHeader where
  transactionId : Int
  conferenceId : Int
  userId : Int
  deriving DecidableEq, Repr

/-- The attributes of a message a client sends. Reference: `BFCPMsgFloorRequest.h:40`,
`BFCPMsgFloorRelease.h`, `BFCPMsgFloorQuery.h`. -/
inductive RequestBody where
  | floorRequest (floorIds : List Int) (beneficiaryId : Option Int)
  | floorRelease (floorRequestId : Int)
  | floorQuery (floorIds : List Int)
  | hello
  /-- A message with a primitive the server does not process. -/
  | other (primitive : Primitive)
  deriving DecidableEq, Repr

/-- A message a client sends. -/
structure RequestMessage where
  header : CommonHeader
  body : RequestBody
  deriving DecidableEq, Repr

/-- The status of a request for one floor. Reference: `BFCPAttrFloorRequestStatus.h`. -/
structure FloorRequestStatus where
  floorId : Int
  status : RequestStatus
  queuePosition : Int
  deriving DecidableEq, Repr

/-- The status of a request as a whole. Reference: `BFCPAttrOverallRequestStatus.h`. -/
structure OverallRequestStatus where
  floorRequestId : Int
  status : RequestStatus
  queuePosition : Int
  statusInfo : Option String := none
  deriving DecidableEq, Repr

/-- Reference: `BFCPAttrFloorRequestInformation.h:34`. -/
structure FloorRequestInformation where
  floorRequestId : Int
  floorRequestStatuses : List FloorRequestStatus
  overallRequestStatus : OverallRequestStatus
  beneficiaryId : Int
  requestedBy : Int
  deriving DecidableEq, Repr

/-- The attributes of a message the server sends. Reference: `BFCPMsgFloorRequestStatus.h:30`,
`BFCPMsgFloorStatus.h:43`, `BFCPMsgError.h:37`. -/
inductive ReplyBody where
  | floorRequestStatus (information : FloorRequestInformation)
  | floorStatus (floorId : Option Int) (informations : List FloorRequestInformation)
  | error (errorCode : ErrorCode) (errorInfo : String)
  | hello
  deriving DecidableEq, Repr

/-- A message the server sends. -/
structure ReplyMessage where
  header : CommonHeader
  body : ReplyBody
  deriving DecidableEq, Repr

/-- Reference: `BFCPMessage.h:77`, `SetUserId`. -/
def ReplyMessage.setUserId (msg : ReplyMessage) (userId : Int) : ReplyMessage :=
  { msg with header := { msg.header with userId := userId } }

/-- Reference: `BFCPMsgFloorRequestStatus.cpp:69`, `SetDescription`, which is only called for a text
that is not empty. -/
def FloorRequestInformation.setDescription (i : FloorRequestInformation) (statusInfo : String) :
    FloorRequestInformation :=
  if statusInfo.isEmpty then
    i
  else
    { i with overallRequestStatus :=
        { i.overallRequestStatus with statusInfo := some statusInfo } }

/-- What the server does to the outside: it sends a message on a connection, closes a connection, or
calls its listener. -/
inductive Output where
  | message (transport : Nat) (message : ReplyMessage)
  | close (transport : Nat) (code : Nat) (reason : String)
  | onFloorRequest (floorRequestId userId beneficiaryId : Int) (floorIds : List Int)
  | onFloorGranted (floorRequestId beneficiaryId : Int) (floorIds : List Int)
  | onFloorReleased (floorRequestId beneficiaryId : Int) (floorIds : List Int)
  deriving DecidableEq, Repr

end Bfcp

end McuMediaServer
