import McuMediaServer.Bfcp.Message
import Std.Data.TreeSet

/-!
# Floor requests and users

The two objects a floor control server keeps: the requests for floors, each with the status it is
in, and the users, each with the connection it is reached by and the floors it asked to be told
about.
-/

namespace McuMediaServer

namespace Bfcp

/-- A request for a set of floors. Reference: `BFCPFloorRequest.h:48`. -/
structure FloorRequest where
  floorRequestId : Int
  userId : Int
  conferenceId : Int
  beneficiaryId : Int
  floorIds : Std.TreeSet Int
  status : RequestStatus
  queuePosition : Int

namespace FloorRequest

/-- A request is for its user until it is given another beneficiary. Reference:
`BFCPFloorRequest.cpp:14`. -/
def new (floorRequestId userId conferenceId : Int) : FloorRequest where
  floorRequestId := floorRequestId
  userId := userId
  conferenceId := conferenceId
  beneficiaryId := userId
  floorIds := {}
  status := .pending
  queuePosition := 0

/-- Reference: `BFCPFloorRequest.cpp:31`, `AddFloorId`. -/
def addFloorId (r : FloorRequest) (floorId : Int) : FloorRequest :=
  { r with floorIds := r.floorIds.insert floorId }

/-- Reference: `BFCPFloorRequest.cpp:37`, `SetStatus`. -/
def setStatus (r : FloorRequest) (status : RequestStatus) : FloorRequest :=
  { r with status := status }

/-- Reference: `BFCPFloorRequest.cpp:49`, `HasFloorId`. -/
def hasFloorId (r : FloorRequest) (floorId : Int) : Bool :=
  r.floorIds.contains floorId

/-- Reference: `BFCPFloorRequest.cpp:91`, `IsGranted`. -/
def isGranted (r : FloorRequest) : Bool :=
  r.status = .granted

/-- The statuses from which a request is granted, denied or cancelled. -/
def isUndecided (r : FloorRequest) : Bool :=
  r.status = .pending || r.status = .accepted

/-- Reference: `BFCPFloorRequest.cpp:97`, `CanBeGranted`. -/
def canBeGranted (r : FloorRequest) : Bool :=
  r.isUndecided

/-- Reference: `BFCPFloorRequest.cpp:112`, `CanBeDenied`. -/
def canBeDenied (r : FloorRequest) : Bool :=
  r.isUndecided

/-- Reference: `BFCPFloorRequest.cpp:127`, `CanBeCancelled`. -/
def canBeCancelled (r : FloorRequest) : Bool :=
  r.isUndecided

/-- Reference: `BFCPFloorRequest.cpp:186`, `CreateFloorRequestInformation`. -/
def createFloorRequestInformation (r : FloorRequest) : FloorRequestInformation where
  floorRequestId := r.floorRequestId
  floorRequestStatuses := r.floorIds.toList.map fun floorId =>
    { floorId := floorId, status := r.status, queuePosition := r.queuePosition }
  overallRequestStatus :=
    { floorRequestId := r.floorRequestId, status := r.status, queuePosition := r.queuePosition }
  beneficiaryId := r.beneficiaryId
  requestedBy := r.userId

/-- Reference: `BFCPFloorRequest.cpp:165`, `CreateFloorRequestStatus`. A notification has
transaction 0. -/
def createFloorRequestStatus (r : FloorRequest) (transactionId : Int := 0)
    (statusInfo : String := "") : ReplyMessage where
  header := { transactionId := transactionId, conferenceId := r.conferenceId, userId := r.userId }
  body := .floorRequestStatus (r.createFloorRequestInformation.setDescription statusInfo)

@[simp]
theorem isGranted_iff {r : FloorRequest} : r.isGranted = true ↔ r.status = .granted := by
  simp only [isGranted, decide_eq_true_eq]

@[simp]
theorem isUndecided_iff {r : FloorRequest} :
    r.isUndecided = true ↔ r.status = .pending ∨ r.status = .accepted := by
  simp only [isUndecided, Bool.or_eq_true, decide_eq_true_eq]

end FloorRequest

/-- A user of a conference. Reference: `BFCPUser.h:33`. -/
structure User where
  userId : Int
  conferenceId : Int
  isChair : Bool := false
  /-- The connection of the user. -/
  transport : Option Nat := none
  /-- The floors of the last query of the user. -/
  queriedFloorIds : List Int := []
  deriving DecidableEq, Repr

namespace User

/-- Reference: `BFCPUser.cpp:97`, `IsConnected`. -/
def isConnected (u : User) : Bool :=
  u.transport.isSome

/-- Reference: `BFCPUser.cpp:132`, `AddQueriedFloorId`. -/
def addQueriedFloorId (u : User) (floorId : Int) : User :=
  if floorId ∈ u.queriedFloorIds then
    u
  else
    { u with queriedFloorIds := u.queriedFloorIds ++ [floorId] }

/-- Reference: `BFCPUser.cpp:126`, `ResetQueriedFloorIds`. -/
def resetQueriedFloorIds (u : User) : User :=
  { u with queriedFloorIds := [] }

/-- Reference: `BFCPUser.cpp:148`, `HasQueriedFloorId`. -/
def hasQueriedFloorId (u : User) (floorId : Int) : Bool :=
  floorId ∈ u.queriedFloorIds

/-- What closing the connection of a user does to the outside. Reference: `BFCPUser.cpp:74`,
`CloseTransport`. -/
def closeOutputs (u : User) (code : Nat) (reason : String) : List Output :=
  u.transport.toList.map fun transport => .close transport code reason

end User

end Bfcp

end McuMediaServer
