import Machbus.Common.OrderedMap
import Machbus.Net.Model.Frame
/-!
# TIM function assignment

The server's table of which client commands which function. A function is
assigned to one client at a time, to one that is authenticated, and for as
long as its status messages keep coming.
-/

namespace Machbus.Tim

inductive TimFunctionId
  | auxValveSuperset
  | auxValve (n : UInt8)
  | frontPto
  | rearPto
  | frontHitch
  | rearHitch
  | vehicleSpeed
  | externalGuidance
  deriving DecidableEq, Repr

/-! ## Heartbeat -/

inductive HeartbeatCounter
  | count (n : UInt8)
  | reset
  | senderError
  | gracefulShutdown
  deriving DecidableEq, Repr

namespace HeartbeatCounter

def heartbeatRollover : ℕ := 0xFA

/-- Continuity of the count only, in `u16`. -/
def follows : HeartbeatCounter → HeartbeatCounter → Bool
  | count now, count before =>
    let span := heartbeatRollover + 1
    let delta := (now.toNat + span + 2 ^ 16 - before.toNat) % 2 ^ 16 % span
    decide (1 ≤ delta ∧ delta ≤ 3)
  | _, _ => true

def isSevereCommsError (c : HeartbeatCounter) : Bool := c == senderError

def isGracefulShutdownEdge (c previous : HeartbeatCounter) : Bool :=
  c == gracefulShutdown && previous != gracefulShutdown

end HeartbeatCounter

/-! ## Requests -/

inductive RequestType
  | release
  | assign
  | error
  | dontCare
  deriving DecidableEq, Repr

inductive AssignmentStatus
  | notAssignedToRequester
  | assignedToRequester
  | notSuccessful
  | error
  | notAvailable
  deriving DecidableEq, Repr

inductive AssignmentReason
  | allClear
  | functionNotSupported
  | functionNotAvailable
  | unknownRequestType
  | errorInRequestMessage
  | clientNotCertified
  | serverBusy
  | noMatchingFacility
  | anyOtherError
  | notAvailable
  deriving DecidableEq, Repr

abbrev AssignmentRequest := List (TimFunctionId × RequestType)
abbrev AssignmentResponse := List (TimFunctionId × AssignmentStatus × AssignmentReason)

def clientStatusTimeoutMs : ℕ := 300

/-! ## Table -/

structure AssignmentTable where
  owners : List (TimFunctionId × Address) := []
  supported : List TimFunctionId
  busy : Bool := false
  /-- The time since the last status message of a client. -/
  liveness : List (Address × ℕ) := []
  authenticated : List Address := []
  deriving DecidableEq, Repr

namespace AssignmentTable

def new (supported : List TimFunctionId) : AssignmentTable := { supported }

variable (t : AssignmentTable) (client : Address)

def noteClientStatus : AssignmentTable :=
  { t with liveness :=
      if t.liveness.any (·.1 == client) then
        modifyFirst (·.1 == client) (fun e => (e.1, 0)) t.liveness
      else t.liveness ++ [(client, 0)] }

def releaseAll : AssignmentTable :=
  { t with owners := t.owners.filter (·.2 != client) }

/-- No longer on the watchdog. -/
def unwatch : AssignmentTable :=
  { t with liveness := t.liveness.filter (·.1 != client) }

def noteClientHeartbeatError : AssignmentTable := (t.releaseAll client).unwatch client

/-- With whether the client's functions were released. -/
def noteClientHeartbeat (counter previous : HeartbeatCounter) : AssignmentTable × Bool :=
  if counter.isSevereCommsError ∨ ¬counter.follows previous then
    (t.noteClientHeartbeatError client, true)
  else if counter.isGracefulShutdownEdge previous then ((t.releaseAll client).unwatch client, true)
  else (t.noteClientStatus client, false)

/-- With the clients that have been silent for too long. -/
def tick (elapsedMs : ℕ) : AssignmentTable × List Address :=
  let liveness := t.liveness.map fun e => (e.1, satAdd32 e.2 elapsedMs)
  let released := (liveness.filter fun e => decide (clientStatusTimeoutMs ≤ e.2)).map (·.1)
  ({ t with
      owners := t.owners.filter fun e => !released.contains e.2
      liveness := liveness.filter fun e => !released.contains e.1 }, released)

def setAuthenticated (authenticated : Bool) : AssignmentTable :=
  if authenticated then
    if t.authenticated.contains client then t
    else { t with authenticated := t.authenticated ++ [client] }
  else releaseAll { t with authenticated := t.authenticated.filter (· != client) } client

def isAuthenticated : Bool := t.authenticated.contains client

variable (function : TimFunctionId)

def owner : Option Address :=
  (t.owners.find? (·.1 == function)).map (·.2)

def isAssignedTo (client : Address) : Bool :=
  t.owner function == some client

def setBusy (busy : Bool) : AssignmentTable := { t with busy }

/-- A function that nobody has. Whoever holds one is on the watchdog from
the moment it holds it. -/
def assign (client : Address) : AssignmentTable :=
  noteClientStatus { t with owners := t.owners ++ [(function, client)] } client

/-- One entry of a request. -/
def applyEntry (requestType : RequestType) :
    AssignmentTable × AssignmentStatus × AssignmentReason :=
  if t.busy then (t, .notSuccessful, .serverBusy)
  else if ¬t.supported.contains function then (t, .notSuccessful, .functionNotSupported)
  else if ¬t.isAuthenticated client ∧ requestType ≠ .release then
    (t, .notSuccessful, .clientNotCertified)
  else
    match requestType with
    | .assign =>
      match t.owner function with
      | some owner =>
        if owner = client then (t, .assignedToRequester, .allClear)
        else (t, .notSuccessful, .functionNotAvailable)
      | none => (t.assign function client, .assignedToRequester, .allClear)
    | .release =>
      (if t.owner function = some client then
          { t with owners := t.owners.filter (·.1 != function) }
        else t, .notAssignedToRequester, .allClear)
    | .dontCare =>
      (t, if t.isAssignedTo function client then .assignedToRequester
        else .notAssignedToRequester, .allClear)
    | .error => (t, .notSuccessful, .unknownRequestType)

/-- Entry by entry, each on what the ones before it left. -/
def apply (client : Address) : AssignmentRequest → AssignmentTable →
    AssignmentTable × AssignmentResponse
  | [], t => (t, [])
  | (function, requestType) :: request, t =>
    let r := t.applyEntry client function requestType
    let rest := apply client request r.1
    (rest.1, (function, r.2) :: rest.2)

end AssignmentTable

/-! ## Runs -/

/-- What is done with a table. -/
inductive AssignmentOp
  | apply (request : AssignmentRequest) (client : Address)
  | noteClientStatus (client : Address)
  | noteClientHeartbeat (client : Address) (counter previous : HeartbeatCounter)
  | noteClientHeartbeatError (client : Address)
  | tick (elapsedMs : ℕ)
  | setAuthenticated (client : Address) (authenticated : Bool)
  | setBusy (busy : Bool)
  | releaseAll (client : Address)

/-- The client on whose behalf something is done. -/
def AssignmentOp.client : AssignmentOp → Option Address
  | .apply _ client | .noteClientStatus client | .noteClientHeartbeat client _ _
  | .noteClientHeartbeatError client | .setAuthenticated client _
  | .releaseAll client => some client
  | .tick _ | .setBusy _ => none

namespace AssignmentTable

def step (t : AssignmentTable) : AssignmentOp → AssignmentTable
  | .apply request client => (apply client request t).1
  | .noteClientStatus client => t.noteClientStatus client
  | .noteClientHeartbeat client counter previous =>
    (t.noteClientHeartbeat client counter previous).1
  | .noteClientHeartbeatError client => t.noteClientHeartbeatError client
  | .tick elapsedMs => (t.tick elapsedMs).1
  | .setAuthenticated client authenticated => t.setAuthenticated client authenticated
  | .setBusy busy => t.setBusy busy
  | .releaseAll client => t.releaseAll client

end AssignmentTable

end Machbus.Tim
