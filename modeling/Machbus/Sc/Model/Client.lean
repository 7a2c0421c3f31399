import Machbus.Sc.Model.Master
import Machbus.Common.Link
import Machbus.Common.Run
/-!
# Sequence control — client

A client follows the master's state, tells its own, and takes a master
that is silent for an abort. It leaves an abort only when the master
says that it is ready again, or inactive. One master and one client are
joined by a bus that delivers every status in order; a schedule decides
when, and when either side is driven.
-/

namespace Machbus.Sc

structure SCClientConfig where
  minStatusSpacingMs : UInt32 := 100
  busyPauseTimeoutMs : UInt32 := 600
  activeStatusIntervalMs : UInt32 := 200
  idleStatusIntervalMs : UInt32 := 1000
  masterTimeoutActiveMs : UInt32 := 600
  masterTimeoutReadyMs : UInt32 := 3000
  deriving DecidableEq, Repr

structure SCClient where
  config : SCClientConfig
  state : SCState := .idle
  busy : Bool := false
  busyTimerMs : ℕ := 0
  -- the first status is sent without waiting
  timeSinceLastStatusMs : ℕ := u32Max
  statusPending : Bool := false
  masterStatusAgeMs : ℕ := 0
  currentStepId : ℕ := 0
  deriving DecidableEq, Repr

namespace SCClient

def new (config : SCClientConfig) : SCClient := { config }

variable (c : SCClient)

def transition (new : SCState) : SCClient := { c with state := new }

def clearSequenceSession : SCClient :=
  { c with busy := false, busyTimerMs := 0, statusPending := false, currentStepId := 0 }

/-! ## Status -/

def isoClientState : SCClientState := if c.state = .idle then .disabled else .enabled

def encodeClientStatus : List UInt8 :=
  let disabled := c.isoClientState = .disabled
  let sequence := c.state.isoSequenceState
  [scMsgCodeClient, c.isoClientState.asU8,
    if disabled ∨ sequence = .ready then scSequenceNumberNotAvailable
    else UInt8.ofNat (c.currentStepId % 256),
    if disabled then SCSequenceState.notApplicable.asU8 else sequence.asU8,
    if disabled then 0xFF else 0,
    0xFF, 0xFF, 0xFF]

def encodeClientStatusNow : SCClient × Option (List UInt8) :=
  ({ c with timeSinceLastStatusMs := 0 }, some c.encodeClientStatus)

/-- Statuses keep a distance; one that comes too early is left to an
update. -/
def requestStatusSendInline : SCClient × Option (List UInt8) :=
  if c.config.minStatusSpacingMs.toNat ≤ c.timeSinceLastStatusMs then c.encodeClientStatusNow
  else ({ c with statusPending := true }, none)

/-! ## Calls of the application -/

def setBusy (busy : Bool) : SCClient × Option (List UInt8) :=
  if c.busy = busy then (c, none)
  else requestStatusSendInline { c with busy, busyTimerMs := 0 }

def reportStepComplete (stepId : ℕ) : Except Error (SCClient × Option (List UInt8)) := do
  require (c.state = .active) (.invalidState "not in Active state")
  require (stepId = c.currentStepId) (.invalidState "step_id mismatch")
  .ok c.requestStatusSendInline

/-! ## Time -/

/-- How long the master may be silent. -/
def masterLimit : ℕ :=
  if c.state = .ready then c.config.masterTimeoutReadyMs.toNat
  else c.config.masterTimeoutActiveMs.toNat

def statusInterval : ℕ :=
  match c.state.isoSequenceState with
  | .playBack | .recording | .abort => c.config.activeStatusIntervalMs.toNat
  | _ => c.config.idleStatusIntervalMs.toNat

/-- A status that waits, or that is due. -/
def updateStatus : SCClient × Option (List UInt8) :=
  if c.statusPending ∧ c.config.minStatusSpacingMs.toNat ≤ c.timeSinceLastStatusMs then
    encodeClientStatusNow { c with statusPending := false }
  else if c.statusInterval ≤ c.timeSinceLastStatusMs then c.encodeClientStatusNow
  else (c, none)

/-- A step that is held up for too long. -/
def updateBusy (elapsedMs : ℕ) : SCClient × Option (List UInt8) :=
  if c.busy ∧ (c.state = .active ∨ c.state = .paused) then
    let c := { c with busyTimerMs := satAdd32 c.busyTimerMs elapsedMs }
    if c.config.busyPauseTimeoutMs.toNat ≤ c.busyTimerMs then
      encodeClientStatusNow { c.transition .error with statusPending := false }
    else c.updateStatus
  else c.updateStatus

def update (elapsedMs : ℕ) : SCClient × Option (List UInt8) :=
  let c := { c with timeSinceLastStatusMs := satAdd32 c.timeSinceLastStatusMs elapsedMs }
  if c.state = .idle then c.updateBusy elapsedMs
  else
    let c := { c with masterStatusAgeMs := satAdd32 c.masterStatusAgeMs elapsedMs }
    if c.masterLimit ≤ c.masterStatusAgeMs ∧ c.state ≠ .error then
      encodeClientStatusNow
        { (c.transition .error).clearSequenceSession with statusPending := false }
    else c.updateBusy elapsedMs

/-! ## Status of the master -/

/-- The state that the master's status asks for. -/
def asked (s : MasterStatus) : SCState :=
  if s.state = .active then
    match s.sequence with
    | .ready => if c.state = .active ∨ c.state = .paused then .paused else .ready
    | .playBack => .active
    | .abort => .error
    | _ => .ready
  else .idle

/-- The client goes where it is asked to, from where it may. -/
def follow (stepId : ℕ) : SCState → SCClient × Option (List UInt8)
  | .ready =>
    if c.state = .idle ∨ c.state = .error ∨ c.state = .complete then
      (c.clearSequenceSession.transition .ready).requestStatusSendInline
    else (c, none)
  | .active =>
    if c.state = .ready ∨ c.state = .active ∨ c.state = .paused then
      requestStatusSendInline { c.transition .active with currentStepId := stepId }
    else (c, none)
  | .paused =>
    if c.state = .active then (c.transition .paused).requestStatusSendInline else (c, none)
  | .complete =>
    if c.state = .active ∨ c.state = .paused then
      (c.transition .complete).requestStatusSendInline
    else (c, none)
  | .error => (c.transition .error).requestStatusSendInline
  | .idle =>
    if c.state ≠ .idle then (c.transition .idle).clearSequenceSession.requestStatusSendInline
    else (c, none)

def handleStatus (s : MasterStatus) : SCClient × Option (List UInt8) :=
  let c := { c with masterStatusAgeMs := 0 }
  let stepId := if s.number = scSequenceNumberNotAvailable then 0 else s.number.toNat
  c.follow stepId (c.asked s)

def tryHandleMasterStatus (msg : Message) : Except Error (SCClient × Option (List UInt8)) := do
  let s ← decodeMasterStatus msg
  .ok (c.handleStatus s)

/-- Whatever is malformed is ignored. -/
def handleMasterStatus (msg : Message) : SCClient × Option (List UInt8) :=
  match c.tryHandleMasterStatus msg with
  | .ok r => r
  | .error _ => (c, none)

end SCClient

/-! ## Runs -/

/-- What the application does with a client. -/
inductive ClientAct
  | setBusy (busy : Bool)
  | reportStepComplete (stepId : ℕ)
  | update (elapsedMs : ℕ)

namespace SCClient

/-- A call that fails changes nothing. -/
def act (c : SCClient) : ClientAct → SCClient × Option (List UInt8)
  | .setBusy busy => c.setBusy busy
  | .reportStepComplete stepId =>
    match c.reportStepComplete stepId with
    | .ok r => r
    | .error _ => (c, none)
  | .update elapsedMs => c.update elapsedMs

end SCClient

/-! ## Master and client over the bus -/

/-- Where the two are. Either address can identify a sender. -/
structure Exchange where
  master : Address
  client : Address
  master_ne_null : master ≠ nullAddress := by decide
  master_ne_broadcast : master ≠ broadcastAddress := by decide
  client_ne_null : client ≠ nullAddress := by decide
  client_ne_broadcast : client ≠ broadcastAddress := by decide

namespace Exchange

variable (x : Exchange)

/-- A status is sent to everyone. -/
def status (pgn : ℕ) (source : Address) (data : List UInt8) : Message :=
  .withAddressing pgn data source broadcastAddress .default

def masterStatus (data : List UInt8) : Message := status pgnScMasterStatus x.master data

def clientStatus (data : List UInt8) : Message := status pgnScClientStatus x.client data

def parties : Parties SCMaster SCClient Message MasterAct ClientAct where
  recvLeft m msg := (m.handleClientStatus msg, [])
  recvRight c msg :=
    let r := c.handleMasterStatus msg
    (r.1, (r.2.map x.clientStatus).toList)
  actLeft m a :=
    let r := m.act a
    (r.1, (r.2.map x.masterStatus).toList)
  actRight c a :=
    let r := c.act a
    (r.1, (r.2.map x.clientStatus).toList)

abbrev State := Link SCMaster SCClient Message
abbrev Act := LinkAct MasterAct ClientAct

def step : State → Act → State := Link.step x.parties

/-- Nobody has sent anything yet. -/
def start (master : SCMasterConfig) (client : SCClientConfig) : State :=
  ⟨.new master, .new client, [], [], []⟩

/-- Time passes on either side, or a status arrives. -/
def Unattended : Act → Prop
  | .deliverLeft | .deliverRight | .left (.update _) | .right (.update _) => True
  | _ => False

end Exchange

end Machbus.Sc
