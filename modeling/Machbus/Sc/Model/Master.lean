import Machbus.Common.Checks
import Machbus.Net.Model.Frame
import Mathlib.Data.Finset.Card
import Machbus.Common.OrderedMap
/-!
# Sequence control — messages and master

A master and its clients tell each other in which state they are, with
messages of eight bytes that are sent over and over. The master leads its
clients through the steps of a sequence. It goes from Ready to Active when
enough clients are ready, waits at every step for their acknowledgement,
and aborts when they fall silent. It leaves the abort once every client
has been seen in it and has left it.
-/

namespace Machbus.Sc

def pgnScMasterStatus : ℕ := 0x8E00
def pgnScClientStatus : ℕ := 0x8D00

def scMsgCodeMaster : UInt8 := 0x95
def scMsgCodeClient : UInt8 := 0x96
def scStatusIdleRateMs : ℕ := 1000
def scMaxSequenceStepId : ℕ := 0x31
def scStatusPayloadLen : ℕ := 8
def scSequenceNumberNotAvailable : UInt8 := 0xFF

/-- The state of either side. -/
inductive SCState
  | idle
  | ready
  | active
  | paused
  | complete
  | error
  deriving DecidableEq, Repr

inductive SCMasterState
  | inactive
  | active
  | initialization
  deriving DecidableEq, Repr

namespace SCMasterState

def tryFromU8 (v : UInt8) : Option SCMasterState :=
  match v.toNat with
  | 0 => some inactive
  | 1 => some active
  | 2 => some initialization
  | _ => none

def asU8 : SCMasterState → UInt8
  | inactive => 0
  | active => 1
  | initialization => 2

end SCMasterState

inductive SCClientState
  | disabled
  | enabled
  | initialization
  deriving DecidableEq, Repr

namespace SCClientState

def tryFromU8 (v : UInt8) : Option SCClientState :=
  match v.toNat with
  | 0 => some disabled
  | 1 => some enabled
  | 2 => some initialization
  | _ => none

def asU8 : SCClientState → UInt8
  | disabled => 0
  | enabled => 1
  | initialization => 2

end SCClientState

inductive SCSequenceState
  | reserved
  | ready
  | recording
  | recordingCompletion
  | playBack
  | abort
  | notApplicable
  deriving DecidableEq, Repr

namespace SCSequenceState

def tryFromU8 (v : UInt8) : Option SCSequenceState :=
  match v.toNat with
  | 0 => some reserved
  | 1 => some ready
  | 2 => some recording
  | 3 => some recordingCompletion
  | 4 => some playBack
  | 5 => some abort
  | 0xFF => some notApplicable
  | _ => none

def asU8 : SCSequenceState → UInt8
  | reserved => 0
  | ready => 1
  | recording => 2
  | recordingCompletion => 3
  | playBack => 4
  | abort => 5
  | notApplicable => 0xFF

end SCSequenceState

/-- The sequence state of a status that is sent. -/
def SCState.isoSequenceState : SCState → SCSequenceState
  | ready | paused => .ready
  | active => .playBack
  | error => .abort
  | idle | complete => .reserved

def scStatusSequenceNumberIsValid (state : SCSequenceState) (number : UInt8) : Bool :=
  match state with
  | .ready => number == scSequenceNumberNotAvailable
  | .playBack | .abort => decide (number.toNat ≤ scMaxSequenceStepId)
  | _ => true

def scStatusSequenceStateIsSupported : SCSequenceState → Bool
  | .ready | .playBack | .abort => true
  | .reserved | .recording | .recordingCompletion | .notApplicable => false

def scInactiveStatusSequenceFieldsAreValid (state : SCSequenceState) (number : UInt8) : Bool :=
  state == .notApplicable && number == scSequenceNumberNotAvailable

def scClientFuncErrorByteIsValid (v : UInt8) : Bool :=
  decide (v.toNat ≤ 3) || v == 0xFF

variable (msg : Message)

/-- `Message::get_u8`. -/
def getU8 (i : ℕ) : UInt8 := msg.data.getD i 0xFF

/-- What a status message has to be before its fields are looked at. -/
def checkEnvelope (pgn : ℕ) (code : UInt8) (badLength badCode : String) : Except Error Unit := do
  require (msg.pgn = pgn) (.invalidPgn msg.pgn)
  require msg.hasUsableSource (.invalidAddress msg.source)
  require msg.hasValidDestinationForPgn (.invalidAddress msg.destination)
  require (msg.data.length = scStatusPayloadLen) (.invalidData badLength)
  require (getU8 msg 0 = code) (.invalidData badCode)

/-! ## Status of a client -/

structure ClientStatus where
  source : Address
  state : SCClientState
  sequence : SCSequenceState
  number : UInt8
  deriving DecidableEq, Repr

/-- The checks of `try_handle_client_status`. The payload length is
checked a second time there, with another text. -/
def decodeClientStatus : Except Error ClientStatus := do
  checkEnvelope msg pgnScClientStatus scMsgCodeClient "SC client status must be exactly 8 bytes"
    "SC client status has wrong message code"
  let state ← given (SCClientState.tryFromU8 (getU8 msg 1))
    (.invalidData "SC client status has reserved client state")
  require (state ≠ .initialization) (.invalidData "SC client initialization state is not supported")
  require (scClientFuncErrorByteIsValid (getU8 msg 4))
    (.invalidData "SC client status has reserved function error byte")
  let sequence ← given (SCSequenceState.tryFromU8 (getU8 msg 3))
    (.invalidData "SC client status has reserved sequence state")
  let number := getU8 msg 2
  require (state = .enabled ∨ scInactiveStatusSequenceFieldsAreValid sequence number)
    (.invalidData "SC disabled client status has active sequence fields")
  require (state = .enabled → scStatusSequenceStateIsSupported sequence)
    (.invalidData "SC client status has unsupported sequence state")
  require (scStatusSequenceNumberIsValid sequence number)
    (.invalidData "SC client status has invalid sequence number")
  .ok ⟨msg.source, state, sequence, number⟩

/-- What a client's status says about its state. -/
def ClientStatus.mapped (s : ClientStatus) : SCState :=
  match s.state with
  | .enabled =>
    match s.sequence with
    | .ready => .ready
    | .playBack => .active
    | .abort => .error
    | _ => .ready
  | _ => .idle

/-! ## Status of the master -/

structure MasterStatus where
  state : SCMasterState
  sequence : SCSequenceState
  number : UInt8
  deriving DecidableEq, Repr

/-- The checks of `try_handle_master_status`. -/
def decodeMasterStatus : Except Error MasterStatus := do
  checkEnvelope msg pgnScMasterStatus scMsgCodeMaster "SC master status must be exactly 8 bytes"
    "SC master status has wrong message code"
  let state ← given (SCMasterState.tryFromU8 (getU8 msg 1))
    (.invalidData "SC master status has reserved master state")
  require (state ≠ .initialization) (.invalidData "SC master initialization state is not supported")
  let sequence ← given (SCSequenceState.tryFromU8 (getU8 msg 3))
    (.invalidData "SC master status has reserved sequence state")
  let number := getU8 msg 2
  require (state = .active ∨ scInactiveStatusSequenceFieldsAreValid sequence number)
    (.invalidData "SC inactive master status has active sequence fields")
  require (state = .active → scStatusSequenceStateIsSupported sequence)
    (.invalidData "SC master status has unsupported sequence state")
  require (scStatusSequenceNumberIsValid sequence number)
    (.invalidData "SC master status has invalid sequence number")
  .ok ⟨state, sequence, number⟩

/-! ## The master -/

structure SequenceStep where
  stepId : ℕ
  completed : Bool := false
  deriving DecidableEq, Repr

structure SCMasterConfig where
  readyTimeoutMs : UInt32 := 3000
  activeTimeoutMs : UInt32 := 600
  statusIntervalMs : UInt32 := 100
  requiredClientCount : UInt8 := 1
  deriving DecidableEq, Repr

namespace SCMasterConfig

/-- How long a client in this state may be silent. -/
def limitFor (c : SCMasterConfig) : SCSequenceState → ℕ
  | .recording | .recordingCompletion | .playBack | .abort => c.activeTimeoutMs.toNat
  | _ => c.readyTimeoutMs.toNat

/-- At least one. -/
def required (c : SCMasterConfig) : ℕ :=
  if c.requiredClientCount = 0 then 1 else c.requiredClientCount.toNat

end SCMasterConfig

structure ClientLiveness where
  ageMs : ℕ
  reported : SCSequenceState
  deriving DecidableEq, Repr

structure SCMaster where
  config : SCMasterConfig
  state : SCState := .idle
  steps : List SequenceStep := []
  currentStepIndex : ℕ := 0
  statusTimerMs : ℕ := 0
  readyTimerMs : ℕ := 0
  activeTimerMs : ℕ := 0
  clientAckReceived : Bool := false
  clientSeen : OrderedMap Address ClientLiveness := []
  readyClients : Finset Address := ∅
  activeAckClients : Finset Address := ∅
  abortConfirmed : Finset Address := ∅
  abortSeen : Finset Address := ∅
  busyNvMemory : Bool := false
  busyParsingScd : Bool := false
  deriving DecidableEq

namespace SCMaster

def new (config : SCMasterConfig) : SCMaster := { config }

variable (m : SCMaster)

/-! ## Steps -/

def addStep (step : SequenceStep) : Except Error SCMaster := do
  require (m.state = .idle) (.invalidState "can only add steps in Idle state")
  require (step.stepId ≤ scMaxSequenceStepId)
    (.invalidData ("SC step_id " ++ toString step.stepId ++ " exceeds wire maximum " ++
      toString scMaxSequenceStepId))
  require (∀ existing ∈ m.steps, existing.stepId ≠ step.stepId)
    (.invalidData ("duplicate SC step_id " ++ toString step.stepId))
  .ok { m with steps := m.steps ++ [step] }

def currentStep : Option SequenceStep := m.steps[m.currentStepIndex]?

def currentSequenceNumber : UInt8 :=
  match m.currentStep.filter fun step => step.stepId ≤ scMaxSequenceStepId with
  | some step => UInt8.ofNat step.stepId
  | none => scSequenceNumberNotAvailable

/-! ## State -/

/-- An abort starts with nobody seen in it. -/
def transition (new : SCState) : SCMaster :=
  if m.state = new then m
  else if new = .error then { m with abortConfirmed := ∅, abortSeen := ∅, state := new }
  else { m with state := new }

/-- The run is discarded, and the sequence starts again. -/
def rearmAfterAbort : SCMaster :=
  { transition { m with
      abortConfirmed := ∅
      abortSeen := ∅
      readyClients := ∅
      activeAckClients := ∅
      clientAckReceived := false
      currentStepIndex := 0
      steps := m.steps.map fun step => { step with completed := false }
      readyTimerMs := 0
      activeTimerMs := 0 } .ready with
    statusTimerMs := m.config.statusIntervalMs.toNat }

def isoMasterState : SCMasterState :=
  match m.state with
  | .idle | .complete => .inactive
  | _ => .active

def encodeMasterStatus : List UInt8 :=
  let master := m.isoMasterState
  let sequence := m.state.isoSequenceState
  [scMsgCodeMaster, master.asU8,
    if master = .inactive ∨ sequence = .ready then scSequenceNumberNotAvailable
    else m.currentSequenceNumber,
    if master = .inactive then SCSequenceState.notApplicable.asU8 else sequence.asU8,
    0xFC ||| (if m.busyNvMemory then 1 else 0) ||| (if m.busyParsingScd then 2 else 0),
    0xFF, 0xFF, 0xFF]

/-! ## Calls of the application -/

def start : Except Error SCMaster := do
  require (m.state = .idle) (.invalidState "can only start from Idle")
  require (m.steps ≠ []) (.invalidState "no steps defined")
  .ok (transition { m with
    currentStepIndex := 0
    readyTimerMs := 0
    statusTimerMs := 0
    clientAckReceived := false
    readyClients := ∅
    activeAckClients := ∅ } .ready)

/-- The next update says so at once. -/
def abort : Except Error SCMaster := do
  require (¬(m.state = .idle ∨ m.state = .complete ∨ m.state = .error))
    (.invalidState "nothing to abort")
  .ok { m.transition .error with statusTimerMs := m.config.statusIntervalMs.toNat }

def pause : Except Error SCMaster := do
  require (m.state = .active) (.invalidState "can only pause in Active state")
  .ok (m.transition .paused)

def resume : Except Error SCMaster := do
  require (m.state = .paused) (.invalidState "can only resume from Paused state")
  .ok (transition { m with
    activeTimerMs := 0
    clientAckReceived := false
    activeAckClients := ∅ } .active)

def stepCompleted (stepId : ℕ) : Except Error SCMaster := do
  require (m.state = .active) (.invalidState "not in Active state")
  let current ← given m.currentStep (.invalidState "no current step")
  require (current.stepId = stepId) (.invalidState "step_id mismatch")
  let m := { m with
    steps := m.steps.set m.currentStepIndex { current with completed := true }
    currentStepIndex := m.currentStepIndex + 1 }
  if m.steps.length ≤ m.currentStepIndex then .ok (m.transition .complete)
  else
    .ok { m with
      activeTimerMs := 0
      clientAckReceived := false
      activeAckClients := ∅ }

/-! ## Time -/

/-- The abort is told at once. -/
def timeOut : SCMaster × Option (List UInt8) :=
  let m := { m.transition .error with statusTimerMs := 0 }
  (m, some m.encodeMasterStatus)

variable (elapsedMs : ℕ)

/-- The status that goes out every so often. -/
def updateStatus : SCMaster × Option (List UInt8) :=
  let timer := satAdd32 m.statusTimerMs elapsedMs
  let interval := if m.state = .idle ∨ m.state = .complete then scStatusIdleRateMs
    else m.config.statusIntervalMs.toNat
  if interval ≤ timer then
    ({ m with statusTimerMs := timer - interval }, some m.encodeMasterStatus)
  else ({ m with statusTimerMs := timer }, none)

/-- Waiting for clients to be ready, or to acknowledge the step. -/
def updateTimers (send : Option (List UInt8)) : SCMaster × Option (List UInt8) :=
  match m.state with
  | .ready =>
    let m := { m with readyTimerMs := satAdd32 m.readyTimerMs elapsedMs }
    if m.config.readyTimeoutMs.toNat ≤ m.readyTimerMs then m.timeOut else (m, send)
  | .active =>
    if m.clientAckReceived then (m, send)
    else
      let m := { m with activeTimerMs := satAdd32 m.activeTimerMs elapsedMs }
      if m.config.activeTimeoutMs.toNat ≤ m.activeTimerMs then m.timeOut else (m, send)
  | _ => (m, send)

/-- A client that is silent for longer than its state allows. -/
def expired (seen : ClientLiveness) : Bool := decide (m.config.limitFor seen.reported ≤ seen.ageMs)

def updateSeen (send : Option (List UInt8)) : SCMaster × Option (List UInt8) :=
  let m := { m with clientSeen := m.clientSeen.mapValues fun seen =>
    { seen with ageMs := satAdd32 seen.ageMs elapsedMs } }
  if m.clientSeen.any (fun e => m.expired e.2) ∧ m.state ≠ .error then
    timeOut { m with clientSeen := m.clientSeen.retain fun _ seen => !m.expired seen }
  else (m, send)

def update : SCMaster × Option (List UInt8) :=
  let r := m.updateStatus elapsedMs
  if m.state = .idle ∨ m.state = .complete then r
  else
    let t := r.1.updateTimers elapsedMs r.2
    if m.state = .ready ∨ m.state = .active ∨ m.state = .paused then t.1.updateSeen elapsedMs t.2
    else t

/-! ## Status of a client -/

variable (s : ClientStatus)

/-- A disabled client has no part in the sequence. -/
def noteSeen : SCMaster :=
  { m with clientSeen :=
      if s.state = .enabled then m.clientSeen.insert s.source ⟨0, s.sequence⟩
      else m.clientSeen.remove s.source }

/-- A client has to be seen in the abort before it can leave it. -/
def noteAbort : SCMaster :=
  let m :=
    if s.mapped = .error then
      { m with
        abortSeen := insert s.source m.abortSeen
        abortConfirmed := m.abortConfirmed.erase s.source }
    else if s.source ∈ m.abortSeen then
      { m with abortConfirmed := insert s.source m.abortConfirmed }
    else m
  if max m.clientSeen.length 1 ≤ m.abortConfirmed.card then m.rearmAfterAbort else m

def noteUnready : SCMaster :=
  if m.state = .ready ∧ s.mapped ≠ .ready then
    { m with readyClients := m.readyClients.erase s.source }
  else m

/-- A client that acknowledged the step reports something else. -/
def noteLapse : SCMaster :=
  if m.state = .active ∧ (s.mapped ≠ .active ∨ s.number ≠ m.currentSequenceNumber) then
    let lost := s.source ∈ m.activeAckClients ∧
      (m.activeAckClients.erase s.source).card < m.config.required
    { m with
      activeAckClients := m.activeAckClients.erase s.source
      clientAckReceived := if lost then false else m.clientAckReceived
      activeTimerMs := if lost then 0 else m.activeTimerMs }
  else m

def noteReady : SCMaster :=
  if m.state = .ready ∧ s.mapped = .ready then
    let m := { m with readyClients := insert s.source m.readyClients }
    if m.config.required ≤ m.readyClients.card then
      transition { m with
        activeTimerMs := 0
        clientAckReceived := false
        activeAckClients := ∅ } .active
    else m
  else m

def noteAck : SCMaster :=
  if m.state = .active ∧ s.mapped = .active ∧ s.number = m.currentSequenceNumber then
    let m := { m with activeAckClients := insert s.source m.activeAckClients }
    if m.config.required ≤ m.activeAckClients.card then
      { m with clientAckReceived := true, activeTimerMs := 0 }
    else m
  else m

def handleStatus : SCMaster :=
  let m := m.noteSeen s
  if s.mapped = .error ∧ ¬(m.state = .idle ∨ m.state = .complete ∨ m.state = .error) then
    { m.transition .error with statusTimerMs := m.config.statusIntervalMs.toNat }
  else if m.state = .error then m.noteAbort s
  else (((m.noteUnready s).noteLapse s).noteReady s).noteAck s

def tryHandleClientStatus (msg : Message) : Except Error SCMaster := do
  let s ← decodeClientStatus msg
  .ok (m.handleStatus s)

/-- Whatever is malformed is ignored. -/
def handleClientStatus (msg : Message) : SCMaster :=
  match m.tryHandleClientStatus msg with
  | .ok m' => m'
  | .error _ => m

end SCMaster

/-! ## Runs -/

/-- What the application does with a master. -/
inductive MasterAct
  | addStep (step : SequenceStep)
  | start
  | abort
  | pause
  | resume
  | stepCompleted (stepId : ℕ)
  | setBusyNvMemory (busy : Bool)
  | setBusyParsingScd (busy : Bool)
  | update (elapsedMs : ℕ)

namespace SCMaster

/-- A call that fails changes nothing. -/
def called (m : SCMaster) : Except Error SCMaster → SCMaster
  | .ok m' => m'
  | .error _ => m

def act (m : SCMaster) : MasterAct → SCMaster × Option (List UInt8)
  | .addStep step => (m.called (m.addStep step), none)
  | .start => (m.called m.start, none)
  | .abort => (m.called m.abort, none)
  | .pause => (m.called m.pause, none)
  | .resume => (m.called m.resume, none)
  | .stepCompleted stepId => (m.called (m.stepCompleted stepId), none)
  | .setBusyNvMemory busy => ({ m with busyNvMemory := busy }, none)
  | .setBusyParsingScd busy => ({ m with busyParsingScd := busy }, none)
  | .update elapsedMs => m.update elapsedMs

end SCMaster

/-- Whatever reaches a master. -/
inductive MasterInput
  | call (a : MasterAct)
  | status (msg : Message)

def SCMaster.receive (m : SCMaster) : MasterInput → SCMaster
  | .call a => (m.act a).1
  | .status msg => m.handleClientStatus msg

end Machbus.Sc
