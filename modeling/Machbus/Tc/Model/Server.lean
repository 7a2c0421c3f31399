import Machbus.Common.OrderedMap
import Machbus.Tc.Model.Ddop
/-!
# Task controller — server

The server keeps one entry per client it has heard from: the pool the
client uploaded, the bytes it was read from, and whether the pool is
activated. The application's callbacks answer from outside; what they
answer is an argument of the call that asks them.
-/

namespace Machbus.Tc

def tcStatusIntervalMs : ℕ := 2000
def tcClientTimeoutMs : ℕ := 3 * tcStatusIntervalMs
def maxTcServerSections : UInt8 := 254

inductive TCServerState
  | disconnected
  | waitForClients
  | active
  deriving DecidableEq, Repr

structure TCClientInfo where
  address : Address := 0
  ddop : DDOP := {}
  poolActivated : Bool := false
  /-- The bytes of the pool last accepted, without the command byte. -/
  lastDdopTransfer : List UInt8 := []
  lastStatusMs : ℕ := 0
  tcVersion : UInt8 := 0
  tcOptions : UInt8 := 0
  tcBooms : UInt8 := 0
  tcSections : UInt8 := 0
  tcChannels : UInt8 := 0
  taskTotalsActive : Bool := false
  deriving DecidableEq, Repr

structure TCServerConfig where
  tcNumber : UInt8 := 0
  tcVersion : UInt8 := 4
  numBooms : UInt8 := 0
  numSections : UInt8 := 0
  numChannels : UInt8 := 0
  serverOptions : UInt8 := 0
  deriving DecidableEq, Repr

def TCServerConfig.validate (c : TCServerConfig) : Except Error Unit := do
  require (tcOptionsByteIsValid c.serverOptions)
    (.invalidData "TCServerConfig: server_options contains reserved bits")
  require (c.numBooms ≠ 0) (.invalidData "TCServerConfig: num_booms must be greater than zero")
  require (c.numSections ≠ 0 ∧ c.numSections ≤ maxTcServerSections)
    (.invalidData ("TCServerConfig: num_sections must be in 1..=" ++
      toString maxTcServerSections.toNat))

/-! ## Measurement triggers -/

structure MeasurementTriggerRuntime where
  destination : Address
  element : ElementNumber
  ddi : DDI
  triggerMethods : UInt8 := 0
  timeIntervalMs : Option ℕ := none
  distanceIntervalMm : Option ℕ := none
  minimumThreshold : Option Int32 := none
  maximumThreshold : Option Int32 := none
  changeThreshold : Option ℕ := none
  elapsedMs : ℕ := 0
  distanceMm : ℕ := 0
  lastValue : Option Int32 := none
  lastRequestedValue : Option Int32 := none
  deriving DecidableEq, Repr

def triggerOnChange : UInt8 := 0x08

section

variable (t : MeasurementTriggerRuntime)

/-- An element number that does not fit the twelve bits makes no request. -/
def measurementRequest : MeasurementTriggerRuntime × Option Outbound :=
  if maxProcessDataElementNumber < t.element.toNat then (t, none)
  else
    ({ t with lastRequestedValue := t.lastValue },
     some ⟨pgnTcToEcu, padded8 (processDataHeader .requestValue t.element t.ddi),
      some t.destination⟩)

/-- Whether a new value makes a trigger ask again. -/
def MeasurementTriggerRuntime.due (value : Int32) : Bool :=
  let previous := t.lastValue
  (t.triggerMethods &&& triggerOnChange != 0 && previous.any (· != value)) ||
  t.changeThreshold.any (fun delta =>
    previous.any fun old => decide (delta ≤ (old.toInt - value.toInt).natAbs)) ||
  t.minimumThreshold.any (fun minimum =>
    decide (value ≤ minimum) && previous.all fun old => decide (minimum < old)) ||
  t.maximumThreshold.any (fun maximum =>
    decide (maximum ≤ value) && previous.all fun old => decide (old < maximum))

def MeasurementTriggerRuntime.observe (value : Int32) :
    MeasurementTriggerRuntime × Option Outbound :=
  let t' := { t with lastValue := some value }
  if t.due value then measurementRequest t' else (t', none)

end

/-! ## Peer control -/

structure PeerControlAssignment where
  sourceElement : ElementNumber
  sourceDdi : DDI
  destinationElement : ElementNumber
  destinationDdi : DDI
  sourceAddress : Address
  destinationAddress : Address
  active : Bool
  deriving DecidableEq, Repr

def validateAssignment (a : PeerControlAssignment) : Except Error Unit := do
  require (a.sourceElement.toNat ≤ 0x0FFF)
    (.invalidData "peer-control source element exceeds 12-bit wire field")
  require (a.sourceAddress ≠ nullAddress) (.invalidAddress a.sourceAddress)
  require (a.sourceAddress ≠ broadcastAddress) (.invalidAddress a.sourceAddress)
  require (a.destinationAddress ≠ nullAddress) (.invalidAddress a.destinationAddress)
  require (a.destinationAddress ≠ broadcastAddress) (.invalidAddress a.destinationAddress)

def PeerControlAssignment.decode (data : List UInt8) (sourceAddress destinationAddress : Address) :
    Except Error PeerControlAssignment := do
  require (data.length = 8) (.invalidData "peer-control assignment payload must be exactly 8 bytes")
  require (byteAt data 0 &&& 0x0F = ProcessDataCommands.peerControlAssignment.asU8)
    (.invalidData "peer-control assignment command nibble is invalid")
  let assignment : PeerControlAssignment :=
    { sourceElement := elementOf data
      sourceDdi := ddiOf data
      destinationElement := UInt16.ofNat (ofLe [byteAt data 4, byteAt data 5])
      destinationDdi := UInt16.ofNat (ofLe [byteAt data 6, byteAt data 7])
      sourceAddress
      destinationAddress
      active := false }
  validateAssignment assignment
  pure assignment

/-! ## The server -/

/-- What the application answers when it is asked; `none` where no
callback is installed. -/
structure ServerCallbacks where
  valueRequest : Option (ElementNumber → DDI → Address → Except Error Int32) := none
  value : Option (ElementNumber → DDI → Int32 → Address →
    Except Error ProcessDataAcknowledgeErrorCodes) := none
  peerControl : Option (ElementNumber → DDI → ElementNumber → DDI → Except Error Unit) := none

structure TaskControllerServer where
  state : TCServerState := .disconnected
  clients : List TCClientInfo := []
  serverOptions : UInt8
  statusTimerMs : ℕ := 0
  tcNumber : UInt8
  tcVersion : UInt8
  numBooms : UInt8
  numSections : UInt8
  numChannels : UInt8
  structureLabel : Vector UInt8 7 := .replicate 7 0xFF
  localizationLabel : Vector UInt8 7 := .replicate 7 0xFF
  commandBusy : Bool := false
  taskTotalsActive : Bool := false
  nvmWriteBusy : Bool := false
  nvmReadBusy : Bool := false
  outOfMemory : Bool := false
  currentCommandSourceAddress : Address := 0
  currentCommandByte : UInt8 := 0
  measurementTriggers : List MeasurementTriggerRuntime := []
  deriving DecidableEq, Repr

namespace TaskControllerServer

def new (config : TCServerConfig) : TaskControllerServer where
  serverOptions := config.serverOptions
  tcNumber := config.tcNumber
  tcVersion := config.tcVersion
  numBooms := config.numBooms
  numSections := config.numSections
  numChannels := config.numChannels

variable (s : TaskControllerServer)

def startChecks : Except Error Unit := do
  require (tcOptionsByteIsValid s.serverOptions)
    (.invalidData "TC server_options contains reserved bits")
  require (s.numBooms ≠ 0) (.invalidData "TC server num_booms must be greater than zero")
  require (s.numSections ≠ 0 ∧ s.numSections ≤ maxTcServerSections)
    (.invalidData ("TC server num_sections must be in 1..=" ++ toString maxTcServerSections.toNat))

def start : Except Error TaskControllerServer := do
  s.startChecks
  pure { s with state := .waitForClients }

def stop : TaskControllerServer :=
  { s with state := .disconnected, clients := [] }

variable (addr : Address)

def findClient : Option TCClientInfo :=
  s.clients.find? (·.address == addr)

/-- A change made through `find_client_mut`. -/
def modifyClient (f : TCClientInfo → TCClientInfo) : TaskControllerServer :=
  { s with clients := modifyFirst (·.address == addr) f s.clients }

/-- Any message from a client is a sign of life. -/
def ensureClient : TaskControllerServer :=
  if (s.findClient addr).isSome then s.modifyClient addr fun c => { c with lastStatusMs := 0 }
  else
    { s with
      clients := s.clients ++ [{ address := addr }]
      state := if s.state = .waitForClients then .active else s.state }

def activatePool : TaskControllerServer × ObjectPoolActivationError :=
  match s.findClient addr with
  | some c =>
    if c.ddop.devices ≠ [] then
      (s.modifyClient addr fun c => { c with poolActivated := true }, .noErrors)
    else (s, .thereAreErrorsInTheDDOP)
  | none => (s, .thereAreErrorsInTheDDOP)

def requestClientVersion : Option Outbound :=
  if s.clients.any (·.address == addr) then
    some ⟨pgnTcToEcu, padded8 [Cmd.versionRequest], some addr⟩
  else none

/-! ### Time -/

def statusByte : UInt8 :=
  (if s.taskTotalsActive then 0x01 else 0) ||| (if s.nvmWriteBusy then 0x02 else 0) |||
  (if s.nvmReadBusy then 0x04 else 0) ||| (if s.commandBusy then 0x08 else 0) |||
  (if s.outOfMemory then 0x80 else 0)

def encodeTcStatus : List UInt8 :=
  [0xF0 ||| ProcessDataCommands.status.asU8, 0xFF, 0xFF, 0xFF, s.statusByte,
   if s.commandBusy then s.currentCommandSourceAddress else 0x00,
   if s.commandBusy then s.currentCommandByte else 0x00, 0xFF]

/-- Ages the clients, drops the silent ones, and says when a status is due. -/
def update (elapsedMs : ℕ) : TaskControllerServer × Option (List UInt8) :=
  if s.state = .disconnected then (s, none)
  else
    let aged := s.clients.map fun c => { c with lastStatusMs := satAdd32 c.lastStatusMs elapsedMs }
    let lost := (aged.filter fun c => decide (tcClientTimeoutMs ≤ c.lastStatusMs)).map (·.address)
    let s := { s with
      clients := aged.filter fun c => !lost.contains c.address
      statusTimerMs := satAdd32 s.statusTimerMs elapsedMs }
    if tcStatusIntervalMs ≤ s.statusTimerMs then
      ({ s with statusTimerMs := s.statusTimerMs - tcStatusIntervalMs }, some s.encodeTcStatus)
    else (s, none)

/-! ### Messages -/

/-- An answer to the sender: a command byte, an error code, padding. -/
def answer (command code : UInt8) (dest : Address) : Outbound :=
  ⟨pgnTcToEcu, padded8 [command, code], some dest⟩

/-- The pool the server would store for a payload. -/
def acceptedPool (payload : List UInt8) : Except Error DDOP := do
  let pool ← DDOP.deserialize payload
  pool.validate
  pure pool

variable (msg : Message)

/-- The pool part of a transfer. The same bytes a second time change
nothing. -/
def storePool : TaskControllerServer × ObjectPoolErrorCodes :=
  if msg.data.length ≤ 8 then (s, .anyOtherError)
  else
    let payload := msg.data.drop 1
    if s.clients.any fun c => c.address == msg.source && c.ddop.devices ≠ [] &&
        c.lastDdopTransfer == payload then
      (s.ensureClient msg.source, .noErrors)
    else
      match acceptedPool payload with
      | .error _ => (s, .anyOtherError)
      | .ok pool =>
        let s := s.ensureClient msg.source
        match s.findClient msg.source with
        | none => (s, .anyOtherError)
        | some _ =>
          (s.modifyClient msg.source fun c =>
            { c with ddop := pool, lastDdopTransfer := payload, poolActivated := false },
           .noErrors)

def handleObjectPoolTransfer : TaskControllerServer × List Outbound :=
  let (s, error) := s.storePool msg
  (s, [answer Cmd.objectPoolResponse error.asU8 msg.source])

def isActivatePoolRequest : Bool :=
  byteAt msg.data 0 == Cmd.activatePool && isPaddedFixed8 msg.data 1

def isDeactivatePoolRequest : Bool :=
  byteAt msg.data 0 == Cmd.activatePool && byteAt msg.data 1 == 0x00 && isPaddedFixed8 msg.data 2

def isDeletePoolRequest : Bool :=
  byteAt msg.data 0 == Cmd.deletePool && isPaddedFixed8 msg.data 1

def setActivation : TaskControllerServer × ObjectPoolActivationError :=
  if isDeactivatePoolRequest msg then
    if (s.findClient msg.source).isSome then
      (s.modifyClient msg.source fun c => { c with poolActivated := false }, .noErrors)
    else (s, .thereAreErrorsInTheDDOP)
  else s.activatePool msg.source

def handleActivateDeactivatePoolRequest : TaskControllerServer × List Outbound :=
  let (s, error) := s.setActivation msg
  (s, [answer Cmd.activateResponse error.asU8 msg.source])

def handleDeletePoolRequest : TaskControllerServer × List Outbound :=
  (s.modifyClient msg.source fun c =>
    { c with ddop := {}, poolActivated := false, lastDdopTransfer := [] },
   [answer Cmd.deletePoolResponse errorDetailsNotAvailable msg.source])

def handleTechCapabilities : TaskControllerServer × List Outbound :=
  let s := s.ensureClient msg.source
  (s, [⟨pgnTcToEcu, [Cmd.versionResponse, s.tcVersion, 0xFF, s.serverOptions, 0x00, s.numBooms,
    s.numSections, s.numChannels], some msg.source⟩])

def handleStructureLabelRequest : TaskControllerServer × List Outbound :=
  let s := s.ensureClient msg.source
  (s, [⟨pgnTcToEcu, Cmd.structureLabel :: s.structureLabel.toList, some msg.source⟩])

def handleLocalizationLabelRequest : TaskControllerServer × List Outbound :=
  let s := s.ensureClient msg.source
  (s, [⟨pgnTcToEcu, Cmd.localizationLabel :: s.localizationLabel.toList, some msg.source⟩])

/-- Only a client that is known is updated. -/
def handleClientVersionResponse : TaskControllerServer × List Outbound :=
  (s.modifyClient msg.source fun c =>
    { c with
      tcVersion := byteAt msg.data 1
      tcOptions := byteAt msg.data 3
      tcBooms := byteAt msg.data 5
      tcSections := byteAt msg.data 6
      tcChannels := byteAt msg.data 7 },
   [])

def updateMeasurementValue (destination : Address)
    (element : ElementNumber) (ddi : DDI) (value : Int32) : TaskControllerServer × List Outbound :=
  let visits := s.measurementTriggers.map fun t =>
    if t.destination = destination ∧ t.element = element ∧ t.ddi = ddi then t.observe value
    else (t, none)
  ({ s with measurementTriggers := visits.map (·.1) }, visits.filterMap (·.2))

variable (cbs : ServerCallbacks)

section

variable (s : TaskControllerServer) (msg : Message)

def handleValue (acknowledge : Bool) : TaskControllerServer × List Outbound :=
  let s := s.ensureClient msg.source
  let element := elementOf msg.data
  let ddi := ddiOf msg.data
  let value := valueOf msg.data
  let error := match cbs.value with
    | some cb =>
      match cb element ddi value msg.source with
      | .ok code => code
      | .error _ => .noProcessingResourcesAvailable
    | none => .elementNotSupportedByThisDevice
  let (s, out) := s.updateMeasurementValue msg.source element ddi value
  (s, (if acknowledge then
        [⟨pgnTcToEcu, encodeProcessDataAck element ddi error, some msg.source⟩] else []) ++ out)

def handleRequestValue : TaskControllerServer × List Outbound :=
  let s := s.ensureClient msg.source
  let element := elementOf msg.data
  let ddi := ddiOf msg.data
  match cbs.valueRequest with
  | none => (s, [])
  | some cb =>
    match cb element ddi msg.source with
    | .error _ => (s, [])
    | .ok value => (s, [⟨pgnTcToEcu, encodeValue element ddi value, some msg.source⟩])

def handlePeerControl : TaskControllerServer × List Outbound :=
  match PeerControlAssignment.decode msg.data msg.source msg.destination with
  | .error _ => (s, [])
  | .ok a =>
    let s := s.ensureClient msg.source
    match cbs.peerControl with
    | none => (s, [])
    | some cb =>
      let error := match cb a.sourceElement a.sourceDdi a.destinationElement a.destinationDdi with
        | .ok _ => .noError
        | .error _ => .noProcessingResourcesAvailable
      (s, [⟨pgnTcToEcu, encodeProcessDataAck a.sourceElement a.sourceDdi error, some msg.source⟩])

end

def handleClientTask : TaskControllerServer × List Outbound :=
  ((s.ensureClient msg.source).modifyClient msg.source fun c =>
    { c with taskTotalsActive := byteAt msg.data 4 &&& 0x01 != 0 }, [])

section

variable (s : TaskControllerServer) (msg : Message)

/-- A process-data message: the low four bits of its first byte. -/
def handleProcessData : Except Error (TaskControllerServer × List Outbound) :=
  match ProcessDataCommands.tryFromU8 (byteAt msg.data 0) with
  | none => throw (.invalidData "ECU-to-TC message has reserved command byte")
  | some .value => do
      require (msg.data.length = 8)
        (.invalidData "TC value process-data frame must be an 8-byte frame")
      pure (handleValue cbs s msg false)
  | some .setValueAndAcknowledge => do
      require (msg.data.length = 8)
        (.invalidData "TC set-value-and-acknowledge frame must be an 8-byte frame")
      pure (handleValue cbs s msg true)
  | some .requestValue => do
      require (isPaddedFixed8 msg.data 4)
        (.invalidData "TC request-value process-data frame must be an 8-byte padded frame")
      pure (handleRequestValue cbs s msg)
  | some .peerControlAssignment => do
      require (msg.data.length = 8)
        (.invalidData "TC peer-control process-data frame must be an 8-byte frame")
      pure (handlePeerControl cbs s msg)
  | some .clientTask => do
      require (msg.data.length = 8)
        (.invalidData "TC client-task process-data frame must be an 8-byte frame")
      pure (s.handleClientTask msg)
  | some command =>
    throw (.invalidState ("unsupported ECU-to-TC process-data command " ++ command.debugName))

/-- The commands that have a byte of their own come first. -/
def dispatch : Except Error (TaskControllerServer × List Outbound) :=
  let command := byteAt msg.data 0
  if command = Cmd.versionResponse then do
    require (versionResponseIsCanonical msg.data)
      (.invalidData "TC client version response must be an 8-byte canonical frame")
    pure (s.handleClientVersionResponse msg)
  else if command = Cmd.versionRequest then do
    require (isPaddedFixed8 msg.data 1)
      (.invalidData "TC technical-capabilities request must be an 8-byte padded frame")
    pure (s.handleTechCapabilities msg)
  else if command = Cmd.requestStructureLabel then do
    require (isPaddedFixed8 msg.data 1)
      (.invalidData "TC structure-label request must be an 8-byte padded frame")
    pure (s.handleStructureLabelRequest msg)
  else if command = Cmd.requestLocalizationLabel then do
    require (isPaddedFixed8 msg.data 1)
      (.invalidData "TC localization-label request must be an 8-byte padded frame")
    pure (s.handleLocalizationLabelRequest msg)
  else if command = Cmd.objectPoolTransfer then pure (s.handleObjectPoolTransfer msg)
  else if command = Cmd.activatePool then do
    require (isActivatePoolRequest msg || isDeactivatePoolRequest msg)
      (.invalidData "TC activate/deactivate pool request must be an 8-byte canonical frame")
    pure (s.handleActivateDeactivatePoolRequest msg)
  else if command = Cmd.deletePool then do
    require (isDeletePoolRequest msg)
      (.invalidData "TC delete-pool request must be an 8-byte canonical frame")
    pure (s.handleDeletePoolRequest msg)
  else handleProcessData cbs s msg

def tryHandleClientMessage : Except Error (TaskControllerServer × List Outbound) := do
  require (msg.pgn = pgnEcuToTc) (.invalidPgn msg.pgn)
  require msg.hasUsableSource (.invalidAddress msg.source)
  require msg.hasValidDestinationForPgn (.invalidAddress msg.destination)
  require (msg.data ≠ []) (.invalidData "ECU-to-TC message must not be empty")
  dispatch cbs s msg

/-- What is malformed is ignored. -/
def handleClientMessage : TaskControllerServer × List Outbound :=
  match tryHandleClientMessage cbs s msg with
  | .ok r => r
  | .error _ => (s, [])

end

def tryHandleWorkingSetMaster : Except Error (TaskControllerServer × List Outbound) := do
  require (msg.pgn = pgnWorkingSetMaster) (.invalidPgn msg.pgn)
  require msg.hasUsableSource (.invalidAddress msg.source)
  require msg.hasValidDestinationForPgn (.invalidAddress msg.destination)
  require (isPaddedFixed8 msg.data 1)
    (.invalidData "Working Set Master must be an 8-byte padded frame")
  let s := s.ensureClient msg.source
  pure (s, (s.requestClientVersion msg.source).toList)

def handleWorkingSetMaster : TaskControllerServer × List Outbound :=
  match s.tryHandleWorkingSetMaster msg with
  | .ok r => r
  | .error _ => (s, [])

/-! ### Runs -/

inductive Op
  | clientMessage (cbs : ServerCallbacks) (msg : Message)
  | workingSetMaster (msg : Message)
  | update (elapsedMs : ℕ)
  | activatePool (addr : Address)
  | start
  | stop

/-- A failed `start` changes nothing. -/
def step : Op → TaskControllerServer
  | .clientMessage cbs msg => (handleClientMessage cbs s msg).1
  | .workingSetMaster msg => (s.handleWorkingSetMaster msg).1
  | .update elapsedMs => (s.update elapsedMs).1
  | .activatePool addr => (s.activatePool addr).1
  | .start => match s.start with
      | .ok s' => s'
      | .error _ => s
  | .stop => s.stop

end TaskControllerServer

end Machbus.Tc
