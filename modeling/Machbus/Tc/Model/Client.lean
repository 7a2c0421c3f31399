import Machbus.Common.Link
import Machbus.Tc.Model.Server
/-!
# Task controller — client

The client finds a server by its status message, introduces itself,
exchanges versions and labels, uploads its pool and activates it. A new
pool is put in place by deactivating and deleting the old one first. One
client and one server are joined by a bus that delivers in order; a
schedule decides when, and when either is driven by its application.
-/

namespace Machbus.Tc

def clientTaskIntervalMs : ℕ := 2000

structure TCClientConfig where
  timeoutMs : ℕ := 6000
  deriving DecidableEq, Repr

structure TCClientCapabilities where
  version : UInt8 := 4
  maxBootTime : UInt8 := 0xFF
  options : UInt8 := 0
  booms : UInt8 := 0
  sections : UInt8 := 0
  channels : UInt8 := 0
  deriving DecidableEq, Repr

inductive TCState
  | disconnected
  | waitForStartup
  | waitForServerStatus
  | sendWorkingSetMaster
  | requestVersion
  | waitForVersion
  | processDdop
  | requestStructureLabel
  | waitForStructureLabel
  | requestLocalizationLabel
  | waitForLocalizationLabel
  | transferDdop
  | waitForPoolResponse
  | activatePool
  | waitForActivation
  | connected
  | deactivatePool
  | waitForDeactivation
  | deletePool
  | waitForDeletePool
  deriving DecidableEq, Repr

/-- Error code, then the size that was received. -/
def isObjectPoolTransferResponse (data : List UInt8) : Bool := isPaddedFixed8 data 6

/-- Error code, then the faulty object and its parent. -/
def isObjectPoolActivateResponse (data : List UInt8) : Bool := isPaddedFixed8 data 7

/-- What the application answers when it is asked; `none` where no
callback is installed. -/
structure ClientCallbacks where
  value : Option (ElementNumber → DDI → Except Error Int32) := none
  command : Option (ElementNumber → DDI → Int32 → Except Error Unit) := none

structure TaskControllerClient where
  config : TCClientConfig
  state : TCState := .disconnected
  ddop : DDOP := {}
  timerMs : ℕ := 0
  /-- Apart from `timerMs`, which every status resets. -/
  clientTaskTimerMs : ℕ := 0
  taskTotalsActive : Bool := false
  tcAddress : Address := nullAddress
  tcVersion : UInt8 := 0
  capabilities : TCClientCapabilities := {}
  numBooms : UInt8 := 0
  numSections : UInt8 := 0
  deriving DecidableEq, Repr

namespace TaskControllerClient

def new (config : TCClientConfig) : TaskControllerClient where
  config := config

variable (c : TaskControllerClient)

def setDdop (pool : DDOP) : TaskControllerClient :=
  { c with ddop := pool }

def setCapabilities (capabilities : TCClientCapabilities) : TaskControllerClient :=
  { c with capabilities }

def transition (newState : TCState) : TaskControllerClient :=
  { c with state := newState }

/-- A transition that starts the timer afresh. -/
def enter (newState : TCState) : TaskControllerClient :=
  { c.transition newState with timerMs := 0 }

/-- The error of the validation is replaced. -/
def validated (pool : DDOP) : Except Error Unit :=
  match pool.validate with
  | .ok _ => pure ()
  | .error _ => throw (.invalidState "DDOP validation failed")

def connect : Except Error TaskControllerClient := do
  validated c.ddop
  pure ({ c with tcAddress := nullAddress, tcVersion := 0 }.enter .waitForServerStatus)

def reuploadDdop (pool : DDOP) : Except Error TaskControllerClient := do
  require (c.state = .connected) (.invalidState "TC client is not connected")
  validated pool
  pure ({ c with ddop := pool }.enter .deactivatePool)

/-- The lower of what the client and the server report. -/
def negotiatedDdopVersion : UInt8 :=
  if c.capabilities.version < c.tcVersion then c.capabilities.version else c.tcVersion

/-! ## Frames -/

def buildWorkingSetMaster (memberCount : UInt8) : List UInt8 := padded8 [memberCount]
def buildVersionRequest : List UInt8 := padded8 [Cmd.versionRequest]
def buildRequestStructureLabel : List UInt8 := padded8 [Cmd.requestStructureLabel]
def buildRequestLocalizationLabel : List UInt8 := padded8 [Cmd.requestLocalizationLabel]
def buildDeleteObjectPool : List UInt8 := padded8 [Cmd.deletePool]
def buildActivatePool : List UInt8 := padded8 [Cmd.activatePool]
def buildDeactivatePool : List UInt8 := padded8 [Cmd.activatePool, 0x00]

def buildClientTask (taskTotalsActive : Bool) : List UInt8 :=
  [0xFF, 0xFF, 0xFF, 0xFF, if taskTotalsActive then 1 else 0, 0x00, 0x00, 0x00]

def buildRequestVersionResponse (capabilities : TCClientCapabilities) : List UInt8 :=
  [Cmd.versionResponse, capabilities.version, capabilities.maxBootTime, capabilities.options, 0x00,
   capabilities.booms, capabilities.sections, capabilities.channels]

/-- A frame to the server the client is bound to. -/
def toTc (data : List UInt8) : Outbound :=
  ⟨pgnEcuToTc, data, some c.tcAddress⟩

/-! ## Time -/

def watchdog : TaskControllerClient :=
  if c.config.timeoutMs ≤ c.timerMs then c.transition .disconnected else c

def transferDdop : TaskControllerClient × List Outbound :=
  match c.ddop.serializeForVersion (min c.capabilities.version c.tcVersion) with
  | .ok poolData =>
    (c.enter .waitForPoolResponse, [c.toTc (Cmd.objectPoolTransfer :: poolData)])
  | .error _ => (c.transition .disconnected, [])

/-- The status of the server keeps the connection, the client task
message keeps it at the other end. -/
def keepAlive (elapsedMs : ℕ) : TaskControllerClient × List Outbound :=
  if c.config.timeoutMs ≤ c.timerMs then (c.transition .disconnected, [])
  else
    let c := { c with clientTaskTimerMs := satAdd32 c.clientTaskTimerMs elapsedMs }
    if clientTaskIntervalMs ≤ c.clientTaskTimerMs then
      ({ c with clientTaskTimerMs := 0 }, [c.toTc (buildClientTask c.taskTotalsActive)])
    else (c, [])

def update (elapsedMs : ℕ) : TaskControllerClient × List Outbound :=
  let c := { c with timerMs := satAdd32 c.timerMs elapsedMs }
  match c.state with
  | .waitForServerStatus | .waitForVersion | .waitForStructureLabel | .waitForLocalizationLabel
  | .waitForPoolResponse | .waitForActivation | .waitForDeactivation | .waitForDeletePool =>
    (c.watchdog, [])
  | .sendWorkingSetMaster =>
    (c.enter .requestVersion, [⟨pgnWorkingSetMaster, buildWorkingSetMaster 1, none⟩])
  | .requestVersion => (c.enter .waitForVersion, [c.toTc buildVersionRequest])
  | .requestStructureLabel =>
    (c.enter .waitForStructureLabel, [c.toTc buildRequestStructureLabel])
  | .requestLocalizationLabel =>
    (c.enter .waitForLocalizationLabel, [c.toTc buildRequestLocalizationLabel])
  | .transferDdop => c.transferDdop
  | .activatePool => (c.enter .waitForActivation, [c.toTc buildActivatePool])
  | .deactivatePool => (c.enter .waitForDeactivation, [c.toTc buildDeactivatePool])
  | .deletePool => (c.enter .waitForDeletePool, [c.toTc buildDeleteObjectPool])
  | .connected => c.keepAlive elapsedMs
  | .disconnected | .waitForStartup | .processDdop => (c, [])

/-! ## Messages -/

section

variable (msg : Message)

def handleTcStatus : TaskControllerClient :=
  let c := { c with
    tcAddress := msg.source
    taskTotalsActive := match msg.data[4]? with
      | some status => status &&& 0x01 != 0
      | none => c.taskTotalsActive }
  match c.state with
  | .waitForServerStatus => c.enter .sendWorkingSetMaster
  | .connected => { c with timerMs := 0 }
  | _ => c

def handleVersionResponse : TaskControllerClient :=
  if versionResponseIsCanonical msg.data then
    { c with
      tcVersion := byteAt msg.data 1
      numBooms := byteAt msg.data 5
      numSections := byteAt msg.data 6 }.enter .requestStructureLabel
  else c

/-- What a label of the server means: there is no pool, the label is the
client's own, or there is another pool. -/
def compareLabel (own : Option (List UInt8)) (next : TCState) : TaskControllerClient :=
  if msg.data.length = 8 then
    let label := msg.data.drop 1
    if label = List.replicate 7 0xFF then c.enter .transferDdop
    else if some label = own then c.enter next
    else c.enter .deletePool
  else c

def handleStructureLabelResponse : TaskControllerClient :=
  c.compareLabel msg (c.ddop.devices.head?.map fun dev => dev.structureLabel.toList)
    .requestLocalizationLabel

def handleLocalizationLabelResponse : TaskControllerClient :=
  c.compareLabel msg (c.ddop.devices.head?.map fun dev => dev.localizationLabel.toList)
    .activatePool

def handlePoolResponse : TaskControllerClient :=
  if isObjectPoolTransferResponse msg.data then
    c.enter (if byteAt msg.data 1 = 0 then .activatePool else .disconnected)
  else c

/-- A refused activation leaves the timer as it is. -/
def handleActivateResponse : TaskControllerClient :=
  if isObjectPoolActivateResponse msg.data then
    if byteAt msg.data 1 = 0 then c.enter .connected else c.transition .disconnected
  else c

def handleDeactivateResponse : TaskControllerClient :=
  if isObjectPoolActivateResponse msg.data then
    c.enter (if byteAt msg.data 1 = 0 then .deletePool else .disconnected)
  else c

/-- The error code of a deletion is not looked at. -/
def handleDeletePoolResponse : TaskControllerClient :=
  if isPaddedFixed8 msg.data 2 then c.enter .transferDdop else c

end

variable (cbs : ClientCallbacks)

def handleValueRequest (msg : Message) : List Outbound :=
  if isPaddedFixed8 msg.data 4 then
    match cbs.value with
    | none => []
    | some cb =>
      match cb (elementOf msg.data) (ddiOf msg.data) with
      | .error _ => []
      | .ok value =>
        [⟨pgnEcuToTc, encodeValue (elementOf msg.data) (ddiOf msg.data) value, some msg.source⟩]
  else []

def handleValueCommand (msg : Message) (acknowledge : Bool) : List Outbound :=
  if msg.data.length = 8 then
    let element := elementOf msg.data
    let ddi := ddiOf msg.data
    let error := match cbs.command with
      | some cb =>
        match cb element ddi (valueOf msg.data) with
        | .ok _ => .noError
        | .error _ => .noProcessingResourcesAvailable
      | none => .elementNotSupportedByThisDevice
    if acknowledge then
      [⟨pgnEcuToTc, encodeProcessDataAck element ddi error, some msg.source⟩]
    else []
  else []

variable (c : TaskControllerClient) (msg : Message)

/-- A process-data message: the low four bits of its first byte. -/
def handleProcessData : Except Error (TaskControllerClient × List Outbound) :=
  match ProcessDataCommands.tryFromU8 (byteAt msg.data 0) with
  | none => throw (.invalidData "TC-to-ECU message has reserved process-data command nibble")
  | some .status => pure (c.handleTcStatus msg, [])
  | some .requestValue => do
      require (isPaddedFixed8 msg.data 4)
        (.invalidData "TC request-value process-data frame must be an 8-byte padded frame")
      pure (c, handleValueRequest cbs msg)
  | some .value => do
      require (msg.data.length = 8)
        (.invalidData "TC value process-data frame must be an 8-byte frame")
      pure (c, handleValueCommand cbs msg false)
  | some .setValueAndAcknowledge => do
      require (msg.data.length = 8)
        (.invalidData "TC set-value-and-acknowledge frame must be an 8-byte frame")
      pure (c, handleValueCommand cbs msg true)
  | some command =>
    throw (.invalidState ("unsupported TC-to-ECU process-data command " ++ command.debugName))

/-- A response counts in the state that waits for it; everything else is
process data. -/
def handleResponse : Except Error (TaskControllerClient × List Outbound) :=
  let command := byteAt msg.data 0
  if command = Cmd.tcStatus then pure (c.handleTcStatus msg, [])
  else if c.state = .waitForVersion ∧ command = Cmd.versionResponse then do
    require (versionResponseIsCanonical msg.data)
      (.invalidData "TC version response must be an 8-byte canonical frame")
    pure (c.handleVersionResponse msg, [])
  else if c.state = .waitForStructureLabel ∧ command = Cmd.structureLabel then do
    require (msg.data.length = 8)
      (.invalidData "TC structure-label response must be an 8-byte frame")
    pure (c.handleStructureLabelResponse msg, [])
  else if c.state = .waitForLocalizationLabel ∧ command = Cmd.localizationLabel then do
    require (msg.data.length = 8)
      (.invalidData "TC localization-label response must be an 8-byte frame")
    pure (c.handleLocalizationLabelResponse msg, [])
  else if c.state = .waitForPoolResponse ∧ command = Cmd.objectPoolResponse then do
    require (isObjectPoolTransferResponse msg.data)
      (.invalidData "TC object-pool response must be an 8-byte padded frame")
    pure (c.handlePoolResponse msg, [])
  else if c.state = .waitForActivation ∧ command = Cmd.activateResponse then do
    require (isObjectPoolActivateResponse msg.data)
      (.invalidData "TC activate-pool response must be an 8-byte padded frame")
    pure (c.handleActivateResponse msg, [])
  else if c.state = .waitForDeactivation ∧ command = Cmd.activateResponse then do
    require (isObjectPoolActivateResponse msg.data)
      (.invalidData "TC deactivate-pool response must be an 8-byte padded frame")
    pure (c.handleDeactivateResponse msg, [])
  else if c.state = .waitForDeletePool ∧ command = Cmd.deletePoolResponse then do
    require (isPaddedFixed8 msg.data 2)
      (.invalidData "TC delete-pool response must be an 8-byte padded frame")
    pure (c.handleDeletePoolResponse msg, [])
  else handleProcessData cbs c msg

/-- The server may ask for the client's version in any state. -/
def dispatch : Except Error (TaskControllerClient × List Outbound) :=
  let command := byteAt msg.data 0
  if command = Cmd.versionRequest then do
    require (isPaddedFixed8 msg.data 1)
      (.invalidData "TC version request must be an 8-byte padded frame")
    pure (c, [⟨pgnEcuToTc, buildRequestVersionResponse c.capabilities, some msg.source⟩])
  else do
    require (ProcessDataCommands.tryFromU8 command ≠ some .status ∨ command = Cmd.tcStatus)
      (.invalidData "TC status must use the canonical fixed command byte")
    require (command ≠ Cmd.tcStatus ∨ msg.data.length = 8)
      (.invalidData "TC status must be an 8-byte fixed frame")
    handleResponse cbs c msg

def tryHandleTcMessage : Except Error (TaskControllerClient × List Outbound) := do
  require (msg.pgn = pgnTcToEcu) (.invalidPgn msg.pgn)
  require msg.hasUsableSource (.invalidAddress msg.source)
  require msg.hasValidDestinationForPgn (.invalidAddress msg.destination)
  require (c.tcAddress = nullAddress ∨ msg.source = c.tcAddress)
    (.invalidState ("message from unbound task controller source 0x" ++
      hexUpper 2 msg.source.toNat))
  require (msg.data ≠ []) (.invalidData "TC-to-ECU message must not be empty")
  dispatch cbs c msg

/-- What is malformed is ignored. -/
def handleTcMessage : TaskControllerClient × List Outbound :=
  match tryHandleTcMessage cbs c msg with
  | .ok r => r
  | .error _ => (c, [])

end TaskControllerClient

/-! ## Client and server over the bus -/

/-- A frame as the other end receives it. -/
def Outbound.message (o : Outbound) (source : Address) : Message :=
  .withAddressing o.pgn o.data source (o.dest.getD broadcastAddress) .default

/-- What the application does with a client. -/
inductive ClientAct
  | connect
  | reuploadDdop (pool : DDOP)
  | update (elapsedMs : ℕ)

/-- A call that fails changes nothing. -/
def TaskControllerClient.act (c : TaskControllerClient) :
    ClientAct → TaskControllerClient × List Outbound
  | .connect => match c.connect with
      | .ok c' => (c', [])
      | .error _ => (c, [])
  | .reuploadDdop pool => match c.reuploadDdop pool with
      | .ok c' => (c', [])
      | .error _ => (c, [])
  | .update elapsedMs => c.update elapsedMs

/-- The working set master has a group number of its own. -/
def TaskControllerServer.receive (cbs : ServerCallbacks) (s : TaskControllerServer)
    (msg : Message) : TaskControllerServer × List Outbound :=
  if msg.pgn = pgnWorkingSetMaster then s.handleWorkingSetMaster msg
  else handleClientMessage cbs s msg

/-- The status is sent to everyone. -/
def TaskControllerServer.tick (s : TaskControllerServer) (elapsedMs : ℕ) :
    TaskControllerServer × List Outbound :=
  ((s.update elapsedMs).1, ((s.update elapsedMs).2.map fun data => ⟨pgnTcToEcu, data, none⟩).toList)

/-- Where the two are, and how their applications answer. -/
structure Exchange where
  client : Address
  server : Address
  clientCallbacks : ClientCallbacks := {}
  serverCallbacks : ServerCallbacks := {}

namespace Exchange

variable (x : Exchange)

def sent {S : Type} (source : Address) (r : S × List Outbound) : S × List Message :=
  (r.1, r.2.map (·.message source))

def parties : Parties TaskControllerClient TaskControllerServer Message ClientAct ℕ where
  recvLeft c m := sent x.client (c.handleTcMessage x.clientCallbacks m)
  recvRight s m := sent x.server (s.receive x.serverCallbacks m)
  actLeft c a := sent x.client (c.act a)
  actRight s elapsedMs := sent x.server (s.tick elapsedMs)

abbrev State := Link TaskControllerClient TaskControllerServer Message
abbrev Act := LinkAct ClientAct ℕ

def step : State → Act → State := Link.step x.parties

/-- Nobody has sent anything yet. -/
def start (client : TaskControllerClient) (server : TaskControllerServer) : State :=
  ⟨client, server, [], [], []⟩

/-- An update of the server drops no client for silence. -/
def KeepsClients (l : State) : Act → Prop
  | .right elapsedMs =>
    ∀ c ∈ l.right.clients, satAdd32 c.lastStatusMs elapsedMs < tcClientTimeoutMs
  | _ => True

/-- How often the client is told to connect. -/
def connects (acts : List Act) : ℕ :=
  acts.countP fun
    | .left .connect => true
    | _ => false

end Exchange

end Machbus.Tc
