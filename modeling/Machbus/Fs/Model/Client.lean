import Machbus.Fs.Model.Server
import Machbus.Common.Link
import Machbus.Common.Run
/-!
# File server — client

A client numbers its requests, remembers what it asked under each number
and takes the first answer with that number and the right command byte.
It keeps the handles it was given until it hears that they are closed,
that the volume is gone or initialized, or until it hears nothing at all
for too long. One client and one server are joined by a bus that delivers
in order; a schedule decides when, and when either is driven by its
application.
-/

namespace Machbus.Fs

/-! ## State -/

inductive ClientState
  | disconnected
  | waitingForStatus
  | connected
  | error
  deriving DecidableEq, Repr

structure OpenFileInfo where
  handle : FileHandle
  path : Text
  flags : UInt8
  position : ℕ
  deriving DecidableEq, Repr

/-- A request that waits for its answer. -/
structure PendingRequest where
  tan : TAN
  function : FSFunction
  timestampMs : ℕ
  requestData : List UInt8
  deriving DecidableEq, Repr

def PendingRequest.isExpired (r : PendingRequest) (currentTimeMs timeoutMs : ℕ) : Bool :=
  decide (timeoutMs < currentTimeMs - r.timestampMs)

structure FileClientConfig where
  ccmIntervalMs : ℕ := 2000
  requestTimeoutMs : ℕ := 6000
  serverStatusTimeoutMs : ℕ := 6000
  deriving DecidableEq, Repr

structure FSClientOutbound where
  pgn : ℕ
  data : List UInt8
  dest : Option Address
  deriving DecidableEq, Repr

def FSClientOutbound.new (data : List UInt8) (dest : Address) : FSClientOutbound :=
  ⟨pgnFileClientToServer, data, some dest⟩

/-- What the application is told. -/
inductive ClientEvent
  | connected
  | disconnected
  | error (e : FSError)
  | fileOpened (handle : FileHandle) (path : Text)
  | fileClosed (handle : FileHandle)
  | openResponse (tan : TAN) (result : Except FSError FileHandle)
  | propertiesResponse (tan : TAN) (result : Except FSError FileServerProperties)
  | closeResponse (tan : TAN) (result : Except FSError FileHandle)
  | readResponse (tan : TAN) (result : Except FSError (List UInt8))
  | writeResponse (tan : TAN) (result : Except FSError ℕ)
  | seekResponse (tan : TAN) (result : Except FSError ℕ)
  | currentDirectoryResponse (tan : TAN) (result : Except FSError Text)
  | changeDirectoryResponse (tan : TAN) (result : Except FSError Text)
  | moveResponse (tan : TAN) (result : Except FSError Unit)
  | deleteResponse (tan : TAN) (result : Except FSError Unit)
  | fileAttributesResponse (tan : TAN) (result : Except FSError UInt8)
  | setFileAttributesResponse (tan : TAN) (result : Except FSError Unit)
  | fileDateTimeResponse (tan : TAN) (result : Except FSError (ℕ × ℕ))
  | initializeVolumeResponse (tan : TAN) (result : Except FSError Unit)
  | volumeStatus (state : VolumeState)

structure FileClient where
  serverAddress : Address := nullAddress
  config : FileClientConfig
  state : ClientState := .disconnected
  ccmTimerMs : ℕ := 0
  serverStatusTimerMs : ℕ := 0
  currentTimeMs : ℕ := 0
  nextTan : TAN := 0
  pendingRequests : OrderedMap TAN PendingRequest := []
  serverProperties : Option FileServerProperties := none
  serverVersion : Option UInt8 := none
  serverStatus : Option FileServerStatus := none
  openFiles : OrderedMap FileHandle OpenFileInfo := []
  currentDirectory : Text := root
  volumeTotalBlocks : ℕ := 0
  volumeFreeBlocks : ℕ := 0
  deriving DecidableEq, Repr

namespace FileClient

def new (config : FileClientConfig) : FileClient := { config }

variable (c : FileClient)

def isConnected : Bool := c.state == .connected

/-! ## Requests -/

def allocateTan : FileClient × TAN :=
  ({ c with nextTan := if c.nextTan + 1 = invalidTan then 0 else c.nextTan + 1 }, c.nextTan)

variable (tan : TAN)

def trackRequest (function : FSFunction) (request : List UInt8) : FileClient :=
  { c with pendingRequests :=
      c.pendingRequests.insert tan ⟨tan, function, c.currentTimeMs, request⟩ }

/-- A request under the next number, remembered and sent. -/
def request (function : FSFunction) (rest : List UInt8) : FileClient × FSClientOutbound :=
  let data := function.asU8 :: c.nextTan :: rest
  (c.allocateTan.1.trackRequest c.nextTan function data, .new data c.serverAddress)

/-- The bytes behind command and number, filled up to one frame. -/
def fill6 (used : List UInt8) : List UInt8 := used ++ List.replicate (6 - used.length) 0xFF

def fsMaxPathLen : ℕ := 65535

variable (path : Text)

def isAscii : Bool := path.all fun c => decide (c.toNat < 0x80)

/-- The length of a string, in bytes. -/
def len : ℕ := (utf8 path).length

/-- A path behind its length. -/
def counted : List UInt8 := leBytes (len path) 2 ++ utf8 path

def ensureServerAddressForRequest : Except Error Unit :=
  require (¬(c.serverAddress = nullAddress ∨ c.serverAddress = broadcastAddress))
    (.invalidState "FS client request has no usable destination server address")

def ensureConnectedForRequest : Except Error Unit := require c.isConnected .notConnected

/-- Without a look at the state of the client. -/
def requestServerProperties : FileClient × FSClientOutbound :=
  c.request .getFileServerProperties (fill6 [])

def tryRequestServerProperties : Except Error (FileClient × FSClientOutbound) := do
  c.ensureServerAddressForRequest
  require (c.state = .waitingForStatus ∨ c.state = .connected) .notConnected
  .ok c.requestServerProperties

def tryConnectToServer (server : Address) : Except Error (FileClient × FSClientOutbound) := do
  require (¬(server = nullAddress ∨ server = broadcastAddress))
    (.invalidData "FS client connect requested with an unusable server address")
  require (c.state = .disconnected)
    (.invalidState "FS client connect requested while not disconnected")
  tryRequestServerProperties { c with
    serverAddress := server
    state := .waitingForStatus
    ccmTimerMs := 0
    serverStatusTimerMs := 0 }

/-- Requests to close what is open, under the numbers that come next. -/
def closeFrames : List FileHandle → FileClient → FileClient × List FSClientOutbound
  | [], c => (c, [])
  | handle :: handles, c =>
    let r := closeFrames handles c.allocateTan.1
    (r.1, .new (frame8 [FSFunction.closeFile.asU8, c.nextTan, handle]) c.serverAddress :: r.2)

/-- The requests to close need not be sent. -/
def disconnect : FileClient × List FSClientOutbound :=
  let r := closeFrames c.openFiles.keys c
  ({ r.1 with
      state := .disconnected
      serverAddress := nullAddress
      pendingRequests := []
      openFiles := []
      currentDirectory := root }, r.2)

def tryOpenFile (flags : UInt8) : Except Error (FileClient × FSClientOutbound) := do
  require c.isConnected .notConnected
  let openDir := getAccessMode flags == OpenFlags.openDir.bit
  require (isAscii path ∧ len path ≤ fsMaxPathLen ∧ openFlagsHaveNoReservedBits flags ∧
      isValidFsPath path openDir false)
    (.invalidData ("invalid FS path or OpenFile path length " ++ toString (len path)))
  .ok (c.request .openFile (flags :: counted path))

variable (handle : FileHandle)

/-- The handle is one the client was given. -/
def knownHandle : Except Error Unit :=
  require ((c.openFiles.get handle).isSome)
    (.invalidData ("unknown FS file handle " ++ toString handle.toNat))

def tryCloseFile : Except Error (FileClient × FSClientOutbound) := do
  c.knownHandle handle
  .ok (c.request .closeFile (fill6 [handle]))

def tryReadFile (count : ℕ) : Except Error (FileClient × FSClientOutbound) := do
  c.knownHandle handle
  .ok (c.request .readFile (fill6 (handle :: leBytes count 2)))

def tryWriteFile (payload : List UInt8) : Except Error (FileClient × FSClientOutbound) := do
  c.knownHandle handle
  require (payload.length ≤ 65535)
    (.invalidData ("FS WriteFile payload length " ++ toString payload.length ++
      " exceeds 65535 bytes"))
  .ok (c.request .writeFile (fill6 (handle :: leBytes payload.length 2 ++ payload)))

inductive SeekMode
  | start
  | current
  | stop
  deriving DecidableEq, Repr

def SeekMode.asU8 : SeekMode → UInt8
  | start => 0
  | current => 1
  | stop => 2

/-- `i32::to_le_bytes`. -/
def i32Bytes (offset : ℤ) : List UInt8 := leBytes (offset % 2 ^ 32).toNat 4

def trySeekFile (mode : SeekMode) (offset : ℤ) : Except Error (FileClient × FSClientOutbound) := do
  c.knownHandle handle
  .ok (c.request .seekFile (handle :: mode.asU8 :: i32Bytes offset))

def tryGetCurrentDirectory : Except Error (FileClient × FSClientOutbound) := do
  require c.isConnected .notConnected
  .ok (c.request .getCurrentDirectory (fill6 []))

def tryChangeDirectory : Except Error (FileClient × FSClientOutbound) := do
  require c.isConnected .notConnected
  require (isAscii path ∧ len path ≤ fsMaxPathLen ∧
      (path = ['.'] ∨ path = ['.', '.'] ∨ isValidFsPath path true false))
    (.invalidData ("invalid FS directory path or ChangeDirectory path length " ++
      toString (len path)))
  .ok (c.request .changeDirectory (counted path))

def isValidCountedFilePath : Bool :=
  isAscii path && decide (len path ≤ fsMaxPathLen) && isValidFsPath path true false

def tryMoveFile (source dest : Text) : Except Error (FileClient × FSClientOutbound) := do
  c.ensureConnectedForRequest
  require (isValidCountedFilePath source ∧ isValidCountedFilePath dest ∧ source ≠ dest)
    (.invalidData ("invalid FS MoveFile source/destination lengths " ++ toString (len source) ++
      " -> " ++ toString (len dest)))
  .ok (c.request .moveFile
    (leBytes (len source) 2 ++ leBytes (len dest) 2 ++ utf8 source ++ utf8 dest))

def tryDeleteFile : Except Error (FileClient × FSClientOutbound) := do
  c.ensureConnectedForRequest
  require (isValidCountedFilePath path)
    (.invalidData ("invalid FS DeleteFile path length " ++ toString (len path)))
  .ok (c.request .deleteFile (counted path))

def tryGetFileAttributes : Except Error (FileClient × FSClientOutbound) := do
  c.ensureConnectedForRequest
  require (isValidCountedFilePath path)
    (.invalidData ("invalid FS GetFileAttributes path length " ++ toString (len path)))
  .ok (c.request .getFileAttributes (counted path))

def trySetFileAttributes (attrs : UInt8) : Except Error (FileClient × FSClientOutbound) := do
  c.ensureConnectedForRequest
  require (isValidCountedFilePath path ∧ attrs &&& ~~~fileAttributesClientSettable = 0)
    (.invalidData ("invalid FS SetFileAttributes path length " ++ toString (len path) ++
      " or attributes 0x" ++ hexUpper 2 attrs.toNat))
  .ok (c.request .setFileAttributes (attrs :: counted path))

def tryGetFileDateTime : Except Error (FileClient × FSClientOutbound) := do
  require c.isConnected .notConnected
  require (isAscii path ∧ len path ≤ 65535 ∧ isValidFsPath path true false)
    (.invalidData ("invalid FS path or GetFileDateTime path length " ++ toString (len path)))
  .ok (c.request .getFileDateTime (counted path))

/-- Asking for the status, asking to keep the volume, announcing its
removal. -/
inductive VolumeMode
  | query
  | maintain
  | prepareRemoval
  deriving DecidableEq, Repr

def VolumeMode.asU8 : VolumeMode → UInt8
  | query => 0
  | maintain => 0x01
  | prepareRemoval => 0x02

def tryVolumeStatusRequest (name : Text) (mode : VolumeMode) :
    Except Error (FileClient × FSClientOutbound) := do
  require (¬(c.serverAddress = nullAddress ∨ c.serverAddress = broadcastAddress)) .notConnected
  require (len name ≤ 65535 ∧ (name = [] ∨ isValidVolumeName name))
    (.invalidData ("invalid FS volume name or VolumeStatus name length " ++ toString (len name)))
  .ok (c.request .volumeStatus (mode.asU8 :: counted name))

def tryInitializeVolume (name : Text) (availableSpace : ℕ) (flags : UInt8) :
    Except Error (FileClient × FSClientOutbound) := do
  c.ensureConnectedForRequest
  require (flags &&& ~~~0x03 = 0 ∧ len name ≤ 65535 ∧ (name = [] ∨ isValidVolumeName name))
    (.invalidData ("invalid FS InitializeVolume name length " ++ toString (len name) ++
      " or flags 0x" ++ hexUpper 2 flags.toNat))
  .ok (c.request .initializeVolume (leBytes availableSpace 4 ++ flags :: counted name))

/-! ## Time -/

def sendCcm : FSClientOutbound := .new (CCMMessage.encode ⟨fsVersionNumber⟩) c.serverAddress

variable (elapsedMs : ℕ)

/-- A connected client reports itself every so often. -/
def updateCcm : FileClient × List FSClientOutbound :=
  if c.isConnected then
    if c.config.ccmIntervalMs ≤ satAdd32 c.ccmTimerMs elapsedMs then
      ({ c with ccmTimerMs := 0 }, [c.sendCcm])
    else ({ c with ccmTimerMs := satAdd32 c.ccmTimerMs elapsedMs }, [])
  else (c, [])

/-- A server that is silent for too long is given up, without a word to
it. -/
def updateStatus : FileClient × List ClientEvent :=
  if c.state = .waitingForStatus ∨ c.state = .connected then
    let c := { c with serverStatusTimerMs := satAdd32 c.serverStatusTimerMs elapsedMs }
    if c.config.serverStatusTimeoutMs ≤ c.serverStatusTimerMs then
      (c.disconnect.1, [.disconnected])
    else (c, [])
  else (c, [])

def expireRequests : FileClient :=
  { c with pendingRequests := c.pendingRequests.retain fun _ r =>
      !r.isExpired c.currentTimeMs c.config.requestTimeoutMs }

def update : FileClient × List FSClientOutbound × List ClientEvent :=
  let r := updateCcm { c with currentTimeMs := satAdd32 c.currentTimeMs elapsedMs } elapsedMs
  let t := r.1.updateStatus elapsedMs
  (t.1.expireRequests, r.2, t.2)

/-! ## Answers -/

def decodeResponseError (response : List UInt8) : Except FSError FSError :=
  match response[2]? with
  | none => .error .malformedRequest
  | some raw => given (FSError.tryFromU8 raw) .malformedRequest

/-- A state, the events on the way and what the answer comes to. -/
abbrev Heard := FileClient × List ClientEvent

variable (data : List UInt8)

def parseVolumeStatusRequestName : Option Text :=
  if data.length < 5 ∨ FSFunction.tryFromU8 (u8At data 0) ≠ some .volumeStatus then none
  else
    let stop := 5 + u16At data 3
    if ¬fsPayloadLenIsCanonical data stop then none
    else do
      let name ← decodeWirePath (slice data 5 stop)
      if name ≠ [] ∧ ¬isValidVolumeName name then none else some name

def parseVolumeStatusFields : Option (VolumeState × Option Text) :=
  if data.length < 4 ∨ FSFunction.tryFromU8 (u8At data 0) ≠ some .volumeStatus then none
  else do
    let state ← VolumeState.tryFromU8 (u8At data 2)
    if 250 < (u8At data 3).toNat then none
    else if fsPayloadLenIsCanonical data 4 then some (state, none)
    else if data.length < 6 then none
    else if data.length = 6 + u16At data 4 then do
      let name ← decodeWirePath (data.drop 6)
      if name ≠ [] ∧ ¬isValidVolumeName name then none else some (state, some name)
    else none

/-- The volume is gone, or is as new. -/
def clearMediaState : FileClient := { c with openFiles := [], currentDirectory := root }

/-- Nothing is said where the answer is not to what was asked. -/
def handleVolumeStatusResponse (tan : Option TAN) (requestedName : Option Text) : Option Heard :=
  match parseVolumeStatusFields data with
  | none => none
  | some (state, responseName) =>
    if (requestedName.filter (· ≠ [])).any (fun name => responseName ≠ some name) then none
    else
      let c := match tan with
        | some tan => { c with pendingRequests := c.pendingRequests.remove tan }
        | none => { c with pendingRequests := c.pendingRequests.retain fun _ r =>
          r.function != .volumeStatus }
      some (if state = .removed then c.clearMediaState else c, [.volumeStatus state])

/-- A busy server is given time. -/
def handleStatusBroadcast : Option Heard :=
  if data.length < 2 then none
  else match FileServerStatus.decode data with
    | some status =>
      let pending := if status.busyReading || status.busyWriting then
          c.pendingRequests.mapValues fun r => { r with timestampMs := c.currentTimeMs }
        else c.pendingRequests
      some ({ c with pendingRequests := pending, serverStatus := some status }, [])
    | none =>
      if data.length < 3 then none
      else if u8At data 1 = invalidTan then c.handleVolumeStatusResponse data none none
      else none

def handlePropertiesResponse (response : List UInt8) : Heard :=
  match FileServerProperties.decodeResponse response with
  | none => (c, [.propertiesResponse tan (.error .malformedRequest)])
  | some (_, p) =>
    let c := { c with serverVersion := some p.versionNumber, serverProperties := some p }
    let heard := ClientEvent.propertiesResponse tan (.ok p)
    if c.state = .waitingForStatus then ({ c with state := .connected }, [heard, .connected])
    else (c, [heard])

/-- What every answer starts with: long enough, a known code, success. -/
def succeeded (least used : ℕ) (response : List UInt8) : Except (FSError × List ClientEvent)
    Unit := do
  require (least ≤ response.length) (.malformedRequest, [])
  let error ← (decodeResponseError response).mapError (·, [])
  require (error = .success) (error, [.error error])
  require (fsPayloadLenIsCanonical response used) (.malformedRequest, [])

/-- The events of an answer: what went wrong on the way, then the answer. -/
def answered {α : Type} (event : Except FSError α → ClientEvent)
    (r : Except (FSError × List ClientEvent) (FileClient × List ClientEvent × α)) : Heard :=
  match r with
  | .ok (c, events, a) => (c, events ++ [event (.ok a)])
  | .error (e, events) => (c, events ++ [event (.error e)])

/-- The handle a request was about. -/
def requestHandle (request : List UInt8) : FileHandle :=
  if 3 ≤ request.length then u8At request 2 else invalidFileHandle

variable (request response : List UInt8)

def handleOpenResponse : Heard :=
  c.answered (.openResponse tan) do
    succeeded 4 4 response
    let handle := u8At response 3
    require (¬(handle = reservedFileHandle0 ∨ handle = invalidFileHandle)) (.invalidHandle, [])
    if 5 ≤ request.length ∧ 5 + u16At request 3 ≤ request.length then
      let path ← given (decodeWirePath (slice request 5 (5 + u16At request 3)))
        (.invalidSourceName, [])
      .ok ({ c with openFiles := c.openFiles.insert handle ⟨handle, path, u8At request 2, 0⟩ },
        [.fileOpened handle path], handle)
    else .ok (c, [], handle)

def handleCloseResponse : Heard :=
  c.answered (.closeResponse tan) do
    succeeded 3 3 response
    let handle := requestHandle request
    .ok ({ c with openFiles := c.openFiles.remove handle }, [.fileClosed handle], handle)

/-- The pointer the client keeps for a handle. -/
def movePosition (f : ℕ → ℕ) : FileClient :=
  { c with openFiles := c.openFiles.modify handle fun i => { i with position := f i.position } }

/-- Where `count` directory entries end. -/
def directoryEntriesEnd (payload : List UInt8) : ℕ → ℕ → Option ℕ
  | 0, offset => some offset
  | count + 1, offset =>
    match payload[offset]? with
    | none => none
    | some nameLen =>
      if nameLen = 0 then none
      else if payload.length < offset + (1 + nameLen.toNat + 9) then none
      else directoryEntriesEnd payload count (offset + (1 + nameLen.toNat + 9))

/-- The end of a file is an empty answer. -/
def handleReadResponse : Heard :=
  let handle := requestHandle request
  let requested := if 5 ≤ request.length then u16At request 3 else 0
  if response.length < 5 then (c, [.readResponse tan (.error .malformedRequest)])
  else match decodeResponseError response with
    | .error e => (c, [.readResponse tan (.error e)])
    | .ok .endOfFile => (c, [.readResponse tan (.ok [])])
    | .ok .success =>
      let count := u16At response 3
      let openedAsDirectory := (c.openFiles.get handle).any fun i =>
        getAccessMode i.flags == OpenFlags.openDir.bit
      let stop := if openedAsDirectory then directoryEntriesEnd (response.drop 5) count 0
        else some count
      match if requested < count then none else stop.filter fun n =>
          fsPayloadLenIsCanonical response (5 + n) with
      | none => (c, [.readResponse tan (.error .malformedRequest)])
      | some n =>
        (c.movePosition handle (satAdd32 · count),
          [.readResponse tan (.ok (slice response 5 (5 + n)))])
    | .ok e => (c, [.error e, .readResponse tan (.error e)])

def handleWriteResponse : Heard :=
  let requested := if 5 ≤ request.length then u16At request 3 else 0
  c.answered (.writeResponse tan) do
    succeeded 8 8 response
    let written := u16At response 3
    require (written ≤ requested) (.malformedRequest, [])
    .ok (c.movePosition (requestHandle request) (satAdd32 · written), [], written)

def handleSeekResponse : Heard :=
  c.answered (.seekResponse tan) do
    succeeded 3 8 response
    let position := u32At response 4
    .ok (c.movePosition (requestHandle request) fun _ => position, [], position)

def handleGetDirectoryResponse (response : List UInt8) : Heard :=
  match decodeResponseError response with
  | .error e => (c, [.currentDirectoryResponse tan (.error e)])
  | .ok .success =>
    if response.length < 13 then (c, [.currentDirectoryResponse tan (.error .malformedRequest)])
    else
      let c := { c with
        volumeTotalBlocks := u32At response 3
        volumeFreeBlocks := u32At response 7 }
      let stop := 13 + u16At response 11
      if ¬fsPayloadLenIsCanonical response stop then
        (c, [.currentDirectoryResponse tan (.error .malformedRequest)])
      else match (decodeWirePath (slice response 13 stop)).filter
          (fun path => path ≠ [] ∧ isValidFsPath path true false) with
        | none => (c, [.currentDirectoryResponse tan (.error .invalidSourceName)])
        | some path =>
          ({ c with currentDirectory := path }, [.currentDirectoryResponse tan (.ok path)])
  | .ok e => (c, [.currentDirectoryResponse tan (.error e)])

/-- `current_directory[..idx + 1]` at the last separator but the one at
the end. -/
def parentDirectory (current : Text) : Text :=
  if current = root then root
  else match splitLast sep (trimEnd current) with
    | some (before, _) => before ++ [sep]
    | none => root

def resolveClientDirectoryResponsePath (current requested : Text) : Option Text :=
  let body := trimSeparators requested
  if requested = ['.'] then some current
  else if requested = ['.', '.'] then some (parentDirectory current)
  else if requested = root then some root
  else if requested = [] ∨ ¬isValidFsPath requested true false then none
  else if body = [] then some root
  else if requested.head? = some sep ∨ current = root then some (sep :: body ++ [sep])
  else some (current ++ body ++ [sep])

def handleChangeDirectoryResponse : Heard :=
  c.answered (.changeDirectoryResponse tan) do
    succeeded 3 3 response
    require (4 ≤ request.length ∧ 4 + u16At request 2 ≤ request.length) (.malformedRequest, [])
    let requested ← given (decodeWirePath (slice request 4 (4 + u16At request 2)))
      (.invalidSourceName, [])
    let path ← given (resolveClientDirectoryResponsePath c.currentDirectory requested)
      (.invalidSourceName, [])
    .ok ({ c with currentDirectory := path }, [], path)

def parseSimpleOperationResponse (event : Except FSError Unit → ClientEvent) (response : List UInt8)
    (clearsMediaState : Bool) : Heard :=
  c.answered event do
    succeeded 3 3 response
    .ok (if clearsMediaState then c.clearMediaState else c, [], ())

def handleFileAttributesResponse (response : List UInt8) : Heard :=
  c.answered (.fileAttributesResponse tan) do
    succeeded 4 4 response
    .ok (c, [], u8At response 3)

def handleFileDateTimeResponse (response : List UInt8) : Heard :=
  c.answered (.fileDateTimeResponse tan) do
    require (3 ≤ response.length) (.malformedRequest, [])
    let error ← (decodeResponseError response).mapError (·, [])
    require (error = .success) (error, [.error error])
    require (response.length = 8 ∧ u8At response 7 = 0xFF) (.malformedRequest, [])
    let date := u16At response 3
    let time := u16At response 5
    require (dosDateTimeIsSupported date time) (.malformedRequest, [])
    .ok (c, [], (date, time))

/-- The answer to a request that waited for it. -/
def handleAnswer (pending : PendingRequest) (tan : TAN) (data : List UInt8) : Heard :=
  match pending.function with
  | .fileServerStatus | .volumeStatus => (c, [])
  | .getFileServerProperties => c.handlePropertiesResponse tan data
  | .openFile => c.handleOpenResponse tan pending.requestData data
  | .closeFile => c.handleCloseResponse tan pending.requestData data
  | .readFile => c.handleReadResponse tan pending.requestData data
  | .writeFile => c.handleWriteResponse tan pending.requestData data
  | .seekFile => c.handleSeekResponse tan pending.requestData data
  | .getCurrentDirectory => c.handleGetDirectoryResponse tan data
  | .changeDirectory => c.handleChangeDirectoryResponse tan pending.requestData data
  | .moveFile => c.parseSimpleOperationResponse (.moveResponse tan) data false
  | .deleteFile => c.parseSimpleOperationResponse (.deleteResponse tan) data false
  | .getFileAttributes => c.handleFileAttributesResponse tan data
  | .setFileAttributes => c.parseSimpleOperationResponse (.setFileAttributesResponse tan) data false
  | .getFileDateTime => c.handleFileDateTimeResponse tan data
  | .initializeVolume => c.parseSimpleOperationResponse (.initializeVolumeResponse tan) data true

/-- What was heard from the server shows that it is there. -/
def heardFrom (r : Option Heard) : Heard :=
  match r with
  | none => (c, [])
  | some (c, events) => ({ c with serverStatusTimerMs := 0 }, events)

def handleServerResponse (msg : Message) : Heard :=
  let function := u8At msg.data 0
  let tan := u8At msg.data 1
  if msg.pgn ≠ pgnFileServerToClient ∨ ¬msg.hasUsableSource ∨ ¬msg.hasValidDestinationForPgn then
    (c, [])
  else if c.serverAddress ≠ nullAddress ∧ msg.source ≠ c.serverAddress then (c, [])
  else if msg.data.length < 2 then (c, [])
  else if function = FSFunction.fileServerStatus.asU8 ∨ tan = 0xFF then
    c.heardFrom (c.handleStatusBroadcast msg.data)
  else match c.pendingRequests.get tan with
    | none => c.heardFrom (c.handleStatusBroadcast msg.data)
    | some pending =>
      if function ≠ pending.function.asU8 then c.heardFrom (c.handleStatusBroadcast msg.data)
      else if pending.function = .volumeStatus then
        c.heardFrom (c.handleVolumeStatusResponse msg.data (some tan)
          (parseVolumeStatusRequestName pending.requestData))
      else
        handleAnswer { c with
          pendingRequests := c.pendingRequests.remove tan
          serverStatusTimerMs := 0 } pending tan msg.data

end FileClient

/-! ## Client and server over the bus -/

/-- What an application asks a client for. -/
inductive ClientRequest
  | serverProperties
  | tryServerProperties
  | openFile (path : Text) (flags : UInt8)
  | closeFile (handle : FileHandle)
  | readFile (handle : FileHandle) (count : ℕ)
  | writeFile (handle : FileHandle) (payload : List UInt8)
  | seekFile (handle : FileHandle) (mode : FileClient.SeekMode) (offset : ℤ)
  | getCurrentDirectory
  | changeDirectory (path : Text)
  | moveFile (source dest : Text)
  | deleteFile (path : Text)
  | getFileAttributes (path : Text)
  | setFileAttributes (path : Text) (attrs : UInt8)
  | getFileDateTime (path : Text)
  | volumeStatus (name : Text) (mode : FileClient.VolumeMode)
  | initializeVolume (name : Text) (availableSpace : ℕ) (flags : UInt8)

def FileClient.ask (c : FileClient) : ClientRequest → Except Error (FileClient × FSClientOutbound)
  | .serverProperties => .ok c.requestServerProperties
  | .tryServerProperties => c.tryRequestServerProperties
  | .openFile path flags => c.tryOpenFile path flags
  | .closeFile handle => c.tryCloseFile handle
  | .readFile handle count => c.tryReadFile handle count
  | .writeFile handle payload => c.tryWriteFile handle payload
  | .seekFile handle mode offset => c.trySeekFile handle mode offset
  | .getCurrentDirectory => c.tryGetCurrentDirectory
  | .changeDirectory path => c.tryChangeDirectory path
  | .moveFile source dest => c.tryMoveFile source dest
  | .deleteFile path => c.tryDeleteFile path
  | .getFileAttributes path => c.tryGetFileAttributes path
  | .setFileAttributes path attrs => c.trySetFileAttributes path attrs
  | .getFileDateTime path => c.tryGetFileDateTime path
  | .volumeStatus name mode => c.tryVolumeStatusRequest name mode
  | .initializeVolume name availableSpace flags => c.tryInitializeVolume name availableSpace flags

/-- What the application does with a client. The frames to close what is
open may be sent after a disconnect or not. -/
inductive ClientAct
  | connect (server : Address)
  | disconnect (ship : Bool)
  | ask (r : ClientRequest)
  | update (elapsedMs : ℕ)

/-- A client and all that its application has been told. -/
structure Station where
  client : FileClient
  heard : List ClientEvent := []

/-- A call that fails changes nothing and sends nothing. -/
def Station.called (s : Station) :
    Except Error (FileClient × FSClientOutbound) → Station × List FSClientOutbound
  | .ok (c, o) => ({ s with client := c }, [o])
  | .error _ => (s, [])

def Station.act (s : Station) : ClientAct → Station × List FSClientOutbound
  | .connect server => s.called (s.client.tryConnectToServer server)
  | .disconnect ship =>
    (⟨s.client.disconnect.1, s.heard ++ [.disconnected]⟩,
      if ship then s.client.disconnect.2 else [])
  | .ask r => s.called (s.client.ask r)
  | .update elapsedMs =>
    let r := s.client.update elapsedMs
    (⟨r.1, s.heard ++ r.2.2⟩, r.2.1)

def Station.receive (s : Station) (msg : Message) : Station :=
  let r := s.client.handleServerResponse msg
  ⟨r.1, s.heard ++ r.2⟩

/-- The answers to reads, in the order they were reported. -/
def readsIn (heard : List ClientEvent) : List (Except FSError (List UInt8)) :=
  heard.filterMap fun
    | .readResponse _ result => some result
    | _ => none

/-- The handles that were reported open. -/
def opensIn (heard : List ClientEvent) : List FileHandle :=
  heard.filterMap fun
    | .openResponse _ (.ok handle) => some handle
    | _ => none

/-- Where the two are. -/
structure Exchange where
  client : Address
  server : Address

namespace Exchange

variable (x : Exchange)

/-- What the client sends to the server, as the server receives it. -/
def fromClient (os : List FSClientOutbound) : List Message :=
  (os.filter fun o => o.dest = some x.server).map fun o =>
    .withAddressing o.pgn o.data x.client x.server .default

/-- What the server sends to the client or to everyone, as the client
receives it. -/
def fromServer (os : List FSOutbound) : List Message :=
  (os.filter fun o => o.dest = none ∨ o.dest = some x.client).map fun o =>
    .withAddressing o.pgn o.data x.server (o.dest.getD broadcastAddress) .default

def parties : Parties Station FileServer Message ClientAct ℕ where
  recvLeft s m := (s.receive m, [])
  recvRight s m := ((s.handleClientMessage m).1, x.fromServer (s.handleClientMessage m).2)
  actLeft s a := ((s.act a).1, x.fromClient (s.act a).2)
  actRight s elapsedMs := ((s.update elapsedMs).1, x.fromServer (s.update elapsedMs).2)

abbrev State := Link Station FileServer Message
abbrev Act := LinkAct ClientAct ℕ

def step : State → Act → State := Link.step x.parties

/-- Nobody has sent anything yet. -/
def start (client : FileClient) (server : FileServer) : State := ⟨⟨client, []⟩, server, [], [], []⟩

end Exchange

end Machbus.Fs
