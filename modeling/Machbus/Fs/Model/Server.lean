import Machbus.Common.OrderedMap
import Machbus.Fs.Model.Types
/-!
# File server — server

The server keeps the files and directories of one volume, a table of open
handles, and an entry for each client it has heard from: where the client
stands, the handles it has open, and the answers it was given last. The
two records of the handles are changed side by side.
-/

namespace Machbus.Fs

/-! ## State -/

structure ServerClientConnection where
  clientAddress : Address
  ccmSeen : Bool := false
  lastCcmTimestampMs : ℕ := 0
  currentDirectory : Text := root
  openHandles : List FileHandle := []
  tanCache : OrderedMap TAN TANResponse := []
  deriving DecidableEq, Repr

namespace ServerClientConnection

def new (addr : Address) : ServerClientConnection := { clientAddress := addr }

def isConnected (c : ServerClientConnection) (currentTimeMs timeoutMs : ℕ) : Bool :=
  decide (currentTimeMs - c.lastCcmTimestampMs ≤ timeoutMs)

def updateCcm (c : ServerClientConnection) (currentTimeMs : ℕ) : ServerClientConnection :=
  { c with ccmSeen := true, lastCcmTimestampMs := currentTimeMs }

end ServerClientConnection

structure OpenFile where
  handle : FileHandle
  owner : Address
  path : Text
  position : ℕ
  flags : UInt8
  isDirectory : Bool
  directoryPattern : Text
  deriving DecidableEq, Repr

/-- The handle of a client. -/
def OpenFile.isOf (client : Address) (handle : FileHandle) (f : OpenFile) : Bool :=
  f.handle == handle && f.owner == client

structure FileServerConfig where
  statusBroadcastIntervalMs : ℕ := 2000
  busyStatusIntervalMs : ℕ := 200
  ccmTimeoutMs : ℕ := 6000
  tanCacheTimeoutMs : ℕ := 10000
  maxOpenFilesPerClient : ℕ := 8
  maxOpenFilesTotal : ℕ := 32
  supportsDirectories : Bool := true
  supportsFileAttributes : Bool := true
  supportsMoveFile : Bool := true
  supportsDeleteFile : Bool := true
  supportsVolumeManagement : Bool := true
  deriving DecidableEq, Repr

structure FileServer where
  config : FileServerConfig
  files : OrderedMap Text (List UInt8)
  fileAttrs : OrderedMap Text UInt8
  fileDateTimes : OrderedMap Text (ℕ × ℕ)
  directories : List Text
  openFiles : List OpenFile
  nextHandle : FileHandle
  clients : OrderedMap Address ServerClientConnection
  busyReading : Bool
  busyWriting : Bool
  statusTimerMs : ℕ
  currentTimeMs : ℕ
  volumeState : VolumeState
  volumeName : Text
  volumeRemovalTimerMs : ℕ
  volumeMaxRemovalTimeMs : ℕ
  volumeMaintainRequests : List Address
  volumeCapacityBytes : ℕ
  properties : FileServerProperties
  deriving DecidableEq, Repr

namespace FileServer

def new (config : FileServerConfig) : FileServer :=
  let config := { config with
    maxOpenFilesPerClient := min config.maxOpenFilesPerClient fsSupportedCountMax
    maxOpenFilesTotal := min config.maxOpenFilesTotal fsSupportedCountMax }
  { config
    files := []
    fileAttrs := []
    fileDateTimes := []
    directories := [root]
    openFiles := []
    nextHandle := 1
    clients := []
    busyReading := false
    busyWriting := false
    statusTimerMs := 0
    currentTimeMs := 0
    volumeState := .present
    volumeName := ['I', 'S', 'O', 'B', 'U', 'S']
    volumeRemovalTimerMs := 0
    volumeMaxRemovalTimeMs := 10000
    volumeMaintainRequests := []
    volumeCapacityBytes := 64 * 1024 * 1024
    properties := FileServerProperties.normalizedForWire
      { maxSimultaneousFiles := config.maxOpenFilesTotal } }

variable (s : FileServer)

/-! ## Looking things up -/

def usedBytes : ℕ := (s.files.map (·.2.length)).sum

def freeBytes : ℕ := s.volumeCapacityBytes - s.usedBytes

def isBusy : Bool := s.busyReading || s.busyWriting

variable (path : Text)

def directoryExists : Bool :=
  match normalizeDirectoryPath path root with
  | .ok path => s.directories.contains path
  | .error _ => false

def isPathOpen : Bool := s.openFiles.any (·.path == path)

def openFileAccessConflicts (requestedFlags : UInt8) : Bool :=
  s.openFiles.any fun f =>
    !f.isDirectory && f.path == path && (openModeWrites requestedFlags || openModeWrites f.flags)

def isFilePathDirectory : Bool :=
  if path = root then true else s.directories.contains (ensureDirectorySuffix path)

def fileExistsAtDirectoryPath (directoryPath : Text) : Bool :=
  if directoryPath = root then false else (s.files.get (trimEnd directoryPath)).isSome

def fileDateTime : ℕ × ℕ := (s.fileDateTimes.get path).getD defaultFileDateTime

def isReadOnly : Bool := (s.fileAttrs.get path).any (hasAttribute · .readOnly)

/-- Where a client stands. -/
def currentDirectory (client : Address) : Text :=
  ((s.clients.get client).map (·.currentDirectory)).getD root

variable (client : Address)

def findOpen (handle : FileHandle) : Option OpenFile :=
  s.openFiles.find? (OpenFile.isOf client handle)

def fileEntry (path name : Text) (size : ℕ) (attributes : UInt8) : FileEntry :=
  ⟨name, size, attributes, (s.fileDateTime path).1, (s.fileDateTime path).2⟩

def listDirectory (path pattern : Text) : List FileEntry :=
  match normalizeDirectoryPath path root with
  | .error _ => []
  | .ok path =>
    (s.files.filterMap fun e =>
      (e.1.dropPrefix? path).bind fun filename =>
        if filename.isEmpty || filename.contains sep then none
        else if pattern != ['*'] && !wildcardMatch filename pattern then none
        else some (s.fileEntry e.1 filename (fsFileSizeToWire e.2.length)
          ((s.fileAttrs.get e.1).getD 0))) ++
    s.directories.filterMap fun dir =>
      (dir.dropPrefix? path).bind fun subdir =>
        if dir == path || subdir.isEmpty then none
        -- a separator before the end: the entry is further down
        else if subdir.dropLast.contains sep then none
        else if pattern != ['*'] && !wildcardMatch subdir pattern then none
        else some (s.fileEntry dir subdir 0 FileAttributes.directory.bit)

def encodeDirectoryEntry (entry : FileEntry) : Option (List UInt8) :=
  let nameBytes := utf8 entry.name
  if 255 < nameBytes.length ∨ nameBytes.length = 0 then none
  else some (UInt8.ofNat nameBytes.length :: nameBytes ++ [entry.attributes] ++
    leBytes entry.date 2 ++ leBytes entry.time 2 ++ leBytes entry.size 4)

/-! ## The volume -/

def effectiveVolumeState : VolumeState :=
  match s.volumeState with
  | .removed => .removed
  | .preparingForRemoval => .preparingForRemoval
  | _ => if !s.openFiles.isEmpty || !s.volumeMaintainRequests.isEmpty then .inUse else .present

def volumeMaxRemovalTimeMinutes : ℕ := min ((s.volumeMaxRemovalTimeMs + 59999) / 60000) 250

variable (tan : TAN)

/-- The answer to a volume status request, with the given status byte. -/
def volumeStatusResponse (status : UInt8) : List UInt8 :=
  [FSFunction.volumeStatus.asU8, tan, status, UInt8.ofNat s.volumeMaxRemovalTimeMinutes] ++
    leBytes (utf8 s.volumeName).length 2 ++ utf8 s.volumeName

def encodeVolumeStatusResponse (state : VolumeState) : List UInt8 :=
  s.volumeStatusResponse tan state.asU8

def encodeVolumeStatusErrorResponse : List UInt8 := s.volumeStatusResponse tan 0xFF

def broadcastVolumeStatus : FSOutbound :=
  .broadcast (s.encodeVolumeStatusResponse invalidTan s.effectiveVolumeState)

/-- A name that is not UTF-8 matches nothing. -/
def volumeStatusPathMatches (path : List UInt8) : Bool :=
  path == [] || path == utf8 root || path == utf8 s.volumeName

def clearAllOpenHandles : FileServer :=
  { s with
    openFiles := []
    clients := s.clients.mapValues fun c => { c with openHandles := [] } }

def clearMediaDependentClientState : FileServer :=
  { s with
    openFiles := []
    clients := s.clients.mapValues fun c => { c with openHandles := [], currentDirectory := root } }

def prepareVolumeForRemoval : FileServer × List FSOutbound :=
  match s.volumeState with
  | .present | .inUse =>
    let s := { s with
      volumeState := .preparingForRemoval
      volumeRemovalTimerMs := 0
      volumeMaintainRequests := [] }
    (s, [s.broadcastVolumeStatus])
  | _ => (s, [])

def receiveVolumeMaintainRequest : FileServer :=
  if s.volumeState ≠ .preparingForRemoval then s
  else if s.volumeMaintainRequests.contains client then s
  else { s with volumeMaintainRequests := s.volumeMaintainRequests ++ [client] }

def clearVolumeMaintainRequest : FileServer :=
  { s with volumeMaintainRequests := s.volumeMaintainRequests.filter (· != client) }

def setVolumeRemoved : FileServer × List FSOutbound :=
  let s := clearMediaDependentClientState { s with volumeState := .removed }
  (s, [s.broadcastVolumeStatus])

def reinsertVolume : FileServer × List FSOutbound :=
  if s.volumeState ≠ .removed then (s, [])
  else
    let s := { s with volumeState := .present }
    (s, [s.broadcastVolumeStatus])

/-! ## Set-up by the application -/

variable (data : List UInt8)

def addFile (attrs : UInt8) : Except Error FileServer := do
  let path ← normalizePreloadedFilePath path
  .ok { s with
    files := s.files.insert path data
    fileAttrs := s.fileAttrs.insert path attrs
    fileDateTimes := s.fileDateTimes.insert path defaultFileDateTime }

/-- Takes a file out with all that is kept about it. -/
def dropFile : FileServer :=
  { s with
    files := s.files.remove path
    fileAttrs := s.fileAttrs.remove path
    fileDateTimes := s.fileDateTimes.remove path }

def removeFile : FileServer × Bool :=
  match normalizePreloadedFilePath path with
  | .error _ => (s, false)
  | .ok path => (s.dropFile path, (s.files.get path).isSome)

def addDirectory : Except Error FileServer := do
  let p ← normalizeDirectoryPath path root
  .ok { s with
    directories := if s.directories.contains p then s.directories else s.directories ++ [p]
    fileDateTimes := if (s.fileDateTimes.get p).isSome then s.fileDateTimes
      else s.fileDateTimes.insert p defaultFileDateTime }

/-- The path under which the dates of a file or directory are kept. -/
def dateTimePath : Option Text :=
  match (normalizePreloadedFilePath path).toOption.filter (fun p => (s.files.get p).isSome) with
  | some p => some p
  | none => (normalizeDirectoryPath path root).toOption.filter s.directories.contains

def setFileDateTime (date time : ℕ) : Except Error FileServer := do
  require (dosDateTimeIsSupported date time)
    (.invalidData "FileServer: DOS file date/time contains out-of-range fields")
  let path ← given (s.dateTimePath path) (.invalidData
    "FileServer: date/time path must name an existing file or directory")
  .ok { s with fileDateTimes := s.fileDateTimes.insert path (date, time) }

def setProperties (p : FileServerProperties) : FileServer :=
  { s with properties := p.normalizedForWire }

def setVolumeName (name : Text) : Except Error FileServer := do
  require (isValidVolumeName name)
    (.invalidData ("FileServer: volume_name must be 1..=255 bytes " ++
    "and contain no path separators, wildcards, quotes, control characters, or reserved DOS " ++
    "punctuation"))
  .ok { s with volumeName := name }

/-! ## Handles -/

/-- `0` and `0xFF` are left out of the numbering. -/
def nextHandleAfter (h : FileHandle) : FileHandle :=
  if h + 1 = 0 ∨ h + 1 = invalidFileHandle then 1 else h + 1

/-- The handle found within `n` tries, and where to start the next time. -/
def allocateLoop (openFiles : List OpenFile) : ℕ → FileHandle → FileHandle × FileHandle
  | 0, next => (invalidFileHandle, next)
  | n + 1, candidate =>
    if candidate ≠ invalidFileHandle ∧ candidate ≠ reservedFileHandle0 ∧
        ¬openFiles.any (·.handle == candidate) then
      (candidate, nextHandleAfter candidate)
    else allocateLoop openFiles n (nextHandleAfter candidate)

def allocateHandle : FileHandle × FileHandle := allocateLoop s.openFiles 255 s.nextHandle

/-- Changes what is kept about a client. -/
def modifyClient (f : ServerClientConnection → ServerClientConnection) : FileServer :=
  { s with clients := s.clients.modify client f }

/-- A client that is heard from for the first time gets an entry. -/
def ensureClient : FileServer :=
  if (s.clients.get client).isSome then s
  else { s with clients := s.clients.insert client (.new client) }

/-- The handle goes into both tables. -/
def pushOpen (f : OpenFile) : FileServer :=
  { s with openFiles := s.openFiles ++ [f] }.modifyClient f.owner fun c =>
    { c with openHandles := c.openHandles ++ [f.handle] }

/-- Moves the pointer of a handle. -/
def setPosition (handle : FileHandle) (position : ℕ) : FileServer :=
  { s with openFiles :=
      modifyFirst (OpenFile.isOf client handle) (fun f => { f with position }) s.openFiles }

/-! ## Requests -/

/-- What a request does to the server and what is answered, or an error
that leaves the server as it was. -/
abbrev Answer := Except FSError (FileServer × List UInt8)

/-- The answer to a request that changes nothing. -/
def same (response : Except FSError (List UInt8)) : Answer := response.map (s, ·)

/-- The directory to be opened exists or is made. -/
def provideDirectory (dirPath : Text) (flags : UInt8) : Except FSError FileServer := do
  if s.directoryExists dirPath then .ok s
  else
    require (¬s.fileExistsAtDirectoryPath dirPath) .invalidAccess
    require (hasFlag flags .create) .notFound
    require (s.directoryExists (fileParentDirectoryPath dirPath)) .notFound
    .ok { s with
      directories := s.directories ++ [dirPath]
      fileDateTimes := s.fileDateTimes.insert dirPath defaultFileDateTime }

variable (flags : UInt8)

/-- The file to be opened exists or is made. -/
def provideFile : Except FSError FileServer := do
  require (¬s.isFilePathDirectory path) .invalidAccess
  if (s.files.get path).isSome then
    require (¬(hasFlag flags .create ∧ hasFlag flags .exclusive)) .accessDenied
    require (¬s.openFileAccessConflicts path flags) .accessDenied
    .ok s
  else
    require (hasFlag flags .create) .notFound
    require (s.directoryExists (fileParentDirectoryPath path))
      (if s.fileExistsAtDirectoryPath (fileParentDirectoryPath path) then .invalidAccess
       else .notFound)
    .ok { s with
      files := s.files.insert path []
      fileAttrs := s.fileAttrs.insert path 0
      fileDateTimes := s.fileDateTimes.insert path defaultFileDateTime }

/-- What is to be opened, of either kind. -/
def provide (isDirListing : Bool) : Except FSError FileServer :=
  if isDirListing then s.provideDirectory path flags else s.provideFile path flags

/-- Where the pointer starts: at the end of a file that is appended to. -/
def initialPosition (isDirListing : Bool) : Except FSError ℕ :=
  if !isDirListing && hasFlag flags .append then
    (given (s.files.get path) .notFound).map (fsFileSizeToWire ·.length)
  else .ok 0

/-- What a request to open names: the path and, for a directory, the
pattern of the listing. -/
def openTarget (requestedPath : Text) (isDirListing : Bool) : Except FSError (Text × Text) :=
  (if isDirListing then normalizeDirectoryListingRequest requestedPath (s.currentDirectory client)
   else (normalizeClientPath requestedPath (s.currentDirectory client) false).map
    (·, ['*'])).mapError fun _ => .invalidSourceName

/-- How many files may be open: the configured or the advertised limit. -/
def maxOpenFiles : ℕ := min s.config.maxOpenFilesTotal s.properties.maxSimultaneousFiles

/-- The last part of opening: a handle for what is there by now. -/
def openHandle (path directoryPattern : Text) (position : ℕ)
    (flags : UInt8) (isDirectory : Bool) : FileServer × List UInt8 :=
  let (handle, nextHandle) := s.allocateHandle
  let s := { s with nextHandle }
  if handle = invalidFileHandle then
    (s, encodeErrorResponse FSFunction.openFile.asU8 tan .tooManyOpen)
  else
    (s.pushOpen
      { handle, owner := client, path, position, flags, isDirectory, directoryPattern },
     frame8 [FSFunction.openFile.asU8, tan, FSError.success.asU8, handle])

variable (request : List UInt8)

def handleOpenFile : Answer := do
  require (s.volumeState ≠ .removed) .mediaNotPresent
  require (5 ≤ request.length) .malformedRequest
  let flags := u8At request 2
  let pathBytes ← given (countedPathBytes request 3 5) .malformedRequest
  let requestedPath ← given (decodeWirePath pathBytes) .invalidSourceName
  require (openFlagsHaveNoReservedBits flags) .invalidAccess
  let accessMode := getAccessMode flags
  let isDirListing := accessMode == OpenFlags.openDir.bit
  require (¬(isDirListing ∧ ¬s.config.supportsDirectories)) .notSupported
  require (¬(hasFlag flags .append ∧ (accessMode = OpenFlags.read.bit ∨ isDirListing)))
    .invalidAccess
  let (path, directoryPattern) ← s.openTarget client requestedPath isDirListing
  require (¬(s.clients.get client).any fun c =>
    decide (s.config.maxOpenFilesPerClient ≤ c.openHandles.length)) .tooManyOpen
  require (s.openFiles.length < s.maxOpenFiles) .tooManyOpen
  let provided ← s.provide path flags isDirListing
  let position ← provided.initialPosition path flags isDirListing
  .ok (provided.openHandle client tan path directoryPattern position flags isDirListing)

def handleCloseFile : Answer := do
  require (3 ≤ request.length) .malformedRequest
  require (fsPayloadLenIsCanonical request 3) .malformedRequest
  let handle := u8At request 2
  require ((s.findOpen client handle).isSome) .invalidHandle
  .ok ({ s with openFiles := s.openFiles.eraseP (OpenFile.isOf client handle) }.modifyClient client
      fun c => { c with openHandles := c.openHandles.filter (· != handle) },
    successResponse .closeFile tan)

/-- What a read answers: how much was read, and the bytes of it. -/
def readResponse (count : ℕ) (payload : List UInt8) : List UInt8 :=
  [FSFunction.readFile.asU8, tan, FSError.success.asU8] ++ leBytes count 2 ++ payload

def handleReadDirectory (f : OpenFile) (tan : TAN) (count : ℕ) (reportHidden : Bool) : Answer := do
  let entries := (s.listDirectory f.path f.directoryPattern).filter fun e =>
    reportHidden || !hasAttribute e.attributes .hidden
  require (f.position < entries.length) .endOfFile
  let toRead := min count (entries.length - f.position)
  let encoded ← given (((entries.drop f.position).take toRead).mapM encodeDirectoryEntry)
    .invalidLength
  .ok (s.setPosition f.owner f.handle (satAdd32 f.position toRead),
    readResponse tan toRead encoded.flatten)

def handleReadFile : Answer := do
  require (s.volumeState ≠ .removed) .mediaNotPresent
  require (8 ≤ request.length) .malformedRequest
  require (fsPayloadLenIsCanonical request 8) .malformedRequest
  require (u8At request 6 = 0xFF ∧ u8At request 7 = 0xFF) .malformedRequest
  let handle := u8At request 2
  let count := u16At request 3
  require (u8At request 5 = 0 ∨ u8At request 5 = 0xFF ∨ u8At request 5 = 1) .invalidAccess
  let reportHidden := u8At request 5 == 1
  let f ← given (s.findOpen client handle) .invalidHandle
  if f.isDirectory then s.handleReadDirectory f tan count reportHidden
  else
    let mode := getAccessMode f.flags
    require (mode = OpenFlags.read.bit ∨ mode = OpenFlags.readWrite.bit) .invalidAccess
    let data ← given (s.files.get f.path) .notFound
    let fileLen := fsFileSizeToWire data.length
    require (f.position < fileLen) .endOfFile
    let toRead := min count (fileLen - f.position)
    .ok (s.setPosition client handle (f.position + toRead),
      readResponse tan toRead (slice data f.position (f.position + toRead)))

/-- The bytes with others written over them, filled up with zeros where
they end before that. -/
def writeAt (position : ℕ) (bytes : List UInt8) : List UInt8 :=
  let data := data ++ List.replicate (position + bytes.length - data.length) 0
  data.take position ++ bytes ++ data.drop (position + bytes.length)

def handleWriteFile : Answer := do
  require (s.volumeState ≠ .removed) .mediaNotPresent
  require (5 ≤ request.length) .malformedRequest
  let handle := u8At request 2
  let count := u16At request 3
  require (fsPayloadLenIsCanonical request (5 + count)) .malformedRequest
  let f ← given (s.findOpen client handle) .invalidHandle
  require (¬f.isDirectory) .invalidHandle
  let mode := getAccessMode f.flags
  require (mode = OpenFlags.write.bit ∨ mode = OpenFlags.readWrite.bit) .invalidAccess
  require (¬s.isReadOnly f.path) .accessDenied
  let data ← given (s.files.get f.path) .notFound
  require (f.position + count ≤ u32Max) .noSpace
  let s := { s with
    files := s.files.insert f.path (writeAt data f.position (slice request 5 (5 + count))) }
  let s := s.setPosition client handle (f.position + count)
  .ok ({ s with fileDateTimes := s.fileDateTimes.insert f.path defaultFileDateTime },
    frame8 ([FSFunction.writeFile.asU8, tan, FSError.success.asU8] ++ leBytes count 2))

/-- `i32::from_le_bytes`, as an integer. -/
def i32At (i : ℕ) : ℤ := (UInt32.ofNat (u32At data i)).toInt32.toInt

/-- Where a seek counts from: the start, the pointer or the end. -/
def seekBase (mode : UInt8) (position stop : ℕ) : Option ℕ :=
  match mode.toNat with
  | 0 => some 0
  | 1 => some position
  | 2 => some stop
  | _ => none

def handleSeekFile : Answer := do
  require (s.volumeState ≠ .removed) .mediaNotPresent
  require (fsPayloadLenIsCanonical request 8) .malformedRequest
  let handle := u8At request 2
  let offset := i32At request 4
  let f ← given (s.findOpen client handle) .invalidHandle
  require (¬f.isDirectory) .invalidHandle
  let stop := ((s.files.get f.path).map (fsFileSizeToWire ·.length)).getD 0
  let base ← given (seekBase (u8At request 3) f.position stop) .invalidAccess
  let target : ℤ := base + offset
  require (0 ≤ target ∧ target ≤ stop)
    (if f.position = stop ∧ stop < target then .endOfFile else .invalidLength)
  .ok (s.setPosition client handle target.toNat,
    [FSFunction.seekFile.asU8, tan, FSError.success.asU8, 0xFF] ++ leBytes target.toNat 4)

def handleGetProperties : Except FSError (List UInt8) := do
  require (fsPayloadLenIsCanonical request 2) .malformedRequest
  .ok (s.properties.encodeResponse tan)

def handleGetCurrentDirectory : Except FSError (List UInt8) := do
  require (s.volumeState ≠ .removed) .mediaNotPresent
  require (fsPayloadLenIsCanonical request 2) .malformedRequest
  require s.config.supportsDirectories .notSupported
  let cwd := utf8 (s.currentDirectory client)
  require (cwd.length ≤ fsWireStringMaxLen) .invalidLength
  .ok ([FSFunction.getCurrentDirectory.asU8, tan, FSError.success.asU8] ++
    leBytes (fsSpaceBlocks s.volumeCapacityBytes) 4 ++ leBytes (fsSpaceBlocks s.freeBytes) 4 ++
    leBytes cwd.length 2 ++ cwd)

def setCurrentDirectory (f : Text → Text) : FileServer :=
  (s.ensureClient client).modifyClient client fun c =>
    { c with currentDirectory := f c.currentDirectory }

def handleChangeDirectory : Answer := do
  require (s.volumeState ≠ .removed) .mediaNotPresent
  let pathBytes ← given (countedPathBytes request 2 4) .malformedRequest
  require s.config.supportsDirectories .notSupported
  let requestedPath ← given (decodeWirePath pathBytes) .invalidSourceName
  let response := successResponse .changeDirectory tan
  if requestedPath = ['.', '.'] then .ok (s.setCurrentDirectory client parentOfCurrent, response)
  else if requestedPath = ['.'] then .ok (s, response)
  else if requestedPath = [] ∨ requestedPath = root then
    .ok (s.setCurrentDirectory client fun _ => root, response)
  else
    let targetPath ← (normalizeDirectoryPath requestedPath (s.currentDirectory client)).mapError
      fun _ => .invalidSourceName
    require (s.directories.contains targetPath)
      (if s.fileExistsAtDirectoryPath targetPath then .invalidAccess else .notFound)
    .ok (s.setCurrentDirectory client fun _ => targetPath, response)

def handleMoveFile : Answer := do
  require (s.volumeState ≠ .removed) .mediaNotPresent
  require s.config.supportsMoveFile .notSupported
  let (sourcePath, destinationPath) ←
    given (parseTwoCountedFilePaths request (s.currentDirectory client)) .malformedRequest
  require (sourcePath ≠ destinationPath) .invalidDestName
  require (¬s.isFilePathDirectory sourcePath) .invalidAccess
  require (¬(s.isPathOpen sourcePath ∨ s.isPathOpen destinationPath)) .accessDenied
  require (¬((s.files.get destinationPath).isSome ∨ s.directoryExists destinationPath))
    .accessDenied
  let destinationParent := fileParentDirectoryPath destinationPath
  require (s.directoryExists destinationParent)
    (if s.fileExistsAtDirectoryPath destinationParent then .invalidAccess else .invalidDestName)
  require (¬s.isReadOnly sourcePath) .accessDenied
  let data ← given (s.files.get sourcePath) .notFound
  let attrs := (s.fileAttrs.get sourcePath).getD 0
  let dateTime := s.fileDateTime sourcePath
  let s := s.dropFile sourcePath
  .ok ({ s with
      files := s.files.insert destinationPath data
      fileAttrs := s.fileAttrs.insert destinationPath attrs
      fileDateTimes := s.fileDateTimes.insert destinationPath dateTime },
    successResponse .moveFile tan)

/-- A directory with something in it. -/
def directoryNonEmpty (directory : Text) : Bool :=
  s.files.keys.any (directory.isPrefixOf ·) ||
    s.directories.any fun d => d != directory && directory.isPrefixOf d

def handleDeleteFile : Answer := do
  require (s.volumeState ≠ .removed) .mediaNotPresent
  require s.config.supportsDeleteFile .notSupported
  let path ← given (parseCountedFileOrDirectoryPath request 2 (s.currentDirectory client))
    .malformedRequest
  if s.isFilePathDirectory path then
    let directory := ensureDirectorySuffix path
    require (directory ≠ root) .accessDenied
    require (¬s.directoryNonEmpty directory) .accessDenied
    .ok ({ s with
        directories := s.directories.filter (· != directory)
        fileDateTimes := s.fileDateTimes.remove directory },
      successResponse .deleteFile tan)
  else
    require (¬s.isPathOpen path) .accessDenied
    require (¬s.isReadOnly path) .accessDenied
    require ((s.files.get path).isSome) .notFound
    .ok (s.dropFile path, successResponse .deleteFile tan)

def handleGetFileAttributes : Except FSError (List UInt8) := do
  require (s.volumeState ≠ .removed) .mediaNotPresent
  require s.config.supportsFileAttributes .notSupported
  let path ← given (parseCountedFilePath request 2 (s.currentDirectory client)) .malformedRequest
  let attrs ← match s.fileAttrs.get path with
    | some attrs => .ok attrs
    | none => if s.directoryExists path then .ok FileAttributes.directory.bit else .error .notFound
  .ok (frame8 [FSFunction.getFileAttributes.asU8, tan, FSError.success.asU8, attrs])

def handleSetFileAttributes : Answer := do
  require (s.volumeState ≠ .removed) .mediaNotPresent
  require s.config.supportsFileAttributes .notSupported
  require (5 ≤ request.length) .malformedRequest
  let newAttrs := u8At request 2
  require (newAttrs &&& ~~~fileAttributesClientSettable = 0) .invalidAccess
  let path ← given (parseCountedFilePathWithCountAt request 3 5 (s.currentDirectory client))
    .malformedRequest
  require (¬s.isFilePathDirectory path) .invalidAccess
  require ((s.files.get path).isSome) .notFound
  require (¬s.isPathOpen path) .accessDenied
  .ok ({ s with fileAttrs := s.fileAttrs.insert path newAttrs },
    successResponse .setFileAttributes tan)

def handleGetFileDateTime : Except FSError (List UInt8) := do
  require (s.volumeState ≠ .removed) .mediaNotPresent
  let parsed ← given (parseCountedFilePathU16 request (s.currentDirectory client)) .malformedRequest
  let path ← parsed.mapError fun _ => .invalidSourceName
  require (path ≠ root) .accessDenied
  let directoryPath := ensureDirectorySuffix path
  let dateTimePath ←
    if (s.files.get path).isSome then .ok path
    else if s.directoryExists directoryPath then .ok directoryPath
    else .error .notFound
  let (date, time) := s.fileDateTime dateTimePath
  .ok (frame8 ([FSFunction.getFileDateTime.asU8, tan, FSError.success.asU8] ++
    leBytes date 2 ++ leBytes time 2))

def handleInitializeVolume : Answer := do
  require s.config.supportsVolumeManagement .notSupported
  require (s.volumeState ≠ .removed) .mediaNotPresent
  let newVolumeName ← given (parseInitializeVolumeRequest request) .malformedRequest
  require (s.openFiles = []) .accessDenied
  let s := { s with
    files := []
    fileAttrs := []
    fileDateTimes := []
    directories := [root] }.clearAllOpenHandles
  .ok ({ s with
      clients := s.clients.mapValues fun c => { c with currentDirectory := root }
      volumeName := newVolumeName.getD s.volumeName
      volumeState := if s.volumeState = .removed then .present else s.volumeState },
    successResponse .initializeVolume tan)

def handleVolumeStatus : FileServer × List FSOutbound :=
  let error : FileServer × List FSOutbound :=
    (s, [.sendTo (s.encodeVolumeStatusErrorResponse tan) client])
  let answer (s : FileServer) : FileServer × List FSOutbound :=
    (s, [.sendTo (s.encodeVolumeStatusResponse tan s.effectiveVolumeState) client])
  let used := 5 + u16At request 3
  if request.length < 5 then error
  else if ¬fsPayloadLenIsCanonical request used then error
  else if ¬s.volumeStatusPathMatches (slice request 5 used) then error
  else
    match (u8At request 2 &&& 0x03).toNat with
    | 2 =>
      let r := s.prepareVolumeForRemoval
      if r.2.isEmpty then answer r.1 else r
    | 1 => answer (s.receiveVolumeMaintainRequest client)
    | 0 =>
      let s := s.clearVolumeMaintainRequest client
      if s.volumeState = .preparingForRemoval ∧ s.openFiles = [] ∧
          s.volumeMaintainRequests = [] then
        s.setVolumeRemoved
      else answer s
    | _ => error

/-- The request of one function. -/
def handleFunction (function : FSFunction) (tan : TAN) (request : List UInt8) : Answer :=
  match function with
  | .openFile => s.handleOpenFile client tan request
  | .closeFile => s.handleCloseFile client tan request
  | .readFile => s.handleReadFile client tan request
  | .writeFile => s.handleWriteFile client tan request
  | .seekFile => s.handleSeekFile client tan request
  | .getFileServerProperties => s.same (s.handleGetProperties tan request)
  | .getCurrentDirectory => s.same (s.handleGetCurrentDirectory client tan request)
  | .changeDirectory => s.handleChangeDirectory client tan request
  | .moveFile => s.handleMoveFile client tan request
  | .deleteFile => s.handleDeleteFile client tan request
  | .getFileAttributes => s.same (s.handleGetFileAttributes client tan request)
  | .setFileAttributes => s.handleSetFileAttributes client tan request
  | .getFileDateTime => s.same (s.handleGetFileDateTime client tan request)
  | .initializeVolume => s.handleInitializeVolume tan request
  | .fileServerStatus | .volumeStatus => .error .notSupported

def executeFunction (functionCode : UInt8) (tan : TAN) (request : List UInt8) :
    FileServer × List UInt8 :=
  match FSFunction.tryFromU8 functionCode with
  | none => (s, encodeErrorResponse functionCode tan .notSupported)
  | some function =>
    match s.handleFunction client function tan request with
    | .ok r => r
    | .error e => (s, encodeErrorResponse functionCode tan e)

/-- The answer is kept for when the request comes a second time. -/
def cacheResponse (request response : List UInt8) : FileServer :=
  s.modifyClient client fun c =>
    { c with tanCache := c.tanCache.insert tan ⟨tan, request, response, s.currentTimeMs⟩ }

/-- The answer a client was given to the very same request. -/
def cachedResponse : Option TANResponse :=
  ((s.clients.get client).bind (·.tanCache.get tan)).filter (·.requestData == request)

def handleCcm : FileServer := s.modifyClient client (·.updateCcm s.currentTimeMs)

def handleClientMessage (msg : Message) : FileServer × List FSOutbound :=
  let function := u8At msg.data 0
  let tan := u8At msg.data 1
  if msg.pgn ≠ pgnFileClientToServer ∨ ¬msg.hasUsableSource ∨ ¬msg.hasValidDestinationForPgn ∨
      msg.data.length < 2 then (s, [])
  else if function = ccmFunctionCode then
    if (CCMMessage.decode msg.data).isNone then (s, [])
    else ((s.ensureClient msg.source).handleCcm msg.source, [])
  else if tan = invalidTan then
    (s, [.sendTo (encodeErrorResponse function tan .tanError) msg.source])
  else
    let s := s.ensureClient msg.source
    match s.cachedResponse msg.source tan msg.data with
    | some cached => (s, [.sendTo cached.responseData msg.source])
    | none =>
      if function = FSFunction.volumeStatus.asU8 then
        let r := s.handleVolumeStatus msg.source tan msg.data
        match r.2.head? with
        | some first => (r.1.cacheResponse msg.source tan msg.data first.data, r.2)
        | none => r
      else
        let r := s.executeFunction msg.source function tan msg.data
        (r.1.cacheResponse msg.source tan msg.data r.2, [.sendTo r.2 msg.source])

/-! ## Time -/

def broadcastStatus : FSOutbound :=
  .broadcast (FileServerStatus.encode
    { busyReading := s.busyReading
      busyWriting := s.busyWriting
      numberOfOpenFiles := s.openFiles.length })

def updateVolumeStateMachine (elapsedMs : ℕ) : FileServer × List FSOutbound :=
  match s.volumeState with
  | .present => (if s.openFiles ≠ [] then { s with volumeState := .inUse } else s, [])
  | .inUse => (if s.openFiles = [] then { s with volumeState := .present } else s, [])
  | .preparingForRemoval =>
    let s := { s with volumeRemovalTimerMs := satAdd32 s.volumeRemovalTimerMs elapsedMs }
    if s.openFiles = [] ∧ s.volumeMaintainRequests = [] ∨
        s.volumeMaxRemovalTimeMs ≤ s.volumeRemovalTimerMs then
      s.setVolumeRemoved
    else (s, [])
  | .removed => (s, [])

def cleanupExpiredTanCache : FileServer :=
  { s with clients := s.clients.mapValues fun c =>
      { c with tanCache := c.tanCache.retain fun _ r =>
          !r.isExpired s.currentTimeMs s.config.tanCacheTimeoutMs } }

/-- The clients whose last maintenance message is too long ago. -/
def disconnectedClients : List Address :=
  (s.clients.filter fun e => !e.2.isConnected s.currentTimeMs s.config.ccmTimeoutMs).map (·.1)

/-- They are forgotten with their handles. -/
def cleanupDisconnectedClients : FileServer :=
  { s with
    openFiles := s.openFiles.filter fun f => !s.disconnectedClients.contains f.owner
    clients := s.clients.retain fun addr _ => !s.disconnectedClients.contains addr }

/-- How often the status is sent. -/
def statusIntervalMs : ℕ :=
  if s.isBusy then s.config.busyStatusIntervalMs else s.config.statusBroadcastIntervalMs

def update (elapsedMs : ℕ) : FileServer × List FSOutbound :=
  let s := { s with currentTimeMs := satAdd32 s.currentTimeMs elapsedMs }
  let r := s.updateVolumeStateMachine elapsedMs
  let s := r.1.cleanupExpiredTanCache.cleanupDisconnectedClients
  let s := { s with statusTimerMs := satAdd32 s.statusTimerMs elapsedMs }
  if s.statusIntervalMs ≤ s.statusTimerMs then
    ({ s with statusTimerMs := 0 }, r.2 ++ [s.broadcastStatus])
  else (s, r.2)

end FileServer

/-! ## Runs -/

/-- What the bus and the clock do to a server. -/
inductive ServerAct
  | message (msg : Message)
  | update (elapsedMs : ℕ)

variable (s : FileServer)

def FileServer.act : ServerAct → FileServer × List FSOutbound
  | .message msg => s.handleClientMessage msg
  | .update elapsedMs => s.update elapsedMs

def FileServer.step (a : ServerAct) : FileServer := (s.act a).1

/-- What an application does with a server before it serves anyone. A
call that fails changes nothing. -/
inductive SetUp
  | addFile (path : Text) (data : List UInt8) (attrs : UInt8)
  | removeFile (path : Text)
  | addDirectory (path : Text)
  | setFileDateTime (path : Text) (date time : ℕ)
  | setProperties (p : FileServerProperties)
  | setVolumeName (name : Text)
  | setVolumeCapacityBytes (bytes : ℕ)
  | setBusy (reading writing : Bool)

def FileServer.setUp : SetUp → FileServer
  | .addFile path data attrs => (s.addFile path data attrs).toOption.getD s
  | .removeFile path => (s.removeFile path).1
  | .addDirectory path => (s.addDirectory path).toOption.getD s
  | .setFileDateTime path date time => (s.setFileDateTime path date time).toOption.getD s
  | .setProperties p => s.setProperties p
  | .setVolumeName name => (s.setVolumeName name).toOption.getD s
  | .setVolumeCapacityBytes bytes => { s with volumeCapacityBytes := bytes }
  | .setBusy reading writing => { s with busyReading := reading, busyWriting := writing }

/-- A request as it comes from a client. -/
def requestOf (client : Address) (data : List UInt8) : Message :=
  .withAddressing pgnFileClientToServer data client 0x80 .default

/-- Every call an application can make. -/
inductive Call
  | setUp (c : SetUp)
  | act (a : ServerAct)
  | prepareVolumeForRemoval
  | receiveVolumeMaintainRequest (client : Address)
  | clearVolumeMaintainRequest (client : Address)
  | setVolumeRemoved
  | reinsertVolume

def FileServer.call : Call → FileServer
  | .setUp c => s.setUp c
  | .act a => s.step a
  | .prepareVolumeForRemoval => s.prepareVolumeForRemoval.1
  | .receiveVolumeMaintainRequest client => s.receiveVolumeMaintainRequest client
  | .clearVolumeMaintainRequest client => s.clearVolumeMaintainRequest client
  | .setVolumeRemoved => s.setVolumeRemoved.1
  | .reinsertVolume => s.reinsertVolume.1

end Machbus.Fs
