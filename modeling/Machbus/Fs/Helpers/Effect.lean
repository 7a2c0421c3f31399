import Machbus.Fs.Helpers.Paths
import Machbus.Fs.Model.Server
/-!
# File server — what a request does

Every request either fails and leaves the server as it was, or makes one
of a few changes, under conditions that were checked before. `Effect`
lists them; all that is proved about requests is proved about these
changes.
-/

namespace Machbus.Fs

open FSFunction Option

/-! ## Paths in requests -/

section Requests

variable {request : List UInt8} {cwd path : Text}

/-- What `toOption` keeps is a success. -/
theorem toOption_eq_some {ε α : Type} {x : Except ε α} {a : α} :
    x.toOption = some a ↔ x = .ok a := by
  cases x <;> simp [Except.toOption]

/-- The second of two paths in a request names a file. -/
theorem parseTwoCountedFilePaths_spec {source dest : Text} (hcwd : '/' ∉ cwd)
    (h : parseTwoCountedFilePaths request cwd = some (source, dest)) :
    FilePath dest := by
  rw [parseTwoCountedFilePaths] at h
  split at h
  · cases h
  dsimp only at h
  split at h
  · cases h
  simp only [bind_eq_bind, bind_eq_some_iff, toOption_eq_some] at h
  obtain ⟨_, -, _, -, source', -, dest', hd, rfl, rfl⟩ := h
  exact normalizeClientPath_spec hcwd hd

end Requests

namespace FileServer

/-- The path of what is opened. -/
def OpenPath (isDirectory : Bool) (path : Text) : Prop :=
  if isDirectory then DirectoryPath path else FilePath path

/-- **What is opened is there, or is made.** -/
inductive Provides (s : FileServer) (path : Text) (flags : UInt8) : Bool → FileServer → Prop
  | directory (h : s.directoryExists path = true) : Provides s path flags true s
  | newDirectory (hnew : s.directoryExists path = false)
      (hfile : s.fileExistsAtDirectoryPath path = false)
      (hparent : s.directoryExists (fileParentDirectoryPath path) = true) :
      Provides s path flags true { s with
        directories := s.directories ++ [path]
        fileDateTimes := s.fileDateTimes.insert path defaultFileDateTime }
  | file (h : (s.files.get path).isSome = true) (hdir : s.isFilePathDirectory path = false)
      (hconflict : s.openFileAccessConflicts path flags = false) : Provides s path flags false s
  | newFile (hnew : (s.files.get path).isSome = false) (hdir : s.isFilePathDirectory path = false)
      (hparent : s.directoryExists (fileParentDirectoryPath path) = true) :
      Provides s path flags false { s with
        files := s.files.insert path []
        fileAttrs := s.fileAttrs.insert path 0
        fileDateTimes := s.fileDateTimes.insert path defaultFileDateTime }

/-- Neither the client nor the server has reached its limit. -/
def HasRoom (s : FileServer) (client : Address) : Prop :=
  (∀ c, s.clients.get client = some c → c.openHandles.length < s.config.maxOpenFilesPerClient) ∧
    s.openFiles.length < s.maxOpenFiles

/-- How far a pointer into a file can go. -/
def wireSize (s : FileServer) (path : Text) : ℕ :=
  ((s.files.get path).map (fsFileSizeToWire ·.length)).getD 0

/-- **A request to delete a directory**, to be met: the directory is there,
is not the root and has nothing in it. -/
structure DeletesDirectory (s : FileServer) (client : Address) (request : List UInt8)
    (directory : Text) : Prop where
  function : u8At request 0 = FSFunction.deleteFile.asU8
  volume : s.volumeState ≠ .removed
  supported : s.config.supportsDeleteFile = true
  path : ∃ path, parseCountedFileOrDirectoryPath request 2 (s.currentDirectory client) = some path ∧
    s.isFilePathDirectory path = true ∧ directory = ensureDirectorySuffix path
  notRoot : directory ≠ root
  empty : s.directoryNonEmpty directory = false

/-- **What a request of a client can do.** -/
inductive Effect (client : Address) (request : List UInt8) (s : FileServer) : FileServer → Prop
  | nothing : Effect client request s s
  | opened {t : FileServer} {tan : TAN} {path pattern : Text} {position : ℕ} {flags : UInt8}
      {isDirectory : Bool} (hvolume : s.volumeState ≠ .removed)
      (hmode : isDirectory = (getAccessMode flags == OpenFlags.openDir.bit))
      (hpath : OpenPath isDirectory path) (hroom : s.HasRoom client)
      (hprovided : s.Provides path flags isDirectory t)
      (hposition : isDirectory = false → position ≤ t.wireSize path) :
      Effect client request s (t.openHandle client tan path pattern position flags isDirectory).1
  | closed {handle : FileHandle} (hfunction : u8At request 0 = FSFunction.closeFile.asU8)
      (hhandle : handle = u8At request 2) (hopen : (s.findOpen client handle).isSome = true) :
      Effect client request s
        ({ s with openFiles := s.openFiles.eraseP (OpenFile.isOf client handle) }.modifyClient
          client fun c => { c with openHandles := c.openHandles.filter (· != handle) })
  | sought {handle : FileHandle} {f : OpenFile} {position : ℕ}
      (hopen : s.findOpen client handle = some f)
      (hposition : f.isDirectory = false → position ≤ s.wireSize f.path) :
      Effect client request s (s.setPosition client handle position)
  | wrote {handle : FileHandle} {f : OpenFile} {data bytes : List UInt8}
      {dateTimes : OrderedMap Text (ℕ × ℕ)} (hopen : s.findOpen client handle = some f)
      (hdata : s.files.get f.path = some data) (hfit : f.position + bytes.length ≤ u32Max) :
      Effect client request s
        { { s with files := s.files.insert f.path (writeAt data f.position bytes) }.setPosition
            client handle (f.position + bytes.length) with
          fileDateTimes := dateTimes }
  | wentUp : Effect client request s (s.setCurrentDirectory client parentOfCurrent)
  | wentTo {target : Text}
      (htarget : target = root ∨ DirectoryPath target ∧ target ∈ s.directories) :
      Effect client request s (s.setCurrentDirectory client fun _ => target)
  | movedFile {source dest : Text} {data : List UInt8} {attrs : UInt8}
      {dateTimes : OrderedMap Text (ℕ × ℕ)} (hdest : FilePath dest)
      (hopen : s.isPathOpen source = false) (hfree : (s.files.get dest).isSome = false)
      (hdir : s.directoryExists dest = false)
      (hparent : s.directoryExists (fileParentDirectoryPath dest) = true) :
      Effect client request s { s with
        files := (s.files.remove source).insert dest data
        fileAttrs := (s.fileAttrs.remove source).insert dest attrs
        fileDateTimes := dateTimes }
  | deletedDirectory {directory : Text} (h : s.DeletesDirectory client request directory) :
      Effect client request s { s with
        directories := s.directories.filter (· != directory)
        fileDateTimes := s.fileDateTimes.remove directory }
  | deletedFile {path : Text} (hopen : s.isPathOpen path = false) :
      Effect client request s (s.dropFile path)
  | setAttributes {path : Text} {attrs : UInt8} (hfile : (s.files.get path).isSome = true) :
      Effect client request s { s with fileAttrs := s.fileAttrs.insert path attrs }
  | initialized {t : FileServer} (hvolume : s.volumeState ≠ .removed) (hopen : s.openFiles = [])
      (ht : t = { s with
        files := []
        fileAttrs := []
        fileDateTimes := []
        directories := [root]
        volumeName := t.volumeName }.clearMediaDependentClientState) : Effect client request s t
  | prepared (hvolume : s.volumeState ≠ .removed) :
      Effect client request s { s with
        volumeState := .preparingForRemoval
        volumeRemovalTimerMs := 0
        volumeMaintainRequests := [] }
  | maintained {requests : List Address} :
      Effect client request s { s with volumeMaintainRequests := requests }
  | removed {requests : List Address} :
      Effect client request s { s with volumeMaintainRequests := requests }.setVolumeRemoved.1

/-! ## Each function -/

section Functions

variable {s t : FileServer} {client : Address} {tan : TAN} {request response : List UInt8}
  {flags : UInt8} {path : Text} {isDirectory : Bool}

/-- A directory to open is there, or is made. -/
theorem provideDirectory_spec
    (h : s.provideDirectory path flags = .ok t) : s.Provides path flags true t := by
  rw [provideDirectory] at h
  split at h
  · cases h
    exact .directory ‹_›
  rename_i hnew
  simp only [require_then_eq_ok] at h
  obtain ⟨hfile, -, hparent, h⟩ := h
  cases h
  exact .newDirectory (eq_false_of_ne_true hnew) (by simpa using hfile) hparent

/-- A file to open is there, or is made. -/
theorem provideFile_spec (h : s.provideFile path flags = .ok t) :
    s.Provides path flags false t := by
  rw [provideFile, require_then_eq_ok] at h
  obtain ⟨hdir, h⟩ := h
  have hdir : s.isFilePathDirectory path = false := by simpa using hdir
  split at h
  · simp only [require_then_eq_ok] at h
    obtain ⟨-, hconflict, h⟩ := h
    cases h
    exact .file ‹_› hdir (by simpa using hconflict)
  next hnew =>
    simp only [require_then_eq_ok] at h
    obtain ⟨-, hparent, h⟩ := h
    cases h
    exact .newFile (eq_false_of_ne_true hnew) hdir hparent

/-- **What an open call opens** is there before the handle is. -/
theorem provide_spec
    (h : s.provide path flags isDirectory = .ok t) : s.Provides path flags isDirectory t := by
  cases isDirectory with
  | true => exact provideDirectory_spec h
  | false => exact provideFile_spec h

/-- The path opened has the form of what the flags ask for. -/
theorem openTarget_spec {requested path pattern : Text} (hcwd : '/' ∉ s.currentDirectory client)
    (h : s.openTarget client requested isDirectory = .ok (path, pattern)) :
    OpenPath isDirectory path := by
  rw [openTarget, mapError_eq_ok] at h
  cases isDirectory with
  | true => exact normalizeDirectoryListingRequest_spec hcwd h
  | false =>
    obtain ⟨p, hp, heq⟩ := map_eq_ok.mp h
    cases heq
    exact normalizeClientPath_spec hcwd hp

/-- A handle starts within the file. -/
theorem initialPosition_spec {position : ℕ}
    (h : s.initialPosition path flags isDirectory = .ok position) : position ≤ s.wireSize path := by
  rw [initialPosition] at h
  split at h
  · obtain ⟨data, hdata, rfl⟩ := map_eq_ok.mp h
    rw [given_eq_ok] at hdata
    rw [wireSize, hdata]
    exact Nat.le_refl _
  · cases h
    exact Nat.zero_le _

/-- An open pushes one handle. -/
theorem handleOpenFile_effect (hcwd : '/' ∉ s.currentDirectory client)
    (h : s.handleOpenFile client tan request = .ok (t, response)) : Effect client request s t := by
  simp only [handleOpenFile, require_then_eq_ok, given_then_eq_ok] at h
  obtain ⟨hvolume, -, _, -, _, -, -, -, -, h⟩ := h
  obtain ⟨⟨path, pattern⟩, htarget, h⟩ := bind_eq_ok.mp h
  simp only [require_then_eq_ok] at h
  obtain ⟨hclient, htotal, h⟩ := h
  obtain ⟨u, hu, h⟩ := bind_eq_ok.mp h
  obtain ⟨position, hposition, h⟩ := bind_eq_ok.mp h
  have ht := congrArg Prod.fst (Except.ok.inj h)
  subst ht
  refine .opened hvolume rfl (openTarget_spec hcwd htarget) ⟨fun c hc => ?_, htotal⟩ ?_
    fun _ => initialPosition_spec hposition
  · rw [hc] at hclient
    simpa using hclient
  · exact provide_spec hu

/-- A close takes its own handle away. -/
theorem handleCloseFile_effect (hfunction : u8At request 0 = closeFile.asU8)
    (h : s.handleCloseFile client tan request = .ok (t, response)) : Effect client request s t := by
  simp only [handleCloseFile, require_then_eq_ok] at h
  obtain ⟨-, -, hopen, h⟩ := h
  cases h
  exact .closed hfunction rfl hopen

/-- A handle is found for its owner only. -/
theorem findOpen_eq_some {handle : FileHandle} {f : OpenFile}
    (h : s.findOpen client handle = some f) :
    f ∈ s.openFiles ∧ f.handle = handle ∧ f.owner = client := by
  refine ⟨List.mem_of_find?_eq_some h, ?_⟩
  simpa [OpenFile.isOf] using List.find?_some h

/-- A read moves the pointer of its handle, up to the end at most. -/
theorem handleReadFile_effect (h : s.handleReadFile client tan request = .ok (t, response)) :
    Effect client request s t := by
  simp only [handleReadFile, require_then_eq_ok, given_then_eq_ok] at h
  obtain ⟨-, -, -, -, -, f, hf, h⟩ := h
  split at h
  next hdir =>
    simp only [handleReadDirectory, require_then_eq_ok, given_then_eq_ok] at h
    obtain ⟨-, _, -, h⟩ := h
    cases h
    obtain ⟨-, hhandle, rfl⟩ := findOpen_eq_some hf
    rw [hhandle]
    exact .sought hf fun hfile => absurd hdir (ne_true_of_eq_false hfile)
  · simp only [require_then_eq_ok, given_then_eq_ok] at h
    obtain ⟨-, data, hdata, hbefore, h⟩ := h
    cases h
    refine .sought hf fun _ => ?_
    rw [wireSize, hdata, map_some, getD_some]
    omega

/-- A canonical request is as long as what is read off it. -/
theorem le_of_fsPayloadLenIsCanonical {used : ℕ} (h : fsPayloadLenIsCanonical request used = true) :
    used ≤ request.length := by
  simp only [fsPayloadLenIsCanonical, Bool.and_eq_true, decide_eq_true_eq] at h
  exact h.1

/-- A write request holds as many bytes as it announces. -/
theorem length_writtenBytes {count : ℕ} (h : fsPayloadLenIsCanonical request (5 + count) = true) :
    (slice request 5 (5 + count)).length = count := by
  have := le_of_fsPayloadLenIsCanonical h
  simp only [slice, List.length_drop, List.length_take]
  omega

/-- A write changes the file of its handle and moves the pointer. -/
theorem handleWriteFile_effect (h : s.handleWriteFile client tan request = .ok (t, response)) :
    Effect client request s t := by
  simp only [handleWriteFile, require_then_eq_ok, given_then_eq_ok] at h
  obtain ⟨-, -, hcount, f, hf, -, -, -, data, hdata, hfit, h⟩ := h
  cases h
  have hlen := length_writtenBytes hcount
  have heffect := @Effect.wrote client request s _ f data (slice request 5 (5 + u16At request 3))
    (s.fileDateTimes.insert f.path defaultFileDateTime) hf hdata (by rw [hlen]; exact hfit)
  rw [hlen] at heffect
  exact heffect

/-- So does a seek. -/
theorem handleSeekFile_effect (h : s.handleSeekFile client tan request = .ok (t, response)) :
    Effect client request s t := by
  simp only [handleSeekFile, require_then_eq_ok, given_then_eq_ok] at h
  obtain ⟨-, -, f, hf, -, _, -, hrange, h⟩ := h
  cases h
  refine .sought hf fun _ => ?_
  rw [wireSize]
  omega

/-- The current directory becomes one that exists. -/
theorem handleChangeDirectory_effect (hcwd : '/' ∉ s.currentDirectory client)
    (h : s.handleChangeDirectory client tan request = .ok (t, response)) :
    Effect client request s t := by
  simp only [handleChangeDirectory, require_then_eq_ok, given_then_eq_ok] at h
  obtain ⟨-, _, -, -, _, -, h⟩ := h
  split at h
  · cases h
    exact .wentUp
  split at h
  · cases h
    exact .nothing
  split at h
  · cases h
    exact .wentTo (.inl rfl)
  obtain ⟨target, htarget, h⟩ := bind_eq_ok.mp h
  rw [mapError_eq_ok] at htarget
  obtain ⟨hexists, h⟩ := require_then_eq_ok.mp h
  cases h
  exact .wentTo (.inr ⟨normalizeDirectoryPath_spec hcwd htarget, by simpa using hexists⟩)

/-- A move renames a file that nobody has open. -/
theorem handleMoveFile_effect (hcwd : '/' ∉ s.currentDirectory client)
    (h : s.handleMoveFile client tan request = .ok (t, response)) : Effect client request s t := by
  simp only [handleMoveFile, require_then_eq_ok, given_then_eq_ok] at h
  obtain ⟨-, -, ⟨source, dest⟩, hpaths, -, -, hopen, hfree, hparent, -, data, -, h⟩ := h
  cases h
  rw [not_or] at hopen hfree
  exact .movedFile (parseTwoCountedFilePaths_spec hcwd hpaths) (by simpa using hopen.1)
    (by simpa using hfree.1) (by simpa using hfree.2) hparent

/-- A delete takes away a file nobody has open, or an empty directory. -/
theorem handleDeleteFile_effect (hfunction : u8At request 0 = deleteFile.asU8)
    (h : s.handleDeleteFile client tan request = .ok (t, response)) :
    Effect client request s t := by
  simp only [handleDeleteFile, require_then_eq_ok, given_then_eq_ok] at h
  obtain ⟨hvolume, hsupported, path, hpath, h⟩ := h
  split at h
  next hdir =>
    simp only [require_then_eq_ok] at h
    obtain ⟨hroot, hempty, h⟩ := h
    cases h
    exact .deletedDirectory
      ⟨hfunction, hvolume, hsupported, ⟨path, hpath, hdir, rfl⟩, hroot, by simpa using hempty⟩
  · simp only [require_then_eq_ok] at h
    obtain ⟨hopen, -, -, h⟩ := h
    cases h
    exact .deletedFile (by simpa using hopen)

/-- Attributes are set on a file that exists. -/
theorem handleSetFileAttributes_effect
    (h : s.handleSetFileAttributes client tan request = .ok (t, response)) :
    Effect client request s t := by
  simp only [handleSetFileAttributes, require_then_eq_ok, given_then_eq_ok] at h
  obtain ⟨-, -, -, -, _, -, -, hfile, -, h⟩ := h
  cases h
  exact .setAttributes hfile

/-- An initialised volume is empty. -/
theorem handleInitializeVolume_effect
    (h : s.handleInitializeVolume tan request = .ok (t, response)) : Effect client request s t := by
  simp only [handleInitializeVolume, require_then_eq_ok, given_then_eq_ok] at h
  obtain ⟨-, hvolume, _, -, hopen, h⟩ := h
  cases h
  refine .initialized hvolume hopen ?_
  simp [clearAllOpenHandles, clearMediaDependentClientState, OrderedMap.mapValues, hvolume]

/-- A request that only reads leaves the server as it is. -/
theorem same_eq_ok {x : Except FSError (List UInt8)} (h : s.same x = .ok (t, response)) :
    t = s := by
  obtain ⟨r, -, h⟩ := map_eq_ok.mp h
  exact (congrArg Prod.fst h).symm

/-- **Every function has one of the effects.** -/
theorem handleFunction_effect {function : FSFunction} (hcwd : '/' ∉ s.currentDirectory client)
    (hfunction : u8At request 0 = function.asU8)
    (h : s.handleFunction client function tan request = .ok (t, response)) :
    Effect client request s t := by
  cases function with
  | openFile => exact handleOpenFile_effect hcwd h
  | closeFile => exact handleCloseFile_effect hfunction h
  | readFile => exact handleReadFile_effect h
  | writeFile => exact handleWriteFile_effect h
  | seekFile => exact handleSeekFile_effect h
  | changeDirectory => exact handleChangeDirectory_effect hcwd h
  | moveFile => exact handleMoveFile_effect hcwd h
  | deleteFile => exact handleDeleteFile_effect hfunction h
  | setFileAttributes => exact handleSetFileAttributes_effect h
  | initializeVolume => exact handleInitializeVolume_effect h
  | getFileServerProperties | getCurrentDirectory | getFileAttributes | getFileDateTime =>
    exact same_eq_ok h ▸ .nothing
  | fileServerStatus | volumeStatus => cases h

/-- A function that fails has none. -/
theorem executeFunction_effect (hcwd : '/' ∉ s.currentDirectory client) :
    Effect client request s (s.executeFunction client (u8At request 0) tan request).1 := by
  rw [executeFunction]
  split
  · exact .nothing
  rename_i function hfunction
  split
  next h => exact handleFunction_effect hcwd (asU8_of_tryFromU8 hfunction) h
  · exact .nothing

/-- A frame of the server that reaches the client. -/
def Reaches (client : Address) (o : FSOutbound) : Prop :=
  o = .sendTo o.data client ∨ o = .broadcast o.data

/-- **A report on the volume is one frame**, under the number of the request
or for everyone. -/
theorem handleVolumeStatus_effect (s : FileServer) (client : Address) (tan : TAN)
    (request : List UInt8) :
    ∃ t o, s.handleVolumeStatus client tan request = (t, [o]) ∧ Effect client request s t ∧
      (u8At o.data 1 = tan ∨ u8At o.data 1 = invalidTan) ∧ Reaches client o := by
  rw [handleVolumeStatus]
  dsimp only
  iterate 3
    split
    · exact ⟨_, _, rfl, .nothing, .inl rfl, .inl rfl⟩
  split
  · rw [prepareVolumeForRemoval]
    split
    iterate 2
      next h => exact ⟨_, _, rfl, .prepared (by rw [h]; decide), .inr rfl, .inr rfl⟩
    · exact ⟨_, _, rfl, .nothing, .inl rfl, .inl rfl⟩
  · rw [receiveVolumeMaintainRequest]
    refine ⟨_, _, rfl, ?_, .inl rfl, .inl rfl⟩
    split
    · exact .nothing
    split
    · exact .nothing
    · exact .maintained
  · split
    · exact ⟨_, _, rfl, .removed, .inr rfl, .inr rfl⟩
    · exact ⟨_, _, rfl, .maintained, .inl rfl, .inl rfl⟩
  · exact ⟨_, _, rfl, .nothing, .inl rfl, .inl rfl⟩

end Functions

/-! ## Messages and updates -/

/-- The message is a request that is looked at: it is addressed as one, and
has a function and a transaction number. -/
structure Accepted (msg : Message) : Prop where
  pgn : msg.pgn = pgnFileClientToServer
  source : msg.hasUsableSource = true
  destination : msg.hasValidDestinationForPgn = true
  length : 2 ≤ msg.data.length
  function : u8At msg.data 0 ≠ ccmFunctionCode
  tan : u8At msg.data 1 ≠ invalidTan

/-- An accepted message passes the checks on its envelope. -/
theorem Accepted.envelope {msg : Message} (h : Accepted msg) :
    ¬(msg.pgn ≠ pgnFileClientToServer ∨ ¬msg.hasUsableSource ∨
      ¬msg.hasValidDestinationForPgn ∨ msg.data.length < 2) := by
  simp only [not_or, not_not, Nat.not_lt]
  exact ⟨h.pgn, h.source, h.destination, h.length⟩

section

variable {s t : FileServer} {msg : Message} {function : FSFunction} (haccepted : Accepted msg)
  (hnew : (s.ensureClient msg.source).cachedResponse msg.source (u8At msg.data 1) msg.data = none)
  (hfunction : u8At msg.data 0 = function.asU8) (hvolume : function ≠ .volumeStatus)
include haccepted hnew hfunction hvolume

/-- **A request that is carried out**: the answer is sent and kept. -/
theorem handleClientMessage_executed : s.handleClientMessage msg =
      let r := (s.ensureClient msg.source).executeFunction msg.source (u8At msg.data 0)
        (u8At msg.data 1) msg.data
      (r.1.cacheResponse msg.source (u8At msg.data 1) msg.data r.2, [.sendTo r.2 msg.source]) := by
  have hother : u8At msg.data 0 ≠ volumeStatus.asU8 := fun he =>
    hvolume (asU8_injective (hfunction.symm.trans he))
  rw [handleClientMessage]
  dsimp only
  rw [if_neg haccepted.envelope, if_neg haccepted.function, if_neg haccepted.tan, hnew]
  rw [if_neg hother]

/-- A function that succeeds is answered and its answer kept. -/
theorem handleClientMessage_of_ok {response : List UInt8}
    (h : (s.ensureClient msg.source).handleFunction msg.source function (u8At msg.data 1) msg.data =
      .ok (t, response)) :
    s.handleClientMessage msg = (t.cacheResponse msg.source (u8At msg.data 1) msg.data response,
        [.sendTo response msg.source]) := by
  rw [handleClientMessage_executed haccepted hnew hfunction hvolume]
  simp [executeFunction, hfunction, h]

/-- One that fails is answered with its error code. -/
theorem handleClientMessage_of_error {e : FSError}
    (h : (s.ensureClient msg.source).handleFunction msg.source function (u8At msg.data 1) msg.data =
      .error e) :
    s.handleClientMessage msg =
      ((s.ensureClient msg.source).cacheResponse msg.source (u8At msg.data 1) msg.data
          (encodeErrorResponse function.asU8 (u8At msg.data 1) e),
        [.sendTo (encodeErrorResponse function.asU8 (u8At msg.data 1) e) msg.source]) := by
  rw [handleClientMessage_executed haccepted hnew hfunction hvolume]
  simp [executeFunction, hfunction, h]

end

/-- **What a message does.** The sender gets an entry; then its request
has an effect, and the answer is kept. -/
inductive Received (s : FileServer) (msg : Message) : FileServer → Prop
  | ignored : Received s msg s
  | maintained : Received s msg ((s.ensureClient msg.source).handleCcm msg.source)
  | repeated : Received s msg (s.ensureClient msg.source)
  | executed {t : FileServer} {response : List UInt8} (haccepted : Accepted msg)
      (hnew : (s.ensureClient msg.source).cachedResponse msg.source (u8At msg.data 1) msg.data
        = none)
      (h : Effect msg.source msg.data (s.ensureClient msg.source) t) :
      Received s msg (t.cacheResponse msg.source (u8At msg.data 1) msg.data response)

/-- An entry for a client leaves all current directories alone. -/
theorem ensureClient_currentDirectory (s : FileServer) (client c : Address) :
    (s.ensureClient client).currentDirectory c = s.currentDirectory c := by
  rw [ensureClient]
  split
  · rfl
  rename_i h
  rw [currentDirectory, currentDirectory, OrderedMap.get_insert]
  split
  · subst c
    rw [not_isSome_iff_eq_none.mp h]
    rfl
  · rfl

/-- **Every message is one of these.** -/
theorem handleClientMessage_received {s : FileServer} {msg : Message}
    (hcwd : '/' ∉ s.currentDirectory msg.source) :
    Received s msg (s.handleClientMessage msg).1 := by
  rw [handleClientMessage]
  dsimp only
  rw [← ensureClient_currentDirectory s msg.source] at hcwd
  split
  · exact .ignored
  rename_i henvelope
  split
  · split
    · exact .ignored
    · exact .maintained
  rename_i hfunction
  split
  · exact .ignored
  rename_i htan
  have haccepted : Accepted msg := by
    simp only [not_or, not_not, Nat.not_lt] at henvelope
    exact ⟨henvelope.1, henvelope.2.1, henvelope.2.2.1, henvelope.2.2.2, hfunction, htan⟩
  split
  · exact .repeated
  rename_i hnew
  split
  · obtain ⟨t, o, h, he, -⟩ := handleVolumeStatus_effect (s.ensureClient msg.source)
      msg.source (u8At msg.data 1) msg.data
    rw [h]
    exact .executed haccepted hnew he
  · exact .executed haccepted hnew (executeFunction_effect hcwd)

end FileServer

end Machbus.Fs
