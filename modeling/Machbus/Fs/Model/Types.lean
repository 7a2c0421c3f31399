import Machbus.Net.Model.Frame
import Machbus.Common.Checks
import Machbus.Common.Separated
import Mathlib.Data.List.Infix
/-!
# File server — codes, records and paths

What client and server both know: the command bytes, the error codes, the
open flags and attributes, and the layouts of the messages that are not
requests for a file. A path arrives as bytes, relative to the directory
the client stands in or from the root, with separators of both kinds and
with dot components. The server brings it into one form before it looks
anything up: a file is `\A\B`, a directory `\A\B\`, the root `\`.
-/

namespace Machbus.Fs

/-- A transaction number; `0xFF` is none. -/
abbrev TAN := UInt8
def invalidTan : TAN := 0xFF

/-- A file handle; `0x00` and `0xFF` are none. -/
abbrev FileHandle := UInt8
def invalidFileHandle : FileHandle := 0xFF
def reservedFileHandle0 : FileHandle := 0x00

def fsSupportedCountMax : ℕ := 250

/-- A string as its characters. -/
abbrev Text := List Char

/-- The bytes of a string. -/
def utf8 (s : Text) : List UInt8 := s.flatMap String.utf8EncodeChar

/-! ## Bytes -/

section

variable (data : List UInt8)

/-- The byte at an index the length was checked for. -/
def u8At (i : ℕ) : UInt8 := data.getD i 0

/-- `u16::from_le_bytes`. -/
def u16At (i : ℕ) : ℕ := ofLe [u8At data i, u8At data (i + 1)]

/-- `u32::from_le_bytes`. -/
def u32At (i : ℕ) : ℕ :=
  ofLe [u8At data i, u8At data (i + 1), u8At data (i + 2), u8At data (i + 3)]

/-- `&data[start..stop]`. -/
def slice (start stop : ℕ) : List UInt8 := (data.take stop).drop start

/-- `vec![0xFF; 8]` with the first bytes set. -/
def frame8 (used : List UInt8) : List UInt8 := used ++ List.replicate (8 - used.length) 0xFF

/-- The payload ends where it is used up, or is padded to one frame. -/
def fsPayloadLenIsCanonical (used : ℕ) : Bool :=
  decide (used ≤ data.length) && (data.length == used ||
      (decide (used ≤ 8) && data.length == 8 && (data.drop used).all (· == 0xFF)))

end

/-! ## Codes -/

inductive FSFunction
  | fileServerStatus
  | getFileServerProperties
  | volumeStatus
  | getCurrentDirectory
  | changeDirectory
  | openFile
  | seekFile
  | readFile
  | writeFile
  | closeFile
  | moveFile
  | deleteFile
  | getFileAttributes
  | setFileAttributes
  | getFileDateTime
  | initializeVolume
  deriving DecidableEq, Repr

namespace FSFunction

def asU8 : FSFunction → UInt8
  | fileServerStatus => 0x00
  | getFileServerProperties => 0x01
  | volumeStatus => 0x02
  | getCurrentDirectory => 0x10
  | changeDirectory => 0x11
  | openFile => 0x20
  | seekFile => 0x21
  | readFile => 0x22
  | writeFile => 0x23
  | closeFile => 0x24
  | moveFile => 0x30
  | deleteFile => 0x31
  | getFileAttributes => 0x32
  | setFileAttributes => 0x33
  | getFileDateTime => 0x34
  | initializeVolume => 0x40

def tryFromU8 (v : UInt8) : Option FSFunction :=
  match v.toNat with
  | 0x00 => some fileServerStatus
  | 0x01 => some getFileServerProperties
  | 0x02 => some volumeStatus
  | 0x10 => some getCurrentDirectory
  | 0x11 => some changeDirectory
  | 0x20 => some openFile
  | 0x21 => some seekFile
  | 0x22 => some readFile
  | 0x23 => some writeFile
  | 0x24 => some closeFile
  | 0x30 => some moveFile
  | 0x31 => some deleteFile
  | 0x32 => some getFileAttributes
  | 0x33 => some setFileAttributes
  | 0x34 => some getFileDateTime
  | 0x40 => some initializeVolume
  | _ => none

@[simp] theorem tryFromU8_asU8 (f : FSFunction) : tryFromU8 f.asU8 = some f := by
  cases f <;> rfl

theorem asU8_injective : Function.Injective asU8 := fun f g h => by
  have := congrArg tryFromU8 h
  simpa only [tryFromU8_asU8, Option.some.injEq] using this

theorem asU8_of_tryFromU8 {v : UInt8} {f : FSFunction} (h : tryFromU8 v = some f) : v = f.asU8 := by
  rw [tryFromU8] at h
  split at h
  all_goals first
    | cases h
      rename_i hv
      exact UInt8.toNat_inj.mp hv
    | cases h

end FSFunction

/-- The connection maintenance message shares its byte with the status. -/
def ccmFunctionCode : UInt8 := FSFunction.fileServerStatus.asU8

def fsVersionNumber : UInt8 := 4

inductive FSError
  | success
  | accessDenied
  | invalidAccess
  | tooManyOpen
  | notFound
  | invalidHandle
  | invalidSourceName
  | invalidDestName
  | noSpace
  | writeFail
  | mediaNotPresent
  | readFail
  | notSupported
  | notInitialized
  | invalidLength
  | outOfMemory
  | otherError
  | endOfFile
  | tanError
  | malformedRequest
  deriving DecidableEq, Repr

namespace FSError

def asU8 : FSError → UInt8
  | success => 0
  | accessDenied => 1
  | invalidAccess => 2
  | tooManyOpen => 3
  | notFound => 4
  | invalidHandle => 5
  | invalidSourceName => 6
  | invalidDestName => 7
  | noSpace => 8
  | writeFail => 9
  | mediaNotPresent => 10
  | readFail => 11
  | notSupported => 12
  | notInitialized => 13
  | invalidLength => 42
  | outOfMemory => 43
  | otherError => 44
  | endOfFile => 45
  | tanError => 46
  | malformedRequest => 47

def tryFromU8 (v : UInt8) : Option FSError :=
  match v.toNat with
  | 0 => some success
  | 1 => some accessDenied
  | 2 => some invalidAccess
  | 3 => some tooManyOpen
  | 4 => some notFound
  | 5 => some invalidHandle
  | 6 => some invalidSourceName
  | 7 => some invalidDestName
  | 8 => some noSpace
  | 9 => some writeFail
  | 10 => some mediaNotPresent
  | 11 => some readFail
  | 12 => some notSupported
  | 13 => some notInitialized
  | 42 => some invalidLength
  | 43 => some outOfMemory
  | 44 => some otherError
  | 45 => some endOfFile
  | 46 => some tanError
  | 47 => some malformedRequest
  | _ => none

theorem asU8_of_tryFromU8 {v : UInt8} {e : FSError} (h : tryFromU8 v = some e) : v = e.asU8 := by
  rw [tryFromU8] at h
  split at h
  all_goals first
    | cases h
      rename_i hv
      exact UInt8.toNat_inj.mp hv
    | cases h

end FSError

inductive OpenFlags
  | read
  | write
  | readWrite
  | openDir
  | create
  | append
  | exclusive
  deriving DecidableEq, Repr

def OpenFlags.bit : OpenFlags → UInt8
  | read => 0x00
  | write => 0x01
  | readWrite => 0x02
  | openDir => 0x03
  | create => 0x04
  | append => 0x08
  | exclusive => 0x10

section

variable (flags : UInt8)

def hasFlag (flag : OpenFlags) : Bool := flags &&& flag.bit != 0

def getAccessMode : UInt8 := flags &&& 0x03

def openFlagsHaveNoReservedBits : Bool :=
  flags &&& ~~~(OpenFlags.openDir.bit ||| OpenFlags.create.bit ||| OpenFlags.append.bit |||
    OpenFlags.exclusive.bit) == 0

def openModeWrites : Bool :=
  (getAccessMode flags == OpenFlags.write.bit || getAccessMode flags == OpenFlags.readWrite.bit) ||
    hasFlag flags .append

end

inductive FileAttributes
  | readOnly
  | hidden
  | directory
  deriving DecidableEq, Repr

def FileAttributes.bit : FileAttributes → UInt8
  | readOnly => 0x01
  | hidden => 0x02
  | directory => 0x10

def hasAttribute (attrs : UInt8) (attr : FileAttributes) : Bool := attrs &&& attr.bit != 0

def fileAttributesClientSettable : UInt8 :=
  FileAttributes.readOnly.bit ||| FileAttributes.hidden.bit

inductive VolumeState
  | present
  | inUse
  | preparingForRemoval
  | removed
  deriving DecidableEq, Repr

namespace VolumeState

def asU8 : VolumeState → UInt8
  | present => 0
  | inUse => 1
  | preparingForRemoval => 2
  | removed => 3

def tryFromU8 (v : UInt8) : Option VolumeState :=
  match v.toNat with
  | 0 => some present
  | 1 => some inUse
  | 2 => some preparingForRemoval
  | 3 => some removed
  | _ => none

end VolumeState

/-! ## Records -/

structure FileServerProperties where
  versionNumber : UInt8 := fsVersionNumber
  maxSimultaneousFiles : ℕ := 16
  supportsMultipleVolumes : Bool := false
  supportsRemovableVolumes : Bool := true
  deriving DecidableEq, Repr

namespace FileServerProperties

def normalizedForWire (p : FileServerProperties) : FileServerProperties :=
  { p with maxSimultaneousFiles := min p.maxSimultaneousFiles fsSupportedCountMax }

def encodeResponse (p : FileServerProperties) (tan : TAN) : List UInt8 :=
  frame8 [FSFunction.getFileServerProperties.asU8, tan, p.versionNumber,
    UInt8.ofNat (min p.maxSimultaneousFiles fsSupportedCountMax),
    (if p.supportsMultipleVolumes then 0x01 else 0) |||
      (if p.supportsRemovableVolumes then 0x02 else 0)]

def decodeResponse (data : List UInt8) : Option (TAN × FileServerProperties) :=
  if data.length < 5 ∨ 8 < data.length then none
  else if u8At data 0 ≠ FSFunction.getFileServerProperties.asU8 then none
  else some (u8At data 1,
    { versionNumber := u8At data 2
      maxSimultaneousFiles := min (u8At data 3).toNat fsSupportedCountMax
      supportsMultipleVolumes := u8At data 4 &&& 0x01 != 0
      supportsRemovableVolumes := u8At data 4 &&& 0x02 != 0 })

end FileServerProperties

structure FileServerStatus where
  busyReading : Bool := false
  busyWriting : Bool := false
  numberOfOpenFiles : ℕ := 0
  deriving DecidableEq, Repr

namespace FileServerStatus

def encode (s : FileServerStatus) : List UInt8 :=
  frame8 [FSFunction.fileServerStatus.asU8,
    (if s.busyReading then 0x01 else 0) ||| (if s.busyWriting then 0x02 else 0),
    UInt8.ofNat s.numberOfOpenFiles]

def decode (data : List UInt8) : Option FileServerStatus :=
  if data.length < 3 ∨ 8 < data.length then none
  else if u8At data 0 ≠ FSFunction.fileServerStatus.asU8 then none
  else some
    { busyReading := u8At data 1 &&& 0x01 != 0
      busyWriting := u8At data 1 &&& 0x02 != 0
      numberOfOpenFiles := min (u8At data 2).toNat fsSupportedCountMax }

end FileServerStatus

structure CCMMessage where
  version : UInt8
  deriving DecidableEq, Repr

namespace CCMMessage

def encode (m : CCMMessage) : List UInt8 := frame8 [ccmFunctionCode, m.version]

def decode (data : List UInt8) : Option CCMMessage :=
  if data.length < 2 ∨ 8 < data.length then none
  else if u8At data 0 ≠ ccmFunctionCode then none
  else some ⟨u8At data 1⟩

end CCMMessage

structure FileEntry where
  name : Text
  size : ℕ
  attributes : UInt8
  date : ℕ
  time : ℕ
  deriving DecidableEq, Repr

/-- An answer kept for a request that comes a second time. -/
structure TANResponse where
  tan : TAN
  requestData : List UInt8
  responseData : List UInt8
  timestampMs : ℕ
  deriving DecidableEq, Repr

def TANResponse.isExpired (r : TANResponse) (currentTimeMs timeoutMs : ℕ) : Bool :=
  decide (timeoutMs < currentTimeMs - r.timestampMs)

/-! ## Dates -/

def packDosDate (year month day : ℕ) : ℕ := ((year - 1980) <<< 9) ||| (month <<< 5) ||| day

def packDosTime (hour minute second : ℕ) : ℕ := (hour <<< 11) ||| (minute <<< 5) ||| (second / 2)

def defaultFileDateTime : ℕ × ℕ := (packDosDate 2025 1 1, packDosTime 12 0 0)

def dosDateTimeIsSupported (date time : ℕ) : Bool :=
  (date == 0 || (decide (1 ≤ (date >>> 5) &&& 0x0F) && decide ((date >>> 5) &&& 0x0F ≤ 12) &&
      decide (1 ≤ date &&& 0x1F) && decide (date &&& 0x1F ≤ 31))) &&
  (time == 0 || (decide ((time >>> 11) &&& 0x1F ≤ 23) && decide ((time >>> 5) &&& 0x3F ≤ 59) &&
      decide ((time &&& 0x1F) * 2 ≤ 58)))

/-! ## Requests and answers -/

def pgnFileServerToClient : ℕ := 0xAB00
def pgnFileClientToServer : ℕ := 0xAA00

/-- A frame of the server: to everyone when it has no destination. -/
structure FSOutbound where
  pgn : ℕ
  data : List UInt8
  dest : Option Address
  deriving DecidableEq, Repr

namespace FSOutbound

def broadcast (data : List UInt8) : FSOutbound := ⟨pgnFileServerToClient, data, none⟩

def sendTo (data : List UInt8) (dest : Address) : FSOutbound :=
  ⟨pgnFileServerToClient, data, some dest⟩

end FSOutbound

def encodeErrorResponse (function : UInt8) (tan : TAN) (error : FSError) : List UInt8 :=
  frame8 [function, tan, error.asU8]

def successResponse (function : FSFunction) (tan : TAN) : List UInt8 :=
  frame8 [function.asU8, tan, FSError.success.asU8]

def fsFileSizeToWire (len : ℕ) : ℕ := min len u32Max

/-- Space is counted in blocks of 512 bytes. -/
def fsSpaceBlocks (bytes : ℕ) : ℕ := min (bytes / 512) u32Max

/-! ## Paths -/

/-- The separator of a path. -/
def sep : Char := '\\'

def root : Text := [sep]

def fsWireStringMaxLen : ℕ := 0xFFFF

/-! ## Strings -/

variable (s : Text)

/-- `s.replace('/', "\\")`. -/
def replaceSlashes : Text := s.map fun c => if c = '/' then sep else c

/-- `s.trim_end_matches('\\')`. -/
def trimEnd : Text := s.rdropWhile (· == sep)

/-- `s.trim_matches('\\')`. -/
def trimSeparators : Text := trimEnd (s.dropWhile (· == sep))

def endsWithSeparator : Bool := s.getLast? == some sep

/-- `char::is_control`. -/
def isControl (c : Char) : Bool :=
  decide (c.toNat < 0x20) || (decide (0x7F ≤ c.toNat) && decide (c.toNat ≤ 0x9F))

def isWildcard (c : Char) : Bool := c == '*' || c == '?'

def hasWildcards (path : Text) : Bool := path.any isWildcard

def isAbsolutePath (path : Text) : Bool := path.head? == some sep

/-! ## What is well formed -/

/-- A character that no path contains. -/
def isReserved (c : Char) : Bool :=
  isControl c || c == ':' || c == '"' || c == '<' || c == '>' || c == '|'

def isValidVolumeName (name : Text) : Bool :=
  !name.isEmpty && name.all (fun c => decide (c.toNat < 0x80)) &&
    decide ((utf8 name).length ≤ 255) &&
    !name.any fun c => isReserved c || c == '/' || c == sep || isWildcard c

/-- One name between two separators. -/
def isValidComponent (allowWildcards : Bool) (component : Text) : Bool :=
  !component.isEmpty && component != ['.'] && component != ['.', '.'] &&
    decide ((utf8 component).length ≤ 255) &&
    component.all fun c =>
      !isReserved c && c != '/' && c != sep && (allowWildcards || !isWildcard c)

/-- A path without dot components. -/
def isValidFsPath (path : Text) (allowRoot allowWildcards : Bool) : Bool :=
  let normalized := replaceSlashes path
  let body := trimSeparators normalized
  if path = [] then false
  else if normalized = root ∨ normalized = [sep, sep] then allowRoot
  else if normalized.any fun c => isReserved c || (!allowWildcards && isWildcard c) then false
  else if body = [] then allowRoot
  else if [sep, sep] <:+: body then false
  else (body.splitOn sep).all (isValidComponent allowWildcards)

/-! ## Bringing a path into form -/

/-- One component of a path that is being resolved. -/
def resolveComponent (resolved : List Text) (component : Text) : List Text :=
  if component = [] ∨ component = ['.'] then resolved
  else if component = ['.', '.'] then resolved.dropLast
  else resolved ++ [component]

variable (path currentDirectory : Text)

/-- Takes the components `.` and `..` out. A path without them is left as
it is. -/
def resolveDotSegments : Text :=
  if !(path.splitOn sep).any (fun c => c == ['.'] || c == ['.', '.']) then path
  else
    let start := if isAbsolutePath path then []
      else (currentDirectory.splitOn sep).filter (!·.isEmpty)
    let resolved := (path.splitOn sep).foldl resolveComponent start
    let trailing := endsWithSeparator path || ['.', '.'].isSuffixOf path || ['.'].isSuffixOf path
    if resolved = [] then root
    else if trailing then sep :: [sep].intercalate resolved ++ [sep]
    else sep :: [sep].intercalate resolved

def ensureDirectorySuffix (path : Text) : Text :=
  if path ≠ root ∧ ¬endsWithSeparator path then path ++ [sep] else path

def normalizeDirectoryBase (path : Text) : Except Error Text :=
  let path := replaceSlashes path
  let body := trimSeparators path
  if path = root ∨ path = [sep, sep] then .ok root
  else if ¬isValidFsPath path true false then
    .error (.invalidData "FileServer: current directory must be a valid ISO 11783-13 path")
  else if body = [] then .ok root
  else .ok (sep :: body ++ [sep])

/-- What the root is normalized to, where it is allowed. -/
def rootIf (allowRoot : Bool) : Except Error Text :=
  if allowRoot then .ok root else .error (.invalidData "FileServer: file path cannot be root")

/-- A path from the root, without a separator at its end. -/
def normalizeIsoPath (allowRoot allowWildcards : Bool) : Except Error Text :=
  let path := resolveDotSegments (replaceSlashes path) currentDirectory
  let body := trimSeparators path
  if ¬isValidFsPath path allowRoot allowWildcards then
    .error (.invalidData "FileServer: path must be a valid ISO 11783-13 backslash path")
  else if path = root ∨ path = [sep, sep] then rootIf allowRoot
  else if body = [] then rootIf allowRoot
  else if isAbsolutePath path then .ok (sep :: body)
  else do
    let base ← normalizeDirectoryBase currentDirectory
    .ok (if base = root then sep :: body else base ++ body)

def notADirectory (path : Text) : Except Error Text :=
  if endsWithSeparator path then
    .error (.invalidData "FileServer: file path must not end with a directory separator")
  else .ok path

def normalizePreloadedFilePath (path : Text) : Except Error Text := do
  let normalized ← normalizeIsoPath path root false false
  notADirectory normalized

def normalizeClientPath (isDirectory : Bool) : Except Error Text := do
  let normalized ← normalizeIsoPath path currentDirectory isDirectory false
  if isDirectory then .ok (ensureDirectorySuffix normalized) else notADirectory normalized

def normalizeDirectoryPath : Except Error Text := do
  let normalized ← normalizeIsoPath path currentDirectory true false
  let normalized := ensureDirectorySuffix normalized
  if fsWireStringMaxLen < (utf8 normalized).length then
    .error (.invalidData "FileServer: directory path exceeds one-byte wire length")
  else .ok normalized

/-- A directory, and the pattern its entries are listed by. -/
def normalizeDirectoryListingRequest : Except Error (Text × Text) :=
  if ¬hasWildcards path then do
    let directory ← normalizeDirectoryPath path currentDirectory
    .ok (directory, ['*'])
  else do
    let normalized ← normalizeIsoPath path currentDirectory true true
    match splitLast sep normalized with
    | none => .error (.invalidData
        "FileServer: wildcard directory listing path must contain a directory base")
    | some (base, pattern) =>
      let directory := if base = [] then root else base ++ [sep]
      if pattern = [] ∨ ¬hasWildcards pattern ∨ ¬isValidFsPath pattern false true ∨
          hasWildcards base then
        .error (.invalidData ("FileServer: wildcard directory listing may only use " ++
          "wildcards in the final name component"))
      else if fsWireStringMaxLen < (utf8 directory).length then
        .error (.invalidData
          "FileServer: wildcard directory listing base exceeds one-byte wire length")
      else .ok (directory, pattern)

/-- The directory a file or a directory is in. -/
def fileParentDirectoryPath (path : Text) : Text :=
  match splitLast sep (trimEnd (replaceSlashes path)) with
  | none => root
  | some (before, _) => if before = [] then root else before ++ [sep]

/-- One directory up from where a client stands. -/
def parentOfCurrent (cwd : Text) : Text :=
  if cwd = root then cwd
  else
    match splitLast sep cwd.dropLast with
    | some (before, _) => before ++ [sep]
    | none => root

/-! ## Paths in requests -/

variable (request : List UInt8)

/-- The bytes behind a length of two bytes. -/
def countedPathBytes (countIndex pathStart : ℕ) : Option (List UInt8) := do
  let low ← request[countIndex]?
  let high ← request[countIndex + 1]?
  let used := pathStart + ofLe [low, high]
  if fsPayloadLenIsCanonical request used then some (slice request pathStart used) else none

/-- Only ASCII is a path. -/
def decodeWirePath (pathBytes : List UInt8) : Option Text :=
  if pathBytes.all (· < 0x80) then some (pathBytes.map fun b => Char.ofNat b.toNat) else none

def parseCountedFilePathWithCountAt (countIndex pathStart : ℕ)
    (currentDirectory : Text) : Option Text := do
  let requestedPath ← decodeWirePath (← countedPathBytes request countIndex pathStart)
  (normalizeClientPath requestedPath currentDirectory false).toOption

def parseCountedFilePath (countIndex : ℕ) (currentDirectory : Text) : Option Text :=
  parseCountedFilePathWithCountAt request countIndex (countIndex + 2) currentDirectory

/-- A file, or a directory with the root among them. -/
def parseCountedFileOrDirectoryPath (countIndex : ℕ) (currentDirectory : Text) : Option Text :=
  match parseCountedFilePath request countIndex currentDirectory with
  | some path => some path
  | none => do
      let requestedPath ← decodeWirePath (← countedPathBytes request countIndex (countIndex + 2))
      (normalizeDirectoryPath requestedPath currentDirectory).toOption

def parseTwoCountedFilePaths (currentDirectory : Text) : Option (Text × Text) :=
  if request.length < 6 then none
  else
    let destStart := 6 + u16At request 2
    let used := destStart + u16At request 4
    if ¬fsPayloadLenIsCanonical request used then none
    else do
      let source ← decodeWirePath (slice request 6 destStart)
      let dest ← decodeWirePath (slice request destStart used)
      let source ← (normalizeClientPath source currentDirectory false).toOption
      let dest ← (normalizeClientPath dest currentDirectory false).toOption
      some (source, dest)

/-- The request can be malformed, or the path in it. -/
def parseCountedFilePathU16 (currentDirectory : Text) : Option (Except Error Text) :=
  if request.length < 4 then none
  else
    let used := 4 + u16At request 2
    if ¬fsPayloadLenIsCanonical request used then none
    else do
      let requestedPath ← decodeWirePath (slice request 4 used)
      some (normalizeIsoPath requestedPath currentDirectory true false)

/-- The new name of the volume, if one is given. Bytes that are not ASCII
are no name, whatever they decode to. -/
def parseInitializeVolumeRequest : Option (Option Text) :=
  if fsPayloadLenIsCanonical request 2 then some none
  else if request.length < 9 then none
  else
    let nameLen := u16At request 7
    let used := 9 + nameLen
    if ¬fsPayloadLenIsCanonical request used then none
    else if nameLen = 0 then some none
    else do
      let name ← decodeWirePath (slice request 9 used)
      if isValidVolumeName name then some (some name) else none

/-! ## Patterns -/

/-- The rest of the text against the rest of the pattern. Behind a `*` the
pattern is taken up again one byte further whenever it fails. -/
def wildcardLoop (text pattern : List UInt8) (star : Option (List UInt8 × List UInt8)) : Bool :=
  match text, pattern, star with
  | [], pattern, _ => (pattern.dropWhile (· == 0x2A)).isEmpty
  | t :: text, p :: pattern, star =>
    if p == 0x3F || p == t then wildcardLoop text pattern star
    else if p == 0x2A then wildcardLoop (t :: text) pattern (some (pattern, t :: text))
    else
      match star with
      | some (afterStar, _ :: behind) => wildcardLoop behind afterStar (some (afterStar, behind))
      | _ => false
  | _ :: _, [], some (afterStar, _ :: behind) =>
    wildcardLoop behind afterStar (some (afterStar, behind))
  | _ :: _, [], _ => false
  termination_by (star.elim (text.length + 1) (fun s => max text.length s.2.length),
    text.length + pattern.length)
  decreasing_by
    all_goals rw [Prod.lex_def]
    · cases star <;> simp only [Option.elim_none, Option.elim_some, List.length_cons] <;> omega
    · cases star <;> simp only [Option.elim_none, Option.elim_some, List.length_cons] <;> omega
    · simp only [Option.elim_some, List.length_cons]
      omega
    · simp only [Option.elim_some, List.length_cons]
      omega

def wildcardMatch (s pattern : Text) : Bool := wildcardLoop (utf8 s) (utf8 pattern) none

end Machbus.Fs
