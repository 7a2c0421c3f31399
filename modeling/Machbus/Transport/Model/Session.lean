import Machbus.Net.Model.Frame
/-!
# Transport sessions

The session record TP and ETP share, its states and the reasons one is
aborted for, and the buffers of the allocation-free profile, whose
capacity is part of their type. Counters are natural numbers; where the
code narrows one to a byte the model writes `% 256`.
-/

namespace Machbus

/-- More was asked for than the capacity holds. -/
structure FixedCapacityError where
  capacity : ℕ
  requested : ℕ
  deriving DecidableEq, Repr

/-- At most `N` bytes. -/
structure FixedBytes (N : ℕ) where
  bytes : List UInt8
  length_le : bytes.length ≤ N
  deriving DecidableEq, Repr

namespace FixedBytes

variable {N : ℕ}

def new : FixedBytes N := ⟨[], Nat.zero_le N⟩

/-- New bytes are filled with `value`. -/
def resize (b : FixedBytes N) (newLen : ℕ) (value : UInt8) :
    Except FixedCapacityError (FixedBytes N) :=
  if h : N < newLen then .error ⟨N, newLen⟩
  else
    .ok ⟨b.bytes.take newLen ++ List.replicate (newLen - b.bytes.length) value, by
      rw [List.length_append, List.length_take, List.length_replicate]
      omega⟩

/-- The loop that copies a block to `offset`, up to `total`. -/
def write (b : FixedBytes N) (total offset : ℕ) (block : List UInt8) : FixedBytes N :=
  ⟨writeBlock total b.bytes offset block, by
    rw [length_writeBlock]
    exact b.length_le⟩

/-- An empty buffer of a size that fits. -/
theorem resize_new {newLen : ℕ} (h : newLen ≤ N) (value : UInt8) :
    ∃ b : FixedBytes N, (new : FixedBytes N).resize newLen value = .ok b ∧
      b.bytes = List.replicate newLen value := by
  refine ⟨_, dif_neg (by omega), ?_⟩
  simp [new]

end FixedBytes

/-- Fixed-capacity message envelope. -/
structure FixedMessage (N : ℕ) where
  pgn : ℕ
  data : FixedBytes N
  source : Address
  destination : Address
  priority : Priority
  timestampUs : ℕ
  deriving DecidableEq, Repr

inductive TransportDirection
  | transmit
  | receive
  deriving DecidableEq, Repr

/-- The reason byte of an abort frame. -/
inductive TransportAbortReason
  | none
  | alreadyInSession
  | resourcesUnavailable
  | timeout
  | connectionModeError
  | maxRetransmitsExceeded
  | unexpectedPgn
  | badSequence
  | duplicateSequence
  | unexpectedDataSize
  | other
  deriving DecidableEq, Repr

namespace TransportAbortReason

def tryFromU8 : ℕ → Option TransportAbortReason
  | 0 => some .none
  | 1 => some .alreadyInSession
  | 2 => some .resourcesUnavailable
  | 3 => some .timeout
  | 4 => some .connectionModeError
  | 5 => some .maxRetransmitsExceeded
  | 6 => some .unexpectedPgn
  | 7 => some .badSequence
  | 8 => some .duplicateSequence
  | 9 => some .unexpectedDataSize
  | 250 => some .other
  | _ => Option.none

def asU8 : TransportAbortReason → UInt8
  | .none => 0
  | .alreadyInSession => 1
  | .resourcesUnavailable => 2
  | .timeout => 3
  | .connectionModeError => 4
  | .maxRetransmitsExceeded => 5
  | .unexpectedPgn => 6
  | .badSequence => 7
  | .duplicateSequence => 8
  | .unexpectedDataSize => 9
  | .other => 250

end TransportAbortReason

/-- Counters of the lossy paths. -/
structure TransportStats where
  droppedFrames : ℕ := 0
  droppedSessions : ℕ := 0
  abortsSent : ℕ := 0
  abortsReceived : ℕ := 0
  timeouts : ℕ := 0
  resourceRejections : ℕ := 0
  deriving DecidableEq, Repr

namespace TransportStats

variable (s : TransportStats)

def noteDroppedFrame : TransportStats :=
  { s with droppedFrames := satAdd64 s.droppedFrames 1 }
def noteDroppedSession : TransportStats :=
  { s with droppedSessions := satAdd64 s.droppedSessions 1 }
def noteAbortSent : TransportStats :=
  { s with abortsSent := satAdd64 s.abortsSent 1 }
def noteAbortReceived : TransportStats :=
  { s with abortsReceived := satAdd64 s.abortsReceived 1 }
def noteTimeout : TransportStats :=
  { s with timeouts := satAdd64 s.timeouts 1 }
def noteResourceRejection : TransportStats :=
  { s with resourceRejections := satAdd64 s.resourceRejections 1 }

end TransportStats

inductive SessionState
  | none
  | waitingForCTS
  | sendingData
  | waitingForEndOfMsg
  | receivingData
  | waitingForData
  | complete
  | aborted
  deriving DecidableEq, Repr

/-- The state of one TP or ETP session. The defaults are those of
`TransportSession::default`. -/
structure TransportSession where
  direction : TransportDirection := .receive
  state : SessionState := .none
  pgn : ℕ := 0
  data : List UInt8 := []
  totalBytes : ℕ := 0
  bytesTransferred : ℕ := 0
  sourceAddress : Address := nullAddress
  destinationAddress : Address := broadcastAddress
  canPort : UInt8 := 0
  priority : Priority := .default
  lastSequence : ℕ := 0
  packetsToSend : ℕ := 0
  /-- The window the sender advertises in byte 4 of its RTS. -/
  advertisedPacketsPerCts : ℕ := tpMaxPacketsPerCts
  maxPacketsPerCts : ℕ := tpMaxPacketsPerCts
  ctsWindowStart : ℕ := 1
  ctsWindowSize : ℕ := 0
  retransmitCount : ℕ := 0
  dpoPacketOffset : ℕ := 0
  timerMs : ℕ := 0
  deriving DecidableEq, Repr

instance : Inhabited TransportSession := ⟨{}⟩

/-- **A data path**: direction, source, destination and port. A data frame
carries a sequence number and no PGN, so this is all a receiver can match
it by. -/
abbrev Path := TransportDirection × Address × Address × UInt8

namespace TransportSession

variable (s : TransportSession)

/-- The data frames the session carries in all. -/
def totalPackets : ℕ := divCeil s.totalBytes tpBytesPerFrame

def isBroadcast : Bool := s.destinationAddress == broadcastAddress

/-- The path the session's data frames travel on. -/
def path : Path :=
  (s.direction, s.sourceAddress, s.destinationAddress, s.canPort)

end TransportSession

/-- A receive buffer of the announced size, if the cap admits it. The
allocation itself is taken to succeed. -/
def rxBuffer (totalBytes maxReceiveBytes : ℕ) : Except TransportAbortReason (List UInt8) :=
  if maxReceiveBytes < totalBytes then .error .resourcesUnavailable
  else .ok (List.replicate totalBytes 0xFF)

/-- The summary emitted when a session aborts. -/
structure TransportAbortEvent where
  pgn : ℕ
  source : Address
  destination : Address
  canPort : UInt8
  direction : TransportDirection
  reason : TransportAbortReason
  deriving DecidableEq, Repr

def TransportAbortEvent.fromSession (s : TransportSession) (reason : TransportAbortReason) :
    TransportAbortEvent where
  pgn := s.pgn
  source := s.sourceAddress
  destination := s.destinationAddress
  canPort := s.canPort
  direction := s.direction
  reason := reason

/-- What a caller does with an engine besides feeding it frames: it drains
the pending data or lets time pass. -/
inductive Pump
  | pending
  | update (elapsedMs : ℕ)
  deriving DecidableEq, Repr

/-! ## Delivered messages

What a receiver hands over: the engines a completed session, the fixed
receivers a message envelope. -/

/-- A message as its receiver hands it over. -/
structure Delivered where
  pgn : ℕ
  data : List UInt8
  source : Address
  destination : Address
  priority : Priority
  deriving DecidableEq, Repr

def TransportSession.delivered (s : TransportSession) : Delivered where
  pgn := s.pgn
  data := s.data
  source := s.sourceAddress
  destination := s.destinationAddress
  priority := s.priority

def FixedMessage.delivered {N : ℕ} (m : FixedMessage N) : Delivered where
  pgn := m.pgn
  data := m.data.bytes
  source := m.source
  destination := m.destination
  priority := m.priority

end Machbus
