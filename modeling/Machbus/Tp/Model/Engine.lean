import Machbus.Common.Table
import Machbus.Transport.Model.Session
import Machbus.Common.Link
import Machbus.Common.Run
/-!
# TP — the transport protocol engine

`TransportProtocol` carries messages of 9 to 1785 bytes, either to one
peer under RTS, CTS and EOMA or to everybody after a BAM. The engine is a
table of sessions; every call returns the new engine and the frames to
transmit. The observers of `on_complete` and `on_abort` are modelled by
the lists of what was emitted to them. A transfer joins two engines: a
schedule decides when queued frames are delivered, when pending data is
drained and when time passes.
-/

namespace Machbus

/-! ## The wire -/

namespace TpCm

def rts : UInt8 := 0x10
def cts : UInt8 := 0x11
def eoma : UInt8 := 0x13
def bam : UInt8 := 0x20
def abort : UInt8 := 0xFF

end TpCm

namespace Tp

def defaultMaxSessions : ℕ := 32
def defaultMaxRetransmits : ℕ := 3

def pgnFromCmBytes (d : Bytes8) : ℕ := ofLe [d.b5, d.b6, d.b7]

/-- The announced size of an RTS, a BAM or an EOMA. -/
def sizeFromCmBytes (d : Bytes8) : ℕ := ofLe [d.b1, d.b2]

def validTpSource (source : Address) : Bool :=
  source != nullAddress && source != broadcastAddress

def validTpDestination (destination : Address) : Bool := destination != nullAddress

def validTpPayloadShape (totalBytes totalPackets : ℕ) : Bool :=
  decide (canDataLength < totalBytes) && decide (totalBytes ≤ tpMaxDataLength) &&
    decide (totalPackets ≠ 0) && decide (totalPackets = divCeil totalBytes tpBytesPerFrame)

/-- A control frame: five bytes of its own and the PGN it speaks of. -/
def makeCm (src dst : Address) (b0 b1 b2 b3 b4 : UInt8) (pgn : ℕ) : Frame :=
  Frame.new (Identifier.encode .lowest pgnTpCm src dst)
    ⟨b0, b1, b2, b3, b4, leByte pgn 0, leByte pgn 1, leByte pgn 2⟩

variable (s : TransportSession)

def makeBam : Frame :=
  makeCm s.sourceAddress broadcastAddress TpCm.bam (leByte s.totalBytes 0) (leByte s.totalBytes 1)
    (UInt8.ofNat (divCeil s.totalBytes tpBytesPerFrame)) 0xFF s.pgn

def makeRts : Frame :=
  makeCm s.sourceAddress s.destinationAddress TpCm.rts (leByte s.totalBytes 0)
    (leByte s.totalBytes 1) (UInt8.ofNat (divCeil s.totalBytes tpBytesPerFrame))
    (UInt8.ofNat s.advertisedPacketsPerCts) s.pgn

def makeCts (src dst : Address) (numPackets nextSeq pgn : ℕ) : Frame :=
  makeCm src dst TpCm.cts (UInt8.ofNat numPackets) (UInt8.ofNat nextSeq) 0xFF 0xFF pgn

def makeEoma (src dst : Address) (totalBytes totalPackets pgn : ℕ) : Frame :=
  makeCm src dst TpCm.eoma (leByte totalBytes 0) (leByte totalBytes 1) (UInt8.ofNat totalPackets)
    0xFF pgn

def makeAbort (src dst : Address) (pgn : ℕ) (reason : TransportAbortReason) : Frame :=
  makeCm src dst TpCm.abort reason.asU8 0xFF 0xFF 0xFF pgn

/-- The abort the local end of a session sends to its peer. -/
def makeSessionAbort (reason : TransportAbortReason) : Frame :=
  match s.direction with
  | .transmit => makeAbort s.sourceAddress s.destinationAddress s.pgn reason
  | .receive => makeAbort s.destinationAddress s.sourceAddress s.pgn reason

/-- A data frame: the sequence number and seven bytes. -/
def makeDt (src dst : Address) (seq : ℕ) (block : List UInt8) : Frame :=
  Frame.new (Identifier.encode .lowest pgnTpDt src dst) (Bytes8.padded (UInt8.ofNat seq :: block))

/-! ## One session -/

/-- Cuts up to `count` data frames off the session's payload. -/
def generateDataFrames : TransportSession → ℕ → TransportSession × List Frame
  | s, 0 => (s, [])
  | s, count + 1 =>
    if s.totalBytes ≤ s.bytesTransferred then (s, [])
    else
      let seq := (s.lastSequence + 1) % 256
      let frame := makeDt s.sourceAddress s.destinationAddress seq
        (readBlock 0xFF s.totalBytes s.data s.bytesTransferred tpBytesPerFrame)
      let r := generateDataFrames
        { s with
          lastSequence := seq
          bytesTransferred := min (s.bytesTransferred + tpBytesPerFrame) s.totalBytes } count
      (r.1, frame :: r.2)

/-- What a turn of the timer sweep reports about a session. -/
inductive Tick
  | quiet
  /-- A broadcast sent its next packet. -/
  | sent (frames : List Frame)
  /-- A broadcast sent its last packet. -/
  | completed (s : TransportSession) (frames : List Frame)
  /-- The deadline of the session's state was reached. -/
  | timedOut (s : TransportSession)
  deriving DecidableEq, Repr

/-- The deadline of a state, where it has one. -/
def deadline : SessionState → Option ℕ
  | .waitingForCTS => some tpTimeoutT3Ms
  | .waitingForData => some tpTimeoutT2Ms
  | .waitingForEndOfMsg => some tpTimeoutT3Ms
  | .receivingData => some tpTimeoutT1Ms
  | _ => none

def timedOut : Bool :=
  match deadline s.state with
  | some d => d ≤ s.timerMs
  | none => false

/-- One turn of the loop in `update`: what becomes of the session. -/
def tick (elapsedMs : ℕ) (s : TransportSession) : Option TransportSession × Tick :=
  let s := { s with timerMs := satAdd32 s.timerMs elapsedMs }
  if s.isBroadcast = true ∧ s.state = .sendingData ∧ s.direction = .transmit ∧
      tpBamInterPacketMs ≤ s.timerMs then
    let r := generateDataFrames { s with timerMs := 0 } 1
    -- nobody acknowledges a broadcast: it is over with its last packet
    if r.1.totalBytes ≤ r.1.bytesTransferred then
      (none, .completed { r.1 with state := .complete } r.2)
    else (some r.1, .sent r.2)
  else if timedOut s then (none, .timedOut { s with state := .aborted })
  else (some s, .quiet)

/-- The drain of one session by `get_pending_data_frames`. -/
def drain : TransportSession × List Frame :=
  if s.state = .sendingData ∧ s.direction = .transmit ∧ s.isBroadcast = false then
    let r := generateDataFrames s s.packetsToSend
    -- past the last byte the acknowledgement is due, before it another window
    if r.1.totalBytes ≤ r.1.bytesTransferred then
      ({ r.1 with state := .waitingForEndOfMsg, timerMs := 0 }, r.2)
    else ({ r.1 with state := .waitingForCTS, timerMs := 0 }, r.2)
  else (s, [])

/-- The packets a CTS for `numPackets` from `nextSeq` on lets through. -/
def grantedPackets (numPackets nextSeq : ℕ) : ℕ :=
  min (min numPackets (s.totalPackets - (nextSeq - 1))) s.maxPacketsPerCts % 256

/-- What a CTS makes of the transmit session it matches, or the reason
the session is aborted for. -/
def acceptCts (maxRetransmits : ℕ) (s : TransportSession) (numPackets nextSeq : ℕ) :
    Except TransportAbortReason TransportSession :=
  if s.state = .sendingData then
    -- only the window already granted may be granted again before it is drained
    if numPackets ≠ 0 ∧ nextSeq ≠ 0 ∧ nextSeq ≤ s.totalPackets ∧
        nextSeq = satAdd8 s.lastSequence 1 ∧
        s.packetsToSend = grantedPackets s numPackets nextSeq then
      .ok { s with timerMs := 0 }
    else .error .connectionModeError
  -- a CTS for no packets holds the connection open
  else if numPackets = 0 then .ok { s with timerMs := 0 }
  else if nextSeq = 0 ∨ s.totalPackets < nextSeq then .error .badSequence
  else
    let granted : TransportSession :=
      { s with
        state := .sendingData
        packetsToSend := grantedPackets s numPackets nextSeq
        bytesTransferred := (nextSeq - 1) * 7
        lastSequence := nextSeq - 1
        timerMs := 0 }
    -- a window behind what has been sent is a retransmission
    if nextSeq - 1 < divCeil s.bytesTransferred tpBytesPerFrame then
      let retransmitCount := satAdd8 s.retransmitCount 1
      if maxRetransmits < retransmitCount then .error .maxRetransmitsExceeded
      else .ok { granted with retransmitCount := retransmitCount }
    else .ok { granted with retransmitCount := 0 }

/-- The session after data frame `seq` has been copied in. -/
def ingest (seq : ℕ) (block : List UInt8) : TransportSession :=
  let offset := (seq - 1) * 7
  { s with
    data := writeBlock s.totalBytes s.data offset block
    bytesTransferred := min (offset + tpBytesPerFrame) s.totalBytes
    lastSequence := seq
    timerMs := 0 }

/-- The receiver's next window, once the granted one is used up. -/
def advanceWindow (seq : ℕ) : TransportSession × List Frame :=
  let inWindow := seq - (s.ctsWindowStart - 1)
  if s.isBroadcast = false ∧ s.ctsWindowSize ≤ inWindow then
    let remaining := s.totalPackets - seq
    -- narrowed to a byte before the cap is applied
    let nextCount := min (remaining % 256) s.maxPacketsPerCts
    ({ s with ctsWindowStart := seq + 1, ctsWindowSize := nextCount },
      [makeCts s.destinationAddress s.sourceAddress nextCount (seq + 1) s.pgn])
  else (s, [])

end Tp

/-! ## The engine -/

/-- The TP protocol engine. -/
structure TransportProtocol where
  sessions : List TransportSession := []
  maxReceiveBytes : ℕ := tpMaxDataLength
  maxSessions : ℕ := Tp.defaultMaxSessions
  maxRetransmits : ℕ := Tp.defaultMaxRetransmits
  advertisedPacketsPerCts : ℕ := tpMaxPacketsPerCts
  stats : TransportStats := {}
  onComplete : List TransportSession := []
  onAbort : List TransportAbortEvent := []
  deriving DecidableEq, Repr

namespace TransportProtocol

open Tp

def new : TransportProtocol := {}

def withMaxReceiveBytes (maxReceiveBytes : ℕ) : TransportProtocol :=
  { new with maxReceiveBytes := min maxReceiveBytes tpMaxDataLength }

def withMaxSessions (maxSessions : ℕ) : TransportProtocol := { new with maxSessions := maxSessions }

def withMaxRetransmits (maxRetransmits : ℕ) : TransportProtocol :=
  { new with maxRetransmits := maxRetransmits }

/-- The advertisement is clamped into `1..=16`. -/
def withAdvertisedPacketsPerCts (advertisedPacketsPerCts : UInt8) : TransportProtocol :=
  { new with
    advertisedPacketsPerCts := min (max advertisedPacketsPerCts.toNat 1) tpMaxPacketsPerCts }

def noteDroppedFrame (t : TransportProtocol) : TransportProtocol :=
  { t with stats := t.stats.noteDroppedFrame }

def noteResourceRejection (t : TransportProtocol) : TransportProtocol :=
  { t with stats := t.stats.noteResourceRejection }

variable (t : TransportProtocol)

def sessionPosition (p : TransportSession → Bool) : Option ℕ :=
  t.sessions.findIdx? p

variable (idx : ℕ)

/-- The session at an index a search returned. -/
def sessionAt : TransportSession := t.sessions.getD idx default

def setSession (s : TransportSession) : TransportProtocol :=
  { t with sessions := t.sessions.set idx s }

def removeSession : TransportProtocol :=
  { t with sessions := swapRemove t.sessions idx }

def pushSession (s : TransportSession) : TransportProtocol :=
  { t with sessions := t.sessions ++ [s] }

def receivePathIsActive (source destination : Address) (port : UInt8) : Bool :=
  t.sessions.any fun s =>
    s.direction == .receive && s.sourceAddress == source && s.canPort == port &&
      s.destinationAddress == destination

def receiveSessionFor (source destination : Address) (port : UInt8) (pgn : ℕ) : Option ℕ :=
  t.sessionPosition fun s =>
    s.direction == .receive && s.sourceAddress == source && s.canPort == port &&
      s.destinationAddress == destination && s.pgn == pgn

/-! ### Sending -/

/-- Opens a transmit session. The initial control frame is a BAM for the
broadcast address and an RTS for any other. -/
def send (pgn : ℕ) (data : List UInt8) (source dest : Address)
    (port : UInt8) (priority : Priority) : TransportProtocol × Except Error (List Frame) :=
  if pgnIsValid pgn = false then
    (t, .error (.invalidData ("TP target PGN 0x" ++ hexUpper 0 pgn ++
      " exceeds the 18-bit J1939/ISOBUS PGN range")))
  else if validTpSource source = false then (t, .error (.invalidAddress source))
  else if validTpDestination dest = false then (t, .error (.invalidAddress dest))
  else if tpMaxDataLength < data.length then (t.noteResourceRejection, .error .bufferOverflow)
  else if data.length ≤ canDataLength then
    (t, .error (.invalidState "use single frame for <= 8 bytes"))
  -- one transmit session per path, whatever its PGN
  else if t.sessions.any (fun s => s.sourceAddress == source && s.destinationAddress == dest &&
      s.direction == .transmit && s.canPort == port) then
    (t, .error (.withMessage .sessionExists "session already active"))
  else if t.maxSessions ≤ t.sessions.length then
    (t.noteResourceRejection, .error (.withMessage .noResources "no TP session slots available"))
  else
    let session : TransportSession :=
      { direction := .transmit
        pgn := pgn
        data := data
        totalBytes := data.length
        sourceAddress := source
        destinationAddress := dest
        canPort := port
        priority := priority
        advertisedPacketsPerCts := t.advertisedPacketsPerCts }
    if dest = broadcastAddress then
      let session := { session with state := .sendingData }
      (t.pushSession session, .ok [makeBam session])
    else
      let session := { session with state := .waitingForCTS }
      (t.pushSession session, .ok [makeRts session])

/-! ### Control frames -/

/-- The answer to an RTS that opens nothing. -/
def refuseRts (src dst : Address) (pgn : ℕ)
    (reason : TransportAbortReason) : TransportProtocol × List Frame :=
  let stats := t.stats.noteDroppedFrame
  let stats := if reason = .resourcesUnavailable then stats.noteResourceRejection else stats
  ({ t with stats := stats.noteAbortSent }, [makeAbort dst src pgn reason])

variable (frame : Frame) (port : UInt8)

/-- The receive session an RTS opens. -/
def rtsSession (data : List UInt8) : TransportSession :=
  let maxPkts := min frame.data.b4.toNat tpMaxPacketsPerCts
  { direction := .receive
    state := .waitingForData
    pgn := pgnFromCmBytes frame.data
    totalBytes := sizeFromCmBytes frame.data
    sourceAddress := frame.source
    destinationAddress := frame.destination
    canPort := port
    priority := frame.priority
    maxPacketsPerCts := maxPkts
    data := data
    ctsWindowStart := 1
    ctsWindowSize := min frame.data.b3.toNat maxPkts }

/-- Opens the receive session of an RTS, if there is room for it. -/
def openRts : TransportProtocol × List Frame :=
  let src := frame.source
  let dst := frame.destination
  let pgn := pgnFromCmBytes frame.data
  if t.maxSessions ≤ t.sessions.length then t.refuseRts src dst pgn .resourcesUnavailable
  else
    match rxBuffer (sizeFromCmBytes frame.data) t.maxReceiveBytes with
    | .error reason => t.refuseRts src dst pgn reason
    | .ok data =>
      let session := rtsSession frame port data
      (t.pushSession session, [makeCts dst src session.ctsWindowSize 1 pgn])

def handleRts : TransportProtocol × List Frame :=
  let src := frame.source
  let dst := frame.destination
  let pgn := pgnFromCmBytes frame.data
  if validTpPayloadShape (sizeFromCmBytes frame.data) frame.data.b3.toNat = false ∨
      frame.data.b4 = 0 then
    t.refuseRts src dst pgn .unexpectedDataSize
  else
    match t.receiveSessionFor src dst port pgn with
    -- a repeated RTS abandons the transfer it repeats
    | some existing => (t.removeSession existing).openRts frame port
    | none =>
      -- a second PGN on the path could not be told apart by its data frames
      if t.receivePathIsActive src dst port then t.refuseRts src dst pgn .alreadyInSession
      else t.openRts frame port

def handleCts : TransportProtocol × List Frame :=
  let src := frame.source
  let dst := frame.destination
  let pgn := pgnFromCmBytes frame.data
  match t.sessionPosition (fun s =>
    s.direction == .transmit && s.sourceAddress == dst && s.destinationAddress == src &&
      s.pgn == pgn &&
      (s.state == .waitingForCTS || s.state == .sendingData || s.state == .waitingForEndOfMsg) &&
      s.canPort == port) with
  -- a CTS that no session waits for is only counted
  | none => (t.noteDroppedFrame, [])
  | some idx =>
    let s := t.sessionAt idx
    match acceptCts t.maxRetransmits s frame.data.b1.toNat frame.data.b2.toNat with
    | .ok s => (t.setSession idx s, [])
    | .error reason =>
      ({ t.removeSession idx with
          onAbort := t.onAbort ++ [.fromSession s reason]
          stats := t.stats.noteDroppedFrame.noteDroppedSession.noteAbortSent },
        [makeSessionAbort s reason])

def handleEoma : TransportProtocol × List Frame :=
  let src := frame.source
  let dst := frame.destination
  let pgn := pgnFromCmBytes frame.data
  match t.sessionPosition (fun s =>
    s.direction == .transmit && s.sourceAddress == dst && s.destinationAddress == src &&
      s.pgn == pgn && s.canPort == port) with
  | none => (t.noteDroppedFrame, [])
  | some idx =>
    let s := t.sessionAt idx
    -- an acknowledgement of another size or before the end is only counted
    if s.state ≠ .waitingForEndOfMsg ∨ sizeFromCmBytes frame.data ≠ s.totalBytes ∨
        frame.data.b3.toNat ≠ s.totalPackets % 256 then
      (t.noteDroppedFrame, [])
    else
      ({ t.removeSession idx with onComplete := t.onComplete ++ [{ s with state := .complete }] },
        [])

/-- The receive session a BAM opens. -/
def bamSession (data : List UInt8) : TransportSession :=
  { direction := .receive
    state := .receivingData
    pgn := pgnFromCmBytes frame.data
    totalBytes := sizeFromCmBytes frame.data
    sourceAddress := frame.source
    destinationAddress := broadcastAddress
    canPort := port
    priority := frame.priority
    data := data }

/-- Opens the receive session of a BAM, if it is well formed and there is
room for it. Nothing is ever sent back. -/
def openBam : TransportProtocol :=
  let msgSize := sizeFromCmBytes frame.data
  if frame.isBroadcast = false ∨ validTpPayloadShape msgSize frame.data.b3.toNat = false ∨
      t.maxReceiveBytes < msgSize then
    if t.maxReceiveBytes < msgSize then t.noteDroppedFrame.noteResourceRejection
    else t.noteDroppedFrame
  else if t.maxSessions ≤ t.sessions.length then t.noteDroppedFrame.noteResourceRejection
  else
    match rxBuffer msgSize t.maxReceiveBytes with
    | .error reason =>
      if reason = .resourcesUnavailable then t.noteDroppedFrame.noteResourceRejection
      else t.noteDroppedFrame
    | .ok data => t.pushSession (bamSession frame port data)

def handleBam : TransportProtocol :=
  match t.receiveSessionFor frame.source broadcastAddress port (pgnFromCmBytes frame.data) with
  -- only a session for the same PGN is looked for
  | some existing => (t.removeSession existing).openBam frame port
  | none => t.openBam frame port

def handleAbort : TransportProtocol :=
  let src := frame.source
  let dst := frame.destination
  let pgn := pgnFromCmBytes frame.data
  -- a reason byte outside the table is kept as some other reason
  let reason := (TransportAbortReason.tryFromU8 frame.data.b1.toNat).getD .other
  match t.sessionPosition (fun s =>
    s.pgn == pgn && s.canPort == port &&
      -- either end of the connection may abort it
      ((s.sourceAddress == dst && s.destinationAddress == src) ||
        (s.sourceAddress == src && s.destinationAddress == dst))) with
  | none => t.noteDroppedFrame
  | some idx =>
    { t.removeSession idx with
      onAbort := t.onAbort ++ [.fromSession (t.sessionAt idx) reason]
      stats := t.stats.noteAbortReceived.noteDroppedSession }

def handleCm : TransportProtocol × List Frame :=
  let controlByte := frame.data.b0
  if pgnIsValid (pgnFromCmBytes frame.data) = false then (t.noteDroppedFrame, [])
  -- of the control frames only a BAM may be broadcast
  else if controlByte ≠ TpCm.bam ∧ frame.destination = broadcastAddress then
    (t.noteDroppedFrame, [])
  else if controlByte = TpCm.rts then t.handleRts frame port
  else if controlByte = TpCm.cts then t.handleCts frame port
  else if controlByte = TpCm.eoma then t.handleEoma frame port
  else if controlByte = TpCm.bam then (t.handleBam frame port, [])
  else if controlByte = TpCm.abort then (t.handleAbort frame port, [])
  else (t.noteDroppedFrame, [])

/-! ### Data frames -/

/-- Closes a receive session on a bad sequence number. Only the sender of
a connection is told. -/
def abortReceive (reason : TransportAbortReason) : TransportProtocol × List Frame :=
  let s := t.sessionAt idx
  let stats := if s.isBroadcast = false then t.stats.noteAbortSent else t.stats
  ({ t.removeSession idx with
      onAbort := t.onAbort ++ [.fromSession s reason]
      stats := stats.noteDroppedFrame.noteDroppedSession },
    if s.isBroadcast = false then [makeSessionAbort s reason] else [])

/-- Takes in the data frame a session is waiting for. -/
def acceptDt (idx seq : ℕ) (block : List UInt8) : TransportProtocol × List Frame :=
  let s := ingest (t.sessionAt idx) seq block
  if s.totalBytes ≤ s.bytesTransferred then
    ({ t.removeSession idx with onComplete := t.onComplete ++ [{ s with state := .complete }] },
      if s.isBroadcast = false then
        [makeEoma s.destinationAddress s.sourceAddress s.totalBytes (s.totalPackets % 256) s.pgn]
      else [])
  else
    let r := advanceWindow s seq
    (t.setSession idx r.1, r.2)

def handleDt : TransportProtocol × List Frame :=
  let src := frame.source
  let dst := frame.destination
  let seq := frame.data.b0.toNat
  match t.sessionPosition (fun s =>
    s.direction == .receive && s.sourceAddress == src && s.canPort == port &&
      (s.state == .waitingForData || s.state == .receivingData) &&
      s.destinationAddress == dst) with
  | none => (t.noteDroppedFrame, [])
  | some idx =>
    let last := (t.sessionAt idx).lastSequence
    -- the sequence numbers do not wrap: 255 packets are the most there are
    let expected := last + 1
    if seq = 0 then t.abortReceive idx .badSequence
    else if seq ≠ expected ∧ seq ≤ last ∧ seq ≠ 0 then t.abortReceive idx .duplicateSequence
    else if seq ≠ expected ∧ expected < seq then t.abortReceive idx .badSequence
    else t.acceptDt idx seq frame.data.tail

/-! ### Entry points -/

/-- An incoming frame, and the frames to transmit in response. -/
def processFrame : TransportProtocol × List Frame :=
  if (frame.pgn = pgnTpCm ∨ frame.pgn = pgnTpDt) ∧ frame.length < canDataLength then
    (t.noteDroppedFrame, [])
  else if (frame.pgn = pgnTpCm ∨ frame.pgn = pgnTpDt) ∧
      (validTpSource frame.source = false ∨ validTpDestination frame.destination = false) then
    (t.noteDroppedFrame, [])
  else if frame.pgn = pgnTpCm then t.handleCm frame port
  else if frame.pgn = pgnTpDt then t.handleDt frame port
  else (t, [])

/-- The frames a turn of the timer sweep transmits. -/
def tickFrames : Tick → List Frame
  | .quiet => []
  | .sent frames => frames
  | .completed _ frames => frames
  | .timedOut s => if s.isBroadcast = false then [makeSessionAbort s .timeout] else []

/-- What a turn of the timer sweep does to the rest of the engine. -/
def applyTick : Tick → TransportProtocol
  | .quiet => t
  | .sent _ => t
  | .completed s _ => { t with onComplete := t.onComplete ++ [s] }
  | .timedOut s =>
    let stats := if s.isBroadcast = false then t.stats.noteAbortSent else t.stats
    { t with
      onAbort := t.onAbort ++ [.fromSession s .timeout]
      stats := stats.noteTimeout.noteDroppedSession }

/-- Drives the timers: broadcasts send their next packet and sessions past
their deadline are aborted. -/
def update (elapsedMs : ℕ) : TransportProtocol × List Frame :=
  let r := sweep (tick elapsedMs) t.sessions
  (r.2.foldl applyTick { t with sessions := r.1 }, r.2.flatMap tickFrames)

/-- The data frames of every window granted and not drained yet. -/
def getPendingDataFrames : TransportProtocol × List Frame :=
  ({ t with sessions := t.sessions.map fun s => (drain s).1 },
    t.sessions.flatMap fun s => (drain s).2)

/-- Drops every session on `port` that uses `address` at either end.
Nothing is transmitted. -/
def abortSessionsForAddress (address : Address) : TransportProtocol × List Frame :=
  ({ t with
      sessions := t.sessions.filter fun s =>
        s.canPort != port || (s.sourceAddress != address && s.destinationAddress != address) },
    [])

/-! ### Operations -/

/-- A call on the engine. -/
inductive Op
  | send (pgn : ℕ) (data : List UInt8) (source dest : Address) (port : UInt8) (priority : Priority)
  | frame (f : Frame) (port : UInt8)
  | update (elapsedMs : ℕ)
  | pending
  | abortFor (port : UInt8) (address : Address)
  deriving DecidableEq, Repr

/-- The engine after a call. -/
def step : Op → TransportProtocol
  | .send pgn data source dest port priority => (t.send pgn data source dest port priority).1
  | .frame f port => (t.processFrame f port).1
  | .update elapsedMs => (t.update elapsedMs).1
  | .pending => t.getPendingDataFrames.1
  | .abortFor port address => (t.abortSessionsForAddress port address).1

end TransportProtocol

/-! ## Two engines -/

namespace Tp

def pump (t : TransportProtocol) : Pump → TransportProtocol × List Frame
  | .pending => t.getPendingDataFrames
  | .update elapsedMs => t.update elapsedMs

/-- Two engines, each on a port of its own. -/
def parties (portA portB : UInt8) :
    Parties TransportProtocol TransportProtocol Frame Pump Pump where
  recvLeft t f := t.processFrame f portA
  recvRight t f := t.processFrame f portB
  actLeft := pump
  actRight := pump

/-- An abort frame. -/
def IsAbort (f : Frame) : Prop := f.pgn = pgnTpCm ∧ f.data.b0 = TpCm.abort

/-- A message to be carried, and what its transfer depends on: any valid
PGN, any size TP is for, any claimable source, any destination, any
advertised window and any receive cap that admits the message. -/
structure Transfer where
  pgn : ℕ
  data : List UInt8
  source : Address
  dest : Address
  portA : UInt8
  portB : UInt8
  priority : Priority
  window : UInt8
  cap : ℕ
  pgn_valid : pgnIsValid pgn = true
  length_gt : canDataLength < data.length
  length_le : data.length ≤ tpMaxDataLength
  source_le : source ≤ maxAddress
  dest_ne : dest ≠ nullAddress
  cap_ge : data.length ≤ cap

namespace Transfer

variable (x : Transfer)

/-- The sender's call. -/
def sent : TransportProtocol × Except Error (List Frame) :=
  (TransportProtocol.withAdvertisedPacketsPerCts x.window).send x.pgn x.data x.source x.dest x.portA
    x.priority

/-- The link right after the call, with the announcement under way to a
fresh receiver. -/
def start : Link TransportProtocol TransportProtocol Frame where
  left := x.sent.1
  right := TransportProtocol.withMaxReceiveBytes x.cap
  toRight := x.sent.2.toOption.getD []
  toLeft := []
  log := x.sent.2.toOption.getD []

/-- One choice of the schedule. -/
def step (l : Link TransportProtocol TransportProtocol Frame) (act : LinkAct Pump Pump) :
    Link TransportProtocol TransportProtocol Frame :=
  Link.step (parties x.portA x.portB) l act

/-- Time passes at an engine without a deadline being reached. -/
def InTime (t : TransportProtocol) : Pump → Prop
  | .pending => True
  | .update elapsedMs =>
    ∀ s ∈ t.sessions, timedOut { s with timerMs := satAdd32 s.timerMs elapsedMs } = false

/-- The choices a schedule may make: anything, as long as no session is
left alone past its deadline. -/
abbrev Timely : Link TransportProtocol TransportProtocol Frame → LinkAct Pump Pump → Prop :=
  Link.Allowed InTime InTime

/-- **A fair schedule.** Queued frames keep being delivered. In connection
mode the sender's data keeps being drained; for a broadcast its timer
keeps being driven in steps of at least the packet interval. -/
structure Fair (σ : ℕ → LinkAct Pump Pump) : Prop where
  deliverRight : Recurs σ (· = .deliverRight)
  deliverLeft : x.dest ≠ broadcastAddress → Recurs σ (· = .deliverLeft)
  drain : x.dest ≠ broadcastAddress → Recurs σ (· = .left .pending)
  drive : x.dest = broadcastAddress →
    Recurs σ fun act => ∃ elapsedMs, tpBamInterPacketMs ≤ elapsedMs ∧
      act = .left (.update elapsedMs)

end Transfer

end Tp

end Machbus
