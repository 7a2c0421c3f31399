import Machbus.Common.Table
import Machbus.Transport.Model.Session
import Machbus.Common.Link
import Machbus.Common.Run
/-!
# ETP — the extended transport protocol engine

`ExtendedTransportProtocol` carries messages of 1786 to 117440505 bytes
from one address to another. Packets are counted in twenty-four bits, and
data frames carry only their number within a group; a DPO ahead of each
group says where the group starts. As for TP, a call returns the new
engine and the frames to transmit, events are the lists of what was
emitted, and a transfer joins two engines.
-/

namespace Machbus

/-! ## The wire -/

namespace EtpCm

def rts : UInt8 := 0x14
def cts : UInt8 := 0x15
def dpo : UInt8 := 0x16
def eoma : UInt8 := 0x17
def abort : UInt8 := 0xFF

end EtpCm

namespace Etp

def defaultMaxSessions : ℕ := 16

def pgnFromCmBytes (d : Bytes8) : ℕ := ofLe [d.b5, d.b6, d.b7]

/-- The announced size of an RTS or an EOMA. -/
def sizeFromCmBytes (d : Bytes8) : ℕ := ofLe [d.b1, d.b2, d.b3, d.b4]

/-- The packet number of a CTS or the packet offset of a DPO. -/
def packetFromCmBytes (d : Bytes8) : ℕ := ofLe [d.b2, d.b3, d.b4]

def validEtpSource (source : Address) : Bool :=
  source != nullAddress && source != broadcastAddress

def validEtpDestination (destination : Address) : Bool :=
  destination != nullAddress && destination != broadcastAddress

/-- A control frame: five bytes of its own and the PGN it speaks of. -/
def makeCm (src dst : Address) (b0 b1 b2 b3 b4 : UInt8) (pgn : ℕ) : Frame :=
  Frame.new (Identifier.encode .lowest pgnEtpCm src dst)
    ⟨b0, b1, b2, b3, b4, leByte pgn 0, leByte pgn 1, leByte pgn 2⟩

def makeRtsFields (pgn totalBytes : ℕ) (source destination : Address) : Frame :=
  makeCm source destination EtpCm.rts (leByte totalBytes 0) (leByte totalBytes 1)
    (leByte totalBytes 2) (leByte totalBytes 3) pgn

variable (s : TransportSession)

def makeRts : Frame :=
  makeRtsFields s.pgn s.totalBytes s.sourceAddress s.destinationAddress

def makeDpoFields (pgn : ℕ) (source destination : Address) (packetsToSend packetOffset : ℕ) :
    Frame :=
  makeCm source destination EtpCm.dpo (UInt8.ofNat packetsToSend) (leByte packetOffset 0)
    (leByte packetOffset 1) (leByte packetOffset 2) pgn

def makeDpo : Frame :=
  makeDpoFields s.pgn s.sourceAddress s.destinationAddress s.packetsToSend (s.bytesTransferred / 7)

def makeCts (src dst : Address) (numPackets nextPacket pgn : ℕ) : Frame :=
  makeCm src dst EtpCm.cts (UInt8.ofNat numPackets) (leByte nextPacket 0) (leByte nextPacket 1)
    (leByte nextPacket 2) pgn

def makeEoma (src dst : Address) (totalBytes pgn : ℕ) : Frame :=
  makeCm src dst EtpCm.eoma (leByte totalBytes 0) (leByte totalBytes 1) (leByte totalBytes 2)
    (leByte totalBytes 3) pgn

def makeAbort (src dst : Address) (pgn : ℕ) (reason : TransportAbortReason) : Frame :=
  makeCm src dst EtpCm.abort reason.asU8 0xFF 0xFF 0xFF pgn

/-- The abort the local end of a session sends to its peer. -/
def makeSessionAbort (reason : TransportAbortReason) : Frame :=
  match s.direction with
  | .transmit => makeAbort s.sourceAddress s.destinationAddress s.pgn reason
  | .receive => makeAbort s.destinationAddress s.sourceAddress s.pgn reason

/-- A data frame: its number within the group and seven bytes. -/
def makeDt (src dst : Address) (seq : ℕ) (block : List UInt8) : Frame :=
  Frame.new (Identifier.encode .lowest pgnEtpDt src dst) (Bytes8.padded (UInt8.ofNat seq :: block))

/-! ## One session -/

/-- The loop of `generate_data_frames` from index `i` on. The number of a
data frame is its index in the group plus one. -/
def generateFrom : TransportSession → ℕ → ℕ → TransportSession × List Frame
  | s, _, 0 => (s, [])
  | s, i, count + 1 =>
    if s.totalBytes ≤ s.bytesTransferred then (s, [])
    else
      let frame := makeDt s.sourceAddress s.destinationAddress (i + 1)
        (readBlock 0xFF s.totalBytes s.data s.bytesTransferred tpBytesPerFrame)
      let r := generateFrom
        { s with bytesTransferred := min (s.bytesTransferred + tpBytesPerFrame) s.totalBytes }
        (i + 1) count
      (r.1, frame :: r.2)

/-- Cuts a group of up to `count` data frames off the session's
payload. -/
def generateDataFrames (count : ℕ) : TransportSession × List Frame :=
  generateFrom s 0 count

/-- The deadline of a state. -/
def deadlineMs : SessionState → ℕ
  | .waitingForCTS => etpTimeoutT3Ms
  | .waitingForEndOfMsg => etpTimeoutT3Ms
  | .waitingForData => etpTimeoutT2Ms
  | .receivingData => etpTimeoutT1Ms
  | _ => u32Max

/-- One turn of the loop in `update`: what becomes of the session, and
the session that is aborted if its deadline was reached. -/
def tick (elapsedMs : ℕ) (s : TransportSession) :
    Option TransportSession × Option TransportSession :=
  let s := { s with timerMs := satAdd32 s.timerMs elapsedMs }
  if deadlineMs s.state ≤ s.timerMs then (none, some { s with state := .aborted })
  else (some s, none)

/-- The drain of one session by `get_pending_data_frames`: the DPO of the
group and its data frames. -/
def drain : TransportSession × List Frame :=
  if s.state = .sendingData ∧ s.direction = .transmit then
    let r := generateDataFrames s s.packetsToSend
    -- past the last byte the acknowledgement is due, before it another window
    if r.1.totalBytes ≤ r.1.bytesTransferred then
      ({ r.1 with state := .waitingForEndOfMsg, timerMs := 0 }, makeDpo s :: r.2)
    else ({ r.1 with state := .waitingForCTS, timerMs := 0 }, makeDpo s :: r.2)
  else (s, [])

/-- The packets a CTS for `numPackets` from `nextPkt` on lets through. -/
def grantedPackets (numPackets nextPkt : ℕ) : ℕ :=
  min (min numPackets (s.totalPackets - (nextPkt - 1))) tpMaxPacketsPerCts % 256

/-- What a CTS makes of the transmit session it matches, or the reason
the session is aborted for. -/
def acceptCts (numPackets nextPkt : ℕ) : Except TransportAbortReason TransportSession :=
  if s.state = .sendingData then
    -- only the window already granted may be granted again before it is drained
    if numPackets ≠ 0 ∧ nextPkt ≠ 0 ∧ nextPkt ≤ s.totalPackets ∧
        nextPkt = s.bytesTransferred / 7 + 1 ∧
        s.packetsToSend = grantedPackets s numPackets nextPkt then
      .ok { s with timerMs := 0 }
    else .error .connectionModeError
  -- a CTS for no packets holds the connection open
  else if numPackets = 0 then .ok { s with timerMs := 0 }
  else if nextPkt = 0 ∨ s.totalPackets < nextPkt then .error .badSequence
  else
    .ok
      { s with
        state := .sendingData
        packetsToSend := grantedPackets s numPackets nextPkt
        bytesTransferred := (nextPkt - 1) * 7
        timerMs := 0 }

/-- The group a DPO announces starts at the next packet and fits the
window and the message. -/
def DpoFits (numPackets packetOffset : ℕ) : Prop :=
  numPackets ≠ 0 ∧ numPackets ≤ s.ctsWindowSize ∧
    numPackets ≤ divCeil (s.totalBytes - s.bytesTransferred) 7 ∧
    packetOffset = s.bytesTransferred / 7
  deriving Decidable

/-- The receive session at the start of a group. -/
def startGroup (numPackets packetOffset : ℕ) : TransportSession :=
  { s with
    dpoPacketOffset := packetOffset
    ctsWindowSize := numPackets
    packetsToSend := numPackets
    lastSequence := 0
    timerMs := 0 }

/-- The session after data frame `seq` of the group has been copied in. -/
def ingest (seq : ℕ) (block : List UInt8) : TransportSession :=
  let byteOffset := (s.dpoPacketOffset + seq - 1) * 7
  { s with
    data := writeBlock s.totalBytes s.data byteOffset block
    bytesTransferred := min (byteOffset + 7) s.totalBytes
    lastSequence := seq
    timerMs := 0 }

/-- The receiver's next window, once the group is used up. -/
def advanceWindow (seq : ℕ) : TransportSession × List Frame :=
  if s.ctsWindowSize ≤ seq then
    let nextPkt := s.dpoPacketOffset + seq + 1
    let remainingPackets := divCeil (s.totalBytes - s.bytesTransferred) 7
    let nextCount := min remainingPackets tpMaxPacketsPerCts % 256
    -- no data is expected until the DPO of the next group
    ({ s with ctsWindowSize := nextCount, packetsToSend := 0 },
      [makeCts s.destinationAddress s.sourceAddress nextCount nextPkt s.pgn])
  else (s, [])

end Etp

/-! ## The engine -/

/-- The receive-admission summary for an advertised size. -/
structure EtpReceiveProfile where
  totalBytes : ℕ
  totalPackets : ℕ
  maxReceiveBytes : ℕ
  deriving DecidableEq, Repr

/-- The ETP protocol engine. -/
structure ExtendedTransportProtocol where
  sessions : List TransportSession := []
  maxReceiveBytes : ℕ := etpMaxDataLength
  maxSessions : ℕ := Etp.defaultMaxSessions
  stats : TransportStats := {}
  onComplete : List TransportSession := []
  onAbort : List TransportAbortEvent := []
  deriving DecidableEq, Repr

namespace ExtendedTransportProtocol

open Etp

def new : ExtendedTransportProtocol := {}

def withMaxReceiveBytes (maxReceiveBytes : ℕ) : ExtendedTransportProtocol :=
  { new with maxReceiveBytes := min maxReceiveBytes etpMaxDataLength }

def withMaxSessions (maxSessions : ℕ) : ExtendedTransportProtocol :=
  { new with maxSessions := maxSessions }

def noteDroppedFrame (t : ExtendedTransportProtocol) : ExtendedTransportProtocol :=
  { t with stats := t.stats.noteDroppedFrame }

def noteResourceRejection (t : ExtendedTransportProtocol) : ExtendedTransportProtocol :=
  { t with stats := t.stats.noteResourceRejection }

variable (t : ExtendedTransportProtocol)

def sessionPosition (p : TransportSession → Bool) : Option ℕ :=
  t.sessions.findIdx? p

variable (idx : ℕ)

/-- The session at an index a search returned. -/
def sessionAt : TransportSession :=
  t.sessions.getD idx default

def setSession (s : TransportSession) : ExtendedTransportProtocol :=
  { t with sessions := t.sessions.set idx s }

def removeSession : ExtendedTransportProtocol :=
  { t with sessions := swapRemove t.sessions idx }

def pushSession (s : TransportSession) : ExtendedTransportProtocol :=
  { t with sessions := t.sessions ++ [s] }

def transmitDtPathIsActive (source destination : Address) (port : UInt8) : Bool :=
  t.sessions.any fun s =>
    s.direction == .transmit && s.sourceAddress == source &&
      s.destinationAddress == destination && s.canPort == port

def receiveDtPathIsActive (source destination : Address) (port : UInt8) : Bool :=
  t.sessions.any fun s =>
    s.direction == .receive && s.sourceAddress == source &&
      s.destinationAddress == destination && s.canPort == port

/-- Validates an advertised size without allocating anything. -/
def receiveProfileForAdvertisedSize (totalBytes : ℕ) :
    Except TransportAbortReason EtpReceiveProfile :=
  if ¬(tpMaxDataLength + 1 ≤ totalBytes ∧ totalBytes ≤ etpMaxDataLength) then
    .error .unexpectedDataSize
  -- a size the protocol allows and this node does not
  else if t.maxReceiveBytes < totalBytes then .error .resourcesUnavailable
  else
    .ok
      { totalBytes := totalBytes
        totalPackets := divCeil totalBytes tpBytesPerFrame
        maxReceiveBytes := t.maxReceiveBytes }

/-! ### Sending -/

/-- Opens a transmit session and returns its RTS. -/
def send (pgn : ℕ) (data : List UInt8) (source dest : Address)
    (port : UInt8) (priority : Priority) : ExtendedTransportProtocol × Except Error (List Frame) :=
  if pgnIsValid pgn = false then
    (t, .error (.invalidData ("ETP target PGN 0x" ++ hexUpper 0 pgn ++
      " exceeds the 18-bit J1939/ISOBUS PGN range")))
  else if validEtpSource source = false then (t, .error (.invalidAddress source))
  else if validEtpDestination dest = false then (t, .error (.invalidAddress dest))
  else if etpMaxDataLength < data.length then (t.noteResourceRejection, .error .bufferOverflow)
  else if data.length ≤ tpMaxDataLength then
    (t, .error (.invalidState "use TP for <= 1785 bytes"))
  else if t.transmitDtPathIsActive source dest port = true then
    (t, .error (.withMessage .sessionExists "session already active"))
  else if t.maxSessions ≤ t.sessions.length then
    (t.noteResourceRejection, .error (.withMessage .noResources "no ETP session slots available"))
  else
    let session : TransportSession :=
      { direction := .transmit
        state := .waitingForCTS
        pgn := pgn
        data := data
        totalBytes := data.length
        sourceAddress := source
        destinationAddress := dest
        canPort := port
        priority := priority }
    (t.pushSession session, .ok [makeRts session])

/-! ### Control frames -/

/-- The answer to an RTS that opens nothing. -/
def refuseRts (src dst : Address) (pgn : ℕ)
    (reason : TransportAbortReason) : ExtendedTransportProtocol × List Frame :=
  let stats := t.stats.noteDroppedFrame
  let stats := if reason = .resourcesUnavailable then stats.noteResourceRejection else stats
  ({ t with stats := stats.noteAbortSent }, [makeAbort dst src pgn reason])

variable (frame : Frame) (port : UInt8)

/-- The receive session an RTS opens. -/
def rtsSession (data : List UInt8) : TransportSession :=
  { direction := .receive
    state := .waitingForData
    pgn := pgnFromCmBytes frame.data
    totalBytes := sizeFromCmBytes frame.data
    sourceAddress := frame.source
    destinationAddress := frame.destination
    canPort := port
    priority := frame.priority
    data := data
    ctsWindowSize := tpMaxPacketsPerCts }

def handleRts : ExtendedTransportProtocol × List Frame :=
  let src := frame.source
  let dst := frame.destination
  let pgn := pgnFromCmBytes frame.data
  let msgSize := sizeFromCmBytes frame.data
  match t.receiveProfileForAdvertisedSize msgSize with
  | .error reason => t.refuseRts src dst pgn reason
  | .ok profile =>
    -- packet numbers have three bytes on the wire
    if 0xFFFFFF < profile.totalPackets then t.refuseRts src dst pgn .unexpectedDataSize
    -- unlike in TP, a repeated RTS does not replace the transfer it repeats
    else if t.receiveDtPathIsActive src dst port = true then
      t.refuseRts src dst pgn .alreadyInSession
    else if t.maxSessions ≤ t.sessions.length then
      t.refuseRts src dst pgn .resourcesUnavailable
    else
      match rxBuffer msgSize t.maxReceiveBytes with
      | .error reason => t.refuseRts src dst pgn reason
      | .ok data =>
        (t.pushSession (rtsSession frame port data), [makeCts dst src tpMaxPacketsPerCts 1 pgn])

/-- Closes a session for what its peer sent, and tells the peer. -/
def abortSession (reason : TransportAbortReason) : ExtendedTransportProtocol × List Frame :=
  let s := t.sessionAt idx
  ({ t.removeSession idx with
      onAbort := t.onAbort ++ [.fromSession s reason]
      stats := t.stats.noteDroppedFrame.noteDroppedSession.noteAbortSent },
    [makeSessionAbort s reason])

def handleCts : ExtendedTransportProtocol × List Frame :=
  let src := frame.source
  let dst := frame.destination
  let pgn := pgnFromCmBytes frame.data
  match t.sessionPosition (fun s =>
    s.direction == .transmit && s.sourceAddress == dst && s.destinationAddress == src &&
      s.pgn == pgn && (s.state == .waitingForCTS || s.state == .sendingData) &&
      s.canPort == port) with
  -- a CTS that no session waits for is only counted
  | none => (t.noteDroppedFrame, [])
  | some idx =>
    match acceptCts (t.sessionAt idx) frame.data.b1.toNat (packetFromCmBytes frame.data) with
    | .ok s => (t.setSession idx s, [])
    | .error reason => t.abortSession idx reason

def handleDpo : ExtendedTransportProtocol × List Frame :=
  let src := frame.source
  let dst := frame.destination
  let pgn := pgnFromCmBytes frame.data
  let numPackets := frame.data.b1.toNat
  let packetOffset := packetFromCmBytes frame.data
  match t.sessionPosition (fun s =>
    s.direction == .receive && s.sourceAddress == src && s.destinationAddress == dst &&
      s.pgn == pgn && s.canPort == port) with
  | none => (t.noteDroppedFrame, [])
  | some idx =>
    if DpoFits (t.sessionAt idx) numPackets packetOffset then
      (t.setSession idx (startGroup (t.sessionAt idx) numPackets packetOffset), [])
    else t.abortSession idx .badSequence

def handleEoma : ExtendedTransportProtocol × List Frame :=
  let src := frame.source
  let dst := frame.destination
  let pgn := pgnFromCmBytes frame.data
  match t.sessionPosition (fun s =>
    s.direction == .transmit && s.sourceAddress == dst && s.destinationAddress == src &&
      s.pgn == pgn && s.canPort == port) with
  | none => (t.noteDroppedFrame, [])
  | some idx =>
    let s := t.sessionAt idx
    -- an acknowledgement of another size or before the end is only counted
    if s.state ≠ .waitingForEndOfMsg ∨ sizeFromCmBytes frame.data ≠ s.totalBytes then
      (t.noteDroppedFrame, [])
    else
      ({ t.removeSession idx with onComplete := t.onComplete ++ [{ s with state := .complete }] },
        [])

def handleAbort : ExtendedTransportProtocol :=
  let src := frame.source
  let dst := frame.destination
  let pgn := pgnFromCmBytes frame.data
  let reason := (TransportAbortReason.tryFromU8 frame.data.b1.toNat).getD .other
  match t.sessionPosition (fun s =>
    s.pgn == pgn && s.canPort == port &&
      -- either end of the connection may abort it
      ((s.sourceAddress == dst && s.destinationAddress == src) ||
        (s.sourceAddress == src && s.destinationAddress == dst))) with
  | none => t.noteDroppedFrame
  | some idx =>
    { t.removeSession idx with
      onAbort := t.onAbort ++ [.fromSession (t.sessionAt idx) reason]
      stats := t.stats.noteAbortReceived.noteDroppedSession }

def handleCm : ExtendedTransportProtocol × List Frame :=
  let controlByte := frame.data.b0
  if pgnIsValid (pgnFromCmBytes frame.data) = false then (t.noteDroppedFrame, [])
  else if controlByte = EtpCm.rts then t.handleRts frame port
  else if controlByte = EtpCm.cts then t.handleCts frame port
  else if controlByte = EtpCm.dpo then t.handleDpo frame port
  else if controlByte = EtpCm.eoma then t.handleEoma frame port
  else if controlByte = EtpCm.abort then (t.handleAbort frame port, [])
  else (t.noteDroppedFrame, [])

/-! ### Data frames -/

/-- Takes in the data frame a session is waiting for. -/
def acceptDt (idx seq : ℕ) (block : List UInt8) : ExtendedTransportProtocol × List Frame :=
  let s := ingest (t.sessionAt idx) seq block
  if s.totalBytes ≤ s.bytesTransferred then
    ({ t.removeSession idx with onComplete := t.onComplete ++ [{ s with state := .complete }] },
      [makeEoma s.destinationAddress s.sourceAddress s.totalBytes s.pgn])
  else
    let r := advanceWindow s seq
    (t.setSession idx r.1, r.2)

def handleDt : ExtendedTransportProtocol × List Frame :=
  let src := frame.source
  let dst := frame.destination
  let seq := frame.data.b0.toNat
  match t.sessionPosition (fun s =>
    s.direction == .receive && s.sourceAddress == src && s.destinationAddress == dst &&
      s.canPort == port && s.state == .waitingForData) with
  | none => (t.noteDroppedFrame, [])
  | some idx =>
    let s := t.sessionAt idx
    -- data ahead of a DPO
    if s.packetsToSend = 0 then t.abortSession idx .badSequence
    else if seq ≠ s.lastSequence + 1 then t.abortSession idx .badSequence
    else t.acceptDt idx seq frame.data.tail

/-! ### Entry points -/

/-- An incoming frame, and the frames to transmit in response. -/
def processFrame : ExtendedTransportProtocol × List Frame :=
  if (frame.pgn = pgnEtpCm ∨ frame.pgn = pgnEtpDt) ∧ frame.length < canDataLength then
    (t.noteDroppedFrame, [])
  else if (frame.pgn = pgnEtpCm ∨ frame.pgn = pgnEtpDt) ∧
      (validEtpSource frame.source = false ∨ validEtpDestination frame.destination = false) then
    (t.noteDroppedFrame, [])
  else if frame.pgn = pgnEtpCm then t.handleCm frame port
  else if frame.pgn = pgnEtpDt then t.handleDt frame port
  else (t, [])

/-- What a timed-out session does to the rest of the engine. -/
def applyTick : Option TransportSession → ExtendedTransportProtocol
  | none => t
  | some s =>
    { t with
      onAbort := t.onAbort ++ [.fromSession s .timeout]
      stats := t.stats.noteTimeout.noteDroppedSession.noteAbortSent }

/-- Drives the timers: sessions past their deadline are aborted. -/
def update (elapsedMs : ℕ) : ExtendedTransportProtocol × List Frame :=
  let r := sweep (tick elapsedMs) t.sessions
  (r.2.foldl applyTick { t with sessions := r.1 },
    r.2.filterMap fun k => k.map (makeSessionAbort · .timeout))

/-- The DPO and the data frames of every window granted and not drained
yet. -/
def getPendingDataFrames : ExtendedTransportProtocol × List Frame :=
  ({ t with sessions := t.sessions.map fun s => (drain s).1 },
    t.sessions.flatMap fun s => (drain s).2)

/-- Drops every session on `port` that uses `address` at either end.
Nothing is transmitted. -/
def abortSessionsForAddress (address : Address) : ExtendedTransportProtocol × List Frame :=
  ({ t with
      sessions := t.sessions.filter fun s =>
        s.canPort != port || (s.sourceAddress != address && s.destinationAddress != address) },
    [])

/-! ### Operations -/

/-- A call on the engine. -/
inductive Op
  | send (pgn : ℕ) (data : List UInt8) (source dest : Address) (port : UInt8) (priority : Priority)
  | frame (f : Frame) (port : UInt8)
  | update (elapsedMs : ℕ)
  | pending
  | abortFor (port : UInt8) (address : Address)
  deriving DecidableEq, Repr

/-- The engine after a call. -/
def step : Op → ExtendedTransportProtocol
  | .send pgn data source dest port priority => (t.send pgn data source dest port priority).1
  | .frame f port => (t.processFrame f port).1
  | .update elapsedMs => (t.update elapsedMs).1
  | .pending => t.getPendingDataFrames.1
  | .abortFor port address => (t.abortSessionsForAddress port address).1

end ExtendedTransportProtocol

/-! ## Two engines -/

namespace Etp

def pump (t : ExtendedTransportProtocol) : Pump → ExtendedTransportProtocol × List Frame
  | .pending => t.getPendingDataFrames
  | .update elapsedMs => t.update elapsedMs

/-- Two engines, each on a port of its own. -/
def parties (portA portB : UInt8) :
    Parties ExtendedTransportProtocol ExtendedTransportProtocol Frame Pump Pump where
  recvLeft t f := t.processFrame f portA
  recvRight t f := t.processFrame f portB
  actLeft := pump
  actRight := pump

/-- An abort frame. -/
def IsAbort (f : Frame) : Prop := f.pgn = pgnEtpCm ∧ f.data.b0 = EtpCm.abort

/-- A message to be carried, and what its transfer depends on: any valid
PGN, any size ETP is for, any two claimable addresses and any receive cap
that admits the message. -/
structure Transfer where
  pgn : ℕ
  data : List UInt8
  source : Address
  dest : Address
  portA : UInt8
  portB : UInt8
  priority : Priority
  cap : ℕ
  pgn_valid : pgnIsValid pgn = true
  length_gt : tpMaxDataLength < data.length
  length_le : data.length ≤ etpMaxDataLength
  source_le : source ≤ maxAddress
  dest_le : dest ≤ maxAddress
  cap_ge : data.length ≤ cap

namespace Transfer

variable (x : Transfer)

/-- The sender's call. -/
def sent : ExtendedTransportProtocol × Except Error (List Frame) :=
  ExtendedTransportProtocol.new.send x.pgn x.data x.source x.dest x.portA x.priority

/-- The link right after the call, with the announcement under way to a
fresh receiver. -/
def start : Link ExtendedTransportProtocol ExtendedTransportProtocol Frame where
  left := x.sent.1
  right := ExtendedTransportProtocol.withMaxReceiveBytes x.cap
  toRight := x.sent.2.toOption.getD []
  toLeft := []
  log := x.sent.2.toOption.getD []

/-- One choice of the schedule. -/
def step (l : Link ExtendedTransportProtocol ExtendedTransportProtocol Frame)
    (act : LinkAct Pump Pump) : Link ExtendedTransportProtocol ExtendedTransportProtocol Frame :=
  Link.step (parties x.portA x.portB) l act

/-- Time passes at an engine without a deadline being reached. -/
def InTime (t : ExtendedTransportProtocol) : Pump → Prop
  | .pending => True
  | .update elapsedMs => ∀ s ∈ t.sessions, satAdd32 s.timerMs elapsedMs < deadlineMs s.state

/-- The choices a schedule may make: anything, as long as no session is
left alone past its deadline. -/
abbrev Timely : Link ExtendedTransportProtocol ExtendedTransportProtocol Frame →
    LinkAct Pump Pump → Prop :=
  Link.Allowed InTime InTime

/-- **A fair schedule.** Queued frames keep being delivered and the
sender keeps being drained. -/
structure Fair (σ : ℕ → LinkAct Pump Pump) : Prop where
  deliverRight : Recurs σ (· = .deliverRight)
  deliverLeft : Recurs σ (· = .deliverLeft)
  drain : Recurs σ (· = .left .pending)

end Transfer

end Etp

end Machbus
