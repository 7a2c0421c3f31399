import Machbus.Common.Table
import Machbus.Transport.Model.Session
/-!
# Fast packets

The NMEA 2000 fast-packet protocol for messages of 9 to 223 bytes. A
first frame carries the size and six bytes, every further one seven; a
counter of three bits tells the transfers of one sender and PGN apart.
-/

namespace Machbus

namespace FastPacket

def firstFrameData : ℕ := 6
def subsequentFrameData : ℕ := 7
def defaultMaxRxSessions : ℕ := 32

def validFastPacketSource (source : Address) : Bool :=
  source != nullAddress && source != broadcastAddress

/-- The high three bits of the first byte. -/
def seqCounter (d : Bytes8) : ℕ := (d.b0.toNat >>> 5) &&& 0x07

/-- The low five bits of the first byte. -/
def frameCounter (d : Bytes8) : ℕ := d.b0.toNat &&& 0x1F

/-- Frame number `k` of a transfer, `k` above zero. -/
def makeSubsequent (id : Identifier) (data : List UInt8) (seq k : ℕ) : Frame :=
  Frame.new id (Bytes8.padded (UInt8.ofNat (seq ||| k) ::
    readBlock 0xFF data.length data (firstFrameData + (k - 1) * subsequentFrameData)
      subsequentFrameData))

/-- The frames of one transfer. -/
def makeFrames (id : Identifier) (data : List UInt8) (seq : ℕ) : List Frame :=
  let totalFrames := (1 + divCeil (data.length - firstFrameData) subsequentFrameData) % 256
  Frame.new id (Bytes8.padded
      (UInt8.ofNat seq :: UInt8.ofNat data.length :: data.take firstFrameData)) ::
    (List.range (totalFrames - 1)).map fun i => makeSubsequent id data seq (i + 1)

/-- A message being reassembled. -/
structure Session where
  pgn : ℕ
  data : List UInt8
  totalBytes : ℕ
  bytesReceived : ℕ
  sourceAddress : Address
  destinationAddress : Address
  priority : Priority
  sequenceCounter : ℕ
  expectedFrame : ℕ
  timerMs : ℕ
  lastTimestampUs : ℕ
  deriving DecidableEq, Repr

def makeMessage (s : Session) : Message where
  pgn := s.pgn
  data := s.data
  source := s.sourceAddress
  destination := s.destinationAddress
  priority := s.priority
  timestampUs := s.lastTimestampUs

/-- The buffer of a new session: `0xFF` throughout, with the first bytes
copied over it. -/
def newRxPayload (totalBytes : ℕ) (first : List UInt8) : List UInt8 :=
  first ++ List.replicate (totalBytes - first.length) 0xFF

/-- The session a first frame opens. -/
def openSession (frame : Frame) : Session :=
  let totalBytes := frame.data.b1.toNat
  let first := (frame.data.toList.drop 2).take (min totalBytes firstFrameData)
  { pgn := frame.pgn
    data := newRxPayload totalBytes first
    totalBytes := totalBytes
    bytesReceived := min totalBytes firstFrameData
    sourceAddress := frame.source
    destinationAddress := frame.destination
    priority := frame.priority
    sequenceCounter := seqCounter frame.data
    expectedFrame := 1
    timerMs := 0
    lastTimestampUs := frame.timestampUs }

/-- The session after a further frame. -/
def Session.ingest (s : Session) (frame : Frame) : Session :=
  let offset := firstFrameData + (frameCounter frame.data - 1) * subsequentFrameData
  { s with
    data := writeBlock s.totalBytes s.data offset frame.data.tail
    bytesReceived := min (offset + subsequentFrameData) s.totalBytes
    expectedFrame := (s.expectedFrame + 1) % 256
    timerMs := 0
    lastTimestampUs := frame.timestampUs }

/-- One turn of the timer sweep; `true` reports a timeout. -/
def tick (elapsedMs : ℕ) (s : Session) : Option Session × Bool :=
  let timer := satAdd32 s.timerMs elapsedMs
  if tpTimeoutT1Ms ≤ timer then (none, true) else (some { s with timerMs := timer }, false)

end FastPacket

open FastPacket

/-- The fast-packet sender and reassembler. -/
structure FastPacketProtocol where
  rxSessions : List FastPacket.Session := []
  txSequenceCounter : ℕ := 0
  maxRxSessions : ℕ := FastPacket.defaultMaxRxSessions
  stats : TransportStats := {}
  deriving DecidableEq, Repr

namespace FastPacketProtocol

variable (t : FastPacketProtocol)

/-- The frames of a fast packet to a destination. -/
def sendTo (pgn : ℕ) (data : List UInt8) (source destination : Address)
    (priority : Priority) : FastPacketProtocol × Except Error (List Frame) :=
  if pgnIsValid pgn = false then (t, .error (.invalidPgn pgn))
  else if validFastPacketSource source = false then (t, .error (.invalidAddress source))
  else if fastPacketMaxData < data.length then
    ({ t with stats := t.stats.noteResourceRejection }, .error .bufferOverflow)
  else if data.length ≤ canDataLength then
    (t, .error (.invalidState "use single frame for <= 8 bytes"))
  else
    let seq := (t.txSequenceCounter &&& 0x07) <<< 5
    ({ t with txSequenceCounter := (t.txSequenceCounter + 1) &&& 0x07 },
      .ok (makeFrames (.encode priority pgn source destination) data seq))

/-- The slot of the session a frame belongs to. -/
def rxPosition (src : Address) (pgn seq : ℕ) : Option ℕ :=
  t.rxSessions.findIdx? fun s => s.sourceAddress == src && s.pgn == pgn && s.sequenceCounter == seq

def noteDroppedFrame (t : FastPacketProtocol) : FastPacketProtocol :=
  { t with stats := t.stats.noteDroppedFrame }

variable (frame : Frame)

def startNewSession : FastPacketProtocol × Option FastPacket.Session :=
  let totalBytes := frame.data.b1.toNat
  if totalBytes ≤ canDataLength ∨ fastPacketMaxData < totalBytes then
    if fastPacketMaxData < totalBytes then
      ({ t with stats := t.stats.noteDroppedFrame.noteResourceRejection }, none)
    else (t.noteDroppedFrame, none)
  else
    let session := openSession frame
    if session.totalBytes ≤ session.bytesReceived then (t, some session)
    else
      -- a restarted transfer replaces the one with the same counter
      let t :=
        match t.rxPosition frame.source frame.pgn (seqCounter frame.data) with
        | some idx =>
          { t with
            rxSessions := swapRemove t.rxSessions idx
            stats := t.stats.noteDroppedSession }
        | none => t
      if t.maxRxSessions ≤ t.rxSessions.length then
        ({ t with stats := t.stats.noteDroppedFrame.noteResourceRejection }, none)
      else ({ t with rxSessions := t.rxSessions ++ [session] }, none)

def processFrameSession : FastPacketProtocol × Option FastPacket.Session :=
  if frame.length ≠ canDataLength then (t.noteDroppedFrame, none)
  else if validFastPacketSource frame.source = false then (t.noteDroppedFrame, none)
  else if frameCounter frame.data = 0 then t.startNewSession frame
  else
    match t.rxPosition frame.source frame.pgn (seqCounter frame.data) with
    | none => (t.noteDroppedFrame, none)
    | some idx =>
      match t.rxSessions[idx]? with
      | none => (t, none)
      | some session =>
        if frameCounter frame.data ≠ session.expectedFrame then
          ({ t with
              rxSessions := swapRemove t.rxSessions idx
              stats := t.stats.noteDroppedFrame.noteDroppedSession }, none)
        else
          let session := session.ingest frame
          if session.totalBytes ≤ session.bytesReceived then
            ({ t with rxSessions := swapRemove (t.rxSessions.set idx session) idx }, some session)
          else ({ t with rxSessions := t.rxSessions.set idx session }, none)

/-- An incoming frame, and the message it completes. -/
def processFrame : FastPacketProtocol × Option Message :=
  let r := t.processFrameSession frame
  (r.1, r.2.map makeMessage)

/-- Drops the sessions without progress. -/
def update (elapsedMs : ℕ) : FastPacketProtocol :=
  let r := sweep (tick elapsedMs) t.rxSessions
  { t with
    rxSessions := r.1
    stats := r.2.foldl
      (fun stats timedOut => if timedOut then stats.noteTimeout.noteDroppedSession else stats)
      t.stats }

end FastPacketProtocol

end Machbus
