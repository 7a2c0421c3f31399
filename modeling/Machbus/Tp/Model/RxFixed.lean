import Machbus.Tp.Model.Engine
/-!
# TP — the fixed-capacity receiver

`TpRxFixed` receives one BAM or connection-mode transfer at a time into
storage of its own. It is a second implementation of the receiving half of
the engine, without a session table and without timers.
-/

namespace Machbus

open Tp

/-- Result of one `process_frame` call. -/
structure TpRxFixedOutcome (N : ℕ) where
  /-- Control frame to transmit. -/
  response : Option Frame := none
  /-- The message the frame completed. -/
  message : Option (FixedMessage N) := none
  deriving DecidableEq, Repr

/-- Single-session TP receiver. -/
structure TpRxFixed (N : ℕ) where
  active : Bool := false
  pgn : ℕ := 0
  source : Address := nullAddress
  destination : Address := nullAddress
  priority : Priority := .default
  totalBytes : ℕ := 0
  totalPackets : ℕ := 0
  maxPacketsPerCts : ℕ := tpMaxPacketsPerCts
  ctsWindowStart : ℕ := 1
  ctsWindowSize : ℕ := 0
  lastSequence : ℕ := 0
  broadcast : Bool := false
  data : FixedBytes N := FixedBytes.new
  deriving DecidableEq, Repr

namespace TpRxFixed

variable {N : ℕ}

/-- An idle receiver. -/
def new : TpRxFixed N := {}

/-- Drops the transfer; nothing is transmitted. -/
def reset (_ : TpRxFixed N) : TpRxFixed N := new

/-- The transfer an accepted announcement starts. -/
def startReceive (pgn : ℕ) (source destination : Address) (priority : Priority)
    (totalBytes totalPackets : ℕ) (broadcast : Bool) (maxPacketsPerCts : ℕ) :
    Except Error (TpRxFixed N) :=
  match (FixedBytes.new : FixedBytes N).resize totalBytes 0xFF with
  | .error _ => .error .bufferOverflow
  | .ok data =>
    .ok
      { active := true
        pgn := pgn
        source := source
        destination := destination
        priority := priority
        totalBytes := totalBytes
        totalPackets := totalPackets
        maxPacketsPerCts := maxPacketsPerCts
        ctsWindowStart := 1
        ctsWindowSize := 0
        lastSequence := 0
        broadcast := broadcast
        data := data }

variable (rx : TpRxFixed N)

/-- A frame that is answered and starts nothing. -/
def answer (response : Frame) : TpRxFixed N × Except Error (TpRxFixedOutcome N) :=
  (rx, .ok { response := some response })

/-- A frame that is passed over. -/
def ignore : TpRxFixed N × Except Error (TpRxFixedOutcome N) := (rx, .ok {})

variable (frame : Frame)

def processRts : TpRxFixed N × Except Error (TpRxFixedOutcome N) :=
  let src := frame.source
  let dst := frame.destination
  let cmPgn := pgnFromCmBytes frame.data
  let totalBytes := sizeFromCmBytes frame.data
  let totalPackets := frame.data.b3.toNat
  if validTpPayloadShape totalBytes totalPackets = false ∨ frame.data.b4 = 0 then
    rx.answer (makeAbort dst src cmPgn .unexpectedDataSize)
  else if rx.active then rx.answer (makeAbort dst src cmPgn .alreadyInSession)
  else if N < totalBytes then rx.answer (makeAbort dst src cmPgn .resourcesUnavailable)
  else
    match startReceive cmPgn src dst frame.priority totalBytes totalPackets false
        (min frame.data.b4.toNat tpMaxPacketsPerCts) with
    | .error e => (rx, .error e)
    | .ok rx =>
      let ctsCount := min totalPackets rx.maxPacketsPerCts
      { rx with ctsWindowSize := ctsCount }.answer (makeCts dst src ctsCount 1 cmPgn)

def processBam : TpRxFixed N × Except Error (TpRxFixedOutcome N) :=
  let totalBytes := sizeFromCmBytes frame.data
  let totalPackets := frame.data.b3.toNat
  if rx.active = true ∨ frame.isBroadcast = false ∨
      validTpPayloadShape totalBytes totalPackets = false ∨ N < totalBytes then
    rx.ignore
  else
    match startReceive (pgnFromCmBytes frame.data) frame.source broadcastAddress frame.priority
        totalBytes totalPackets true tpMaxPacketsPerCts with
    | .error e => (rx, .error e)
    | .ok rx => rx.ignore

/-- Either end of the transfer may abort it. -/
def processAbort : TpRxFixed N × Except Error (TpRxFixedOutcome N) :=
  let src := frame.source
  let dst := frame.destination
  if rx.active = true ∧ rx.pgn = pgnFromCmBytes frame.data ∧
      (rx.source = src ∧ rx.destination = dst ∨ rx.source = dst ∧ rx.destination = src) then
    rx.reset.ignore
  else rx.ignore

def processCm : TpRxFixed N × Except Error (TpRxFixedOutcome N) :=
  let controlByte := frame.data.b0
  if pgnIsValid (pgnFromCmBytes frame.data) = false ∨
      (controlByte ≠ TpCm.bam ∧ frame.destination = broadcastAddress) then
    rx.ignore
  else if controlByte = TpCm.rts then rx.processRts frame
  else if controlByte = TpCm.bam then rx.processBam frame
  else if controlByte = TpCm.abort then rx.processAbort frame
  else rx.ignore

/-- Takes in the data frame the transfer waits for. -/
def acceptDt : TpRxFixed N × Except Error (TpRxFixedOutcome N) :=
  let seq := frame.data.b0.toNat
  let offset := (seq - 1) * tpBytesPerFrame
  let rx :=
    { rx with
      data := rx.data.write rx.totalBytes offset frame.data.tail
      lastSequence := seq }
  if rx.totalBytes ≤ min (offset + tpBytesPerFrame) rx.totalBytes then
    let message : FixedMessage N :=
      { pgn := rx.pgn
        data := rx.data
        source := rx.source
        destination := rx.destination
        priority := rx.priority
        timestampUs := frame.timestampUs }
    let response := if rx.broadcast then none
      else some (makeEoma rx.destination rx.source rx.totalBytes rx.totalPackets rx.pgn)
    (rx.reset, .ok { response := response, message := some message })
  else if rx.broadcast then rx.ignore
  else
    let inWindow := seq - (rx.ctsWindowStart - 1)
    if rx.ctsWindowSize ≤ inWindow then
      let remaining := rx.totalPackets - seq
      let nextCount := min (remaining % 256) rx.maxPacketsPerCts
      { rx with ctsWindowStart := seq + 1, ctsWindowSize := nextCount }.answer
        (makeCts rx.destination rx.source nextCount (seq + 1) rx.pgn)
    else rx.ignore

def processDt : TpRxFixed N × Except Error (TpRxFixedOutcome N) :=
  -- whom a broadcast's data frame is addressed to is not looked at
  if rx.active = false ∨ frame.source ≠ rx.source ∨
      (rx.broadcast = false ∧ frame.destination ≠ rx.destination) then
    rx.ignore
  else
    let seq := frame.data.b0.toNat
    if seq = 0 ∨ seq ≠ satAdd8 rx.lastSequence 1 then
      let reason := if seq ≠ 0 ∧ seq ≤ rx.lastSequence then TransportAbortReason.duplicateSequence
        else .badSequence
      let response := if rx.broadcast then none
        else some (makeAbort rx.destination rx.source rx.pgn reason)
      (rx.reset, .ok { response := response })
    else rx.acceptDt frame

/-- An incoming frame: the answer to transmit and the message completed. -/
def processFrame : TpRxFixed N × Except Error (TpRxFixedOutcome N) :=
  if (frame.pgn = pgnTpCm ∨ frame.pgn = pgnTpDt) ∧ frame.length < canDataLength then rx.ignore
  else if (frame.pgn = pgnTpCm ∨ frame.pgn = pgnTpDt) ∧
      (validTpSource frame.source = false ∨ validTpDestination frame.destination = false) then
    rx.ignore
  else if frame.pgn = pgnTpCm then rx.processCm frame
  else if frame.pgn = pgnTpDt then rx.processDt frame
  else rx.ignore

/-- The receiver after a frame. -/
def step : TpRxFixed N := (rx.processFrame frame).1

end TpRxFixed

end Machbus
