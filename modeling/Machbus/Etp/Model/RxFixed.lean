import Machbus.Etp.Model.Engine
/-!
# ETP — the fixed-capacity receiver

`EtpRxFixed` receives one transfer at a time into storage of its own. It
keeps the window it granted (`ctsWindowSize`) and the group a DPO announced
(`packetsToReceive`) apart, where the engine writes the group over the
window.
-/

namespace Machbus

open Etp

/-- Result of one `process_frame` call. -/
structure EtpRxFixedOutcome (N : ℕ) where
  /-- Control frame to transmit. -/
  response : Option Frame := none
  /-- The message the frame completed. -/
  message : Option (FixedMessage N) := none
  deriving DecidableEq, Repr

/-- Single-session ETP receiver. -/
structure EtpRxFixed (N : ℕ) where
  active : Bool := false
  pgn : ℕ := 0
  source : Address := nullAddress
  destination : Address := nullAddress
  priority : Priority := .default
  totalBytes : ℕ := 0
  totalPackets : ℕ := 0
  bytesTransferred : ℕ := 0
  ctsWindowSize : ℕ := 0
  dpoPacketOffset : ℕ := 0
  packetsToReceive : ℕ := 0
  lastSequence : ℕ := 0
  data : FixedBytes N := FixedBytes.new
  deriving DecidableEq, Repr

namespace EtpRxFixed

variable {N : ℕ}

/-- An idle receiver. -/
def new : EtpRxFixed N := {}

/-- Drops the transfer; nothing is transmitted. -/
def reset (_ : EtpRxFixed N) : EtpRxFixed N := new

variable (rx : EtpRxFixed N)

/-- A frame that is answered, with the receiver left as given. -/
def answer (response : Frame) : EtpRxFixed N × Except Error (EtpRxFixedOutcome N) :=
  (rx, .ok { response := some response })

/-- A frame that is passed over. -/
def ignore : EtpRxFixed N × Except Error (EtpRxFixedOutcome N) := (rx, .ok {})

/-- A frame the transfer cannot survive. -/
def abortBadSequence : EtpRxFixed N × Except Error (EtpRxFixedOutcome N) :=
  rx.reset.answer (makeAbort rx.destination rx.source rx.pgn .badSequence)

variable (frame : Frame)

def processRts : EtpRxFixed N × Except Error (EtpRxFixedOutcome N) :=
  let src := frame.source
  let dst := frame.destination
  let cmPgn := pgnFromCmBytes frame.data
  let totalBytes := sizeFromCmBytes frame.data
  if ¬(tpMaxDataLength + 1 ≤ totalBytes ∧ totalBytes ≤ etpMaxDataLength) then
    rx.answer (makeAbort dst src cmPgn .unexpectedDataSize)
  else if rx.active then rx.answer (makeAbort dst src cmPgn .alreadyInSession)
  else if N < totalBytes then rx.answer (makeAbort dst src cmPgn .resourcesUnavailable)
  else
    match (FixedBytes.new : FixedBytes N).resize totalBytes 0xFF with
    | .error _ => (rx, .error .bufferOverflow)
    | .ok data =>
      let totalPackets := divCeil totalBytes tpBytesPerFrame
      let ctsCount := min totalPackets tpMaxPacketsPerCts % 256
      let rx : EtpRxFixed N :=
        { active := true
          pgn := cmPgn
          source := src
          destination := dst
          priority := frame.priority
          totalBytes := totalBytes
          totalPackets := totalPackets
          bytesTransferred := 0
          ctsWindowSize := ctsCount
          dpoPacketOffset := 0
          packetsToReceive := 0
          lastSequence := 0
          data := data }
      rx.answer (makeCts dst src ctsCount 1 cmPgn)

/-- The group a DPO announces starts at the next packet and fits the window
that was granted and the message. -/
def DpoFits (numPackets packetOffset : ℕ) : Prop :=
  numPackets ≠ 0 ∧ numPackets ≤ rx.ctsWindowSize ∧
    numPackets ≤ divCeil (rx.totalBytes - rx.bytesTransferred) tpBytesPerFrame ∧
    packetOffset = rx.bytesTransferred / tpBytesPerFrame
  deriving Decidable

def processDpo : EtpRxFixed N × Except Error (EtpRxFixedOutcome N) :=
  if rx.active = false ∨ rx.source ≠ frame.source ∨ rx.destination ≠ frame.destination ∨
      rx.pgn ≠ pgnFromCmBytes frame.data then
    rx.ignore
  else
    let numPackets := frame.data.b1.toNat
    let packetOffset := packetFromCmBytes frame.data
    if rx.DpoFits numPackets packetOffset then
      { rx with
        dpoPacketOffset := packetOffset
        packetsToReceive := numPackets
        lastSequence := 0 }.ignore
    else rx.abortBadSequence

/-- Either end of the transfer may abort it. -/
def processAbort : EtpRxFixed N × Except Error (EtpRxFixedOutcome N) :=
  let src := frame.source
  let dst := frame.destination
  if rx.active = true ∧ rx.pgn = pgnFromCmBytes frame.data ∧
      (rx.source = src ∧ rx.destination = dst ∨ rx.source = dst ∧ rx.destination = src) then
    rx.reset.ignore
  else rx.ignore

def processCm : EtpRxFixed N × Except Error (EtpRxFixedOutcome N) :=
  let controlByte := frame.data.b0
  if pgnIsValid (pgnFromCmBytes frame.data) = false then rx.ignore
  else if controlByte = EtpCm.rts then rx.processRts frame
  else if controlByte = EtpCm.dpo then rx.processDpo frame
  else if controlByte = EtpCm.abort then rx.processAbort frame
  else rx.ignore

/-- Takes in the data frame the group waits for. -/
def acceptDt : EtpRxFixed N × Except Error (EtpRxFixedOutcome N) :=
  let seq := frame.data.b0.toNat
  let byteOffset := (rx.dpoPacketOffset + seq - 1) * tpBytesPerFrame
  let rx :=
    { rx with
      data := rx.data.write rx.totalBytes byteOffset frame.data.tail
      bytesTransferred := min (byteOffset + tpBytesPerFrame) rx.totalBytes
      lastSequence := seq }
  if rx.totalBytes ≤ rx.bytesTransferred then
    let message : FixedMessage N :=
      { pgn := rx.pgn
        data := rx.data
        source := rx.source
        destination := rx.destination
        priority := rx.priority
        timestampUs := frame.timestampUs }
    let response := makeEoma rx.destination rx.source rx.totalBytes rx.pgn
    (rx.reset, .ok { response := some response, message := some message })
  else if rx.packetsToReceive ≤ seq then
    let nextPacket := rx.dpoPacketOffset + seq + 1
    let remainingPackets := divCeil (rx.totalBytes - rx.bytesTransferred) tpBytesPerFrame
    let nextCount := min remainingPackets tpMaxPacketsPerCts % 256
    { rx with ctsWindowSize := nextCount, packetsToReceive := 0 }.answer
      (makeCts rx.destination rx.source nextCount nextPacket rx.pgn)
  else rx.ignore

def processDt : EtpRxFixed N × Except Error (EtpRxFixedOutcome N) :=
  let seq := frame.data.b0.toNat
  if rx.active = false ∨ frame.source ≠ rx.source ∨ frame.destination ≠ rx.destination then
    rx.ignore
  else if rx.packetsToReceive = 0 then rx.abortBadSequence
  else if seq = 0 ∨ seq ≠ satAdd8 rx.lastSequence 1 then rx.abortBadSequence
  else rx.acceptDt frame

/-- An incoming frame: the answer to transmit and the message completed. -/
def processFrame : EtpRxFixed N × Except Error (EtpRxFixedOutcome N) :=
  if (frame.pgn = pgnEtpCm ∨ frame.pgn = pgnEtpDt) ∧ frame.length < canDataLength then rx.ignore
  else if (frame.pgn = pgnEtpCm ∨ frame.pgn = pgnEtpDt) ∧
      (validEtpSource frame.source = false ∨ validEtpDestination frame.destination = false) then
    rx.ignore
  else if frame.pgn = pgnEtpCm then rx.processCm frame
  else if frame.pgn = pgnEtpDt then rx.processDt frame
  else rx.ignore

/-- The receiver after a frame. -/
def step : EtpRxFixed N := (rx.processFrame frame).1

end EtpRxFixed

end Machbus
