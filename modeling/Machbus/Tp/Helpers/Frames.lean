import Machbus.Net.Helpers.Wire
import Machbus.Tp.Helpers.Steps
/-!
# TP — frames as they are built and read

What a receiver reads off a frame is what its builder was given, and a
well-formed control frame reaches the handler of its control byte.
-/

namespace Machbus

open Identifier TpCm

namespace Tp

variable {src dst : Address} {b0 b1 b2 b3 b4 : UInt8} {pgn seq : ℕ} {block : List UInt8}

@[simp] theorem makeCm_source : (makeCm src dst b0 b1 b2 b3 b4 pgn).source = src :=
  source_encode

@[simp] theorem makeCm_destination : (makeCm src dst b0 b1 b2 b3 b4 pgn).destination = dst :=
  destination_encode.trans (if_pos (by decide))

@[simp] theorem makeCm_priority : (makeCm src dst b0 b1 b2 b3 b4 pgn).priority = .lowest :=
  priority_encode

/-- The PGN of a control frame survives the wire. -/
theorem pgnFromCmBytes_makeCm (h : pgnIsValid pgn = true) :
    pgnFromCmBytes (makeCm src dst b0 b1 b2 b3 b4 pgn).data = pgn := by
  have hv : pgn ≤ 0x3FFFF := by simpa [pgnIsValid] using h
  exact ofLe_three (by omega)

/-- So does a size of sixteen bits. -/
theorem sizeFromCmBytes_makeCm {size : ℕ} (h : size ≤ tpMaxDataLength) :
    sizeFromCmBytes (makeCm src dst b0 (leByte size 0) (leByte size 1) b3 b4 pgn).data = size :=
  ofLe_two (by unfold tpMaxDataLength at h; omega)

@[simp] theorem makeDt_source : (makeDt src dst seq block).source = src := source_encode

@[simp] theorem makeDt_destination : (makeDt src dst seq block).destination = dst :=
  destination_encode.trans (if_pos (by decide))

theorem makeDt_pgn : (makeDt src dst seq block).pgn = pgnTpDt :=
  (pgn_encode (by decide)).trans (by decide)

end Tp

namespace TransportProtocol

open Tp

variable {t : TransportProtocol} {f : Frame} {port : UInt8} {src dst : Address}
  {b0 b1 b2 b3 b4 : UInt8} {pgn : ℕ}

theorem isCm_makeCm (hsrc : validTpSource src = true) (hdst : validTpDestination dst = true)
    (hpgn : pgnIsValid pgn = true) (hdir : b0 ≠ bam → dst ≠ broadcastAddress) :
    IsCm b0 (makeCm src dst b0 b1 b2 b3 b4 pgn) where
  length := Nat.le_refl _
  source := by rw [makeCm_source]; exact hsrc
  destination := by rw [makeCm_destination]; exact hdst
  pgn := (pgn_encode (by decide)).trans (by decide)
  control := rfl
  target := by rw [pgnFromCmBytes_makeCm hpgn]; exact hpgn
  directed := by rw [makeCm_destination]; exact hdir

/-- Past the checks every control frame makes, the control byte decides. -/
theorem processFrame_cm {control : UInt8} (hf : IsCm control f) : t.processFrame f port =
      if control = rts then t.handleRts f port
      else if control = cts then t.handleCts f port
      else if control = eoma then t.handleEoma f port
      else if control = bam then (t.handleBam f port, [])
      else if control = abort then (t.handleAbort f port, [])
      else (t.noteDroppedFrame, []) := by
  have hglobal : ¬(f.data.b0 ≠ bam ∧ f.destination = broadcastAddress) :=
    fun h => hf.directed h.1 h.2
  have hlen := hf.length
  rw [processFrame, if_neg (by omega), if_neg (by simp [hf.source, hf.destination]), if_pos hf.pgn]
  simp only [handleCm]
  rw [if_neg (by simp [hf.target]), if_neg hglobal, hf.control]

theorem processFrame_bam (hf : IsCm bam f) : t.processFrame f port = (t.handleBam f port, []) := by
  rw [processFrame_cm hf, if_neg (by decide), if_neg (by decide), if_neg (by decide), if_pos rfl]

theorem processFrame_dt (hf : IsDt f) : t.processFrame f port = t.handleDt f port := by
  have hlen := hf.length
  have hcm : f.pgn ≠ pgnTpCm := fun h => not_isDt_of_cm h hf
  rw [processFrame, if_neg (by omega), if_neg (by simp [hf.source, hf.destination]), if_neg hcm,
    if_pos hf.pgn]

/-!
## An engine with one session

On a table that is empty or holds one session the searches of the engine
are decided, and each handler is an equation.
-/

variable {s s' : TransportSession}

section

variable (hs : t.sessions = [s])
include hs

theorem sessionPosition_single {p : TransportSession → Bool}
    (hp : p s = true) : t.sessionPosition p = some 0 := by
  rw [sessionPosition, hs, List.findIdx?_cons, hp]
  rfl

theorem sessionAt_single : t.sessionAt 0 = s := by
  rw [sessionAt, hs]
  rfl

theorem removeSession_single : t.removeSession 0 = { t with sessions := [] } := by
  rw [removeSession, hs]
  rfl

theorem setSession_single : t.setSession 0 s' = { t with sessions := [s'] } := by
  rw [setSession, hs]
  rfl

end

/-! ## Announcements -/

/-- A well-formed RTS finds nothing to replace in an empty table. -/
theorem handleRts_eq_openRts (hs : t.sessions = [])
    (hshape : validTpPayloadShape (sizeFromCmBytes f.data) f.data.b3.toNat = true)
    (hwindow : f.data.b4 ≠ 0) : t.handleRts f port = t.openRts f port := by
  have hgood : ¬(validTpPayloadShape (sizeFromCmBytes f.data) f.data.b3.toNat = false ∨
      f.data.b4 = 0) := by
    rw [hshape]
    simpa using hwindow
  have hnone : t.receiveSessionFor f.source f.destination port (pgnFromCmBytes f.data) = none := by
    rw [receiveSessionFor, sessionPosition, hs]
    rfl
  have hidle : t.receivePathIsActive f.source f.destination port = false := by
    rw [receivePathIsActive, hs]
    rfl
  simp only [handleRts]
  rw [if_neg hgood, hnone]
  simp only [hidle]
  rw [if_neg (by decide)]

/-- An RTS that an idle engine has room for. -/
theorem handleRts_idle (hs : t.sessions = []) (hroom : 0 < t.maxSessions)
    (hshape : validTpPayloadShape (sizeFromCmBytes f.data) f.data.b3.toNat = true)
    (hwindow : f.data.b4 ≠ 0) (hcap : sizeFromCmBytes f.data ≤ t.maxReceiveBytes) :
    t.handleRts f port = ({ t with
          sessions := [rtsSession f port (List.replicate (sizeFromCmBytes f.data) 0xFF)] },
        [makeCts f.destination f.source
          (min f.data.b3.toNat (min f.data.b4.toNat tpMaxPacketsPerCts)) 1
          (pgnFromCmBytes f.data)]) := by
  rw [handleRts_eq_openRts hs hshape hwindow, openRts,
    if_neg (by rw [hs]; exact Nat.not_le.mpr hroom), rxBuffer, if_neg (by omega)]
  simp only [pushSession, hs]
  rfl

/-- A BAM that there is room for. -/
theorem openBam_of_room (hbc : f.isBroadcast = true)
    (hshape : validTpPayloadShape (sizeFromCmBytes f.data) f.data.b3.toNat = true)
    (hcap : sizeFromCmBytes f.data ≤ t.maxReceiveBytes)
    (hroom : t.sessions.length < t.maxSessions) :
    t.openBam f port = { t with
      sessions := t.sessions ++
        [bamSession f port (List.replicate (sizeFromCmBytes f.data) 0xFF)] } := by
  have hgood : ¬(f.isBroadcast = false ∨
      validTpPayloadShape (sizeFromCmBytes f.data) f.data.b3.toNat = false ∨
      t.maxReceiveBytes < sizeFromCmBytes f.data) := by
    rw [hbc, hshape]
    simpa using hcap
  simp only [openBam]
  rw [if_neg hgood, if_neg (by omega), rxBuffer, if_neg (by omega)]
  rfl

/-- A BAM that an idle engine has room for. -/
theorem handleBam_idle (hs : t.sessions = []) (hroom : 0 < t.maxSessions)
    (hbc : f.isBroadcast = true)
    (hshape : validTpPayloadShape (sizeFromCmBytes f.data) f.data.b3.toNat = true)
    (hcap : sizeFromCmBytes f.data ≤ t.maxReceiveBytes) :
    t.handleBam f port =
      { t with
        sessions := [bamSession f port (List.replicate (sizeFromCmBytes f.data) 0xFF)] } := by
  have hnone : t.receiveSessionFor f.source broadcastAddress port
      (pgnFromCmBytes f.data) = none := by
    rw [receiveSessionFor, sessionPosition, hs]
    rfl
  rw [handleBam, hnone]
  exact (openBam_of_room hbc hshape hcap (by rw [hs]; exact hroom)).trans (by rw [hs]; rfl)

/-! ## The sender's side -/

section

variable (hs : t.sessions = [s])
include hs

/-- An EOMA that acknowledges the one transmit session. -/
theorem handleEoma_single (hpath : s.path = (.transmit, f.destination, f.source, port))
    (hpgn : s.pgn = pgnFromCmBytes f.data) (hstate : s.state = .waitingForEndOfMsg)
    (hsize : sizeFromCmBytes f.data = s.totalBytes)
    (hpackets : f.data.b3.toNat = s.totalPackets % 256) :
    t.handleEoma f port =
      ({ t with sessions := [], onComplete := t.onComplete ++ [{ s with state := .complete }] },
        []) := by
  simp only [TransportSession.path, Prod.mk.injEq] at hpath
  simp only [handleEoma]
  rw [sessionPosition_single hs (by simp [hpath, hpgn])]
  simp only [sessionAt_single hs, removeSession_single hs]
  rw [if_neg (by simp [hstate, hsize, hpackets])]

/-- A drain with one session open. -/
theorem getPendingDataFrames_single :
    t.getPendingDataFrames = ({ t with sessions := [(drain s).1] }, (drain s).2) := by
  rw [getPendingDataFrames, hs]
  simp

/-! ## The receiver's side -/

/-- The search a data frame makes of a table of one. -/
theorem handleDt_single (hpath : s.path = (.receive, f.source, f.destination, port))
    (hstate : s.state = .waitingForData ∨ s.state = .receivingData)
    (hseq : f.data.b0.toNat = s.lastSequence + 1) :
    t.handleDt f port = t.acceptDt 0 f.data.b0.toNat f.data.tail := by
  simp only [TransportSession.path, Prod.mk.injEq] at hpath
  have hmatch : (s.state == .waitingForData || s.state == .receivingData) = true := by
    simpa using hstate
  simp only [handleDt]
  rw [sessionPosition_single hs (by simp [hpath, hmatch])]
  simp only [sessionAt_single hs]
  rw [if_neg (by omega), if_neg (by omega), if_neg (by omega)]

end

/-! ## Time -/

/-- Time passes with no session open. -/
theorem update_nil (hs : t.sessions = []) (elapsedMs : ℕ) : t.update elapsedMs = (t, []) := by
  rcases t with ⟨sessions⟩
  subst hs
  rfl

/-- Time passes with one session open. -/
theorem update_single (hs : t.sessions = [s]) (elapsedMs : ℕ) : t.update elapsedMs =
      (applyTick { t with sessions := (tick elapsedMs s).1.toList } (tick elapsedMs s).2,
        tickFrames (tick elapsedMs s).2) := by
  rw [update, hs, sweep_singleton]
  simp

/-- Time passes for a session that is neither late nor a broadcast being
sent. -/
theorem update_single_quiet (hs : t.sessions = [s]) {elapsedMs : ℕ}
    (hintime : timedOut { s with timerMs := satAdd32 s.timerMs elapsedMs } = false)
    (hidle : s.isBroadcast = true → s.direction = .receive) :
    t.update elapsedMs =
      ({ t with sessions := [{ s with timerMs := satAdd32 s.timerMs elapsedMs }] }, []) := by
  have htick : tick elapsedMs s =
      (some { s with timerMs := satAdd32 s.timerMs elapsedMs }, .quiet) := by
    simp only [tick]
    rw [if_neg, if_neg (by rw [hintime]; decide)]
    rintro ⟨hb, -, hd, -⟩
    rw [hidle hb] at hd
    cases hd
  rw [update_single hs, htick]
  rfl

end TransportProtocol

end Machbus
