import Machbus.Net.Helpers.Wire
import Machbus.Etp.Helpers.Steps
/-!
# ETP — frames as they are built and read

What a receiver reads off a frame is what its builder was given, and a
well-formed control frame reaches the handler of its control byte.
-/

namespace Machbus

open Identifier TransportSession EtpCm

namespace Etp

variable {src dst : Address} {b0 b1 b2 b3 b4 : UInt8} {pgn seq : ℕ} {block : List UInt8}

@[simp] theorem makeCm_source : (makeCm src dst b0 b1 b2 b3 b4 pgn).source = src :=
  source_encode

@[simp] theorem makeCm_destination : (makeCm src dst b0 b1 b2 b3 b4 pgn).destination = dst :=
  destination_encode.trans (if_pos (by decide))

/-- The PGN of a control frame survives the wire. -/
theorem pgnFromCmBytes_makeCm (h : pgnIsValid pgn = true) :
    pgnFromCmBytes (makeCm src dst b0 b1 b2 b3 b4 pgn).data = pgn := by
  have hv : pgn ≤ 0x3FFFF := by simpa [pgnIsValid] using h
  exact ofLe_three (by omega)

/-- So does a size of thirty-two bits. -/
theorem sizeFromCmBytes_makeCm {size : ℕ} (h : size ≤ etpMaxDataLength) :
    sizeFromCmBytes (makeCm src dst b0 (leByte size 0) (leByte size 1) (leByte size 2)
      (leByte size 3) pgn).data = size :=
  (ofLe_leBytes _ 4).trans (Nat.mod_eq_of_lt (by unfold etpMaxDataLength at h; omega))

/-- And a packet number of twenty-four. -/
theorem packetFromCmBytes_makeCm {n : ℕ} (h : n ≤ 0xFFFFFF) :
    packetFromCmBytes (makeCm src dst b0 b1 (leByte n 0) (leByte n 1) (leByte n 2) pgn).data = n :=
  ofLe_three (by omega)

@[simp] theorem makeDt_source : (makeDt src dst seq block).source = src := source_encode

@[simp] theorem makeDt_destination : (makeDt src dst seq block).destination = dst :=
  destination_encode.trans (if_pos (by decide))

theorem makeDt_pgn : (makeDt src dst seq block).pgn = pgnEtpDt :=
  (pgn_encode (by decide)).trans (by decide)

end Etp

namespace ExtendedTransportProtocol

open Etp

variable {t : ExtendedTransportProtocol} {f : Frame} {port : UInt8} {src dst : Address}
  {b0 b1 b2 b3 b4 : UInt8} {pgn seq : ℕ} {block : List UInt8}

theorem isCm_makeCm (hsrc : validEtpSource src = true) (hdst : validEtpDestination dst = true)
    (hpgn : pgnIsValid pgn = true) : IsCm b0 (makeCm src dst b0 b1 b2 b3 b4 pgn) where
  length := Nat.le_refl _
  source := by rw [makeCm_source]; exact hsrc
  destination := by rw [makeCm_destination]; exact hdst
  pgn := (pgn_encode (by decide)).trans (by decide)
  control := rfl
  target := by rw [pgnFromCmBytes_makeCm hpgn]; exact hpgn

/-- Past the checks every control frame makes, the control byte decides. -/
theorem processFrame_cm {control : UInt8} (hf : IsCm control f) : t.processFrame f port =
      if control = rts then t.handleRts f port
      else if control = cts then t.handleCts f port
      else if control = dpo then t.handleDpo f port
      else if control = eoma then t.handleEoma f port
      else if control = abort then (t.handleAbort f port, [])
      else (t.noteDroppedFrame, []) := by
  have hlen := hf.length
  rw [processFrame, if_neg (by omega), if_neg (by simp [hf.source, hf.destination]), if_pos hf.pgn]
  simp only [handleCm]
  rw [if_neg (by simp [hf.target]), hf.control]

theorem processFrame_dpo (hf : IsCm dpo f) : t.processFrame f port = t.handleDpo f port := by
  rw [processFrame_cm hf, if_neg (by decide), if_neg (by decide), if_pos rfl]

theorem processFrame_dt (hf : IsDt f) : t.processFrame f port = t.handleDt f port := by
  have hlen := hf.length
  have hcm : f.pgn ≠ pgnEtpCm := fun h => not_isDt_of_cm h hf
  rw [processFrame, if_neg (by omega), if_neg (by simp [hf.source, hf.destination]), if_neg hcm,
    if_pos hf.pgn]

/-! ## An engine with one session

On a table that is empty or holds one session the searches of the engine
are decided, and each handler is an equation. -/

variable {s s' : TransportSession}

section

variable (hs : t.sessions = [s])
include hs

theorem sessionPosition_single {p : TransportSession → Bool}
    (hp : p s = true) : t.sessionPosition p = some 0 := by
  rw [sessionPosition, hs, List.findIdx?_cons, hp]
  rfl

theorem sessionAt_single : t.sessionAt 0 = s := by
  rw [sessionAt, hs]
  rfl

theorem removeSession_single : t.removeSession 0 = { t with sessions := [] } := by
  rw [removeSession, hs]
  rfl

theorem setSession_single : t.setSession 0 s' = { t with sessions := [s'] } := by
  rw [setSession, hs]
  rfl

end

/-- An RTS that an idle engine has room for. -/
theorem handleRts_idle (hs : t.sessions = []) (hroom : 0 < t.maxSessions)
    (hmin : tpMaxDataLength < sizeFromCmBytes f.data)
    (hmax : sizeFromCmBytes f.data ≤ etpMaxDataLength)
    (hcap : sizeFromCmBytes f.data ≤ t.maxReceiveBytes) :
    t.handleRts f port = ({ t with
          sessions := [rtsSession f port (List.replicate (sizeFromCmBytes f.data) 0xFF)] },
        [makeCts f.destination f.source tpMaxPacketsPerCts 1 (pgnFromCmBytes f.data)]) := by
  have hprofile : t.receiveProfileForAdvertisedSize (sizeFromCmBytes f.data) =
      .ok ⟨sizeFromCmBytes f.data, divCeil (sizeFromCmBytes f.data) tpBytesPerFrame,
        t.maxReceiveBytes⟩ := by
    rw [receiveProfileForAdvertisedSize, if_neg (by omega), if_neg (by omega)]
  have hpackets : ¬0xFFFFFF < divCeil (sizeFromCmBytes f.data) tpBytesPerFrame := by
    simp only [etpMaxDataLength] at hmax
    simp only [divCeil, tpBytesPerFrame]
    omega
  have hidle : ¬t.receiveDtPathIsActive f.source f.destination port = true := by
    rw [receiveDtPathIsActive, hs]
    exact Bool.false_ne_true
  have hbuffer : rxBuffer (sizeFromCmBytes f.data) t.maxReceiveBytes =
      .ok (List.replicate (sizeFromCmBytes f.data) 0xFF) := if_neg (by omega)
  simp only [handleRts, hprofile]
  rw [if_neg hpackets, if_neg hidle, if_neg (by rw [hs]; exact Nat.not_le.mpr hroom), hbuffer]
  simp [pushSession, hs]

section

variable (hs : t.sessions = [s])
include hs

/-- A DPO for the one receive session. -/
theorem handleDpo_single (hpath : s.path = rxPath f port) (hpgn : s.pgn = pgnFromCmBytes f.data)
    (hfits : DpoFits s f.data.b1.toNat (packetFromCmBytes f.data)) :
    t.handleDpo f port =
      ({ t with sessions := [startGroup s f.data.b1.toNat (packetFromCmBytes f.data)] }, []) := by
  simp only [path, rxPath, Prod.mk.injEq] at hpath
  simp only [handleDpo]
  rw [sessionPosition_single hs (by simp [hpath, hpgn])]
  simp only [sessionAt_single hs, setSession_single hs]
  rw [if_pos hfits]

/-- An EOMA that acknowledges the one transmit session. -/
theorem handleEoma_single (hpath : s.path = (.transmit, f.destination, f.source, port))
    (hpgn : s.pgn = pgnFromCmBytes f.data) (hstate : s.state = .waitingForEndOfMsg)
    (hsize : sizeFromCmBytes f.data = s.totalBytes) :
    t.handleEoma f port =
      ({ t with sessions := [], onComplete := t.onComplete ++ [{ s with state := .complete }] },
        []) := by
  simp only [path, Prod.mk.injEq] at hpath
  simp only [handleEoma]
  rw [sessionPosition_single hs (by simp [hpath, hpgn])]
  simp only [sessionAt_single hs, removeSession_single hs]
  rw [if_neg (by simp [hstate, hsize])]

/-- A drain with one session open. -/
theorem getPendingDataFrames_single :
    t.getPendingDataFrames = ({ t with sessions := [(drain s).1] }, (drain s).2) := by
  rw [getPendingDataFrames, hs]
  simp

/-- The search a data frame makes of a table of one. -/
theorem handleDt_single (hpath : s.path = rxPath f port)
    (hstate : s.state = .waitingForData) (hgroup : s.packetsToSend ≠ 0)
    (hseq : f.data.b0.toNat = s.lastSequence + 1) :
    t.handleDt f port = t.acceptDt 0 f.data.b0.toNat f.data.tail := by
  simp only [path, rxPath, Prod.mk.injEq] at hpath
  simp only [handleDt]
  rw [sessionPosition_single hs (by simp [hpath, hstate])]
  simp only [sessionAt_single hs]
  rw [if_neg hgroup, if_neg (by omega)]

/-- A packet with more to come. -/
theorem acceptDt_single_more
    (hopen : ¬(ingest s seq block).totalBytes ≤ (ingest s seq block).bytesTransferred) :
    t.acceptDt 0 seq block = ({ t with sessions := [(advanceWindow (ingest s seq block) seq).1] },
        (advanceWindow (ingest s seq block) seq).2) := by
  simp only [acceptDt, sessionAt_single hs, setSession_single hs]
  rw [if_neg hopen]

/-- The last packet. -/
theorem acceptDt_single_last
    (hdone : (ingest s seq block).totalBytes ≤ (ingest s seq block).bytesTransferred) :
    t.acceptDt 0 seq block = ({ t with
          sessions := []
          onComplete := t.onComplete ++ [{ ingest s seq block with state := .complete }] },
        [makeEoma (ingest s seq block).destinationAddress (ingest s seq block).sourceAddress
          (ingest s seq block).totalBytes (ingest s seq block).pgn]) := by
  simp only [acceptDt, sessionAt_single hs, removeSession_single hs]
  rw [if_pos hdone]

/-- Time passes for a session that is not late. -/
theorem update_single_quiet {elapsedMs : ℕ}
    (hintime : satAdd32 s.timerMs elapsedMs < deadlineMs s.state) :
    t.update elapsedMs =
      ({ t with sessions := [{ s with timerMs := satAdd32 s.timerMs elapsedMs }] }, []) := by
  have htick : tick elapsedMs s =
      (some { s with timerMs := satAdd32 s.timerMs elapsedMs }, none) := by
    simp only [tick]
    rw [if_neg (Nat.not_le.mpr hintime)]
  rw [update, hs, sweep_singleton, htick]
  rfl

end

/-- Time passes with no session open. -/
theorem update_nil (hs : t.sessions = []) (elapsedMs : ℕ) : t.update elapsedMs = (t, []) := by
  rcases t with ⟨sessions⟩
  subst hs
  rfl

end ExtendedTransportProtocol

end Machbus
