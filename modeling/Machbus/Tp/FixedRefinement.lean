import Machbus.Common.Lockstep
import Machbus.Tp.Helpers.RxFixed
import Machbus.Tp.Helpers.Frames
/-!
# TP — the fixed receiver refines the engine

One peer sends to one local address about one PGN. The fixed receiver and
an engine with an empty table are fed the same frames. `Mirrors` is the
simulation: the engine's table is empty while the receiver is idle, and
holds exactly the session the receiver describes while it is active. Each
handler of the receiver keeps it and answers as the engine's handler does.
-/

namespace Machbus

open Tp TransportProtocol TransportSession TpCm

/-- A frame that cannot be broadcast: its destination is one node. -/
theorem Frame.isBroadcast_of_destination_ne {f : Frame} (h : f.destination ≠ broadcastAddress) :
    f.isBroadcast = false := by
  have hpdu : f.id.isPdu2 = false := by
    by_contra hpdu
    refine h ?_
    rw [Frame.destination, Identifier.destination, if_pos (by simpa using hpdu)]
  rw [Frame.isBroadcast, Identifier.isBroadcast, hpdu]
  simpa [Frame.destination] using h

/-! ## The two machines -/

/-- The engine as a machine: frames out, and the messages it completes. -/
def TransportProtocol.receive (port : UInt8) (t : TransportProtocol) (f : Frame) :
    TransportProtocol × Except Error (List Frame × List Delivered) :=
  let r := t.processFrame f port
  (r.1, .ok (r.2, (r.1.onComplete.drop t.onComplete.length).map delivered))

namespace TpRxFixed

variable {N : ℕ} {rx : TpRxFixed N} {t t' : TransportProtocol} {f : Frame} {port : UInt8}
  {source dest : Address} {pgn : ℕ}

/-- The receiver as a machine of the same kind. -/
def receive (rx : TpRxFixed N) (f : Frame) :
    TpRxFixed N × Except Error (List Frame × List Delivered) :=
  let r := rx.processFrame f
  (r.1, r.2.map fun o => (o.response.toList, o.message.toList.map FixedMessage.delivered))

/-- A TP frame from one peer to one address, about one PGN. -/
@[mk_iff] structure FromPeer (source dest : Address) (pgn : ℕ) (f : Frame) : Prop where
  source : f.source = source
  destination : f.destination = dest
  kind : f.pgn = pgnTpCm ∨ f.pgn = pgnTpDt
  target : f.pgn = pgnTpCm → pgnFromCmBytes f.data = pgn

instance (source dest : Address) (pgn : ℕ) (f : Frame) : Decidable (FromPeer source dest pgn f) :=
  decidable_of_iff' _ (fromPeer_iff source dest pgn f)

/-- An announcement comes only while no transfer is open. -/
def RtsWhileIdle (rx : TpRxFixed N) (f : Frame) : Prop :=
  f.pgn = pgnTpCm → f.data.b0 = TpCm.rts → rx.active = false

/-- The session an engine keeps for the receiver's transfer. -/
def session (rx : TpRxFixed N) (port : UInt8) : TransportSession :=
  { direction := .receive
    state := .waitingForData
    pgn := rx.pgn
    data := rx.data.bytes
    totalBytes := rx.totalBytes
    bytesTransferred := min (rx.lastSequence * 7) rx.totalBytes
    sourceAddress := rx.source
    destinationAddress := rx.destination
    canPort := port
    priority := rx.priority
    lastSequence := rx.lastSequence
    maxPacketsPerCts := rx.maxPacketsPerCts
    ctsWindowStart := rx.ctsWindowStart
    ctsWindowSize := rx.ctsWindowSize }

/-- What is known of an open transfer. -/
structure Open (source dest : Address) (pgn : ℕ) (rx : TpRxFixed N) : Prop where
  source : rx.source = source
  destination : rx.destination = dest
  pgn : rx.pgn = pgn
  broadcast : rx.broadcast = false
  packets : rx.totalPackets = divCeil rx.totalBytes tpBytesPerFrame
  packets_le : rx.totalPackets ≤ 255
  unfinished : rx.lastSequence * 7 < rx.totalBytes

/-- **The simulation.** The engine keeps the receiver's transfer and
nothing else. -/
structure Mirrors (source dest : Address) (pgn : ℕ) (port : UInt8) (rx : TpRxFixed N)
    (t : TransportProtocol) : Prop where
  sessions : t.sessions = if rx.active then [rx.session port] else []
  room : 0 < t.maxSessions
  cap : t.maxReceiveBytes = min N tpMaxDataLength
  transfer : rx.active = true → rx.Open source dest pgn

/-- What a step has to establish. -/
def Agrees (source dest : Address) (pgn : ℕ) (port : UInt8) (t : TransportProtocol)
    (r : TpRxFixed N × Except Error (TpRxFixedOutcome N)) (q : TransportProtocol × List Frame) :
    Prop :=
  r.2.map (fun o => (o.response.toList, o.message.toList.map FixedMessage.delivered)) =
      .ok (q.2, (q.1.onComplete.drop t.onComplete.length).map delivered) ∧
    Mirrors source dest pgn port r.1 q.1

namespace Mirrors

section

variable (h : Mirrors source dest pgn port rx t)
include h

theorem empty (hidle : rx.active = false) : t.sessions = [] := by
  simpa [hidle] using h.sessions

theorem single (hactive : rx.active = true) : t.sessions = [rx.session port] := by
  simpa [hactive] using h.sessions

/-- The transfer ends on both sides. -/
theorem idle (hs : t'.sessions = []) (hm : t'.maxSessions = t.maxSessions)
    (hc : t'.maxReceiveBytes = t.maxReceiveBytes) :
    Mirrors source dest pgn port (new : TpRxFixed N) t' :=
  ⟨hs, hm ▸ h.room, hc.trans h.cap, nofun⟩

/-- A frame both answer alike, or not at all, and do nothing else about. -/
theorem answered (response : Option Frame) (hs : t'.sessions = t.sessions)
    (hm : t'.maxSessions = t.maxSessions)
    (hc : t'.maxReceiveBytes = t.maxReceiveBytes) (ho : t'.onComplete = t.onComplete) :
    Agrees source dest pgn port t (rx, .ok { response := response }) (t', response.toList) := by
  refine ⟨?_, hs.trans h.sessions, hm ▸ h.room, hc.trans h.cap, h.transfer⟩
  simp [Except.map, ho]

/-- A frame the engine drops. -/
theorem drop : Agrees source dest pgn port t rx.ignore (t.noteDroppedFrame, []) :=
  h.answered none rfl rfl rfl rfl

end

end Mirrors

/-! ## Announcements -/

section

variable (h : Mirrors source dest pgn port rx t)
include h

section

variable (hf : FromPeer source dest pgn f)
include hf

/-- An RTS while no transfer is open. -/
theorem processRts_agrees (hcm : f.pgn = pgnTpCm) (hidle : rx.active = false) :
    Agrees source dest pgn port t (rx.processRts f) (t.handleRts f port) := by
  have hempty := h.empty hidle
  by_cases hbad : validTpPayloadShape (sizeFromCmBytes f.data) f.data.b3.toNat = false ∨
      f.data.b4 = 0
  · simp only [processRts, handleRts, if_pos hbad]
    exact h.answered (some _) rfl rfl rfl rfl
  have hgood := hbad
  push Not at hgood
  obtain ⟨hshape, hwindow⟩ := hgood
  have hshape : validTpPayloadShape (sizeFromCmBytes f.data) f.data.b3.toNat = true := by
    simpa using hshape
  have hbounds := hshape
  simp only [validTpPayloadShape, Bool.and_eq_true, decide_eq_true_eq] at hbounds
  obtain ⟨⟨⟨hmin, hmax⟩, -⟩, hpackets⟩ := hbounds
  simp only [processRts, if_neg hbad, hidle]
  rw [if_neg (by decide)]
  by_cases hbig : N < sizeFromCmBytes f.data
  · -- too big for the storage is too big for the cap
    rw [if_pos hbig, handleRts_eq_openRts hempty hshape hwindow, openRts,
      if_neg (by rw [hempty]; exact Nat.not_le.mpr h.room), rxBuffer, if_pos (by rw [h.cap]; omega)]
    exact h.answered (some _) rfl rfl rfl rfl
  · obtain ⟨buf, hbuf, hbytes⟩ := FixedBytes.resize_new (Nat.le_of_not_lt hbig) 0xFF
    rw [if_neg hbig, startReceive, hbuf, handleRts_idle hempty h.room hshape
      hwindow (by rw [h.cap]; omega)]
    refine ⟨by simp [TpRxFixed.answer, Except.map], ?_, h.room, h.cap, ?_⟩
    · simp [TpRxFixed.answer, session, rtsSession, hbytes]
    · intro _
      exact
        { source := hf.source
          destination := hf.destination
          pgn := hf.target hcm
          broadcast := rfl
          packets := hpackets
          packets_le := Nat.le_of_lt_succ f.data.b3.toNat_lt
          unfinished := by simp only [TpRxFixed.answer]; omega }

/-- A BAM for a single node is none. -/
theorem processBam_agrees (hdest : dest ≠ broadcastAddress) :
    Agrees source dest pgn port t (rx.processBam f) (t.handleBam f port, []) := by
  have hbc : f.isBroadcast = false :=
    Frame.isBroadcast_of_destination_ne (by rw [hf.destination]; exact hdest)
  -- the table holds no broadcast the frame could repeat
  have hnone : t.receiveSessionFor f.source broadcastAddress port
      (pgnFromCmBytes f.data) = none := by
    rw [receiveSessionFor, sessionPosition, List.findIdx?_eq_none_iff]
    intro x hx
    rw [h.sessions] at hx
    split at hx
    next hactive =>
      have hd : x.destinationAddress = dest := by
        rw [List.mem_singleton.mp hx]
        exact (h.transfer hactive).destination
      simp [hd, hdest]
    · cases hx
  have hbad : rx.active = true ∨ f.isBroadcast = false ∨
      validTpPayloadShape (sizeFromCmBytes f.data) f.data.b3.toNat = false ∨
      N < sizeFromCmBytes f.data := Or.inr (Or.inl hbc)
  simp only [processBam, if_pos hbad, handleBam, hnone]
  rcases openBam_cases t f port with ⟨stats, hopen⟩ | ⟨hyes, -⟩
  · rw [hopen]
    exact h.answered none rfl rfl rfl rfl
  · rw [hbc] at hyes
    cases hyes

/-! ## Control frames about an open transfer -/

theorem processAbort_agrees (hcm : f.pgn = pgnTpCm) :
    Agrees source dest pgn port t (rx.processAbort f) (t.handleAbort f port, []) := by
  rcases hactive : rx.active with _ | _
  · have hempty := h.empty hactive
    have hnone : ∀ p, t.sessionPosition p = none := by
      intro p
      rw [sessionPosition, hempty]
      rfl
    simp only [processAbort, handleAbort, hnone, hactive]
    exact h.drop
  · have hopen := h.transfer hactive
    have hsingle := h.single hactive
    have hends : rx.source = f.source ∧ rx.destination = f.destination := by
      rw [hopen.source, hopen.destination, hf.source, hf.destination]
      exact ⟨rfl, rfl⟩
    have hpgn : rx.pgn = pgnFromCmBytes f.data := hopen.pgn.trans (hf.target hcm).symm
    simp only [processAbort, handleAbort]
    rw [if_pos ⟨hactive, hpgn, Or.inl hends⟩,
      sessionPosition_single hsingle (by simp [session, hends, hpgn])]
    simp only [removeSession_single hsingle]
    refine ⟨by simp [TpRxFixed.ignore, Except.map], ?_⟩
    exact h.idle rfl rfl rfl

end

/-- The engine keeps no transmit session a frame could be for. -/
theorem sessionPosition_transmit {p : TransportSession → Bool}
    (hp : ∀ s, p s = true → s.direction = .transmit) : t.sessionPosition p = none := by
  rw [sessionPosition, List.findIdx?_eq_none_iff]
  intro x hx
  by_contra hpx
  have hdir := hp x (by simpa using hpx)
  rw [h.sessions] at hx
  split at hx
  · rw [List.mem_singleton.mp hx] at hdir
    cases hdir
  · cases hx

theorem processCm_agrees (hf : FromPeer source dest pgn f)
    (hdest : dest ≠ broadcastAddress) (hcm : f.pgn = pgnTpCm) (hrts : RtsWhileIdle rx f) :
    Agrees source dest pgn port t (rx.processCm f) (t.handleCm f port) := by
  have hd : f.destination ≠ broadcastAddress := by rw [hf.destination]; exact hdest
  simp only [processCm, handleCm, hd, and_false, or_false]
  by_cases hpgn : pgnIsValid (pgnFromCmBytes f.data) = false
  · rw [if_pos hpgn, if_pos hpgn]
    exact h.drop
  rw [if_neg hpgn, if_neg hpgn]
  by_cases hr : f.data.b0 = rts
  · rw [if_pos hr, if_pos hr]
    exact processRts_agrees h hf hcm (hrts hcm hr)
  rw [if_neg hr, if_neg hr]
  by_cases hb : f.data.b0 = bam
  · have hc : f.data.b0 ≠ cts := by rw [hb]; decide
    have he : f.data.b0 ≠ eoma := by rw [hb]; decide
    rw [if_pos hb, if_neg hc, if_neg he, if_pos hb]
    exact processBam_agrees h hf hdest
  rw [if_neg hb]
  by_cases ha : f.data.b0 = abort
  · have hc : f.data.b0 ≠ cts := by rw [ha]; decide
    have he : f.data.b0 ≠ eoma := by rw [ha]; decide
    rw [if_pos ha, if_neg hc, if_neg he, if_neg hb, if_pos ha]
    exact processAbort_agrees h hf hcm
  rw [if_neg ha]
  by_cases hc : f.data.b0 = cts
  · rw [if_pos hc]
    simp only [handleCts]
    rw [sessionPosition_transmit h (by simp +contextual)]
    exact h.drop
  rw [if_neg hc]
  by_cases he : f.data.b0 = eoma
  · rw [if_pos he]
    simp only [handleEoma]
    rw [sessionPosition_transmit h (by simp +contextual)]
    exact h.drop
  rw [if_neg he, if_neg hb, if_neg ha]
  exact h.drop

end

/-! ## Data frames -/

/-- Taking in a data frame is the same for the receiver and its session. -/
theorem session_ingested (hseq : f.data.b0.toNat ≠ 0) :
    ingest (rx.session port) f.data.b0.toNat f.data.tail = (rx.ingested f).session port := by
  have hoff : (f.data.b0.toNat - 1) * 7 + 7 = f.data.b0.toNat * 7 := by omega
  simp only [ingest, tpBytesPerFrame, hoff]
  rfl

section

variable (h : Mirrors source dest pgn port rx t) (hactive : rx.active = true)
  (hdest : dest ≠ broadcastAddress)
include h hactive hdest

/-- A data frame out of sequence ends the transfer on both sides. -/
theorem abortReceive_agrees (reason : TransportAbortReason) : Agrees source dest pgn port t
      (rx.reset, .ok { response := some (makeAbort rx.destination rx.source rx.pgn reason) })
      (t.abortReceive 0 reason) := by
  have hsingle := h.single hactive
  have hbc : (rx.session port).isBroadcast = false := by
    simpa [isBroadcast, session, (h.transfer hactive).destination] using hdest
  simp only [abortReceive, sessionAt_single hsingle, hbc, removeSession_single hsingle]
  refine ⟨?_, h.idle rfl rfl rfl⟩
  simp [Except.map, makeSessionAbort, session]

/-- The data frame the transfer waits for. -/
theorem acceptDt_agrees (hseq : f.data.b0.toNat = rx.lastSequence + 1) :
    Agrees source dest pgn port t (rx.acceptDt f) (t.acceptDt 0 f.data.b0.toNat f.data.tail) := by
  have hopen := h.transfer hactive
  have hsingle := h.single hactive
  have hbc : ((rx.ingested f).session port).isBroadcast = false := by
    simpa [isBroadcast, session, ingested, hopen.destination] using hdest
  have hnb : rx.broadcast = false := hopen.broadcast
  have hoff : (f.data.b0.toNat - 1) * 7 + 7 = f.data.b0.toNat * 7 := by omega
  have hpackets : divCeil rx.totalBytes 7 = rx.totalPackets := hopen.packets.symm
  have hnarrow : rx.totalPackets % 256 = rx.totalPackets :=
    Nat.mod_eq_of_lt (Nat.lt_succ_of_le hopen.packets_le)
  simp only [TransportProtocol.acceptDt, sessionAt_single hsingle]
  rw [session_ingested (by omega)]
  have htotal : ((rx.ingested f).session port).totalBytes = rx.totalBytes := rfl
  have hbytes : ((rx.ingested f).session port).bytesTransferred =
      min (f.data.b0.toNat * 7) rx.totalBytes := rfl
  have hsize : ((rx.ingested f).session port).ctsWindowSize = rx.ctsWindowSize := rfl
  have hstart : ((rx.ingested f).session port).ctsWindowStart = rx.ctsWindowStart := rfl
  by_cases hlast : rx.totalBytes ≤ min (f.data.b0.toNat * 7) rx.totalBytes
  · -- the last packet
    simp only [acceptDt, tpBytesPerFrame, hoff, htotal, hbytes, if_pos hlast, hnb,
      removeSession_single hsingle, hbc]
    refine ⟨?_, h.idle rfl rfl rfl⟩
    simp [Except.map, session, ingested, TransportSession.totalPackets, hpackets, hnarrow,
      FixedMessage.delivered, delivered, tpBytesPerFrame]
  · have hleft : f.data.b0.toNat * 7 < rx.totalBytes := by omega
    simp only [acceptDt, tpBytesPerFrame, hoff, htotal, hbytes, if_neg hlast, hnb,
      setSession_single hsingle, advanceWindow, hbc, true_and, hsize, hstart]
    by_cases hwin : rx.ctsWindowSize ≤ f.data.b0.toNat - (rx.ctsWindowStart - 1)
    · -- the window is used up
      have hsame : ((rx.ingested f).session port).totalPackets = rx.totalPackets := hpackets
      simp only [if_pos hwin, hsame]
      refine ⟨by simp [TpRxFixed.answer, Except.map, session, ingested], ?_, h.room, h.cap, ?_⟩
      · simp [TpRxFixed.answer, session, ingested, hactive, tpBytesPerFrame]
      · intro _
        exact { hopen with broadcast := rfl, unfinished := hleft }
    · simp only [if_neg hwin]
      refine ⟨by simp [TpRxFixed.ignore, Except.map], ?_, h.room, h.cap, ?_⟩
      · simp [TpRxFixed.ignore, session, ingested, hactive, tpBytesPerFrame]
      · intro _
        exact { hopen with broadcast := rfl, unfinished := hleft }

end

theorem processDt_agrees (h : Mirrors source dest pgn port rx t) (hf : FromPeer source dest pgn f)
    (hdest : dest ≠ broadcastAddress) :
    Agrees source dest pgn port t (rx.processDt f) (t.handleDt f port) := by
  rcases hactive : rx.active with _ | _
  · have hempty := h.empty hactive
    simp only [processDt, handleDt, sessionPosition, hempty, hactive]
    exact h.drop
  · have hopen := h.transfer hactive
    have hsingle := h.single hactive
    have hsrc : f.source = rx.source := hf.source.trans hopen.source.symm
    have hdst : f.destination = rx.destination := hf.destination.trans hopen.destination.symm
    have hlast : satAdd8 rx.lastSequence 1 = rx.lastSequence + 1 := by
      have := hopen.unfinished
      have := hopen.packets_le
      have := hopen.packets
      simp only [divCeil, tpBytesPerFrame] at this
      rw [satAdd8]
      omega
    simp only [processDt, handleDt, hactive, hsrc, hdst, hopen.broadcast]
    rw [sessionPosition_single hsingle (by simp [session])]
    have hlast' : (rx.session port).lastSequence = rx.lastSequence := rfl
    simp only [sessionAt_single hsingle, hlast, Bool.false_eq_true, if_false]
    rw [if_neg (by simp)]
    by_cases hseq : f.data.b0.toNat = rx.lastSequence + 1
    · rw [if_neg (by omega), if_neg (by omega), if_neg (by omega), if_neg (by omega)]
      exact acceptDt_agrees h hactive hdest hseq
    rw [if_pos (Or.inr hseq)]
    by_cases hzero : f.data.b0.toNat = 0
    · rw [if_pos hzero, if_neg (by omega)]
      exact abortReceive_agrees h hactive hdest .badSequence
    rw [if_neg hzero]
    by_cases hdup : f.data.b0.toNat ≤ rx.lastSequence
    · -- a packet that was already taken in
      rw [if_pos ⟨hzero, hdup⟩, if_pos ⟨hseq, hdup, hzero⟩]
      exact abortReceive_agrees h hactive hdest .duplicateSequence
    · rw [if_neg (by omega), if_neg (by omega), if_pos (by omega)]
      exact abortReceive_agrees h hactive hdest .badSequence

/-! ## Whole sequences -/

/-- **One frame.** -/
theorem receive_agrees (hdest : dest ≠ broadcastAddress) (hf : FromPeer source dest pgn f)
    (hrts : RtsWhileIdle rx f) (h : Mirrors source dest pgn port rx t) :
    (rx.receive f).2 = (t.receive port f).2 ∧
      Mirrors source dest pgn port (rx.receive f).1 (t.receive port f).1 := by
  show Agrees source dest pgn port t (rx.processFrame f) (t.processFrame f port)
  unfold processFrame TransportProtocol.processFrame
  split
  · exact h.drop
  split
  · exact h.drop
  split
  next hcm => exact processCm_agrees h hf hdest hcm hrts
  split
  · exact processDt_agrees h hf hdest
  · exact h.answered none rfl rfl rfl rfl

/-- **The fixed receiver refines the engine.** Fed any frames of one peer
to one address about one PGN, an RTS only while no transfer is open, the
fixed receiver of any capacity and a fresh engine with that receive cap
give the same answers and deliver the same messages, frame by frame; and
the receiver never fails. -/
theorem rxFixed_refines_engine (N : ℕ) (source dest : Address) (pgn : ℕ) (port : UInt8)
    (hdest : dest ≠ broadcastAddress) (fs : List Frame) (hfs : ∀ f ∈ fs, FromPeer source dest pgn f)
    (hrts : Along step RtsWhileIdle (new : TpRxFixed N) fs) :
    outputs receive (new : TpRxFixed N) fs =
      outputs (TransportProtocol.receive port)
        (TransportProtocol.withMaxReceiveBytes (min N tpMaxDataLength)) fs := by
  have hstart : Mirrors source dest pgn port (new : TpRxFixed N)
      (TransportProtocol.withMaxReceiveBytes (min N tpMaxDataLength)) :=
    { sessions := rfl
      room := Nat.zero_lt_succ 31
      cap := by simp [TransportProtocol.withMaxReceiveBytes]
      transfer := nofun }
  have hidle : Along (moves receive) RtsWhileIdle (new : TpRxFixed N) fs := hrts
  refine outputs_eq_of_lockstep ?_ hstart hfs hidle
  intro rx t f hf hrts h
  exact receive_agrees hdest hf hrts h

/-- Nine bytes from `0x10` to `0x20`: the RTS and two packets. -/
def nineBytes : List Frame :=
  [makeCm 0x10 0x20 TpCm.rts 9 0 2 16 0xFECA, makeDt 0x10 0x20 1 [1, 2, 3, 4, 5, 6, 7],
    makeDt 0x10 0x20 2 [8, 9]]

theorem rxFixed_refines_engine_nineBytes :
    outputs receive (new : TpRxFixed 16) nineBytes =
        [.ok ([makeCts 0x20 0x10 2 1 0xFECA], []), .ok ([], []),
          .ok ([makeEoma 0x20 0x10 9 2 0xFECA],
            [⟨0xFECA, [1, 2, 3, 4, 5, 6, 7, 8, 9], 0x10, 0x20, .lowest⟩])] ∧
      outputs receive (new : TpRxFixed 16) nineBytes =
        outputs (TransportProtocol.receive 0)
          (TransportProtocol.withMaxReceiveBytes (min 16 tpMaxDataLength)) nineBytes := by
  refine ⟨by decide, rxFixed_refines_engine 16 0x10 0x20 0xFECA 0 (by decide) nineBytes
    (by decide) ⟨fun _ _ => rfl, fun h => absurd h ?_, fun h => absurd h ?_, trivial⟩⟩
  · decide
  · decide

end TpRxFixed

end Machbus
