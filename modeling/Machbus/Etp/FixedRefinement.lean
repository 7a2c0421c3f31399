import Machbus.Common.Lockstep
import Machbus.Etp.Helpers.Frames
import Machbus.Etp.Model.RxFixed
/-!
# ETP — where the fixed receiver leaves the engine

One peer sends to one local address about one PGN. The fixed receiver and
an engine with an empty table are fed the same frames. `session` is the
session the engine keeps for the receiver's transfer: while a group is open
the engine has its size in place of the window that was granted. So the two
part at a second DPO inside a group, if it announces more packets than the
first one and no more than were granted (`Regroup`): the receiver starts
the group anew and the engine aborts. Everywhere else they agree.
-/

namespace Machbus

open Etp ExtendedTransportProtocol EtpCm TransportSession Nat

/-- The engine as a machine: frames out, and the messages it completes. -/
def ExtendedTransportProtocol.receive (port : UInt8) (t : ExtendedTransportProtocol) (f : Frame) :
    ExtendedTransportProtocol × Except Error (List Frame × List Delivered) :=
  let r := t.processFrame f port
  (r.1, .ok (r.2, (r.1.onComplete.drop t.onComplete.length).map delivered))

namespace EtpRxFixed

variable {N : ℕ} {rx : EtpRxFixed N} {t t' : ExtendedTransportProtocol} {f : Frame} {port : UInt8}
  {source dest : Address} {pgn : ℕ} {p : TransportSession → Bool}

/-! ## The two machines -/

/-- The receiver as a machine of the same kind. -/
def receive (rx : EtpRxFixed N) (f : Frame) :
    EtpRxFixed N × Except Error (List Frame × List Delivered) :=
  let r := rx.processFrame f
  (r.1, r.2.map fun o => (o.response.toList, o.message.toList.map FixedMessage.delivered))

/-- An ETP frame from one peer to one address, about one PGN. -/
@[mk_iff] structure FromPeer (source dest : Address) (pgn : ℕ) (f : Frame) : Prop where
  source : f.source = source
  destination : f.destination = dest
  kind : f.pgn = pgnEtpCm ∨ f.pgn = pgnEtpDt
  target : f.pgn = pgnEtpCm → pgnFromCmBytes f.data = pgn

instance (source dest : Address) (pgn : ℕ) (f : Frame) : Decidable (FromPeer source dest pgn f) :=
  decidable_of_iff' _ (fromPeer_iff source dest pgn f)

/-- An announcement comes only while no transfer is open. -/
def RtsWhileIdle (rx : EtpRxFixed N) (f : Frame) : Prop :=
  f.pgn = pgnEtpCm → f.data.b0 = EtpCm.rts → rx.active = false
  deriving Decidable

/-- **The DPO the two disagree on.** A group is open, and the frame
announces one of more packets that the granted window still has room
for. -/
def Regroup (rx : EtpRxFixed N) (f : Frame) : Prop :=
  IsCm EtpCm.dpo f ∧ rx.active = true ∧ rx.packetsToReceive ≠ 0 ∧
    rx.packetsToReceive < f.data.b1.toNat ∧ f.data.b1.toNat ≤ rx.ctsWindowSize ∧
    f.data.b1.toNat ≤ divCeil (rx.totalBytes - rx.bytesTransferred) tpBytesPerFrame ∧
    packetFromCmBytes f.data = rx.bytesTransferred / tpBytesPerFrame
  deriving Decidable

/-- The session an engine keeps for the receiver's transfer. -/
def session (rx : EtpRxFixed N) (port : UInt8) : TransportSession :=
  { direction := .receive
    state := .waitingForData
    pgn := rx.pgn
    data := rx.data.bytes
    totalBytes := rx.totalBytes
    bytesTransferred := rx.bytesTransferred
    sourceAddress := rx.source
    destinationAddress := rx.destination
    canPort := port
    priority := rx.priority
    lastSequence := rx.lastSequence
    -- the size of an open group stands where the window stood
    ctsWindowSize := if rx.packetsToReceive = 0 then rx.ctsWindowSize else rx.packetsToReceive
    packetsToSend := rx.packetsToReceive
    dpoPacketOffset := rx.dpoPacketOffset }

/-- What is known of an open transfer. -/
structure Open (source dest : Address) (pgn : ℕ) (rx : EtpRxFixed N) : Prop where
  source : rx.source = source
  destination : rx.destination = dest
  pgn : rx.pgn = pgn
  window : rx.ctsWindowSize ≤ tpMaxPacketsPerCts
  group : rx.packetsToReceive ≤ rx.ctsWindowSize
  ongoing : rx.packetsToReceive ≠ 0 → rx.lastSequence < rx.packetsToReceive

/-- **The simulation.** The engine keeps the receiver's transfer and
nothing else. -/
structure Mirrors (source dest : Address) (pgn : ℕ) (port : UInt8) (rx : EtpRxFixed N)
    (t : ExtendedTransportProtocol) : Prop where
  sessions : t.sessions = if rx.active then [rx.session port] else []
  room : 0 < t.maxSessions
  cap : t.maxReceiveBytes = min N etpMaxDataLength
  transfer : rx.active = true → rx.Open source dest pgn

/-- What a step has to establish. -/
def Agrees (source dest : Address) (pgn : ℕ) (port : UInt8) (t : ExtendedTransportProtocol)
    (r : EtpRxFixed N × Except Error (EtpRxFixedOutcome N))
    (q : ExtendedTransportProtocol × List Frame) : Prop :=
  r.2.map (fun o => (o.response.toList, o.message.toList.map FixedMessage.delivered)) =
      .ok (q.2, (q.1.onComplete.drop t.onComplete.length).map delivered) ∧
    Mirrors source dest pgn port r.1 q.1

namespace Mirrors

section

variable (h : Mirrors source dest pgn port rx t)
include h

theorem empty (hidle : rx.active = false) : t.sessions = [] := by
  simpa [hidle] using h.sessions

theorem single (hactive : rx.active = true) : t.sessions = [rx.session port] := by
  simpa [hactive] using h.sessions

/-- The transfer ends on both sides. -/
theorem idle (hs : t'.sessions = []) (hm : t'.maxSessions = t.maxSessions)
    (hc : t'.maxReceiveBytes = t.maxReceiveBytes) :
    Mirrors source dest pgn port (new : EtpRxFixed N) t' :=
  ⟨hs, hm ▸ h.room, hc.trans h.cap, nofun⟩

/-- A frame both answer alike, or not at all, and do nothing else about. -/
theorem answered (response : Option Frame) (hs : t'.sessions = t.sessions)
    (hm : t'.maxSessions = t.maxSessions)
    (hc : t'.maxReceiveBytes = t.maxReceiveBytes) (ho : t'.onComplete = t.onComplete) :
    Agrees source dest pgn port t (rx, .ok { response := response }) (t', response.toList) := by
  refine ⟨?_, hs.trans h.sessions, hm ▸ h.room, hc.trans h.cap, h.transfer⟩
  simp [Except.map, ho]

/-- A frame the engine drops. -/
theorem drop : Agrees source dest pgn port t rx.ignore (t.noteDroppedFrame, []) :=
  h.answered none rfl rfl rfl rfl

/-- A frame that ends the transfer on both sides. -/
theorem abort (hactive : rx.active = true) :
    Agrees source dest pgn port t rx.abortBadSequence (t.abortSession 0 .badSequence) := by
  have hsingle := h.single hactive
  simp only [abortSession, sessionAt_single hsingle, removeSession_single hsingle]
  refine ⟨?_, h.idle rfl rfl rfl⟩
  simp [abortBadSequence, EtpRxFixed.answer, Except.map, makeSessionAbort, session]

end

end Mirrors

/-! ## Announcements -/

section

variable (h : Mirrors source dest pgn port rx t)
include h

/-- An RTS while no transfer is open. -/
theorem processRts_agrees (hf : FromPeer source dest pgn f)
    (hcm : f.pgn = pgnEtpCm) (hidle : rx.active = false) :
    Agrees source dest pgn port t (rx.processRts f) (t.handleRts f port) := by
  have hempty := h.empty hidle
  have hcap := h.cap
  by_cases hsize : tpMaxDataLength + 1 ≤ sizeFromCmBytes f.data ∧
      sizeFromCmBytes f.data ≤ etpMaxDataLength
  swap
  · have hprofile : t.receiveProfileForAdvertisedSize (sizeFromCmBytes f.data) =
        .error .unexpectedDataSize := by
      rw [receiveProfileForAdvertisedSize, if_pos hsize]
    simp only [processRts, handleRts, hprofile]
    rw [if_pos hsize]
    exact h.answered (some _) rfl rfl rfl rfl
  simp only [processRts, hidle]
  rw [if_neg (by simpa using hsize)]
  by_cases hbig : N < sizeFromCmBytes f.data
  · -- too big for the storage is too big for the cap
    have hprofile : t.receiveProfileForAdvertisedSize (sizeFromCmBytes f.data) =
        .error .resourcesUnavailable := by
      rw [receiveProfileForAdvertisedSize, if_neg (by simpa using hsize), if_pos (by omega)]
    rw [if_pos hbig]
    simp only [handleRts, hprofile]
    exact h.answered (some _) rfl rfl rfl rfl
  obtain ⟨buf, hbuf, hbytes⟩ := FixedBytes.resize_new (Nat.le_of_not_lt hbig) 0xFF
  -- a transfer this long fills the first window
  have hwindow : min (divCeil (sizeFromCmBytes f.data) tpBytesPerFrame) tpMaxPacketsPerCts % 256 =
      tpMaxPacketsPerCts := by
    have := hsize.1
    simp only [divCeil, tpBytesPerFrame, tpMaxPacketsPerCts, tpMaxDataLength] at this ⊢
    omega
  rw [if_neg hbig, hbuf, handleRts_idle hempty h.room hsize.1 hsize.2 (by omega)]
  simp only [hwindow]
  refine ⟨by simp [EtpRxFixed.answer, Except.map], ?_, h.room, h.cap, fun _ => ?_⟩
  · simp [EtpRxFixed.answer, session, rtsSession, hbytes]
  · exact
      { source := hf.source
        destination := hf.destination
        pgn := hf.target hcm
        window := le_refl _
        group := zero_le _
        ongoing := fun h => absurd rfl h }

/-! ## Control frames about an open transfer -/

/-- The engine finds the receiver's transfer. -/
theorem Mirrors.sessionPosition (hactive : rx.active = true) (hp : p (rx.session port) = true) :
    t.sessionPosition p = some 0 :=
  sessionPosition_single (h.single hactive) hp

/-- The engine finds nothing while no transfer is open. -/
theorem Mirrors.sessionPosition_idle (hidle : rx.active = false) (p : TransportSession → Bool) :
    t.sessionPosition p = none := by
  rw [ExtendedTransportProtocol.sessionPosition, h.empty hidle]
  rfl

end

/-- Inside a group the engine's window is the group, so it takes fewer
packets than the receiver. -/
theorem dpoFits_session_iff (hopen : rx.Open source dest pgn) (n offset : ℕ) :
    Etp.DpoFits (rx.session port) n offset ↔
      rx.DpoFits n offset ∧ (rx.packetsToReceive ≠ 0 → n ≤ rx.packetsToReceive) := by
  have hgroup := hopen.group
  simp only [session]
  split
  next hzero => refine ⟨fun h => ⟨h, fun hne => absurd hzero hne⟩, fun h => h.1⟩
  rename_i hne
  constructor
  · rintro ⟨hpos, hle, hrest, hoff⟩
    exact ⟨⟨hpos, hle.trans hgroup, hrest, hoff⟩, fun _ => hle⟩
  · rintro ⟨⟨hpos, -, hrest, hoff⟩, hle⟩
    exact ⟨hpos, hle hne, hrest, hoff⟩

/-- A DPO for the open transfer, on the engine's side. -/
theorem handleDpo_eq (h : Mirrors source dest pgn port rx t) (hf : FromPeer source dest pgn f)
    (hcm : f.pgn = pgnEtpCm) (hactive : rx.active = true) :
    t.handleDpo f port =
      if Etp.DpoFits (rx.session port) f.data.b1.toNat (packetFromCmBytes f.data) then
        ({ t with sessions :=
            [startGroup (rx.session port) f.data.b1.toNat (packetFromCmBytes f.data)] }, [])
      else t.abortSession 0 .badSequence := by
  have hopen := h.transfer hactive
  have hsingle := h.single hactive
  simp only [handleDpo]
  rw [h.sessionPosition hactive (by simp [session, hopen.source, hopen.destination, hopen.pgn,
    hf.source, hf.destination, hf.target hcm])]
  simp [sessionAt_single hsingle, setSession_single hsingle]

/-- A DPO for the open transfer, on the receiver's side. -/
theorem processDpo_eq (hopen : rx.Open source dest pgn) (hf : FromPeer source dest pgn f)
    (hcm : f.pgn = pgnEtpCm) (hactive : rx.active = true) :
    rx.processDpo f =
      if rx.DpoFits f.data.b1.toNat (packetFromCmBytes f.data) then
        { rx with
          dpoPacketOffset := packetFromCmBytes f.data
          packetsToReceive := f.data.b1.toNat
          lastSequence := 0 }.ignore
      else rx.abortBadSequence := by
  have hmine : ¬(rx.active = false ∨ rx.source ≠ f.source ∨ rx.destination ≠ f.destination ∨
      rx.pgn ≠ pgnFromCmBytes f.data) := by
    simp [hactive, hopen.source, hopen.destination, hopen.pgn, hf.source, hf.destination,
      hf.target hcm]
  simp only [processDpo]
  rw [if_neg hmine]

section

variable (h : Mirrors source dest pgn port rx t)
include h

theorem processDpo_agrees (hf : FromPeer source dest pgn f)
    (hcm : IsCm dpo f) (hregroup : ¬Regroup rx f) :
    Agrees source dest pgn port t (rx.processDpo f) (t.handleDpo f port) := by
  rcases hactive : rx.active with _ | _
  · simp only [processDpo, handleDpo, h.sessionPosition_idle hactive, hactive]
    exact h.drop
  have hopen := h.transfer hactive
  rw [processDpo_eq hopen hf hcm.pgn hactive, handleDpo_eq h hf hcm.pgn hactive]
  by_cases hfits : rx.DpoFits f.data.b1.toNat (packetFromCmBytes f.data)
  · have hsmall : rx.packetsToReceive ≠ 0 → f.data.b1.toNat ≤ rx.packetsToReceive := by
      intro hne
      by_contra hmore
      exact hregroup ⟨hcm, hactive, hne, Nat.lt_of_not_le hmore, hfits.2.1, hfits.2.2.1,
        hfits.2.2.2⟩
    rw [if_pos hfits, if_pos ((dpoFits_session_iff hopen _ _).mpr ⟨hfits, hsmall⟩)]
    obtain ⟨hpos, hle, -⟩ := hfits
    refine ⟨by simp [EtpRxFixed.ignore, Except.map], ?_, h.room, h.cap, fun _ => ?_⟩
    · simp [EtpRxFixed.ignore, hactive, startGroup, session, hpos]
    · exact { hopen with group := hle, ongoing := pos_of_ne_zero }
  · rw [if_neg hfits, if_neg fun hs => hfits ((dpoFits_session_iff hopen _ _).mp hs).1]
    exact h.abort hactive

theorem processAbort_agrees (hf : FromPeer source dest pgn f) (hcm : f.pgn = pgnEtpCm) :
    Agrees source dest pgn port t (rx.processAbort f) (t.handleAbort f port, []) := by
  rcases hactive : rx.active with _ | _
  · simp only [processAbort, handleAbort, h.sessionPosition_idle hactive, hactive]
    exact h.drop
  · have hopen := h.transfer hactive
    have hends : rx.source = f.source ∧ rx.destination = f.destination := by
      rw [hopen.source, hopen.destination, hf.source, hf.destination]
      exact ⟨rfl, rfl⟩
    have hpgn : rx.pgn = pgnFromCmBytes f.data := hopen.pgn.trans (hf.target hcm).symm
    simp only [processAbort, handleAbort]
    rw [if_pos ⟨hactive, hpgn, Or.inl hends⟩,
      h.sessionPosition hactive (by simp [session, hends, hpgn])]
    simp only [removeSession_single (h.single hactive)]
    refine ⟨by simp [EtpRxFixed.ignore, Except.map], ?_⟩
    exact h.idle rfl rfl rfl

/-- The engine keeps no transmit session a frame could be for. -/
theorem sessionPosition_transmit (hp : ∀ s, p s = true → s.direction = .transmit) :
    t.sessionPosition p = none := by
  rw [sessionPosition, List.findIdx?_eq_none_iff]
  intro x hx
  by_contra hpx
  have hdir := hp x (by simpa using hpx)
  rw [h.sessions] at hx
  split at hx
  · rw [List.mem_singleton.mp hx] at hdir
    cases hdir
  · cases hx

theorem processCm_agrees (hf : FromPeer source dest pgn f)
    (hw : WellFormed f) (hcm : f.pgn = pgnEtpCm)
    (hrts : RtsWhileIdle rx f) (hregroup : ¬Regroup rx f) :
    Agrees source dest pgn port t (rx.processCm f) (t.handleCm f port) := by
  simp only [processCm, handleCm]
  by_cases hpgn : pgnIsValid (pgnFromCmBytes f.data) = false
  · rw [if_pos hpgn, if_pos hpgn]
    exact h.drop
  rw [if_neg hpgn, if_neg hpgn]
  by_cases hr : f.data.b0 = rts
  · rw [if_pos hr, if_pos hr]
    exact processRts_agrees h hf hcm (hrts hcm hr)
  rw [if_neg hr, if_neg hr]
  by_cases hd : f.data.b0 = dpo
  · have hc : f.data.b0 ≠ cts := by rw [hd]; decide
    rw [if_pos hd, if_neg hc, if_pos hd]
    exact processDpo_agrees h hf ⟨hw, hcm, hd, by simpa using hpgn⟩ hregroup
  rw [if_neg hd, if_neg hd]
  by_cases ha : f.data.b0 = abort
  · have hc : f.data.b0 ≠ cts := by rw [ha]; decide
    have he : f.data.b0 ≠ eoma := by rw [ha]; decide
    rw [if_pos ha, if_neg hc, if_neg he, if_pos ha]
    exact processAbort_agrees h hf hcm
  rw [if_neg ha]
  by_cases hc : f.data.b0 = cts
  · rw [if_pos hc]
    simp only [handleCts]
    rw [sessionPosition_transmit h (by simp +contextual)]
    exact h.drop
  rw [if_neg hc]
  by_cases he : f.data.b0 = eoma
  · rw [if_pos he]
    simp only [handleEoma]
    rw [sessionPosition_transmit h (by simp +contextual)]
    exact h.drop
  rw [if_neg he, if_neg ha]
  exact h.drop

end

/-! ## Data frames -/

/-- The receiver behind a data frame it took in. -/
def ingested (rx : EtpRxFixed N) (f : Frame) : EtpRxFixed N :=
  { rx with
    data := rx.data.write rx.totalBytes
      ((rx.dpoPacketOffset + f.data.b0.toNat - 1) * tpBytesPerFrame) f.data.tail
    bytesTransferred := min ((rx.dpoPacketOffset + f.data.b0.toNat - 1) * tpBytesPerFrame +
      tpBytesPerFrame) rx.totalBytes
    lastSequence := f.data.b0.toNat }

/-- Taking in a data frame is the same for the receiver and its session. -/
theorem session_ingested :
    ingest (rx.session port) f.data.b0.toNat f.data.tail = (rx.ingested f).session port := rfl

/-- The data frame the group waits for. -/
theorem acceptDt_agrees (h : Mirrors source dest pgn port rx t) (hactive : rx.active = true)
    (hgroup : rx.packetsToReceive ≠ 0) :
    Agrees source dest pgn port t (rx.acceptDt f) (t.acceptDt 0 f.data.b0.toNat f.data.tail) := by
  have hopen := h.transfer hactive
  have hsingle := h.single hactive
  have hmine : rx.acceptDt f =
      if (rx.ingested f).totalBytes ≤ (rx.ingested f).bytesTransferred then _
      else if rx.packetsToReceive ≤ f.data.b0.toNat then _ else (rx.ingested f).ignore := rfl
  rw [hmine]
  by_cases hlast : (rx.ingested f).totalBytes ≤ (rx.ingested f).bytesTransferred
  · -- the last packet
    rw [if_pos hlast, acceptDt_single_last hsingle hlast, session_ingested]
    refine ⟨?_, h.idle rfl rfl rfl⟩
    simp [Except.map, session, ingested, FixedMessage.delivered, delivered]
  rw [if_neg hlast, acceptDt_single_more hsingle hlast, session_ingested]
  have hwindow : ((rx.ingested f).session port).ctsWindowSize = rx.packetsToReceive := if_neg hgroup
  by_cases hend : rx.packetsToReceive ≤ f.data.b0.toNat
  · -- the group is used up
    simp only [if_pos hend, advanceWindow, hwindow]
    refine ⟨by simp [EtpRxFixed.answer, Except.map, session, ingested, tpBytesPerFrame], ?_, h.room,
      h.cap, fun _ => ?_⟩
    · simp [EtpRxFixed.answer, session, ingested, hactive, tpBytesPerFrame]
    · refine { hopen with window := ?_, group := zero_le _, ongoing := fun h => absurd rfl h }
      simp only [EtpRxFixed.answer]
      omega
  · simp only [if_neg hend, advanceWindow, hwindow]
    refine ⟨by simp [EtpRxFixed.ignore, Except.map], ?_, h.room, h.cap, fun _ => ?_⟩
    · simp [EtpRxFixed.ignore, ingested, hactive]
    · exact { hopen with ongoing := fun _ => Nat.lt_of_not_le hend }

theorem processDt_agrees (h : Mirrors source dest pgn port rx t) (hf : FromPeer source dest pgn f) :
    Agrees source dest pgn port t (rx.processDt f) (t.handleDt f port) := by
  rcases hactive : rx.active with _ | _
  · simp only [processDt, handleDt, h.sessionPosition_idle hactive, hactive]
    exact h.drop
  have hopen := h.transfer hactive
  have hsrc : f.source = rx.source := hf.source.trans hopen.source.symm
  have hdst : f.destination = rx.destination := hf.destination.trans hopen.destination.symm
  simp only [processDt, handleDt]
  rw [h.sessionPosition hactive (by simp [session, hsrc, hdst]),
    if_neg (by simp [hactive, hsrc, hdst])]
  have hsend : (rx.session port).packetsToSend = rx.packetsToReceive := rfl
  simp only [sessionAt_single (h.single hactive), hsend]
  by_cases hgroup : rx.packetsToReceive = 0
  · -- data ahead of a DPO
    rw [if_pos hgroup, if_pos hgroup]
    exact h.abort hactive
  have hlast : satAdd8 rx.lastSequence 1 = rx.lastSequence + 1 := by
    have hwindow := hopen.window
    have hle := hopen.group
    have hlt := hopen.ongoing hgroup
    rw [tpMaxPacketsPerCts] at hwindow
    rw [satAdd8]
    omega
  have hlast' : (rx.session port).lastSequence = rx.lastSequence := rfl
  rw [if_neg hgroup, if_neg hgroup, hlast, hlast']
  by_cases hseq : f.data.b0.toNat = rx.lastSequence + 1
  · rw [if_neg (by omega), if_neg (by omega)]
    exact acceptDt_agrees h hactive hgroup
  · rw [if_pos (Or.inr hseq), if_pos hseq]
    exact h.abort hactive

/-! ## Whole sequences -/

/-- **One frame** the two agree on. -/
theorem receive_agrees (hf : FromPeer source dest pgn f) (hrts : RtsWhileIdle rx f)
    (h : Mirrors source dest pgn port rx t) (hregroup : ¬Regroup rx f) :
    (rx.receive f).2 = (t.receive port f).2 ∧
      Mirrors source dest pgn port (rx.receive f).1 (t.receive port f).1 := by
  show Agrees source dest pgn port t (rx.processFrame f) (t.processFrame f port)
  unfold processFrame ExtendedTransportProtocol.processFrame
  split
  · exact h.drop
  rename_i hlong
  split
  · exact h.drop
  rename_i hends
  split
  next hcm =>
    refine processCm_agrees h hf ⟨?_, ?_, ?_⟩ hcm hrts hregroup
    · exact Nat.le_of_not_lt fun hs => hlong ⟨.inl hcm, hs⟩
    · by_contra hs
      exact hends ⟨.inl hcm, .inl (by simpa using hs)⟩
    · by_contra hs
      exact hends ⟨.inl hcm, .inr (by simpa using hs)⟩
  · split
    · exact processDt_agrees h hf
    · exact h.answered none rfl rfl rfl rfl

/-- **One frame** they part at: the receiver says nothing, the engine
aborts. -/
theorem receive_parts (hf : FromPeer source dest pgn f) (h : Mirrors source dest pgn port rx t)
    (hregroup : Regroup rx f) : (rx.receive f).2 ≠ (t.receive port f).2 := by
  obtain ⟨hcm, hactive, hgroup, hmore, hwindow, hrest, hoff⟩ := hregroup
  have hopen := h.transfer hactive
  have hlen := hcm.length
  have hdpo : f.data.b0 ≠ rts := by rw [hcm.control]; decide
  have hprocess : rx.processFrame f = rx.processDpo f := by
    rw [processFrame, if_neg (by omega), if_neg (by simp [hcm.source, hcm.destination]),
      if_pos hcm.pgn, processCm, if_neg (by simp [hcm.target]), if_neg hdpo, if_pos hcm.control]
  have hfits : rx.DpoFits f.data.b1.toNat (packetFromCmBytes f.data) :=
    ⟨by omega, hwindow, hrest, hoff⟩
  have hnofit : ¬Etp.DpoFits (rx.session port) f.data.b1.toNat (packetFromCmBytes f.data) := by
    intro hs
    have := ((dpoFits_session_iff hopen _ _).mp hs).2 hgroup
    omega
  simp only [receive, ExtendedTransportProtocol.receive, hprocess,
    processFrame_dpo hcm, processDpo_eq hopen hf hcm.pgn hactive,
    handleDpo_eq h hf hcm.pgn hactive, if_pos hfits, if_neg hnofit]
  simp [EtpRxFixed.ignore, Except.map, abortSession]

/-- **Where the fixed receiver refines the engine.** Fed any frames of one
peer to one address about one PGN, an RTS only while no transfer is open,
the fixed receiver of any capacity and a fresh engine with that receive cap
give the same answers and deliver the same messages exactly if no group is
replaced by a larger one before it is used up. -/
theorem etp_rxFixed_refines_iff (N : ℕ) (source dest : Address) (pgn : ℕ) (port : UInt8)
    (fs : List Frame) (hfs : ∀ f ∈ fs, FromPeer source dest pgn f)
    (hrts : Along step RtsWhileIdle (new : EtpRxFixed N) fs) :
    outputs receive (new : EtpRxFixed N) fs =
        outputs (ExtendedTransportProtocol.receive port)
          (ExtendedTransportProtocol.withMaxReceiveBytes N) fs ↔
      Along step (fun rx f => ¬Regroup rx f) (new : EtpRxFixed N) fs := by
  have hstart : Mirrors source dest pgn port (new : EtpRxFixed N) (.withMaxReceiveBytes N) :=
    { sessions := rfl
      room := zero_lt_succ 15
      cap := rfl
      transfer := nofun }
  have hidle : Along (moves receive) RtsWhileIdle (new : EtpRxFixed N) fs := hrts
  refine outputs_eq_iff_along ?_ ?_ hstart hfs hidle
  · intro rx t f hf hrts h hregroup
    exact receive_agrees hf hrts h hregroup
  · intro rx t f hf _ h hregroup
    exact receive_parts hf h (not_not.mp hregroup)

/-- Two thousand bytes from `0x10` to `0x20` are announced, and a group of
three packets is begun. -/
def groupBegun : List Frame :=
  [makeRtsFields 0xFECA 2000 0x10 0x20, makeDpoFields 0xFECA 0x10 0x20 3 0,
    makeDt 0x10 0x20 1 [1, 2, 3, 4, 5, 6, 7]]

theorem etp_rxFixed_refines_groupBegun :
    outputs receive (new : EtpRxFixed 2000) groupBegun =
      outputs (ExtendedTransportProtocol.receive 0)
        (ExtendedTransportProtocol.withMaxReceiveBytes 2000) groupBegun :=
  (etp_rxFixed_refines_iff 2000 0x10 0x20 0xFECA 0 groupBegun (by decide)
    ⟨by decide, by decide, by decide, trivial⟩).mpr ⟨by decide, by decide, by decide, trivial⟩

/-- **A larger group in its place.** After a DPO for three packets comes
one for ten, within the sixteen that were granted. The receiver takes it
and the engine aborts the transfer. -/
theorem larger_group_parts_them :
    outputs receive (new : EtpRxFixed 2000)
        [makeRtsFields 0xFECA 2000 0x10 0x20, makeDpoFields 0xFECA 0x10 0x20 3 0,
          makeDpoFields 0xFECA 0x10 0x20 10 0] =
        [.ok ([makeCts 0x20 0x10 16 1 0xFECA], []), .ok ([], []), .ok ([], [])] ∧
      outputs (ExtendedTransportProtocol.receive 0)
        (withMaxReceiveBytes 2000)
        [makeRtsFields 0xFECA 2000 0x10 0x20, makeDpoFields 0xFECA 0x10 0x20 3 0,
          makeDpoFields 0xFECA 0x10 0x20 10 0] =
        [.ok ([makeCts 0x20 0x10 16 1 0xFECA], []), .ok ([], []),
          .ok ([makeAbort 0x20 0x10 0xFECA .badSequence], [])] := by
  decide

end EtpRxFixed

end Machbus
