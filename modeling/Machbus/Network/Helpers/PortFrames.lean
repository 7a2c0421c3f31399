import Machbus.Network.Helpers.PortView
/-!
# Helpers — a frame and the views of the ports

What the network layer does with a frame does not show on other ports, and
is the same wherever the frame's own port sees the same: the same branches
are taken, the same messages are dispatched, and equal views stay equal.
-/

namespace Machbus.IsoNet

open FastPacket SessionEngine List Session FastPacketProtocol

variable {L : Type} [CanEndpoint L] {net net' : IsoNet L} {o o' : Key → UInt8} {p q : UInt8}
  {done : List TransportSession} {f : Frame} {s : TransportSession}

/-! ## Completed messages -/

/-- The message of a completed session. -/
def completionMessage (s : TransportSession) : Message where
  pgn := s.pgn
  data := s.data
  source := s.sourceAddress
  destination := s.destinationAddress
  priority := s.priority
  timestampUs := 0

omit [CanEndpoint L] in
@[simp] theorem view_dispatchMessage (msg : Message) :
    (net.dispatchMessage msg).view o p = net.view o p := rfl

theorem dispatchCompletion_of_transmit (h : s.direction = .transmit) :
    net.dispatchCompletion s = net := by
  rw [dispatchCompletion, if_pos (by simp [h])]

theorem dispatchCompletion_of_receive (h : s.direction = .receive) :
    net.dispatchCompletion s = (net.handleCommandedAddressMessage (completionMessage s)
      s.canPort).dispatchMessage (completionMessage s) := by
  rw [dispatchCompletion, if_neg (by simp [h])]
  rfl

/-- Dispatching completions one by one. -/
def dispatchAll (net : IsoNet L) (done : List TransportSession) : IsoNet L :=
  done.foldl dispatchCompletion net

/-- Only what was received is dispatched. -/
theorem dispatchAll_filter (net : IsoNet L) (done : List TransportSession) :
    net.dispatchAll (done.filter (·.direction == .receive)) = net.dispatchAll done := by
  induction done generalizing net with
  | nil => rfl
  | cons s done ih =>
    cases hdir : s.direction with
    | transmit =>
      rw [filter_cons_of_neg (by simp [hdir]), ih]
      show _ = (net.dispatchCompletion s).dispatchAll done
      rw [dispatchCompletion_of_transmit hdir]
    | receive =>
      rw [filter_cons_of_pos (by simp [hdir])]
      exact ih (net.dispatchCompletion s)

/-- **What a dispatch adds to the mail**, and what it leaves alone. -/
theorem dispatchAll_mail (net : IsoNet L) (done : List TransportSession) :
    (net.dispatchAll done).mail =
        { net.mail with
          onMessage := net.onMessage ++
            (done.filter (·.direction == .receive)).map completionMessage } ∧
      (net.dispatchAll done).fastPacket = net.fastPacket := by
  rw [← dispatchAll_filter]
  have hall : ∀ s ∈ done.filter (·.direction == .receive), s.direction = .receive :=
    fun s hs => by simpa using (mem_filter.mp hs).2
  generalize done.filter (·.direction == .receive) = rx at hall ⊢
  induction rx generalizing net with
  | nil =>
    rw [map_nil, append_nil]
    exact ⟨rfl, rfl⟩
  | cons s rx ih =>
    have htouch := net.touches_handleCommanded (completionMessage s) s.canPort
    have hmail := htouch.mail_eq
    have hfast := htouch.fastPacket_eq
    have hone := net.dispatchCompletion_of_receive (hall s mem_cons_self)
    obtain ⟨hmore, hkept⟩ := ih (net.dispatchCompletion s) fun x hx => hall x (mem_cons_of_mem s hx)
    have hsplit : net.dispatchAll (s :: rx) = (net.dispatchCompletion s).dispatchAll rx := rfl
    rw [hsplit, hmore, hkept, hone]
    generalize net.handleCommandedAddressMessage (completionMessage s) s.canPort = net₁
      at hmail hfast ⊢
    refine ⟨?_, hfast⟩
    have hmessages : net₁.onMessage = net.onMessage := onMessage_of_mail hmail
    have htp : net₁.tpCompletions = net.tpCompletions := congrArg Mail.tpCompletions hmail
    have hetp : net₁.etpCompletions = net.etpCompletions := congrArg Mail.etpCompletions hmail
    simp [mail, dispatchMessage, hmessages, htp, hetp]

/-- Messages of another port show nowhere on this one. -/
theorem view_dispatchAll_of_ne (hq : q ≠ p)
    (hport : ∀ s ∈ done, s.canPort = q) : (net.dispatchAll done).view o p = net.view o p := by
  induction done generalizing net with
  | nil => rfl
  | cons s done ih =>
    have hsplit : net.dispatchAll (s :: done) = (net.dispatchCompletion s).dispatchAll done := rfl
    rw [hsplit, ih fun x hx => hport x (mem_cons_of_mem s hx)]
    cases hdir : s.direction with
    | transmit => rw [dispatchCompletion_of_transmit hdir]
    | receive =>
      rw [dispatchCompletion_of_receive hdir, view_dispatchMessage, hport s mem_cons_self]
      exact (net.touches_handleCommanded _ q).view_of_ne hq

/-- The same messages of the port do the same to equal views, and are
dispatched alike. -/
theorem dispatchAll_same (h : net.view o p = net'.view o' p) {done done' : List TransportSession}
    (hsame : done.filter (·.direction == .receive) = done'.filter (·.direction == .receive))
    (hport : ∀ s ∈ done, s.canPort = p) :
    (net.dispatchAll done).view o p = (net'.dispatchAll done').view o' p ∧
      ∃ msgs, (net.dispatchAll done).onMessage = net.onMessage ++ msgs ∧
        (net'.dispatchAll done').onMessage = net'.onMessage ++ msgs := by
  refine ⟨?_, (done.filter (·.direction == .receive)).map completionMessage, ?_, ?_⟩
  · rw [← dispatchAll_filter, ← net'.dispatchAll_filter, ← hsame]
    have hall : ∀ s ∈ done.filter (·.direction == .receive),
        s.direction = .receive ∧ s.canPort = p := fun s hs =>
      ⟨by simpa using (mem_filter.mp hs).2, hport s (mem_filter.mp hs).1⟩
    generalize done.filter (·.direction == .receive) = rx at hall ⊢
    induction rx generalizing net net' with
    | nil => exact h
    | cons s rx ih =>
      obtain ⟨hdir, hs⟩ := hall s mem_cons_self
      refine ih ?_ fun x hx => hall x (mem_cons_of_mem s hx)
      rw [dispatchCompletion_of_receive hdir, dispatchCompletion_of_receive hdir,
        view_dispatchMessage, hs]
      exact view_handleCommanded h _
  · exact congrArg Mail.onMessage (dispatchAll_mail _ done).1
  · rw [hsame]
    exact congrArg Mail.onMessage (dispatchAll_mail _ done').1

/-! ## A transport frame -/

/-- Nothing waits to be dispatched. -/
structure Idle (net : IsoNet L) : Prop where
  tp : net.tpCompletions = []
  etp : net.etpCompletions = []

omit [CanEndpoint L] in
/-- Taking everything out leaves it so. -/
theorem Idle.cleared (h : net.Idle) :
    ({ net with tpCompletions := [], etpCompletions := [] } : IsoNet L) = net := by
  obtain ⟨htp, hetp⟩ := h
  cases net
  subst htp hetp
  rfl

/-- The frames of an engine are sent and what it has completed is
dispatched. -/
theorem drain_sent {net₁ : IsoNet L}
    (hclear : ({ net with tpCompletions := [], etpCompletions := [] } : IsoNet L) = net₁)
    (hdone : net.tpCompletions ++ net.etpCompletions = done) (frames : List Frame) (q : UInt8) :
    ∃ w, (net.sendFramesBestEffort frames q).drainTransportCompletions =
      (net₁.setWire w).dispatchAll done := by
  obtain ⟨w, hw⟩ := net.sendFramesBestEffort_eq frames q
  refine ⟨w, ?_⟩
  rw [hw, ← hclear, ← hdone]
  rfl

/-- A TP frame, as what it does to the engine and what it completes. -/
theorem processTransport_tp (hidle : net.Idle) {frame : Frame}
    (hpgn : frame.pgn = pgnTpCm ∨ frame.pgn = pgnTpDt)
    (hdone : (net.tp.processFrame frame q).1.onComplete = net.tp.onComplete ++ done) :
    ∃ w, net.processTransport frame q =
      (({ net with tp := (net.tp.processFrame frame q).1 } : IsoNet L).setWire w).dispatchAll
        done := by
  rw [processTransport, if_pos hpgn]
  generalize net.tp.processFrame frame q = r at hdone ⊢
  refine drain_sent (congrArg (fun n : IsoNet L => { n with tp := r.1 }) hidle.cleared) ?_ r.2 q
  simp [setTp, hidle.tp, hidle.etp, hdone]

/-- The same for an ETP frame. -/
theorem processTransport_etp (hidle : net.Idle) {frame : Frame}
    (hnot : ¬(frame.pgn = pgnTpCm ∨ frame.pgn = pgnTpDt))
    (hpgn : frame.pgn = pgnEtpCm ∨ frame.pgn = pgnEtpDt)
    (hdone : (net.etp.processFrame frame q).1.onComplete = net.etp.onComplete ++ done) :
    ∃ w, net.processTransport frame q =
      (({ net with etp := (net.etp.processFrame frame q).1 } : IsoNet L).setWire w).dispatchAll
        done := by
  rw [processTransport, if_neg hnot, if_pos hpgn]
  generalize net.etp.processFrame frame q = r at hdone ⊢
  refine drain_sent (congrArg (fun n : IsoNet L => { n with etp := r.1 }) hidle.cleared) ?_ r.2 q
  simp [setEtp, hidle.tp, hidle.etp, hdone]

/-- **No cap is reached**: each of the three tables has a free slot. -/
@[mk_iff] structure BelowCaps (net : IsoNet L) : Prop where
  tp : net.tp.sessions.length < net.tp.maxSessions
  etp : net.etp.sessions.length < net.etp.maxSessions
  fast : net.fastPacket.rxSessions.length < net.fastPacket.maxRxSessions

/-- **At most one session is meant** by a transport frame. -/
@[mk_iff] structure FindsOne (net : IsoNet L) (f : Frame) (p : UInt8) : Prop where
  tp : f.pgn = pgnTpCm ∨ f.pgn = pgnTpDt →
    (net.tp.sessions.filter (TransportProtocol.mayFind f p)).length ≤ 1
  etp : f.pgn = pgnEtpCm ∨ f.pgn = pgnEtpDt →
    (net.etp.sessions.filter (ExtendedTransportProtocol.mayFind f p)).length ≤ 1

instance (net : IsoNet L) : Decidable net.BelowCaps :=
  decidable_of_iff' _ (belowCaps_iff net)

instance (net : IsoNet L) (f : Frame) (p : UInt8) : Decidable (net.FindsOne f p) :=
  decidable_of_iff' _ (findsOne_iff net f p)

section

omit [CanEndpoint L]

/-- Recording where a frame came from shows nowhere. -/
theorem view_record (hown : net.fastPacket.Owns o f q) :
    net.view (Function.update o (frameKey f) q) p = net.view o p := by
  show ({ net.view o p with
    fast := net.fastPacket.heardOn (Function.update o (frameKey f) q) p } : PortView) = _
  rw [heardOn_record hown]
  rfl

theorem view_setFastPacket (fastPacket : FastPacketProtocol) :
    (net.setFastPacket fastPacket).view o p =
      { net.view o p with fast := fastPacket.heardOn o p } := rfl

end

/-- A transport frame of another port. -/
theorem view_processTransport_of_ne (hq : q ≠ p) (hidle : net.Idle) (hcaps : net.BelowCaps)
    (hown : net.fastPacket.Owns o f q) :
    (net.processTransport f q).view (Function.update o (frameKey f) q) p = net.view o p := by
  rw [← view_record hown]
  by_cases htp : f.pgn = pgnTpCm ∨ f.pgn = pgnTpDt
  · obtain ⟨done, hdone, hport⟩ := (net.tp.processFrame_step f q).tableStep.completed
    obtain ⟨w, heq⟩ := processTransport_tp hidle htp hdone
    rw [heq, view_dispatchAll_of_ne hq hport]
    exact congrArg (fun v => { net.view _ p with tp := v }) (heardOn_processFrame_of_ne hq hcaps.tp)
  by_cases hetp : f.pgn = pgnEtpCm ∨ f.pgn = pgnEtpDt
  · obtain ⟨done, hdone, hport⟩ := (net.etp.processFrame_step f q).tableStep.completed
    obtain ⟨w, heq⟩ := processTransport_etp hidle htp hetp hdone
    rw [heq, view_dispatchAll_of_ne hq hport]
    exact congrArg (fun v => { net.view _ p with etp := v })
      (heardOn_processFrame_of_ne hq hcaps.etp)
  rw [processTransport, if_neg htp, if_neg hetp]
  split
  · have hfast : (net.setFastPacket (net.fastPacket.processFrame f).1).view
        (Function.update o (frameKey f) q) p = net.view (Function.update o (frameKey f) q) p := by
      rw [view_setFastPacket, heardOn_processFrame_of_ne hq hcaps.fast hown, ← heardOn_record hown]
      rfl
    dsimp only
    split <;> exact hfast
  · rfl

/-- Nothing is left behind, and the fast packets keep distinct keys. -/
theorem processTransport_kept (hidle : net.Idle)
    (hn : KeyNodup (fun _ => true) key net.fastPacket.rxSessions) (f : Frame)
    (q : UInt8) : (net.processTransport f q).Idle ∧
      KeyNodup (fun _ => true) key (net.processTransport f q).fastPacket.rxSessions := by
  have hafter : ∀ (n : IsoNet L) (done : List TransportSession), n.Idle →
      n.fastPacket = net.fastPacket → (n.dispatchAll done).Idle ∧
        KeyNodup (fun _ => true) key (n.dispatchAll done).fastPacket.rxSessions := by
    intro n done hidle hfast
    obtain ⟨hmail, hkept⟩ := n.dispatchAll_mail done
    refine ⟨⟨?_, ?_⟩, ?_⟩
    · exact (congrArg Mail.tpCompletions hmail).trans hidle.tp
    · exact (congrArg Mail.etpCompletions hmail).trans hidle.etp
    · rw [hkept, hfast]
      exact hn
  by_cases htp : f.pgn = pgnTpCm ∨ f.pgn = pgnTpDt
  · obtain ⟨done, hdone, -⟩ := (net.tp.processFrame_step f q).tableStep.completed
    obtain ⟨w, heq⟩ := processTransport_tp hidle htp hdone
    rw [heq]
    exact hafter _ done ⟨hidle.tp, hidle.etp⟩ rfl
  by_cases hetp : f.pgn = pgnEtpCm ∨ f.pgn = pgnEtpDt
  · obtain ⟨done, hdone, -⟩ := (net.etp.processFrame_step f q).tableStep.completed
    obtain ⟨w, heq⟩ := processTransport_etp hidle htp hetp hdone
    rw [heq]
    exact hafter _ done ⟨hidle.tp, hidle.etp⟩ rfl
  rw [processTransport, if_neg htp, if_neg hetp]
  split
  · have hkeys := (net.fastPacket.processFrameSession_step f).keyNodup hn
    dsimp only
    split <;> exact ⟨⟨hidle.tp, hidle.etp⟩, hkeys⟩
  · exact ⟨⟨hidle.tp, hidle.etp⟩, hn⟩

/-! ## A frame -/

section

variable (net : IsoNet L)

/-- One frame more has been received. -/
def counted : IsoNet L :=
  { net with stats := { net.stats with framesReceived := net.stats.framesReceived + 1 } }

/-- A frame that is not a claim: a request for one is answered, with which
it is done. -/
def answered (f : Frame) (q : UInt8) : IsoNet L × Bool :=
  if f.pgn = pgnRequest then net.counted.handleRequestForAddressClaim f q else (net.counted, false)

/-- The state in which such a frame reaches the transports. -/
def screened (f : Frame) (q : UInt8) : IsoNet L :=
  (net.answered f q).1.checkAddressViolation f q

/-- Transport traffic between other nodes. -/
def Foreign (f : Frame) (q : UInt8) : Prop :=
  (f.pgn = pgnTpCm ∨ f.pgn = pgnTpDt ∨ f.pgn = pgnEtpCm ∨ f.pgn = pgnEtpDt) ∧
    net.isAddressedToUs f q = false
  deriving Decidable

end

/-- The message of a claim. -/
def claimMessage (f : Frame) : Message where
  pgn := f.pgn
  data := f.payload
  source := f.source
  destination := f.destination
  priority := f.priority
  timestampUs := 0

theorem processFrame_eq (net : IsoNet L) (f : Frame) (q : UInt8) : net.processFrame f q =
      if f.pgn = pgnAddressClaimed then
        (net.counted.handleAddressClaim f q).dispatchMessage (claimMessage f)
      else if (net.answered f q).2 = true then (net.answered f q).1
      else if (net.screened f q).Foreign f q then net.screened f q
      else (net.screened f q).processTransport f q :=
  rfl

omit [CanEndpoint L] in
theorem touches_counted (net : IsoNet L) (q : UInt8) : Touches q net net.counted :=
  .wire net ⟨_, net.endpoints, net.outbound⟩

section

variable (net : IsoNet L) (f : Frame) (q : UInt8)

theorem touches_answered : Touches q net (net.answered f q).1 := by
  unfold answered
  split
  · exact (net.touches_counted q).trans (net.counted.touches_handleRequest f q)
  · exact net.touches_counted q

theorem touches_screened : Touches q net (net.screened f q) :=
  (net.touches_answered f q).trans (touches_checkAddressViolation _ f q)

/-- Up to there the two engines have not been asked. -/
theorem engines_screened : (net.screened f q).tp = net.tp ∧ (net.screened f q).etp = net.etp := by
  have hsend : ∀ (n : IsoNet L) (fs : List Frame) (port : UInt8),
      (n.sendFramesBestEffort fs port).tp = n.tp ∧
        (n.sendFramesBestEffort fs port).etp = n.etp := by
    intro n fs port
    obtain ⟨w, hw⟩ := n.sendFramesBestEffort_eq fs port
    rw [hw]
    exact ⟨rfl, rfl⟩
  have hanswered : (net.answered f q).1.tp = net.tp ∧ (net.answered f q).1.etp = net.etp := by
    unfold answered handleRequestForAddressClaim
    split
    · split
      · exact ⟨rfl, rfl⟩
      split
      · exact ⟨rfl, rfl⟩
      · exact hsend _ _ _
    · exact ⟨rfl, rfl⟩
  rw [← hanswered.1, ← hanswered.2]
  unfold screened checkAddressViolation
  dsimp only
  split
  · exact ⟨rfl, rfl⟩
  split
  · exact ⟨rfl, rfl⟩
  split
  · exact hsend _ _ _
  · exact ⟨rfl, rfl⟩

end

omit [CanEndpoint L] in
theorem Touches.idle (h : Touches q net net') (hidle : net.Idle) : net'.Idle :=
  ⟨(congrArg Mail.tpCompletions h.mail_eq).trans hidle.tp,
    (congrArg Mail.etpCompletions h.mail_eq).trans hidle.etp⟩

theorem BelowCaps.screened (h : net.BelowCaps) (f : Frame) (q : UInt8) :
    (net.screened f q).BelowCaps := by
  obtain ⟨htp, hetp⟩ := net.engines_screened f q
  have hfast := (net.touches_screened f q).fastPacket_eq
  exact ⟨by rw [htp]; exact h.tp, by rw [hetp]; exact h.etp, by rw [hfast]; exact h.fast⟩

theorem FindsOne.screened (h : net.FindsOne f p) : (net.screened f p).FindsOne f p := by
  obtain ⟨htp, hetp⟩ := net.engines_screened f p
  exact ⟨by rw [htp]; exact h.tp, by rw [hetp]; exact h.etp⟩

/-- **A frame of another port shows nowhere.** -/
theorem view_processFrame_of_ne (hq : q ≠ p) (hidle : net.Idle) (hcaps : net.BelowCaps)
    (hown : net.fastPacket.Owns o f q) :
    (net.processFrame f q).view (Function.update o (frameKey f) q) p = net.view o p := by
  have htouched : ∀ {n : IsoNet L}, Touches q net n →
      n.view (Function.update o (frameKey f) q) p = net.view o p := by
    intro n hn
    rw [hn.view_of_ne hq, view_record hown]
  rw [processFrame_eq]
  split
  · rw [view_dispatchMessage]
    exact htouched ((net.touches_counted q).trans (net.counted.touches_handleAddressClaim f q))
  split
  · exact htouched (net.touches_answered f q)
  split
  · exact htouched (net.touches_screened f q)
  have hscreened := net.touches_screened f q
  have hown' : (net.screened f q).fastPacket.Owns o f q := by
    rw [hscreened.fastPacket_eq]
    exact hown
  rw [view_processTransport_of_ne hq (hscreened.idle hidle) (hcaps.screened f q) hown']
  exact hscreened.view_of_ne hq

theorem view_answered (h : net.view o p = net'.view o' p) (f : Frame) :
    (net.answered f p).1.view o p = (net'.answered f p).1.view o' p ∧
      (net.answered f p).2 = (net'.answered f p).2 := by
  have hcounted : net.counted.view o p = net'.counted.view o' p := h
  unfold answered
  split
  · exact view_handleRequest hcounted f
  · exact ⟨hcounted, rfl⟩

section

variable (h : net.view o p = net'.view o' p) (hidle : net.Idle) (hidle' : net'.Idle)
  (hcaps : net.BelowCaps) (hcaps' : net'.BelowCaps)
  (hn : KeyNodup (fun _ => true) key net.fastPacket.rxSessions)
  (hown : net.fastPacket.Owns o f p) (hown' : net'.fastPacket.Owns o' f p)
  (hone : net.FindsOne f p) (hone' : net'.FindsOne f p)
include h hidle hidle' hcaps hcaps' hn hown hown' hone hone'

/-- **A transport frame of the port** does the same to equal views and
dispatches the same messages. -/
theorem view_processTransport :
    (net.processTransport f p).view (Function.update o (frameKey f) p) p =
        (net'.processTransport f p).view (Function.update o' (frameKey f) p) p ∧
      ∃ msgs, (net.processTransport f p).onMessage = net.onMessage ++ msgs ∧
        (net'.processTransport f p).onMessage = net'.onMessage ++ msgs := by
  have hrecord : net.view (Function.update o (frameKey f) p) p =
      net'.view (Function.update o' (frameKey f) p) p := by
    rw [view_record hown, view_record hown', h]
  by_cases htp : f.pgn = pgnTpCm ∨ f.pgn = pgnTpDt
  · obtain ⟨hview, done, done', hdone, hdone', hsame⟩ :=
      heardOn_processFrame (congrArg PortView.tp h) hcaps.tp hcaps'.tp (hone.tp htp) (hone'.tp htp)
    obtain ⟨d, hd, hport⟩ := (net.tp.processFrame_step f p).tableStep.completed
    obtain rfl : d = done := append_cancel_left (hd.symm.trans hdone)
    obtain ⟨w, heq⟩ := processTransport_tp hidle htp hdone
    obtain ⟨w', heq'⟩ := processTransport_tp hidle' htp hdone'
    rw [heq, heq']
    exact dispatchAll_same
      (congrArg₂ (fun (v : PortView) tp => { v with tp := tp }) hrecord hview) hsame hport
  by_cases hetp : f.pgn = pgnEtpCm ∨ f.pgn = pgnEtpDt
  · obtain ⟨hview, done, done', hdone, hdone', hsame⟩ :=
      heardOn_processFrame (congrArg PortView.etp h) hcaps.etp
        hcaps'.etp (hone.etp hetp) (hone'.etp hetp)
    obtain ⟨d, hd, hport⟩ := (net.etp.processFrame_step f p).tableStep.completed
    obtain rfl : d = done := append_cancel_left (hd.symm.trans hdone)
    obtain ⟨w, heq⟩ := processTransport_etp hidle htp hetp hdone
    obtain ⟨w', heq'⟩ := processTransport_etp hidle' htp hetp hdone'
    rw [heq, heq']
    exact dispatchAll_same
      (congrArg₂ (fun (v : PortView) etp => { v with etp := etp }) hrecord hview) hsame hport
  have hregistered : net.isFastPacketPgn f.pgn = net'.isFastPacketPgn f.pgn := by
    have hconfig : net.config = net'.config := congrArg PortView.config h
    have hpgns : net.fastPacketPgns = net'.fastPacketPgns := congrArg PortView.fastPacketPgns h
    rw [isFastPacketPgn, isFastPacketPgn, hconfig, hpgns]
  simp only [processTransport, if_neg htp, if_neg hetp, hregistered]
  split
  · obtain ⟨hview, hmsg⟩ := heardOn_processFrame (congrArg PortView.fast h) hn
      hcaps.fast hcaps'.fast hown hown'
    have hfast : (net.setFastPacket (net.fastPacket.processFrame f).1).view
          (Function.update o (frameKey f) p) p =
        (net'.setFastPacket (net'.fastPacket.processFrame f).1).view
          (Function.update o' (frameKey f) p) p := by
      rw [view_setFastPacket, view_setFastPacket, hview, hrecord]
    rw [hmsg]
    rcases (net'.fastPacket.processFrame f).2 with _ | msg
    · exact ⟨hfast, [], (append_nil _).symm, (append_nil _).symm⟩
    · exact ⟨hfast, [msg], rfl, rfl⟩
  · exact ⟨hrecord, [_], rfl, rfl⟩

/-- **A frame of the port** does the same to equal views and dispatches the
same messages. -/
theorem view_processFrame : (net.processFrame f p).view (Function.update o (frameKey f) p) p =
        (net'.processFrame f p).view (Function.update o' (frameKey f) p) p ∧
      ∃ msgs, (net.processFrame f p).onMessage = net.onMessage ++ msgs ∧
        (net'.processFrame f p).onMessage = net'.onMessage ++ msgs := by
  have hrecord : ∀ {n n' : IsoNet L}, Touches p net n → Touches p net' n' →
      n.view o p = n'.view o' p → n.view (Function.update o (frameKey f) p) p =
        n'.view (Function.update o' (frameKey f) p) p := by
    intro n n' ht ht' hview
    rw [view_record (ht.fastPacket_eq ▸ hown), view_record (ht'.fastPacket_eq ▸ hown'), hview]
  have hquiet : ∀ {n n' : IsoNet L}, Touches p net n → Touches p net' n' →
      ∃ msgs, n.onMessage = net.onMessage ++ msgs ∧ n'.onMessage = net'.onMessage ++ msgs := by
    intro n n' ht ht'
    refine ⟨[], ?_, ?_⟩
    · rw [append_nil]
      exact onMessage_of_mail ht.mail_eq
    · rw [append_nil]
      exact onMessage_of_mail ht'.mail_eq
  have hcounted : net.counted.view o p = net'.counted.view o' p := h
  obtain ⟨hanswered, hdone⟩ := view_answered h f
  have hscreened : (net.screened f p).view o p = (net'.screened f p).view o' p :=
    view_checkAddressViolation hanswered f
  have hforeign : (net.screened f p).Foreign f p ↔ (net'.screened f p).Foreign f p := by
    rw [Foreign, Foreign, isAddressedToUs_congr hscreened]
  have ht := net.touches_screened f p
  have ht' := net'.touches_screened f p
  rw [processFrame_eq, processFrame_eq, hdone]
  simp only [hforeign]
  split
  · have htouch := (net.touches_counted p).trans (net.counted.touches_handleAddressClaim f p)
    have htouch' := (net'.touches_counted p).trans (net'.counted.touches_handleAddressClaim f p)
    have hview := hrecord htouch htouch' (view_handleAddressClaim hcounted f)
    refine ⟨hview, [claimMessage f], ?_, ?_⟩
    · exact congrArg (· ++ [claimMessage f]) (onMessage_of_mail htouch.mail_eq)
    · exact congrArg (· ++ [claimMessage f]) (onMessage_of_mail htouch'.mail_eq)
  split
  · exact ⟨hrecord (net.touches_answered f p) (net'.touches_answered f p) hanswered,
      hquiet (net.touches_answered f p) (net'.touches_answered f p)⟩
  split
  · exact ⟨hrecord ht ht' hscreened, hquiet ht ht'⟩
  obtain ⟨hview, msgs, hmsgs, hmsgs'⟩ := view_processTransport hscreened (ht.idle hidle)
    (ht'.idle hidle') (hcaps.screened f p) (hcaps'.screened f p)
    (by rw [ht.fastPacket_eq]; exact hn) (by rw [ht.fastPacket_eq]; exact hown)
    (by rw [ht'.fastPacket_eq]; exact hown') hone.screened hone'.screened
  exact ⟨hview, msgs, by rw [hmsgs, onMessage_of_mail ht.mail_eq],
    by rw [hmsgs', onMessage_of_mail ht'.mail_eq]⟩

end

theorem processFrame_kept (hidle : net.Idle)
    (hn : KeyNodup (fun _ => true) key net.fastPacket.rxSessions) (f : Frame)
    (q : UInt8) : (net.processFrame f q).Idle ∧
      KeyNodup (fun _ => true) key (net.processFrame f q).fastPacket.rxSessions := by
  have htouched : ∀ {n : IsoNet L}, Touches q net n →
      n.Idle ∧ KeyNodup (fun _ => true) key n.fastPacket.rxSessions := by
    intro n ht
    exact ⟨ht.idle hidle, by rw [ht.fastPacket_eq]; exact hn⟩
  rw [processFrame_eq]
  split
  · obtain ⟨hi, hk⟩ := htouched
      ((net.touches_counted q).trans (net.counted.touches_handleAddressClaim f q))
    exact ⟨⟨hi.tp, hi.etp⟩, hk⟩
  split
  · exact htouched (net.touches_answered f q)
  split
  · exact htouched (net.touches_screened f q)
  · obtain ⟨hi, hk⟩ := htouched (net.touches_screened f q)
    exact processTransport_kept hi hk f q

end Machbus.IsoNet
