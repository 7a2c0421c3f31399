import Machbus.Network.Helpers.PortFrames
import Machbus.Network.Helpers.Moves
/-!
# Helpers — calls and the views of the ports

What is left of an update once the frames are in, and the other calls, do
the same to equal views of a port and dispatch nothing. Sending is not
heard at all.
-/

namespace Machbus.IsoNet

open FastPacket SessionEngine List ExtendedTransportProtocol Tables

variable {L : Type} {net net' net₁ net₂ : IsoNet L} {o o' : Key → UInt8} {p : UInt8}

theorem view_setTp (tp : TransportProtocol) :
    (net.setTp tp).view o p = { net.view o p with tp := heardOn p tp } := rfl

theorem view_setEtp (etp : ExtendedTransportProtocol) :
    (net.setEtp etp).view o p = { net.view o p with etp := heardOn p etp } := rfl

/-! ## Sending -/

/-- **Nothing of it is heard**: no port sees a difference, nothing is
dispatched or waits to be, and no fast packet is touched. -/
structure Unheard (net net' : IsoNet L) : Prop where
  view : ∀ o p, net'.view o p = net.view o p
  mail : net'.mail = net.mail
  fast : net'.fastPacket.rxSessions = net.fastPacket.rxSessions

namespace Unheard

theorem trans (h : Unheard net net₁) (h' : Unheard net₁ net₂) : Unheard net net₂ where
  view o p := (h'.view o p).trans (h.view o p)
  mail := h'.mail.trans h.mail
  fast := h'.fast.trans h.fast

theorem wire (net : IsoNet L) (w : Wire L) : Unheard net (net.setWire w) :=
  ⟨fun _ _ => rfl, rfl, rfl⟩

/-- A transmission handed to its engine. -/
theorem engage (net : IsoNet L) (tx : PendingTransportTx) : Unheard net (net.engage tx).1 := by
  unfold IsoNet.engage
  split
  · have hdone : (net.tp.send tx.pgn tx.data tx.source tx.destination tx.port
        tx.priority).1.onComplete = net.tp.onComplete := by
      rcases net.tp.send_cases tx.pgn tx.data tx.source tx.destination tx.port tx.priority with
        ⟨stats, err, -, h⟩ | ⟨-, s, frames, -, h⟩
      · rw [h]
      · rw [h]
    refine ⟨fun o p => ?_, by simp [IsoNet.mail, setTp, hdone], rfl⟩
    rw [view_setTp, TransportProtocol.heardOn_send]
    rfl
  · have hdone : (net.etp.send tx.pgn tx.data tx.source tx.destination tx.port
        tx.priority).1.onComplete = net.etp.onComplete := by
      rcases net.etp.send_cases tx.pgn tx.data tx.source tx.destination tx.port tx.priority with
        ⟨stats, err, -, h⟩ | ⟨-, s, frames, -, h⟩
      · rw [h]
      · rw [h]
    refine ⟨fun o p => ?_, by simp [IsoNet.mail, setEtp, hdone], rfl⟩
    rw [view_setEtp, heardOn_send]
    rfl

/-- **Sending is not heard.** -/
theorem of_sends {P : PendingTransportTx → Prop} (h : Sends P net net') : Unheard net net' := by
  induction h with
  | refl | pending => exact ⟨fun _ _ => rfl, rfl, rfl⟩
  | trans _ _ ih ih' => exact ih.trans ih'
  | wire net w => exact wire net w
  | fast net =>
    obtain ⟨hs, hmax⟩ := net.fastPacket.sendTo_rxSessions _ _ _ _ _
    refine ⟨fun o p => ?_, rfl, hs⟩
    rw [view_setFastPacket, FastPacketProtocol.heardOn, hs, hmax]
    rfl
  | engage net => exact engage net _

variable [CanEndpoint L]

theorem sendEmitted (net : IsoNet L) (es : List (UInt8 × Frame)) :
    Unheard net (net.sendEmitted es) := by
  rw [sendEmitted_eq]
  exact wire net _

end Unheard

variable [CanEndpoint L]

/-! ## The other phases of an update -/

/-- What comes after the frames that were received. -/
def settled (net : IsoNet L) (elapsedMs : ℕ) : IsoNet L :=
  (net.driveTransports elapsedMs).drainTransportCompletions.startReadyPendingTransport.driveClaimers
    elapsedMs

omit [CanEndpoint L] in
theorem view_aged (h : net.view o p = net'.view o' p) (elapsedMs : ℕ) :
    (net.aged elapsedMs).view o p = (net'.aged elapsedMs).view o' p := by
  have hport : ∀ x : PartnerCf, (x.updateClaimValidation elapsedMs).cf.canPort = x.cf.canPort := by
    intro x
    unfold PartnerCf.updateClaimValidation
    dsimp only
    split
    · rfl
    · split <;> rfl
  have hviolations : ∀ vs : List RecentViolation,
      (((vs.map fun v => { v with ageMs := satAdd32 v.ageMs elapsedMs }).filter
        fun v => v.ageMs < addressViolationResponseIntervalMs).filter fun v => v.port == p) =
      ((vs.filter fun v => v.port == p).map
        fun v => { v with ageMs := satAdd32 v.ageMs elapsedMs }).filter
          fun v => v.ageMs < addressViolationResponseIntervalMs := by
    intro vs
    rw [filter_comm]
    exact congrArg _ (filter_map_kept (g := fun v : RecentViolation =>
      { v with ageMs := satAdd32 v.ageMs elapsedMs }) (fun _ => rfl) vs)
  have hpartners := view_mapPartners_congr h hport
  have hold : ∀ (n : IsoNet L) (o : Key → UInt8), (n.aged elapsedMs).view o p =
      { ({ n with partnerCfs := n.partnerCfs.map (·.updateClaimValidation elapsedMs) } :
          IsoNet L).view o p with
        violations := ((n.recentViolations.filter fun v => v.port == p).map
          fun v => { v with ageMs := satAdd32 v.ageMs elapsedMs }).filter
            fun v => v.ageMs < addressViolationResponseIntervalMs } := by
    intro n o
    rw [← hviolations]
    rfl
  rw [hold, hold, hpartners, violations_of_view h]

/-- The engines, driven for a time. -/
theorem view_driveTransports (h : net.view o p = net'.view o' p) (elapsedMs : ℕ) :
    (net.driveTransports elapsedMs).view o p = (net'.driveTransports elapsedMs).view o' p := by
  have htp := TransportProtocol.heardOn_update (congrArg PortView.tp h) elapsedMs
  have hetp := heardOn_update (congrArg PortView.etp h) elapsedMs
  have hfast := FastPacketProtocol.heardOn_update (congrArg PortView.fast h) elapsedMs
  rw [driveTransports_eq, driveTransports_eq, (Unheard.sendEmitted _ _).view,
    (Unheard.sendEmitted _ _).view]
  unfold driven
  simp only [view_setFastPacket, view_setEtp, view_setTp,
    TransportProtocol.heardOn_getPendingDataFrames, heardOn_getPendingDataFrames]
  rw [htp, hetp, show (net.fastPacket.update elapsedMs).heardOn o p =
      (net'.fastPacket.update elapsedMs).heardOn o' p from hfast, h]

/-- They complete transmissions only. -/
theorem driveTransports_mail (net : IsoNet L) (elapsedMs : ℕ) :
    ∃ done, (net.driveTransports elapsedMs).mail =
        { net.mail with tpCompletions := net.tpCompletions ++ done } ∧
      (∀ s ∈ done, s.direction = .transmit) := by
  obtain ⟨done, hdone, htx⟩ := net.tp.update_onComplete elapsedMs
  have hetp := net.etp.update_onComplete elapsedMs
  refine ⟨done, ?_, htx⟩
  rw [driveTransports_eq, (Unheard.sendEmitted _ _).mail]
  simp [driven, mail, setTp, setEtp, setFastPacket, hdone, hetp,
    TransportProtocol.getPendingDataFrames, getPendingDataFrames]

/-- Transmissions are taken out and nothing comes of it. -/
theorem drain_of_transmit (h : ∀ s ∈ net.tpCompletions ++ net.etpCompletions,
    s.direction = .transmit) :
    net.drainTransportCompletions = { net with tpCompletions := [], etpCompletions := [] } := by
  have hnone : (net.tpCompletions ++ net.etpCompletions).filter (·.direction == .receive) = [] := by
    rw [filter_eq_nil_iff]
    intro s hs
    rw [h s hs]
    decide
  show dispatchAll _ (net.tpCompletions ++ net.etpCompletions) = _
  rw [← dispatchAll_filter, hnone]
  rfl

/-! ## Claimers -/

/-- One teardown of several. -/
theorem touches_discontinueOne (net : IsoNet L) (q : UInt8) (a : Address) :
    Touches q net ((net.discontinueAddress q a).1.sendFramesBestEffort
      (net.discontinueAddress q a).2 q) :=
  (Touches.discontinue net a).trans (touches_sendFramesBestEffort _ _ _)

/-- Only the teardowns of the port show on it. -/
theorem view_discontinueEach_filter (h : net.view o p = net'.view o' p)
    (es : List (UInt8 × Address)) :
    (net.discontinueEach es).view o p =
      (net'.discontinueEach (es.filter (·.1 == p))).view o' p := by
  induction es generalizing net net' with
  | nil => exact h
  | cons e es ih =>
    by_cases hport : e.1 = p
    · rw [filter_cons_of_pos (by simpa using hport)]
      refine ih ?_
      rw [view_sendFramesBestEffort, view_sendFramesBestEffort]
      exact view_discontinueAddress h e.1 e.2
    · rw [filter_cons_of_neg (by simpa using hport)]
      exact ih (((net.touches_discontinueOne e.1 e.2).view_of_ne hport).trans h)

theorem discontinueEach_kept (net : IsoNet L) (es : List (UInt8 × Address)) :
    (net.discontinueEach es).mail = net.mail ∧
      (net.discontinueEach es).fastPacket = net.fastPacket := by
  induction es generalizing net with
  | nil => exact ⟨rfl, rfl⟩
  | cons e es ih =>
    have htouch := net.touches_discontinueOne e.1 e.2
    obtain ⟨hmail, hfast⟩ := ih ((net.discontinueAddress e.1 e.2).1.sendFramesBestEffort
      (net.discontinueAddress e.1 e.2).2 e.1)
    exact ⟨hmail.trans htouch.mail_eq, hfast.trans htouch.fastPacket_eq⟩

/-- The addresses left on a port are those its control functions leave. -/
theorem filter_vacated (op : LocalCf.Op) (ns : List LocalCf) :
    (ns.flatMap fun n => vacatedBy n (n.step op)).filter (·.1 == p) =
      (ns.filter (·.cf.canPort == p)).flatMap fun n => vacatedBy n (n.step op) := by
  induction ns with
  | nil => rfl
  | cons n ns ih =>
    have hport : ∀ e ∈ vacatedBy n (n.step op), e.1 = n.cf.canPort := by
      intro e he
      unfold vacatedBy at he
      split at he
      · rw [mem_singleton.mp he]
      · cases he
    rw [flatMap_cons, filter_append, ih]
    by_cases hn : n.cf.canPort = p
    · rw [filter_cons_of_pos (by simpa using hn), flatMap_cons,
        filter_eq_self.mpr fun e he => by rw [hport e he, hn, beq_self_eq_true]]
    rw [filter_cons_of_neg (by simpa using hn),
      filter_eq_nil_iff.mpr fun e he => by rw [hport e he]; simpa using hn, nil_append]

theorem view_driveClaimers (h : net.view o p = net'.view o' p) (elapsedMs : ℕ) :
    (net.driveClaimers elapsedMs).view o p = (net'.driveClaimers elapsedMs).view o' p := by
  unfold driveClaimers
  rw [(Unheard.sendEmitted _ _).view, (Unheard.sendEmitted _ _).view]
  refine (view_discontinueEach_filter (view_mapLocals_congr h (.step _)) _).trans ?_
  rw [filter_vacated, locals_of_view h, ← filter_vacated]
  exact (view_discontinueEach_filter rfl _).symm

theorem driveClaimers_kept (net : IsoNet L) (elapsedMs : ℕ) :
    (net.driveClaimers elapsedMs).mail = net.mail ∧
      (net.driveClaimers elapsedMs).fastPacket.rxSessions = net.fastPacket.rxSessions := by
  unfold driveClaimers
  obtain ⟨hmail, hfast⟩ := discontinueEach_kept (net.callAll (.update elapsedMs)).1
    (net.locals.flatMap fun n => vacatedBy n (n.step (.update elapsedMs)))
  refine ⟨(Unheard.sendEmitted _ _).mail.trans hmail, ?_⟩
  rw [(Unheard.sendEmitted _ _).fast, hfast]
  rfl

/-! ## The end of an update -/

/-- The state behind the engines, with what they have completed taken
out. -/
theorem settled_eq (hidle : net.Idle) (elapsedMs : ℕ) :
    ∃ mid : IsoNet L, (∀ o p, mid.view o p = (net.driveTransports elapsedMs).view o p) ∧
      mid.mail = net.mail ∧
      mid.fastPacket.rxSessions = (net.fastPacket.update elapsedMs).rxSessions ∧
      net.settled elapsedMs = mid.driveClaimers elapsedMs := by
  obtain ⟨done, hmail, htx⟩ := net.driveTransports_mail elapsedMs
  have hfast : (net.driveTransports elapsedMs).fastPacket = net.fastPacket.update elapsedMs := by
    rw [driveTransports_eq, sendEmitted_eq]
    rfl
  have htp := congrArg Mail.tpCompletions hmail
  have hetp := congrArg Mail.etpCompletions hmail
  have hon := congrArg Mail.onMessage hmail
  unfold settled
  generalize net.driveTransports elapsedMs = n at hfast htp hetp hon ⊢
  have htransmit : ∀ s ∈ n.tpCompletions ++ n.etpCompletions, s.direction = .transmit := by
    rw [show n.tpCompletions = net.tpCompletions ++ done from htp,
      show n.etpCompletions = net.etpCompletions from hetp, hidle.tp, hidle.etp]
    simpa using htx
  rw [drain_of_transmit htransmit]
  have hpend : ∀ tx ∈ ({ n with tpCompletions := [], etpCompletions := [] } :
      IsoNet L).pendingTransportTx, True := fun _ _ => trivial
  have hstart := Unheard.of_sends (Sends.startReady n.pendingTransportTx.length hpend)
  refine ⟨_, fun o p => hstart.view o p, hstart.mail.trans ?_,
    hstart.fast.trans (congrArg _ hfast), rfl⟩
  unfold mail
  rw [show n.onMessage = net.onMessage from hon, hidle.tp, hidle.etp]

/-- **The end of an update** does the same to equal views. -/
theorem view_settled (h : net.view o p = net'.view o' p) (hidle : net.Idle) (hidle' : net'.Idle)
    (elapsedMs : ℕ) : (net.settled elapsedMs).view o p = (net'.settled elapsedMs).view o' p := by
  obtain ⟨mid, hview, -, -, heq⟩ := settled_eq hidle elapsedMs
  obtain ⟨mid', hview', -, -, heq'⟩ := settled_eq hidle' elapsedMs
  rw [heq, heq']
  refine view_driveClaimers ?_ elapsedMs
  rw [hview, hview']
  exact view_driveTransports h elapsedMs

/-- It dispatches nothing. -/
theorem settled_mail (hidle : net.Idle) (elapsedMs : ℕ) :
    (net.settled elapsedMs).mail = net.mail := by
  obtain ⟨mid, -, hmail, -, heq⟩ := settled_eq hidle elapsedMs
  rw [heq, (mid.driveClaimers_kept elapsedMs).1, hmail]

theorem settled_rxSessions (hidle : net.Idle) (elapsedMs : ℕ) :
    (net.settled elapsedMs).fastPacket.rxSessions =
      (net.fastPacket.update elapsedMs).rxSessions := by
  obtain ⟨mid, -, -, hfast, heq⟩ := settled_eq hidle elapsedMs
  rw [heq, (mid.driveClaimers_kept elapsedMs).2, hfast]

/-! ## Registration -/

omit [CanEndpoint L]

section

variable (h : net.view o p = net'.view o' p)
include h

omit h in
/-- A new control function. -/
theorem view_addLocal (n : LocalCf) :
    ({ net with locals := net.locals ++ [n] } : IsoNet L).view o p =
      { net.view o p with
        names := (net.view o p).names ++ [n.cf.name]
        locals := (net.view o p).locals ++ [n].filter (·.cf.canPort == p) } := by
  simp only [view, names, map_append, filter_append]
  rfl

theorem view_createInternal (name : Name) (port : UInt8) (preferred : Address) :
    (net.createInternal name port preferred).1.view o p =
      (net'.createInternal name port preferred).1.view o' p := by
  have hnames : names net.locals = names net'.locals := congrArg PortView.names h
  have htimeout : net.config.addressClaimTimeoutMs = net'.config.addressClaimTimeoutMs :=
    congrArg (fun v : PortView => v.config.addressClaimTimeoutMs) h
  -- whether the NAME is taken is seen on every port
  have hany : ∀ ns : List LocalCf, ns.any (·.cf.name == name) = (names ns).any (· == name) := by
    intro ns
    rw [names, any_map]
    rfl
  unfold createInternal
  simp only [hany, hnames, htimeout]
  split
  · exact h
  · rw [view_addLocal, view_addLocal, h]

theorem view_createPartner (port : UInt8) (filters : List NameFilter) :
    (net.createPartner port filters).view o p = (net'.createPartner port filters).view o' p := by
  have hadded : ∀ (net : IsoNet L) o, (net.createPartner port filters).view o p =
      { net.view o p with partners := (net.view o p).partners ++
        [PartnerCf.new port filters].filter (·.cf.canPort == p) } := fun net o => by
    simp only [view, createPartner, filter_append]
  rw [hadded, hadded, h]

theorem view_registerFastPacketPgn (pgn : ℕ) :
    (net.registerFastPacketPgn pgn).1.view o p = (net'.registerFastPacketPgn pgn).1.view o' p := by
  have hpgns : net.fastPacketPgns = net'.fastPacketPgns := congrArg PortView.fastPacketPgns h
  have hset : ∀ pgns : List ℕ, ({ net with fastPacketPgns := pgns } : IsoNet L).view o p =
      ({ net' with fastPacketPgns := pgns } : IsoNet L).view o' p := fun pgns =>
    congrArg (fun v : PortView => ({ v with fastPacketPgns := pgns } : PortView)) h
  unfold registerFastPacketPgn
  split
  · exact h
  rw [← hset]
  simp [hpgns]

end

theorem view_startAddressClaiming [CanEndpoint L] (h : net.view o p = net'.view o' p) :
    net.startAddressClaiming.1.view o p = net'.startAddressClaiming.1.view o' p := by
  have hempty : net.locals.isEmpty = net'.locals.isEmpty := by
    have hnames := congrArg (fun v : PortView => v.names.isEmpty) h
    simpa [view, names] using hnames
  unfold startAddressClaiming
  rw [hempty]
  split
  · exact h
  rw [(Unheard.sendEmitted _ _).view, (Unheard.sendEmitted _ _).view]
  exact view_mapLocals_congr h (.step _)

end Machbus.IsoNet
