import Machbus.Network.Helpers.Tables
/-!
# Helpers — what frames do to the tables

`Moves` lists once everything that received frames, the messages completed
by them and the transport engines do to the tables of the network layer.
What is left of an update is the round over the waiting transmissions and
the claimers' timers. Invariants of the tables are read off the list.
-/

namespace Machbus

namespace Tables

open IsoNet

/-- A control function other than the target has claimed the address. -/
def taken (locals : List LocalCf) (targetName : Name) (newAddress : Address) (port : UInt8) :
    Bool :=
  locals.any fun n =>
    n.cf.canPort == port && n.cf.address == newAddress && n.cf.name != targetName &&
      n.cf.claimState == .claimed

/-- **What frames do.** -/
inductive Moves : Tables → Tables → Prop
  | refl (t) : Moves t t
  | trans {t t₁ t₂} : Moves t t₁ → Moves t₁ t₂ → Moves t t₂
  | tp {t l} : Inherits t.tp l → Moves t { t with tp := l }
  | etp {t l} : Inherits t.etp l → Moves t { t with etp := l }
  | claim {t} (name) {addr} (port) : addr ≤ maxAddress →
      Moves t (discontinueAll { t with locals := t.locals.map (afterClaim name addr port) } port
        (givenUp t.locals name addr port))
  | request {t} (asked : LocalCf → Bool) :
      Moves t { t with locals := t.locals.map fun n => if asked n then n.step .request else n }
  -- nobody obeys a command for an address that is known to be taken
  | command {t} (targetName) {newAddress} (port) {occupied} : newAddress ≤ maxAddress →
      (taken t.locals targetName newAddress port = true → occupied = true) →
      Moves t (discontinueAll
        { t with
          locals := t.locals.map fun n =>
            (obeyCommand targetName newAddress port occupied n).1 } port
        (t.locals.flatMap fun n => (obeyCommand targetName newAddress port occupied n).2.2))

end Tables

namespace IsoNet

open Tables

variable {L : Type} [CanEndpoint L] (net : IsoNet L)

section

variable (frame : Frame) (port : UInt8)

theorem moves_handleAddressClaim : Moves net.tables (net.handleAddressClaim frame port).tables := by
  by_cases hh : Heeded frame
  · obtain ⟨name, hname⟩ := Option.isSome_iff_exists.mp hh.1
    rw [tables_handleAddressClaim_of_heeded hname hh.2, tables_handleClaimed net hh.2]
    exact .claim name port hh.2
  · rw [tables_handleAddressClaim_of_not_heeded hh]
    exact .refl _

theorem moves_handleRequest :
    Moves net.tables (net.handleRequestForAddressClaim frame port).1.tables := by
  unfold handleRequestForAddressClaim
  split
  · exact .refl _
  split
  · exact .refl _
  rw [tables_sendFramesBestEffort]
  exact .request _

theorem moves_checkAddressViolation :
    Moves net.tables (net.checkAddressViolation frame port).tables := by
  unfold checkAddressViolation
  dsimp only
  split
  · exact .refl _
  split
  · exact .refl _
  split
  · rw [tables_sendFramesBestEffort]
    exact .request _
  · exact .refl _

end

theorem moves_handleCommanded (msg : Message) (port : UInt8) :
    Moves net.tables (net.handleCommandedAddressMessage msg port).tables := by
  unfold handleCommandedAddressMessage
  split
  · exact .refl _
  split
  · exact .refl _
  rename_i targetName _
  dsimp only
  split
  · exact .refl _
  rename_i hmax
  generalize msg.data.getD 8 0 = newAddress at hmax ⊢
  have hocc : taken net.locals targetName newAddress port = true →
      net.occupiedByOther targetName newAddress port = true :=
    fun h => Bool.or_eq_true_iff.mpr (.inl h)
  rw [tables_sendFramesBestEffort, tables_discontinueAll]
  exact .command targetName port (UInt8.not_lt.mp hmax) hocc

theorem moves_drain : Moves net.tables net.drainTransportCompletions.tables := by
  have hone : ∀ (n : IsoNet L) (s : TransportSession), Moves net.tables n.tables →
      Moves net.tables (n.dispatchCompletion s).tables := by
    intro n s h
    unfold dispatchCompletion
    split
    · exact h
    · exact h.trans (n.moves_handleCommanded _ _)
  exact run_induction (I := fun n : IsoNet L => Moves net.tables n.tables)
    (s := { net with tpCompletions := [], etpCompletions := [] }) (.refl _) hone
    (net.tpCompletions ++ net.etpCompletions)

theorem moves_processTransport (frame : Frame) (port : UInt8) :
    Moves net.tables (net.processTransport frame port).tables := by
  unfold processTransport
  split
  · refine .trans ?_ (moves_drain _)
    rw [tables_sendFramesBestEffort]
    exact .tp (net.tp.processFrame_step frame port).tableStep.inherits
  split
  · refine .trans ?_ (moves_drain _)
    rw [tables_sendFramesBestEffort]
    exact .etp (net.etp.processFrame_step frame port).tableStep.inherits
  split
  · dsimp only
    split <;> exact .refl _
  · exact .refl _

/-- **A received frame.** -/
theorem moves_processFrame (frame : Frame) (port : UInt8) :
    Moves net.tables (net.processFrame frame port).tables := by
  unfold processFrame
  dsimp only
  generalize hnet : ({ net with
    stats := { net.stats with framesReceived := net.stats.framesReceived + 1 } } : IsoNet L) = net'
  have htables : net.tables = net'.tables := by
    rw [← hnet]
    rfl
  rw [htables]
  split
  · rw [tables_dispatchMessage]
    exact net'.moves_handleAddressClaim frame port
  have hrequest : Moves net'.tables (if frame.pgn = pgnRequest
      then net'.handleRequestForAddressClaim frame port else (net', false)).1.tables := by
    split
    · exact net'.moves_handleRequest frame port
    · exact .refl _
  generalize (if frame.pgn = pgnRequest
      then net'.handleRequestForAddressClaim frame port else (net', false)) = r at hrequest ⊢
  have hviolation := hrequest.trans (r.1.moves_checkAddressViolation frame port)
  split
  · exact hrequest
  split
  · exact hviolation
  · exact hviolation.trans (moves_processTransport _ _ _)

/-! ## An update -/

variable (elapsedMs : ℕ)

theorem moves_received : Moves net.tables (net.received elapsedMs).tables := by
  have hframe : ∀ (n : IsoNet L) (e : UInt8 × Frame), Moves net.tables n.tables →
      Moves net.tables (n.processFrame e.2 e.1).tables :=
    fun n e h => h.trans (n.moves_processFrame e.2 e.1)
  have hstart : Moves net.tables (net.aged elapsedMs).receiveAll.1.tables := .refl _
  exact run_induction (I := fun n : IsoNet L => Moves net.tables n.tables) hstart hframe _

theorem moves_driveTransports : Moves net.tables (net.driveTransports elapsedMs).tables := by
  rw [driveTransports_eq, tables_sendEmitted]
  refine .trans (.tp (.of_filterMap (fun _ _ h => Tp.tick_path h)
    (net.tp.update_sessions_perm elapsedMs))) (.trans (.tp (.of_map fun _ => Tp.drain_path)) ?_)
  refine .trans (.etp (.of_filterMap (fun _ _ h => Etp.tick_path h)
    (net.etp.update_sessions_perm elapsedMs))) ?_
  exact .etp (.of_map fun _ => Etp.drain_path)

/-- The state in which an update tries the waiting transmissions. -/
def beforeRound : IsoNet L :=
  ((net.received elapsedMs).driveTransports elapsedMs).drainTransportCompletions

/-- The state in which it drives the claimers. -/
def beforeClaimers : IsoNet L := (net.beforeRound elapsedMs).startReadyPendingTransport

/-- **Up to the round.** -/
theorem moves_beforeRound : Moves net.tables (net.beforeRound elapsedMs).tables := by
  have hdrive := (net.moves_received elapsedMs).trans (moves_driveTransports _ elapsedMs)
  exact hdrive.trans (moves_drain _)

/-- **The claimers' timers**, and what they tear down. -/
theorem tables_driveClaimers : (net.driveClaimers elapsedMs).tables =
      (net.locals.flatMap fun n => vacatedBy n (n.step (.update elapsedMs))).foldl
        (fun t e => t.discontinue e.1 e.2)
        { net.tables with locals := net.locals.map (·.step (.update elapsedMs)) } := by
  unfold driveClaimers
  rw [tables_sendEmitted, tables_discontinueEach]
  rfl

end IsoNet

/-!
## Starting a transmission

A multi-frame message is handed to the engine of its kind, which opens a
session for it if the path is free and a slot is left.
-/

open List

/-! ## Transmissions -/

/-- What carries a multi-frame message. -/
inductive Carrier
  | tp
  | etp
  | fastPacket
  deriving DecidableEq, Repr

/-- A multi-frame message under way. -/
structure Transmission where
  carrier : Carrier
  pgn : ℕ
  data : List UInt8
  source : Address
  destination : Address
  port : UInt8
  priority : Priority
  deriving DecidableEq, Repr

/-- The path of a carrier from a source to a destination on a port. -/
structure Line where
  carrier : Carrier
  source : Address
  destination : Address
  port : UInt8
  deriving DecidableEq, Repr

def Transmission.line (m : Transmission) : Line := ⟨m.carrier, m.source, m.destination, m.port⟩

def PendingTransportKind.carrier : PendingTransportKind → Carrier
  | .tp => .tp
  | .etp => .etp

theorem PendingTransportKind.carrier_injective : Function.Injective carrier := by
  intro a b h
  cases a <;> cases b <;> first | rfl | cases h

def PendingTransportTx.transmission (tx : PendingTransportTx) : Transmission :=
  ⟨tx.kind.carrier, tx.pgn, tx.data, tx.source, tx.destination, tx.port, tx.priority⟩

namespace IsoNet

variable {L : Type} {net net' : IsoNet L}

def sessionsOf (net : IsoNet L) : PendingTransportKind → List TransportSession
  | .tp => net.tp.sessions
  | .etp => net.etp.sessions

def slotsOf (net : IsoNet L) : PendingTransportKind → ℕ
  | .tp => net.tp.maxSessions
  | .etp => net.etp.maxSessions

/-- A session transmits on the path of a transmission. -/
def Taken (net : IsoNet L) (tx : PendingTransportTx) : Prop :=
  ∃ s ∈ net.sessionsOf tx.kind, s.path = (.transmit, tx.source, tx.destination, tx.port)
  deriving Decidable

/-- The transmission cannot start. -/
def Blocked (net : IsoNet L) (tx : PendingTransportTx) : Prop :=
  PathBlocked (net.slotsOf tx.kind) (net.sessionsOf tx.kind)
    (.transmit, tx.source, tx.destination, tx.port)

theorem blocked_congr {tx tx' : PendingTransportTx}
    (h : tx.transmission.line = tx'.transmission.line) : net.Blocked tx ↔ net.Blocked tx' := by
  simp only [PendingTransportTx.transmission, Transmission.line, Line.mk.injEq] at h
  obtain ⟨hkind, hsrc, hdst, hport⟩ := h
  have hkind := PendingTransportKind.carrier_injective hkind
  unfold Blocked
  rw [hkind, hsrc, hdst, hport]

/-- Sessions may have been opened, nothing else has happened. -/
structure Extends (net net' : IsoNet L) : Prop where
  sessions : ∀ k, net.sessionsOf k <+: net'.sessionsOf k
  slots : ∀ k, net'.slotsOf k = net.slotsOf k
  pending : net'.pendingTransportTx = net.pendingTransportTx

theorem Extends.trans {net'' : IsoNet L} (h : Extends net net') (h' : Extends net' net'') :
    Extends net net'' :=
  ⟨fun k => (h.sessions k).trans (h'.sessions k), fun k => (h'.slots k).trans (h.slots k),
    h'.pending.trans h.pending⟩

/-- **What is blocked stays blocked.** -/
theorem Extends.blocked (h : Extends net net') {tx : PendingTransportTx} (hb : net.Blocked tx) :
    net'.Blocked tx := by
  rcases hb with ⟨s, hs, hpath⟩ | hfull
  · exact .inl ⟨s, (h.sessions _).subset hs, hpath⟩
  · refine .inr ?_
    have hlen := (h.sessions tx.kind).length_le
    rw [h.slots]
    omega

/-! ## Starting a transmission -/

theorem extends_setTp {tp : TransportProtocol} (hs : net.tp.sessions <+: tp.sessions)
    (hmax : tp.maxSessions = net.tp.maxSessions) : Extends net (net.setTp tp) := by
  refine ⟨fun k => ?_, fun k => ?_, rfl⟩
  · cases k with
    | tp => exact hs
    | etp => exact prefix_rfl
  · cases k with
    | tp => exact hmax
    | etp => rfl

theorem extends_setEtp {etp : ExtendedTransportProtocol} (hs : net.etp.sessions <+: etp.sessions)
    (hmax : etp.maxSessions = net.etp.maxSessions) : Extends net (net.setEtp etp) := by
  refine ⟨fun k => ?_, fun k => ?_, rfl⟩
  · cases k with
    | tp => exact prefix_rfl
    | etp => exact hs
  · cases k with
    | tp => rfl
    | etp => exact hmax

/-- An error that keeps a transmission waiting. -/
def Defers (e : Error) : Prop := e.code = .sessionExists ∨ e.code = .noResources

end IsoNet

/-- What becomes of a message for a path. Only a blocked path lets it wait,
and it starts on no blocked path. -/
structure Answers {α : Type} (blocked : Prop) (r : Except Error α) : Prop where
  deferred : ∀ e, r = .error e → IsoNet.Defers e → blocked
  started : ∀ x, r = .ok x → ¬blocked

namespace Answers

variable {α : Type} {blocked : Prop} {e : Error} {x : α}

theorem refused (h : IsoNet.Defers e → blocked) : Answers (α := α) blocked (.error e) :=
  ⟨fun _ he hd => h (Except.error.inj he ▸ hd), nofun⟩

theorem starts (h : ¬blocked) : Answers blocked (.ok x) := ⟨nofun, fun _ _ => h⟩

end Answers

namespace IsoNet

variable {L : Type} {net : IsoNet L}

/-- What handing a transmission to its engine does. -/
theorem engage_spec (net : IsoNet L) (tx : PendingTransportTx) :
    Extends net (net.engage tx).1 ∧ Answers (net.Blocked tx) (net.engage tx).2 := by
  unfold engage Blocked
  cases tx.kind with
  | tp =>
    rcases net.tp.send_cases tx.pgn tx.data tx.source tx.destination tx.port tx.priority with
      ⟨stats, err, hwait, heq⟩ | ⟨hfree, s, frames, -, heq⟩
    · rw [heq]
      exact ⟨extends_setTp prefix_rfl rfl, .refused hwait⟩
    · rw [heq]
      exact ⟨extends_setTp (prefix_append _ _) rfl, .starts hfree⟩
  | etp =>
    rcases net.etp.send_cases tx.pgn tx.data tx.source tx.destination tx.port tx.priority with
      ⟨stats, err, hwait, heq⟩ | ⟨hfree, s, frames, -, heq⟩
    · rw [heq]
      exact ⟨extends_setEtp prefix_rfl rfl, .refused hwait⟩
    · rw [heq]
      exact ⟨extends_setEtp (prefix_append _ _) rfl, .starts hfree⟩

variable [CanEndpoint L]

/-- Frames are not refused for want of a path or a slot. -/
theorem not_defers_sendFrames {port : UInt8} {fs : List Frame} {e : Error}
    (h : (net.sendFrames port fs).2 = .error e) : ¬Defers e := by
  induction fs generalizing net with
  | nil => cases h
  | cons f fs ih =>
    rw [sendFrames] at h
    split at h
    · exact ih h
    rename_i net₁ e₁ heq
    obtain rfl := Except.error.inj h
    have hsend : (net.sendFrame f port).2 = .error e₁ := by rw [heq]
    unfold sendFrame at hsend
    split at hsend
    · cases hsend
    split at hsend
    · obtain rfl := Except.error.inj hsend
      rintro (hd | hd) <;> cases hd
    dsimp only at hsend
    split at hsend
    · obtain rfl := Except.error.inj hsend
      rintro (hd | hd) <;> cases hd
    · cases hsend

variable (net : IsoNet L)

theorem sendFrames_extends (port : UInt8) (fs : List Frame) :
    Extends net (net.sendFrames port fs).1 := by
  obtain ⟨w, hw⟩ := net.exists_sendFrames_eq port fs
  rw [hw]
  exact ⟨fun k => by cases k <;> exact prefix_rfl, fun k => by cases k <;> rfl, rfl⟩

/-- **What starting a transmission does.** -/
structure Tried (net : IsoNet L) (tx : PendingTransportTx) (r : IsoNet L × Except Error Unit) :
    Prop extends Answers (net.Blocked tx) r.2 where
  keeps : Extends net r.1

theorem tryStart_tried (tx : PendingTransportTx) :
    Tried net tx (net.tryStartPendingTransportTx tx) := by
  obtain ⟨hext, hans⟩ := net.engage_spec tx
  rw [tryStart_eq]
  generalize net.engage tx = r at hext hans ⊢
  rcases r with ⟨net₁, e | frames⟩
  · exact ⟨.refused (hans.deferred e rfl), hext⟩
  · refine ⟨⟨?_, fun _ _ => hans.started frames rfl⟩,
      hext.trans (net₁.sendFrames_extends tx.port frames)⟩
    intro e he hd
    exact absurd hd (not_defers_sendFrames he)

end IsoNet

end Machbus
