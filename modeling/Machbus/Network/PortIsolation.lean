import Machbus.Network.Helpers.PortCalls
/-!
# Ports are reassembled apart

A call to the network layer is a few events: an update lets time pass,
takes the frames of all endpoints one by one and then drives what is left.
A port sees its own frames, the registrations and the time. Two runs that
look the same to it reassemble the same multi-frame messages from its
frames, as long as no table is full and the frames of the ports do not get
into each other's way. They can, in two places: the sessions of fast
packets are kept without their port, so a frame from elsewhere may continue
or restart a message of this port; and removing a session moves the last
one into its place, so a frame that could be for two sessions of its port
may go to either, depending on what ends elsewhere.
-/

namespace Machbus.IsoNet

open FastPacket

variable {L : Type}

/-! ## Events -/

/-- The calls that take frames in. -/
def Op.hears : Op L → Bool
  | .feed _ _ | .update _ => true
  | _ => false

/-- The calls that register something, or start the claims of what is. -/
def Op.configures : Op L → Bool
  | .createInternal _ _ _ | .createPartner _ _ | .registerFastPacketPgn _
  | .startAddressClaiming => true
  | _ => false

/-- **What happens in a call.** -/
inductive Event (L : Type)
  | call (op : Op L) (h : op.hears = false)
  | age (elapsedMs : ℕ)
  | frame (f : Frame) (port : UInt8)
  | settle (elapsedMs : ℕ)

variable [CanEndpoint L] {op : Op L}

section

variable (net : IsoNet L)

/-- The state after an event. -/
def occur : Event L → IsoNet L
  | .call op _ => net.step op
  -- the endpoints hand over what they have received
  | .age elapsedMs => (net.aged elapsedMs).receiveAll.1
  | .frame f port => net.processFrame f port
  | .settle elapsedMs => net.settled elapsedMs

/-- The events of a call. -/
def events (op : Op L) : List (Event L) :=
  if h : op.hears = false then [.call op h]
  else
    match op with
    | .feed frame port => [.frame frame port]
    | .update elapsedMs =>
      .age elapsedMs ::
        ((net.aged elapsedMs).receiveAll.2.map (fun e => .frame e.2 e.1) ++ [.settle elapsedMs])
    | _ => []

/-- The events of a run. -/
def script : IsoNet L → List (Op L) → List (Event L)
  | _, [] => []
  | net, op :: ops => net.events op ++ script (net.step op) ops

/-- **A call is its events.** -/
theorem run_events (op : Op L) : run occur net (net.events op) = net.step op := by
  cases op with
  | update elapsedMs =>
    show run occur (net.aged elapsedMs).receiveAll.1
      ((net.aged elapsedMs).receiveAll.2.map _ ++ [.settle elapsedMs]) = _
    rw [run_concat, run, List.foldl_map]
    rfl
  | _ => rfl

theorem run_script (ops : List (Op L)) : run occur net (net.script ops) = run step net ops := by
  induction ops generalizing net with
  | nil => rfl
  | cons op ops ih => rw [script, run_append, run_events, ih, run_cons]

/-! ## What is kept -/

/-- Nothing waits to be dispatched, and no two fast packets share a key. -/
structure Ready (net : IsoNet L) : Prop where
  idle : net.Idle
  keys : KeyNodup (fun _ => true) Session.key net.fastPacket.rxSessions

/-- Calls that take no frames in dispatch nothing and receive nothing. -/
theorem step_kept (h : op.hears = false) : (net.step op).mail = net.mail ∧
      (net.step op).fastPacket.rxSessions = net.fastPacket.rxSessions := by
  cases op with
  | createInternal name port preferred =>
    unfold step createInternal
    dsimp only
    split <;> exact ⟨rfl, rfl⟩
  | registerFastPacketPgn pgn =>
    unfold step registerFastPacketPgn
    dsimp only
    split <;> exact ⟨rfl, rfl⟩
  | startAddressClaiming =>
    unfold step startAddressClaiming
    dsimp only
    split
    · exact ⟨rfl, rfl⟩
    · exact ⟨(Unheard.sendEmitted _ _).mail, (Unheard.sendEmitted _ _).fast⟩
  | send pgn data src dst priority =>
    have hsend := Unheard.of_sends (.send net pgn data src dst priority)
    exact ⟨hsend.mail, hsend.fast⟩
  | createPartner | setEndpoint | setCaptureOutbound => exact ⟨rfl, rfl⟩
  | feed | update => cases h

omit [CanEndpoint L] in
theorem Ready.of_mail {net net' : IsoNet L} (h : net.Ready) (hmail : net'.mail = net.mail)
    (hkeys : KeyNodup (fun _ => true) Session.key net'.fastPacket.rxSessions) : net'.Ready :=
  ⟨⟨(congrArg Mail.tpCompletions hmail).trans h.idle.tp,
    (congrArg Mail.etpCompletions hmail).trans h.idle.etp⟩, hkeys⟩

theorem Ready.occur {net : IsoNet L} (h : net.Ready) (e : Event L) : (net.occur e).Ready := by
  cases e with
  | call op hop =>
    obtain ⟨hmail, hfast⟩ := net.step_kept hop
    exact h.of_mail hmail (by rw [IsoNet.occur, hfast]; exact h.keys)
  | age elapsedMs => exact ⟨⟨h.idle.tp, h.idle.etp⟩, h.keys⟩
  | frame f port =>
    obtain ⟨hidle, hkeys⟩ := processFrame_kept h.idle h.keys f port
    exact ⟨hidle, hkeys⟩
  | settle elapsedMs =>
    refine h.of_mail (settled_mail h.idle elapsedMs) ?_
    rw [IsoNet.occur, settled_rxSessions h.idle]
    exact (h.keys.filterMap fun _ _ hs => FastPacket.key_tick hs).perm
      (net.fastPacket.rxSessions_update_perm elapsedMs)

/-! ## What a port hears -/

/-- The PGNs whose frames carry parts of messages. -/
def isMultiFrame (pgn : ℕ) : Bool :=
  pgn == pgnTpCm || pgn == pgnTpDt || pgn == pgnEtpCm || pgn == pgnEtpDt || net.isFastPacketPgn pgn

/-- The messages an event dispatches. -/
def dispatched (e : Event L) : List Message :=
  (net.occur e).onMessage.drop net.onMessage.length

end

/-- The multi-frame messages of a port among them: those its frames
complete, and any that were left to the end of an update. -/
def reassembled (p : UInt8) (net : IsoNet L) : Event L → List Message
  | .frame f port =>
    if port = p ∧ net.isMultiFrame f.pgn = true then net.dispatched (.frame f port) else []
  | .settle elapsedMs => net.dispatched (.settle elapsedMs)
  | .call _ _ | .age _ => []

/-- **What a run reassembles from the frames of a port and dispatches.** -/
def reassembledOn (p : UInt8) (net : IsoNet L) (ops : List (Op L)) : List Message :=
  emissions occur (reassembled p) net (net.script ops)

/-- **The events a port sees.** Not those of other ports, nor what the
layer is given to send and where it sends it. -/
def seenOn (p : UInt8) : Event L → Bool
  | .call op _ => op.configures
  | .age _ | .settle _ => true
  | .frame _ port => port == p

/-! ## Where the ports meet -/

/-- A network layer, with the port each key of a fast packet was last used
on. -/
structure Watched (L : Type) where
  net : IsoNet L
  origin : Key → UInt8

namespace Watched

def occur (w : Watched L) (e : Event L) : Watched L where
  net := w.net.occur e
  origin :=
    match e with
    | .frame f port => Function.update w.origin (frameKey f) port
    | _ => w.origin

/-- **The ports keep apart.** A frame continues no fast packet of another
port, and a frame of the port in question is for one session at most. -/
def Apart (p : UInt8) (w : Watched L) : Event L → Prop
  | .frame f port => w.net.fastPacket.Owns w.origin f port ∧ (port = p → w.net.FindsOne f p)
  | _ => True

instance (p : UInt8) (w : Watched L) (e : Event L) : Decidable (w.Apart p e) := by
  unfold Apart
  split <;> infer_instance

end Watched

/-- A frame meets tables with a free slot. -/
def Uncapped (net : IsoNet L) : Event L → Prop
  | .frame _ _ => net.BelowCaps
  | _ => True

instance (net : IsoNet L) (e : Event L) : Decidable (net.Uncapped e) := by
  unfold Uncapped
  split <;> infer_instance

/-! ## One event -/

variable {net net' : IsoNet L} {o o' : Key → UInt8} {p : UInt8}

/-- A call that registers nothing shows on no port. -/
theorem view_step_of_not_configures (h : op.hears = false)
    (hop : op.configures = false) : (net.step op).view o p = net.view o p := by
  cases op with
  | send pgn data src dst priority =>
    exact (Unheard.of_sends (.send net pgn data src dst priority)).view o p
  | setEndpoint | setCaptureOutbound => rfl
  | feed | update => cases h
  | createInternal | createPartner | registerFastPacketPgn | startAddressClaiming => cases hop

/-- One that does does the same to equal views. -/
theorem view_step_of_configures (h : net.view o p = net'.view o' p)
    (hop : op.configures = true) : (net.step op).view o p = (net'.step op).view o' p := by
  cases op with
  | createInternal name port preferred => exact view_createInternal h name port preferred
  | createPartner port filters => exact view_createPartner h port filters
  | registerFastPacketPgn pgn => exact view_registerFastPacketPgn h pgn
  | startAddressClaiming => exact view_startAddressClaiming h
  | setEndpoint | setCaptureOutbound | send | feed | update => cases hop

/-- The end of an update dispatches nothing. -/
theorem dispatched_settle (h : net.Ready) (elapsedMs : ℕ) :
    net.dispatched (.settle elapsedMs) = [] := by
  rw [dispatched, occur, onMessage_of_mail (settled_mail h.idle elapsedMs), List.drop_length]

omit [CanEndpoint L] in
/-- The PGNs of multi-frame messages are the same to all ports. -/
theorem isMultiFrame_congr (h : net.view o p = net'.view o' p) (pgn : ℕ) :
    net.isMultiFrame pgn = net'.isMultiFrame pgn := by
  have hconfig : net.config = net'.config := congrArg PortView.config h
  have hpgns : net.fastPacketPgns = net'.fastPacketPgns := congrArg PortView.fastPacketPgns h
  rw [isMultiFrame, isMultiFrame, isFastPacketPgn, isFastPacketPgn, hconfig, hpgns]

/-- **Ports unwind.** What a port does not see leaves its view alone, what
it sees does the same to equal views. -/
theorem unwinding (p : UInt8) :
    Unwinding (Watched.occur (L := L)) (fun w => reassembled p w.net) (seenOn p)
      (fun w => w.net.view w.origin p) (fun w => w.net.Ready)
      (fun w e => w.net.Uncapped e ∧ w.Apart p e) where
  keeps w e h _ := h.occur e
  unseen := by
    rintro w (⟨op, hop⟩ | ms | ⟨f, q⟩ | ms) h ⟨hcaps, hapart⟩ hseen
    · exact ⟨view_step_of_not_configures hop hseen, rfl⟩
    · cases hseen
    · have hq : q ≠ p := by simpa [seenOn] using hseen
      exact ⟨view_processFrame_of_ne hq h.idle hcaps hapart.1, if_neg fun hp => hq hp.1⟩
    · cases hseen
  seen := by
    rintro w w' (⟨op, hop⟩ | ms | ⟨f, q⟩ | ms) h h' ⟨hcaps, hapart⟩ ⟨hcaps', hapart'⟩ hseen hview
    · exact ⟨view_step_of_configures hview hseen, rfl⟩
    · exact ⟨view_aged hview ms, rfl⟩
    · obtain rfl : q = p := by simpa [seenOn] using hseen
      obtain ⟨hafter, msgs, hmsgs, hmsgs'⟩ := view_processFrame hview h.idle h'.idle hcaps hcaps'
        h.keys hapart.1 hapart'.1 (hapart.2 rfl) (hapart'.2 rfl)
      refine ⟨hafter, ?_⟩
      simp only [reassembled, isMultiFrame_congr hview]
      rw [dispatched, dispatched, occur, occur, hmsgs, hmsgs', List.drop_left, List.drop_left]
    · dsimp only [Watched.occur, reassembled]
      rw [dispatched_settle h, dispatched_settle h']
      exact ⟨view_settled hview h.idle h'.idle ms, rfl⟩

/-! ## Runs -/

/-- **Two runs alike to a port.** It sees the same events, and no frame of
either meets a full table. -/
structure Alike (p : UInt8) (net : IsoNet L) (ops ops' : List (Op L)) : Prop where
  seen : (net.script ops).filter (seenOn p) = (net.script ops').filter (seenOn p)
  caps : Along occur Uncapped net (net.script ops)
  caps' : Along occur Uncapped net (net.script ops')

/-- **The ports are reassembled apart.** Two runs alike to a port, from any
state that is reached, reassemble the same messages from its frames if the
ports keep apart in both. -/
theorem reassembly_isolated {config : NetworkConfig} {setup : List (Op L)}
    (hnet : net = run step (new config) setup) {p : UInt8} {ops ops' : List (Op L)}
    (halike : net.Alike p ops ops') (origin : Key → UInt8)
    (hapart : Along Watched.occur (Watched.Apart p) ⟨net, origin⟩ (net.script ops))
    (hapart' : Along Watched.occur (Watched.Apart p) ⟨net, origin⟩ (net.script ops')) :
    net.reassembledOn p ops = net.reassembledOn p ops' := by
  have hready : net.Ready := by
    rw [hnet, ← run_script]
    exact run_induction ⟨⟨rfl, rfl⟩, .nil⟩ (fun net e h => h.occur e) _
  let w : Watched L := ⟨net, origin⟩
  have hlift : ∀ es, Along occur Uncapped net es →
      Along .occur (fun w e => w.net.Uncapped e) w es := fun es h =>
    .of_map (f := Watched.net) (fun _ _ => rfl) h
  have hwatched : ∀ es, emissions occur (reassembled p) net es =
      emissions .occur (fun w => reassembled p w.net) w es := fun es =>
    (emissions_eq_of_map (f := Watched.net) (fun _ _ => rfl) (fun _ _ => rfl) w es).symm
  rw [reassembledOn, reassembledOn, hwatched, hwatched]
  exact (unwinding p).emissions_eq hready hready rfl ((hlift _ halike.caps).and hapart)
    ((hlift _ halike.caps').and hapart') halike.seen

/-! ## Messages of two ports -/

/-- Frames fed one by one. -/
def feeds (fs : List (Frame × UInt8)) : List (Op L) := fs.map fun e => .feed e.1 e.2

section

variable (net : IsoNet L) (p : UInt8) (fs : List (Frame × UInt8))

/-- A port sees those fed on it. -/
theorem filter_script_feeds : (net.script (feeds fs)).filter (seenOn p) =
      (fs.filter (·.2 == p)).map fun e => .frame e.1 e.2 := by
  have hscript : net.script (feeds fs) = fs.map fun e => .frame e.1 e.2 := by
    induction fs generalizing net with
    | nil => rfl
    | cons e fs ih => exact congrArg (.frame e.1 e.2 :: ·) (ih (net.step (.feed e.1 e.2)))
  rw [hscript, List.filter_map]
  rfl

/-- The other frames might as well not have come. -/
theorem filter_script_alone : (net.script (feeds fs)).filter (seenOn p) =
      (net.script (feeds (fs.filter (·.2 == p)))).filter (seenOn p) := by
  have htwice : (fs.filter (·.2 == p)).filter (·.2 == p) = fs.filter (·.2 == p) := by
    simp
  rw [filter_script_feeds, filter_script_feeds, htwice]

end

/-- A frame node `0x10` broadcasts. -/
def broadcastOf (pgn : ℕ) (data : Bytes8) : Frame :=
  Frame.new (Identifier.encode .default pgn 0x10 broadcastAddress) data

/-- The two frames of a position report, which is a fast packet. -/
def firstHalf : Frame := broadcastOf 0x1F801 ⟨0x00, 12, 1, 2, 3, 4, 5, 6⟩
def secondHalf : Frame := broadcastOf 0x1F801 ⟨0x01, 7, 8, 9, 10, 11, 12, 0xFF⟩

/-- The announcement of nine bytes of a proprietary PGN, and their packets. -/
def announce (low : UInt8) : Frame := broadcastOf pgnTpCm ⟨32, 9, 0, 2, 0xFF, low, 0xFF, 0⟩
def firstPacket : Frame := broadcastOf pgnTpDt ⟨1, 1, 2, 3, 4, 5, 6, 7⟩
def secondPacket : Frame := broadcastOf pgnTpDt ⟨2, 8, 9, 0xFF, 0xFF, 0xFF, 0xFF, 0xFF⟩

/-- A network layer that reassembles position reports. -/
def positions : IsoNet Unit :=
  run step (new { enableFastPacket := true }) [.registerFastPacketPgn 0x1F801]

/-- A fast packet and a broadcast on port 0, while port 1 broadcasts
something else from the same address. -/
def busy : List (Frame × UInt8) :=
  [(announce 2, 1), (firstHalf, 0), (firstPacket, 1), (announce 1, 0), (firstPacket, 0),
    (secondPacket, 1), (secondHalf, 0), (secondPacket, 0)]

theorem reassembly_isolated_busy :
    (positions.reassembledOn 0 (feeds busy)).map (fun m => (m.pgn, m.data)) =
        [(0x1F801, [1, 2, 3, 4, 5, 6, 7, 8, 9, 10, 11, 12]),
          (0xFF01, [1, 2, 3, 4, 5, 6, 7, 8, 9])] ∧
      positions.reassembledOn 0 (feeds busy) =
        positions.reassembledOn 0 (feeds (busy.filter (·.2 == 0))) :=
  ⟨by decide +kernel, reassembly_isolated (rfl : positions = run step (new _) _)
    ⟨filter_script_alone positions 0 busy, by decide +kernel, by decide +kernel⟩ (fun _ => 0)
    (by decide +kernel) (by decide +kernel)⟩

/-- Port 1 starts a fast packet with the key of the one on port 0. -/
def crossed : List (Frame × UInt8) :=
  [(firstHalf, 0), (broadcastOf 0x1F801 ⟨0x00, 12, 21, 22, 23, 24, 25, 26⟩, 1), (secondHalf, 0)]

/-- Two broadcasts of one node on port 0, behind one on port 1 that ends
first. -/
def overtaken : List (Frame × UInt8) :=
  [(announce 1, 1), (announce 1, 0), (announce 2, 0), (firstPacket, 1), (secondPacket, 1),
    (firstPacket, 0), (secondPacket, 0)]

/-- **The ports meet.** Without port 1 the fast packet of port 0 is whole;
with it, the first half comes from there. And the packets on port 0 go to
the other of its broadcasts once the one on port 1 has ended. -/
theorem ports_meet :
    positions.Alike 0 (feeds crossed) (feeds (crossed.filter (·.2 == 0))) ∧
      (positions.reassembledOn 0 (feeds (crossed.filter (·.2 == 0)))).map Message.data =
        [[1, 2, 3, 4, 5, 6, 7, 8, 9, 10, 11, 12]] ∧
      (positions.reassembledOn 0 (feeds crossed)).map Message.data =
        [[21, 22, 23, 24, 25, 26, 7, 8, 9, 10, 11, 12]] ∧
    positions.Alike 0 (feeds overtaken) (feeds (overtaken.filter (·.2 == 0))) ∧
      (positions.reassembledOn 0 (feeds (overtaken.filter (·.2 == 0)))).map Message.pgn = [0xFF01] ∧
      (positions.reassembledOn 0 (feeds overtaken)).map Message.pgn = [0xFF02] :=
  ⟨⟨filter_script_alone positions 0 crossed, by decide +kernel, by decide +kernel⟩,
    by decide +kernel, by decide +kernel,
    ⟨filter_script_alone positions 0 overtaken, by decide +kernel, by decide +kernel⟩,
    by decide +kernel, by decide +kernel⟩

end Machbus.IsoNet
