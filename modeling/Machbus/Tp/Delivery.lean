import Machbus.Common.Windowed
import Machbus.Tp.Helpers.Connection
/-!
# TP — delivery

A message handed to `send` arrives. In connection mode the two engines
make a windowed transfer; a broadcast has phases of its own, in which
packets go out by the timer while earlier ones arrive. Either way a fair
schedule reaches the point where the receiver has completed the message
once, byte for byte.
-/

namespace Machbus

open List Nat

namespace Tp.Transfer

variable {x : Transfer} {l : Link TransportProtocol TransportProtocol Frame}
  {act : LinkAct Pump Pump} {hd : x.dest ≠ broadcastAddress} {b : TransportProtocol}

/-! ## Frames that are no aborts -/

/-- A control byte says whether a control frame is an abort. -/
theorem not_isAbort_makeCm {src dst : Address} {b0 b1 b2 b3 b4 : UInt8} {pgn : ℕ}
    (h : (b0 == TpCm.abort) = false) : ¬IsAbort (makeCm src dst b0 b1 b2 b3 b4 pgn) :=
  fun hf => beq_eq_false_iff_ne.mp h hf.2

/-- A data frame is none. -/
theorem not_isAbort_packet (i : ℕ) : ¬IsAbort (x.packet i) := by
  rintro ⟨hf, -⟩
  have := makeDt_pgn.symm.trans hf
  revert this
  decide

/-- The packets that are left begin with the next one. -/
theorem packetsFrom_cons (j n : ℕ) :
    x.packetsFrom j (n + 1) = x.packet j :: x.packetsFrom (j + 1) n := by
  rw [packetsFrom, range'_succ, map_cons, packetsFrom]

/-- The packets sent end with the last one. -/
theorem packetsFrom_concat (j n : ℕ) :
    x.packetsFrom j n ++ [x.packet (j + n)] = x.packetsFrom j (n + 1) := by
  rw [packetsFrom, packetsFrom, range'_concat, map_append, one_mul]
  rfl

/-! ## What delivery means -/

/-- **The message has arrived.** The receiver has completed one session,
with the PGN, the addresses and the bytes that were sent; the sender has
completed its own; nothing is open and nothing is under way. -/
structure Delivered (x : Transfer) (l : Link TransportProtocol TransportProtocol Frame) : Prop where
  received : ∃ r, l.right.onComplete = [r] ∧ r.direction = .receive ∧ r.state = .complete ∧
    r.pgn = x.pgn ∧ r.sourceAddress = x.source ∧ r.destinationAddress = x.dest ∧ r.data = x.data
  sent : ∃ s, l.left.onComplete = [s] ∧ s.direction = .transmit ∧ s.state = .complete ∧
    s.pgn = x.pgn ∧ s.sourceAddress = x.source ∧ s.destinationAddress = x.dest ∧ s.data = x.data
  leftIdle : l.left.sessions = []
  rightIdle : l.right.sessions = []
  toRight : l.toRight = []
  toLeft : l.toLeft = []

/-- **What holds on the way.** No abort has been sent or noticed, and
neither side has completed anything twice. -/
structure Sound (l : Link TransportProtocol TransportProtocol Frame) : Prop where
  log : ∀ f ∈ l.log, ¬IsAbort f
  leftAborts : l.left.onAbort = []
  rightAborts : l.right.onAbort = []
  leftOnce : l.left.onComplete.length ≤ 1
  rightOnce : l.right.onComplete.length ≤ 1

/-- Engines with these tables are sound. -/
theorem sound_of_eq {ss ss' done done' : List TransportSession} (hlog : ∀ f ∈ l.log, ¬IsAbort f)
    (ha : l.left = x.sender ss done) (hb : l.right = x.receiver ss' done') (hl : done.length ≤ 1)
    (hr : done'.length ≤ 1) : Sound l where
  log := hlog
  leftAborts := by rw [ha]; rfl
  rightAborts := by rw [hb]; rfl
  leftOnce := by rw [ha]; exact hl
  rightOnce := by rw [hb]; exact hr

/-- Engines that are done have delivered. -/
theorem delivered_of_eq {pts ta maxPackets start size : ℕ} {state : SessionState}
    (ha : l.left = x.sender [] [x.txSession .complete x.packets pts ta])
    (hb : l.right = x.receiver [] [x.received maxPackets start size state]) (hab : l.toRight = [])
    (hba : l.toLeft = []) : Delivered x l where
  received := ⟨_, by rw [hb]; rfl, rfl, rfl, rfl, rfl, rfl, bufferUpTo_of_le x.packets_spec.2.1⟩
  sent := ⟨_, by rw [ha]; rfl, rfl, rfl, rfl, rfl, rfl, rfl⟩
  leftIdle := by rw [ha]; rfl
  rightIdle := by rw [hb]; rfl
  toRight := hab
  toLeft := hba

/-! ## Connection mode -/

/-- A window is numbered from its start. -/
theorem packetsFrom_eq (k n : ℕ) :
    x.packetsFrom k n = (range' 0 n).map fun i => x.packet (k + i) := by
  rw [packetsFrom, range'_eq_map_range, map_map, range_eq_range']
  rfl

/-- **Connection mode is a windowed transfer.** Timers, and the windows
that are spent, are left open. -/
def windowed (x : Transfer) (hd : x.dest ≠ broadcastAddress) :
    Windowed TransportProtocol TransportProtocol Frame Pump Pump where
  parties := parties x.portA x.portB
  good f := ¬IsAbort f
  okLeft := InTime
  okRight := InTime
  drain := .pending
  packets := x.packets
  window := x.grant
  size := x.grant
  maxSize := 16
  announce := x.rts
  grant := x.cts
  message k i := x.packet (k + i)
  ack := x.eoma
  Left
    | .waiting k, t => ∃ pts ta, t = x.sender [x.txSession (x.waitState k) k pts ta] []
    | .sending k, t => ∃ ta, t = x.sender [x.txSession .sendingData k (x.grant k) ta] []
    | .sent, t => ∃ pts ta, t = x.sender [] [x.txSession .complete x.packets pts ta]
  Right
    | .fresh, t => t = x.receiver [] []
    | .receiving k i, t => ∃ tb,
      t = x.receiver [x.rxSession .waitingForData x.advertised (k + i) (k + 1) (x.grant k) tb] []
    | .received, t =>
      ∃ start size, t = x.receiver [] [x.received x.advertised start size .waitingForData]
  packets_pos := by have := x.packets_spec; omega
  window_pos k hk := ⟨(x.grant_pos hk).1, (x.grant_pos hk).2.1⟩
  size_pos k hk := (x.grant_pos hk).1
  size_le k := (Nat.min_le_right _ _).trans x.advertised_pos.2
  good_grant _ := not_isAbort_makeCm rfl
  good_message k i := not_isAbort_packet (k + i)
  good_ack := not_isAbort_makeCm rfl
  fresh_announce := by
    rintro b rfl
    exact ⟨_, receive_rts hd, 0, rfl⟩
  waiting_grant := by
    rintro k a hk ⟨pts, ta, rfl⟩
    have hwait : x.waitState k = .waitingForCTS := if_neg (Nat.ne_of_lt hk)
    rw [hwait]
    exact ⟨_, receive_cts hd hk pts ta, 0, rfl⟩
  sending_drain := by
    rintro k a hk ⟨ta, rfl⟩
    rw [← packetsFrom_eq]
    exact ⟨_, pending_window hd hk ta, x.grant k, 0, rfl⟩
  receiving_next := by
    rintro k i b hk hi ⟨tb, rfl⟩
    exact ⟨_, receive_in_window tb (by omega) (by omega) hk, 0, rfl⟩
  receiving_window := by
    rintro k i b hmore hi ⟨tb, rfl⟩
    have hend := receive_end_of_window hd tb (le_add_right k i) (by omega) (by omega)
    rw [show k + i + 1 = k + x.grant k by omega] at hend
    exact ⟨_, hend, 0, rfl⟩
  receiving_last := by
    rintro k i b hk hall hi ⟨tb, rfl⟩
    have hlast := receive_packet_last (x := x) (.inl rfl) x.advertised (k + 1) (x.grant k) tb
      (show k + i + 1 = x.packets by omega)
    rw [if_neg hd] at hlast
    exact ⟨_, hlast, _, _, rfl⟩
  waiting_ack := by
    rintro a ⟨pts, ta, rfl⟩
    have hwait : x.waitState x.packets = .waitingForEndOfMsg := if_pos rfl
    rw [hwait]
    exact ⟨_, receive_eoma hd pts ta, pts, ta, rfl⟩
  left_rest := by
    rintro (k | k | _) a p h hok hp
    · obtain ⟨pts, ta, rfl⟩ := h
      obtain ⟨ta', hp'⟩ := pump_sender hd hok fun _ => by
        unfold waitState
        split <;> decide
      exact ⟨_, hp', pts, ta', rfl⟩
    · obtain ⟨ta, rfl⟩ := h
      obtain ⟨ta', hp'⟩ := pump_sender hd hok fun h => absurd ⟨h, k, rfl⟩ hp
      exact ⟨_, hp', ta', rfl⟩
    · obtain ⟨pts, ta, rfl⟩ := h
      exact ⟨_, pump_idle rfl p, pts, ta, rfl⟩
  right_rest := by
    rintro (_ | ⟨k, i⟩ | _) b p h hok
    · subst h
      exact ⟨_, pump_idle rfl p, rfl⟩
    · obtain ⟨tb, rfl⟩ := h
      obtain ⟨tb', hp⟩ := pump_receiver hok
      exact ⟨_, hp, tb', rfl⟩
    · obtain ⟨start, size, rfl⟩ := h
      exact ⟨_, pump_idle rfl p, start, size, rfl⟩

/-- The call to `send` announces the transfer. -/
theorem start_announced (hd : x.dest ≠ broadcastAddress) :
    (x.windowed hd).Holds .announced x.start := by
  have hwait : x.waitState 0 = .waitingForCTS := by
    have := x.packets_spec
    exact if_neg (by omega)
  refine ⟨trivial, x.sender [x.txSession .waitingForCTS 0 0 0] [], _, ⟨0, 0, by rw [hwait]⟩,
    rfl, ?_⟩
  rw [start, sent_directed hd]
  refine ⟨rfl, rfl, rfl, rfl, fun f hf => ?_⟩
  rw [mem_singleton.mp hf]
  exact not_isAbort_makeCm rfl

/-- A transfer under way is sound. -/
theorem sound_of_underway (h : (x.windowed hd).Underway l) : Sound l := by
  have hleft : ∃ ss done, done.length ≤ 1 ∧ l.left = x.sender ss done :=
    match h.left with
    | ⟨.waiting _, _, _, ha⟩ | ⟨.sending _, _, ha⟩ | ⟨.sent, _, _, ha⟩ => ⟨_, _, by simp, ha⟩
  have hright : ∃ ss done, done.length ≤ 1 ∧ l.right = x.receiver ss done :=
    match h.right with
    | ⟨.fresh, hb⟩ | ⟨.receiving _ _, _, hb⟩ | ⟨.received, _, _, hb⟩ => ⟨_, _, by simp, hb⟩
  obtain ⟨ss, done, hl, ha⟩ := hleft
  obtain ⟨ss', done', hr, hb⟩ := hright
  exact sound_of_eq h.log ha hb hl hr

/-- A finished transfer has delivered the message. -/
theorem delivered_of_finished (h : (x.windowed hd).Finished l) : Delivered x l := by
  obtain ⟨pts, ta, ha⟩ := h.left
  obtain ⟨start, size, hb⟩ := h.right
  exact delivered_of_eq ha hb h.toRight h.toLeft

/-! ## Broadcasts -/

/-- The sender with `k` packets of a broadcast sent. -/
def BroadcastSender (x : Transfer) (k : ℕ) (t : TransportProtocol) : Prop :=
  k < x.packets ∧ (∃ ta, t = x.sender [x.txSession .sendingData k 0 ta] []) ∨
    k = x.packets ∧ t = x.sender [] [x.txSession .complete x.packets 0 0]

/-- The receiver with `j` packets of a broadcast received. -/
def BroadcastReceiver (x : Transfer) (j : ℕ) (t : TransportProtocol) : Prop :=
  j < x.packets ∧ (∃ tb, t = x.receiver [x.rxSession .receivingData 16 j 1 0 tb] []) ∨
    j = x.packets ∧ t = x.receiver [] [x.received 16 1 0 .receivingData]

/-- The phases of a broadcast. -/
inductive BroadcastPhase
  /-- `k` packets are sent and the BAM is still under way. -/
  | announced (k : ℕ)
  /-- `k` packets are sent and `j` of them received. -/
  | arriving (k j : ℕ)

namespace BroadcastPhase

section

variable (x : Transfer)

/-- The link in a phase. -/
def Holds : BroadcastPhase → Link TransportProtocol TransportProtocol Frame → Prop
  | announced k, l => k ≤ x.packets ∧ ∃ a, BroadcastSender x k a ∧
      Link.At (fun f => ¬IsAbort f) a (x.receiver [] []) (x.bam :: x.packetsFrom 0 k) [] l
  | arriving k j, l => j ≤ k ∧ k ≤ x.packets ∧ ∃ a b, BroadcastSender x k a ∧
      BroadcastReceiver x j b ∧
      Link.At (fun f => ¬IsAbort f) a b (x.packetsFrom j (k - j)) [] l

/-- What is left to do. -/
def rank : BroadcastPhase → ℕ
  | announced k => x.packets - k + x.packets + 1
  | arriving k j => x.packets - k + (x.packets - j)

/-- As long as packets are to be sent, the phase waits for the timer, and
then for what is under way. -/
def help : BroadcastPhase → LinkAct Pump Pump → Prop
  | announced k, act | arriving k _, act =>
    if k < x.packets then
      ∃ elapsedMs, tpBamInterPacketMs ≤ elapsedMs ∧ act = .left (.update elapsedMs)
    else act = .deliverRight

end

/-- **The sender is driven.** It sends its next packet, or it is not due
yet, or it has sent everything. -/
theorem drive (hb : x.dest = broadcastAddress) {k : ℕ} {a : TransportProtocol}
    (h : BroadcastSender x k a) (p : Pump) :
    (k < x.packets ∧ ∃ a', BroadcastSender x (k + 1) a' ∧ pump a p = (a', [x.packet k])) ∨
      (∃ a', BroadcastSender x k a' ∧ pump a p = (a', [])) ∧
        ¬(k < x.packets ∧ ∃ elapsedMs, tpBamInterPacketMs ≤ elapsedMs ∧ p = .update elapsedMs) := by
  rcases h with ⟨hk, ta, rfl⟩ | ⟨rfl, rfl⟩
  · cases p with
    | pending =>
      refine .inr ⟨⟨_, .inl ⟨hk, ta, rfl⟩, pending_broadcast hb k ta⟩, ?_⟩
      rintro ⟨-, e, -, he⟩
      cases he
    | update elapsedMs =>
      by_cases hdue : tpBamInterPacketMs ≤ satAdd32 ta elapsedMs
      · have hdrive := drive_sender hb hk hdue
        refine .inl ⟨hk, _, ?_, hdrive⟩
        by_cases hmore : k + 1 < x.packets
        · rw [if_pos hmore]
          exact .inl ⟨hmore, 0, rfl⟩
        · rw [if_neg hmore]
          exact .inr ⟨by omega, rfl⟩
      · refine .inr ⟨⟨_, .inl ⟨hk, _, rfl⟩, wait_sender hdue⟩, ?_⟩
        -- a full step would have made it due
        rintro ⟨-, e, hge, he⟩
        cases he
        apply hdue
        unfold satAdd32 u32Max
        unfold tpBamInterPacketMs at hge ⊢
        omega
  · refine .inr ⟨⟨_, .inr ⟨rfl, rfl⟩, pump_idle rfl p⟩, ?_⟩
    rintro ⟨h, -⟩
    exact absurd h (lt_irrefl _)

/-- The receiver only grows older. -/
theorem rest {j : ℕ} (h : BroadcastReceiver x j b) {p : Pump}
    (hin : InTime b p) : ∃ b', BroadcastReceiver x j b' ∧ pump b p = (b', []) := by
  rcases h with ⟨hj, tb, rfl⟩ | ⟨rfl, rfl⟩
  · obtain ⟨tb', hp⟩ := pump_receiver hin
    exact ⟨_, .inl ⟨hj, tb', rfl⟩, hp⟩
  · exact ⟨_, .inr ⟨rfl, rfl⟩, pump_idle rfl p⟩

section

variable (hb : x.dest = broadcastAddress)
include hb

/-- **A packet arrives.** -/
theorem receive {j : ℕ} (h : BroadcastReceiver x j b) (hj : j < x.packets) :
    ∃ b', BroadcastReceiver x (j + 1) b' ∧ b.processFrame (x.packet j) x.portB = (b', []) := by
  rcases h with ⟨-, tb, rfl⟩ | ⟨rfl, rfl⟩
  · by_cases hmore : j + 1 < x.packets
    · exact ⟨_, .inl ⟨hmore, 0, rfl⟩, receive_broadcast_more hb tb hmore⟩
    · have hlast := receive_packet_last (.inr rfl) 16 1 0 tb (x := x) (j := j) (by omega)
      rw [if_pos hb] at hlast
      exact ⟨_, .inr ⟨by omega, rfl⟩, hlast⟩
  · exact absurd hj (lt_irrefl _)

/-- An announced broadcast is heard. -/
theorem moves_announced {k : ℕ}
    (h : (announced k).Holds x l) :
    Advances (Holds x) (rank x) (help x) (announced k) act (x.step l act) := by
  obtain ⟨hk, a, ha, h⟩ := h
  have hN := x.packets_spec
  cases act with
  | deliverRight =>
    refine ⟨arriving k 0, ⟨zero_le k, hk, a, _, ha, .inl ⟨by omega, 0, rfl⟩, ?_⟩,
      .inl (by simp only [rank]; omega)⟩
    exact h.deliverRight (receive_bam hb) (by simp)
  | deliverLeft =>
    refine ⟨announced k, ⟨hk, a, ha, h.deliverLeft_nil⟩, .inr ⟨rfl, fun _ => ?_⟩⟩
    simp only [help]
    split <;> simp
  | left p =>
    rcases drive hb ha p with ⟨hlt, a', ha', hp⟩ | ⟨⟨a', ha', hp⟩, hno⟩
    · refine ⟨announced (k + 1), ⟨hlt, a', ha', ?_⟩, .inl (by simp only [rank]; omega)⟩
      have h' : Link.At (fun f => ¬IsAbort f) a' (x.receiver [] [])
          (x.bam :: x.packetsFrom 0 k ++ [x.packet k]) [] (x.step l (.left p)) :=
        h.actLeft hp (by simpa using not_isAbort_packet k)
      have hq := packetsFrom_concat (x := x) 0 k
      rw [zero_add] at hq
      rwa [cons_append, hq] at h'
    · refine ⟨announced k, ⟨hk, a', ha', h.actLeft_silent hp⟩, .inr ⟨rfl, fun _ => ?_⟩⟩
      simp only [help]
      split
      · rintro ⟨e, he, hact⟩
        exact hno ⟨by assumption, e, he, LinkAct.left.inj hact⟩
      · exact nofun
  | right p =>
    refine ⟨announced k, ⟨hk, a, ha, h.actRight_silent (pump_idle rfl p)⟩, .inr ⟨rfl, fun _ => ?_⟩⟩
    simp only [help]
    split <;> simp

/-- One under way goes on, a packet at a time. -/
theorem moves_arriving {k j : ℕ} (hok : Timely l act)
    (h : (arriving k j).Holds x l) :
    Advances (Holds x) (rank x) (help x) (arriving k j) act (x.step l act) := by
  obtain ⟨hjk, hk, a, b, ha, hbr, h⟩ := h
  cases act with
  | deliverRight =>
    rcases lt_or_ge j k with hlt | hge
    · have hcons : x.packetsFrom j (k - j) = x.packet j :: x.packetsFrom (j + 1) (k - (j + 1)) := by
        rw [← packetsFrom_cons]
        congr 1
        omega
      rw [hcons] at h
      obtain ⟨b', hb', hr⟩ := receive hb hbr (by omega)
      refine ⟨arriving k (j + 1), ⟨hlt, hk, a, b', ha, hb', h.deliverRight hr (by simp)⟩,
        .inl (by simp only [rank]; omega)⟩
    · -- the queue is empty: either packets are to be sent, or all is done
      have hnil : x.packetsFrom j (k - j) = [] := by
        rw [Nat.sub_eq_zero_of_le hge]
        rfl
      refine ⟨arriving k j, ⟨hjk, hk, a, b, ha, hbr, ?_⟩, .inr ⟨rfl, fun hpos => ?_⟩⟩
      · rw [hnil] at h ⊢
        exact h.deliverRight_nil
      · simp only [rank] at hpos
        simp only [help]
        rw [if_pos (by omega)]
        simp
  | deliverLeft =>
    refine ⟨arriving k j, ⟨hjk, hk, a, b, ha, hbr, h.deliverLeft_nil⟩, .inr ⟨rfl, fun _ => ?_⟩⟩
    simp only [help]
    split <;> simp
  | left p =>
    rcases drive hb ha p with ⟨hlt, a', ha', hp⟩ | ⟨⟨a', ha', hp⟩, hno⟩
    · refine ⟨arriving (k + 1) j, ⟨by omega, hlt, a', b, ha', hbr, ?_⟩,
        .inl (by simp only [rank]; omega)⟩
      have h' : Link.At (fun f => ¬IsAbort f) a' b (x.packetsFrom j (k - j) ++ [x.packet k]) []
          (x.step l (.left p)) :=
        h.actLeft hp (by simpa using not_isAbort_packet k)
      have hq := packetsFrom_concat (x := x) j (k - j)
      rw [Nat.add_sub_cancel' hjk] at hq
      rwa [hq, show k - j + 1 = k + 1 - j by omega] at h'
    · refine ⟨arriving k j, ⟨hjk, hk, a', b, ha', hbr, h.actLeft_silent hp⟩,
        .inr ⟨rfl, fun _ => ?_⟩⟩
      simp only [help]
      split
      · rintro ⟨e, he, hact⟩
        exact hno ⟨by assumption, e, he, LinkAct.left.inj hact⟩
      · exact nofun
  | right p =>
    have hin : InTime b p := h.right ▸ hok
    obtain ⟨b', hb', hp⟩ := rest hbr hin
    refine ⟨arriving k j, ⟨hjk, hk, a, b', ha, hb', h.actRight_silent hp⟩, .inr ⟨rfl, fun _ => ?_⟩⟩
    simp only [help]
    split <;> simp

end

/-- The phases of a broadcast, as a description of the link. -/
def phases (hb : x.dest = broadcastAddress) : Phases x.step BroadcastPhase where
  P := Holds x
  rank := rank x
  help := help x
  ok := Timely
  moves
    | announced _, _, _, _, h => moves_announced hb h
    | arriving _ _, _, _, hok, h => moves_arriving hb hok h

/-- Every phase is sound. -/
theorem Holds.sound {i : BroadcastPhase} (h : i.Holds x l) : Sound l := by
  cases i with
  | announced k =>
    obtain ⟨-, a, ⟨-, ta, rfl⟩ | ⟨-, rfl⟩, h⟩ := h
    all_goals exact sound_of_eq h.log h.left h.right (by simp) (by simp)
  | arriving k j =>
    obtain ⟨-, -, a, b, ⟨-, ta, rfl⟩ | ⟨-, rfl⟩, ⟨-, tb, rfl⟩ | ⟨-, rfl⟩, h⟩ := h
    all_goals exact sound_of_eq h.log h.left h.right (by simp) (by simp)

/-- Once everything is sent and received, the message has arrived. -/
theorem Holds.delivered {i : BroadcastPhase} (h : i.Holds x l) (h0 : i.rank x = 0) :
    Delivered x l := by
  cases i with
  | announced k => simp [rank] at h0
  | arriving k j =>
    obtain ⟨hjk, hk, a, b, ha, hbr, h⟩ := h
    simp only [rank] at h0
    rcases ha with ⟨hlt, -⟩ | ⟨-, rfl⟩
    · omega
    rcases hbr with ⟨hlt, -⟩ | ⟨-, rfl⟩
    · omega
    · have hnil : x.packetsFrom j (k - j) = [] := by
        rw [Nat.sub_eq_zero_of_le (by omega)]
        rfl
      exact delivered_of_eq h.left h.right (h.toRight.trans hnil) h.toLeft

/-- The call to `send` announces the broadcast. -/
theorem start_holds (hb : x.dest = broadcastAddress) : (announced 0).Holds x x.start := by
  have hN := x.packets_spec
  refine ⟨zero_le _, x.sender [x.txSession .sendingData 0 0 0] [], .inl ⟨by omega, 0, rfl⟩, ?_⟩
  have hbam : ¬IsAbort x.bam := not_isAbort_makeCm rfl
  rw [start, sent_broadcast hb]
  exact ⟨rfl, rfl, rfl, rfl, by simpa [Except.toOption] using hbam⟩

/-- In a fair schedule no phase waits in vain. -/
theorem help_of_fair (hb : x.dest = broadcastAddress) {σ : ℕ → LinkAct Pump Pump}
    (hfair : x.Fair σ) (i : BroadcastPhase) : Recurs σ (i.help x) := by
  cases i with
  | announced k | arriving k j =>
    by_cases hk : k < x.packets
    · intro n
      simp only [help, if_pos hk]
      exact hfair.drive hb n
    intro n
    simp only [help, if_neg hk]
    exact hfair.deliverRight n

end BroadcastPhase

/-! ## Delivery -/

/-- **TP delivers.** For every valid PGN, every payload of 9 to 1785
bytes, every advertised window, every claimable source and every receiver
whose cap admits the payload, the call to `send` succeeds, and every fair
and timely schedule of deliveries, drains and timer steps ends, for good,
with the message delivered. On the way no abort is produced and neither
side completes anything twice. -/
theorem transfer_delivered (x : Transfer) (σ : ℕ → LinkAct Pump Pump) (hfair : x.Fair σ)
    (htimely : ∀ n, Timely (stateAt x.step x.start σ n) (σ n)) :
    (∃ frames, x.sent.2 = .ok frames) ∧ (∀ n, Sound (stateAt x.step x.start σ n)) ∧
      ∃ n, ∀ m, n ≤ m → Delivered x (stateAt x.step x.start σ m) := by
  by_cases hd : x.dest = broadcastAddress
  · obtain ⟨hway, n, hend⟩ := (BroadcastPhase.phases hd).settles (i := .announced 0) htimely
      (fun i _ => BroadcastPhase.help_of_fair hd hfair i) (BroadcastPhase.start_holds hd)
    refine ⟨⟨_, congrArg Prod.snd (sent_broadcast hd)⟩, fun n => ?_, n, fun m hm => ?_⟩
    · obtain ⟨i, hi⟩ := hway n
      exact BroadcastPhase.Holds.sound hi
    · obtain ⟨i, h0, hi⟩ := hend m hm
      exact BroadcastPhase.Holds.delivered hi h0
  · obtain ⟨hway, n, hend⟩ := Windowed.delivers (start_announced hd) htimely hfair.deliverRight
      (hfair.deliverLeft hd) (hfair.drain hd)
    exact ⟨⟨_, congrArg Prod.snd (sent_directed hd)⟩, fun n => sound_of_underway (hway n), n,
      fun m hm => delivered_of_finished (hend m hm)⟩

/-- Twenty bytes in windows of two packets. -/
def twentyBytes : Transfer where
  pgn := 0xEF00
  data := (List.range 20).map UInt8.ofNat
  source := 0x20
  dest := 0x30
  portA := 0
  portB := 1
  priority := .default
  window := 2
  cap := 1785
  pgn_valid := rfl
  length_gt := by decide
  length_le := by decide
  source_le := show (0x20 : UInt8) ≤ 0xFD by decide
  dest_ne := by decide
  cap_ge := by decide

theorem transfer_delivered_twentyBytes :
    ∃ n, ∀ m, n ≤ m →
      Delivered twentyBytes (stateAt twentyBytes.step twentyBytes.start (.inTurn .pending) m) := by
  have hfair : twentyBytes.Fair (.inTurn .pending) :=
    { deliverRight := LinkAct.inTurn_deliverRight _
      deliverLeft := fun _ => LinkAct.inTurn_deliverLeft _
      drain := fun _ => LinkAct.inTurn_left _
      drive := fun h => absurd h (by decide) }
  exact (transfer_delivered twentyBytes (.inTurn .pending) hfair fun n =>
    LinkAct.allowed_inTurn (fun _ => trivial) _ n).2.2

end Tp.Transfer

end Machbus
