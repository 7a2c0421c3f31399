import Machbus.Common.Windowed
import Machbus.Etp.Helpers.Connection
/-!
# ETP — delivery

A message handed to `send` arrives. The exchange is a windowed transfer
whose windows are groups: a DPO and then its data frames, numbered from
one within the group. Every fair schedule reaches the point where the
receiver has completed the message once, byte for byte.
-/

namespace Machbus.Etp.Transfer

variable {x : Transfer}
  {l : Link ExtendedTransportProtocol ExtendedTransportProtocol Frame}

/-! ## What delivery means -/

/-- **The message has arrived.** The receiver has completed one session,
with the PGN, the addresses and the bytes that were sent; the sender has
completed its own; nothing is open and nothing is under way. -/
structure Delivered (x : Transfer)
    (l : Link ExtendedTransportProtocol ExtendedTransportProtocol Frame) : Prop where
  received : ∃ r, l.right.onComplete = [r] ∧ r.direction = .receive ∧ r.state = .complete ∧
    r.pgn = x.pgn ∧ r.sourceAddress = x.source ∧ r.destinationAddress = x.dest ∧ r.data = x.data
  sent : ∃ s, l.left.onComplete = [s] ∧ s.direction = .transmit ∧ s.state = .complete ∧
    s.pgn = x.pgn ∧ s.sourceAddress = x.source ∧ s.destinationAddress = x.dest ∧ s.data = x.data
  leftIdle : l.left.sessions = []
  rightIdle : l.right.sessions = []
  toRight : l.toRight = []
  toLeft : l.toLeft = []

/-- **What holds on the way.** No abort has been sent or noticed, and
neither side has completed anything twice. -/
structure Sound (l : Link ExtendedTransportProtocol ExtendedTransportProtocol Frame) : Prop where
  log : ∀ f ∈ l.log, ¬IsAbort f
  leftAborts : l.left.onAbort = []
  rightAborts : l.right.onAbort = []
  leftOnce : l.left.onComplete.length ≤ 1
  rightOnce : l.right.onComplete.length ≤ 1

/-! ## Frames that are no aborts -/

theorem not_isAbort_makeCm {src dst : Address} {b0 b1 b2 b3 b4 : UInt8} {pgn : ℕ}
    (h : (b0 == EtpCm.abort) = false) : ¬IsAbort (makeCm src dst b0 b1 b2 b3 b4 pgn) :=
  fun hf => beq_eq_false_iff_ne.mp h hf.2

theorem not_isAbort_message (k i : ℕ) : ¬IsAbort (x.message k i) := by
  cases i with
  | zero => exact not_isAbort_makeCm rfl
  | succ m =>
    rintro ⟨hf, -⟩
    have := makeDt_pgn.symm.trans hf
    revert this
    decide

/-! ## The windowed transfer -/

/-- The receiver with `i` frames of the group after `k` packets. Before
the DPO the last group's numbers are still in place. -/
def Receiving (x : Transfer) (k : ℕ) : ℕ → ExtendedTransportProtocol → Prop
  | 0, t => ∃ offset last tb, t = x.receiver [x.rxSession k offset (x.grant k) 0 last tb] []
  | m + 1, t => ∃ tb, t = x.receiver [x.rxSession (k + m) k (x.grant k) (x.grant k) m tb] []

/-- Inside a group. -/
theorem receiving_message {k i : ℕ} {b : ExtendedTransportProtocol} (hk : k < x.packets)
    (hi : i < x.grant k) (h : Receiving x k i b) :
    ∃ b', b.processFrame (x.message k i) x.portB = (b', []) ∧ Receiving x k (i + 1) b' := by
  cases i with
  | zero =>
    obtain ⟨offset, last, tb, rfl⟩ := h
    exact ⟨_, receive_dpo hk offset last tb, 0, rfl⟩
  | succ m =>
    obtain ⟨tb, rfl⟩ := h
    exact ⟨_, receive_in_group tb hk hi, 0, rfl⟩

/-- **ETP is a windowed transfer.** -/
def windowed (x : Transfer) :
    Windowed ExtendedTransportProtocol ExtendedTransportProtocol Frame Pump Pump where
  parties := parties x.portA x.portB
  good f := ¬IsAbort f
  okLeft := InTime
  okRight := InTime
  drain := .pending
  packets := x.packets
  window := x.grant
  size k := x.grant k + 1
  maxSize := 17
  announce := x.rts
  grant := x.cts
  message := x.message
  ack := x.eoma
  Left
    | .waiting k, t => ∃ pts ta, t = sender [x.txSession (x.waitState k) k pts ta] []
    | .sending k, t => ∃ ta, t = sender [x.txSession .sendingData k (x.grant k) ta] []
    | .sent, t => ∃ pts ta, t = sender [] [x.txSession .complete x.packets pts ta]
  Right
    | .fresh, t => t = x.receiver [] []
    | .receiving k i, t => Receiving x k i t
    | .received, t => ∃ offset size last, t = x.receiver [] [x.received offset size last]
  packets_pos := by have := x.packets_spec; omega
  window_pos k hk := ⟨(x.grant_pos hk).1, (x.grant_pos hk).2.1⟩
  size_pos k _ := Nat.succ_pos _
  size_le k := Nat.succ_le_succ (Nat.min_le_right _ _)
  good_grant k := not_isAbort_makeCm rfl
  good_message := not_isAbort_message
  good_ack := not_isAbort_makeCm rfl
  fresh_announce := by
    rintro b rfl
    exact ⟨_, receive_rts, 0, 0, 0, rfl⟩
  waiting_grant := by
    rintro k a hk ⟨pts, ta, rfl⟩
    have hwait : x.waitState k = .waitingForCTS := if_neg (Nat.ne_of_lt hk)
    rw [hwait]
    exact ⟨_, receive_cts hk pts ta, 0, rfl⟩
  sending_drain := by
    rintro k a hk ⟨ta, rfl⟩
    exact ⟨_, pending_window hk ta, x.grant k, 0, rfl⟩
  receiving_next := by
    rintro k i b hk hi hb
    exact receiving_message hk (by omega) hb
  receiving_window := by
    rintro k i b hmore hi hb
    obtain ⟨m, rfl⟩ : ∃ m, i = m + 1 := ⟨i - 1, by have := x.grant_pos (k := k) (by omega); omega⟩
    obtain ⟨tb, rfl⟩ := hb
    exact ⟨_, receive_end_of_group tb (by omega) hmore, k, m + 1, 0, rfl⟩
  receiving_last := by
    rintro k i b hk hall hi hb
    obtain ⟨m, rfl⟩ : ∃ m, i = m + 1 := ⟨i - 1, by have := x.grant_pos hk; omega⟩
    obtain ⟨tb, rfl⟩ := hb
    exact ⟨_, receive_last tb hk (by omega) hall, _, _, _, rfl⟩
  waiting_ack := by
    rintro a ⟨pts, ta, rfl⟩
    have hwait : x.waitState x.packets = .waitingForEndOfMsg := if_pos rfl
    rw [hwait]
    exact ⟨_, receive_eoma pts ta, pts, ta, rfl⟩
  left_rest := by
    rintro (k | k | _) a p h hok hp
    · obtain ⟨pts, ta, rfl⟩ := h
      obtain ⟨ta', hp'⟩ := pump_sender hok fun _ => by
        unfold waitState
        split <;> decide
      exact ⟨_, hp', pts, ta', rfl⟩
    · obtain ⟨ta, rfl⟩ := h
      obtain ⟨ta', hp'⟩ := pump_sender hok fun h => absurd ⟨h, k, rfl⟩ hp
      exact ⟨_, hp', ta', rfl⟩
    · obtain ⟨pts, ta, rfl⟩ := h
      exact ⟨_, pump_idle rfl p, pts, ta, rfl⟩
  right_rest := by
    rintro (_ | ⟨k, _ | m⟩ | _) b p h hok
    · subst h
      exact ⟨_, pump_idle rfl p, rfl⟩
    · obtain ⟨offset, last, tb, rfl⟩ := h
      obtain ⟨tb', hp⟩ := pump_receiver hok
      exact ⟨_, hp, offset, last, tb', rfl⟩
    · obtain ⟨tb, rfl⟩ := h
      obtain ⟨tb', hp⟩ := pump_receiver hok
      exact ⟨_, hp, tb', rfl⟩
    · obtain ⟨offset, size, last, rfl⟩ := h
      exact ⟨_, pump_idle rfl p, offset, size, last, rfl⟩

theorem start_announced : x.windowed.Holds .announced x.start := by
  have hwait : x.waitState 0 = .waitingForCTS := by
    have := x.packets_spec
    exact if_neg (by omega)
  refine ⟨trivial, sender [x.txSession .waitingForCTS 0 0 0] [], _, ⟨0, 0, by rw [hwait]⟩, rfl, ?_⟩
  rw [start, sent_eq]
  refine ⟨rfl, rfl, rfl, rfl, fun f hf => ?_⟩
  rw [List.mem_singleton.mp hf]
  exact not_isAbort_makeCm rfl

/-- A transfer under way is sound. -/
theorem sound_of_underway (h : x.windowed.Underway l) : Sound l := by
  have hleft : ∃ ss done, done.length ≤ 1 ∧ l.left = sender ss done :=
    match h.left with
    | ⟨.waiting _, _, _, ha⟩ | ⟨.sending _, _, ha⟩ | ⟨.sent, _, _, ha⟩ => ⟨_, _, by simp, ha⟩
  have hright : ∃ ss done, done.length ≤ 1 ∧ l.right = x.receiver ss done :=
    match h.right with
    | ⟨.fresh, hb⟩ | ⟨.receiving _ 0, _, _, _, hb⟩ | ⟨.receiving _ (_ + 1), _, hb⟩
    | ⟨.received, _, _, _, hb⟩ => ⟨_, _, by simp, hb⟩
  obtain ⟨ss, done, hl, ha⟩ := hleft
  obtain ⟨ss', done', hr, hb⟩ := hright
  exact
    { log := h.log
      leftAborts := by rw [ha]; rfl
      rightAborts := by rw [hb]; rfl
      leftOnce := by rw [ha]; exact hl
      rightOnce := by rw [hb]; exact hr }

/-- A finished transfer has delivered the message. -/
theorem delivered_of_finished (h : x.windowed.Finished l) : Delivered x l := by
  obtain ⟨pts, ta, ha⟩ := h.left
  obtain ⟨offset, size, last, hb⟩ := h.right
  exact
    { received := ⟨_, by rw [hb]; rfl, rfl, rfl, rfl, rfl, rfl, bufferUpTo_of_le x.packets_spec.2.1⟩
      sent := ⟨_, by rw [ha]; rfl, rfl, rfl, rfl, rfl, rfl, rfl⟩
      leftIdle := by rw [ha]; rfl
      rightIdle := by rw [hb]; rfl
      toRight := h.toRight
      toLeft := h.toLeft }

/-- **ETP delivers.** For every valid PGN, every payload of 1786 to
117440505 bytes and any two claimable addresses, the call to `send`
succeeds, and every fair and timely schedule ends, for good, with the
message delivered. On the way no abort is produced and neither side
completes anything twice. -/
theorem extended_transfer_delivered (x : Transfer) (σ : ℕ → LinkAct Pump Pump) (hfair : Fair σ)
    (htimely : ∀ n, Timely (stateAt x.step x.start σ n) (σ n)) :
    (∃ frames, x.sent.2 = .ok frames) ∧ (∀ n, Sound (stateAt x.step x.start σ n)) ∧
      ∃ n, ∀ m, n ≤ m → Delivered x (stateAt x.step x.start σ m) := by
  obtain ⟨hway, n, hend⟩ := Windowed.delivers (start_announced (x := x)) htimely hfair.deliverRight
    hfair.deliverLeft hfair.drain
  exact ⟨⟨_, congrArg Prod.snd sent_eq⟩, fun n => sound_of_underway (hway n), n,
    fun m hm => delivered_of_finished (hend m hm)⟩

/-- The smallest message ETP is for. -/
def smallest : Transfer where
  pgn := 0xEF00
  data := List.replicate 1786 0x5A
  source := 0x20
  dest := 0x30
  portA := 0
  portB := 1
  priority := .default
  cap := 2000
  pgn_valid := by decide
  length_gt := by rw [List.length_replicate]; decide
  length_le := by rw [List.length_replicate]; decide
  source_le := by decide
  dest_le := by decide
  cap_ge := by rw [List.length_replicate]; decide

theorem extended_transfer_delivered_smallest :
    ∃ n, ∀ m, n ≤ m →
      Delivered smallest (stateAt smallest.step smallest.start (.inTurn .pending) m) := by
  have hfair : Fair (.inTurn .pending) :=
    { deliverRight := LinkAct.inTurn_deliverRight _
      deliverLeft := LinkAct.inTurn_deliverLeft _
      drain := LinkAct.inTurn_left _ }
  exact (extended_transfer_delivered smallest (.inTurn .pending) hfair fun n =>
    LinkAct.allowed_inTurn (fun _ => trivial) _ n).2.2

end Machbus.Etp.Transfer
