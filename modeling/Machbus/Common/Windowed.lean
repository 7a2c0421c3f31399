import Machbus.Common.Link
import Machbus.Common.Run
/-!
# Windowed transfers

The sender announces a message and then sends it in windows: the receiver
grants one, the sender drains it, and with the last message of the window
the receiver grants the next or, at the end, acknowledges the whole.
`Windowed` says what the two parties do at each point of such an
exchange, up to whatever else their states hold. `Windowed.delivers` says
that any fair schedule gets to the end of it.
-/

namespace Machbus

open Nat

/-- Where the sender stands. -/
inductive Windowed.Sender
  /-- It has sent `k` packets and waits for the next window, or, at the
  end, for the acknowledgement. -/
  | waiting (k : ℕ)
  /-- The window after `k` packets is granted. -/
  | sending (k : ℕ)
  | sent

/-- Where the receiver stands. -/
inductive Windowed.Receiver
  | fresh
  /-- It has the first `i` messages of the window after `k` packets. -/
  | receiving (k i : ℕ)
  | received

/-- **A windowed transfer** of `packets` packets between two parties. The
predicates name the points of the exchange; the laws say how a message or
an action leads from one to the next, and that nothing else does. -/
structure Windowed (S T M α β : Type*) where
  parties : Parties S T M α β
  /-- The messages the parties may send. -/
  good : M → Prop
  okLeft : S → α → Prop
  okRight : T → β → Prop
  /-- The sender's action that sends a granted window. -/
  drain : α
  packets : ℕ
  /-- The packets of the window after `k` packets. -/
  window : ℕ → ℕ
  /-- The messages that window takes. -/
  size : ℕ → ℕ
  maxSize : ℕ
  announce : M
  grant : ℕ → M
  /-- Message `i` of the window after `k` packets. -/
  message : ℕ → ℕ → M
  ack : M
  Left : Windowed.Sender → S → Prop
  Right : Windowed.Receiver → T → Prop
  packets_pos : 0 < packets
  window_pos : ∀ k, k < packets → 0 < window k ∧ k + window k ≤ packets
  size_pos : ∀ k, k < packets → 0 < size k
  size_le : ∀ k, size k ≤ maxSize
  good_grant : ∀ k, good (grant k)
  good_message : ∀ k i, good (message k i)
  good_ack : good ack
  fresh_announce : ∀ b, Right .fresh b →
    ∃ b', parties.recvRight b announce = (b', [grant 0]) ∧ Right (.receiving 0 0) b'
  waiting_grant : ∀ k a, k < packets → Left (.waiting k) a →
    ∃ a', parties.recvLeft a (grant k) = (a', []) ∧ Left (.sending k) a'
  sending_drain : ∀ k a, k < packets → Left (.sending k) a →
    ∃ a', parties.actLeft a drain = (a', (List.range' 0 (size k)).map (message k)) ∧
      Left (.waiting (k + window k)) a'
  receiving_next : ∀ k i b, k < packets → i + 1 < size k → Right (.receiving k i) b →
    ∃ b', parties.recvRight b (message k i) = (b', []) ∧ Right (.receiving k (i + 1)) b'
  receiving_window : ∀ k i b, k + window k < packets → i + 1 = size k → Right (.receiving k i) b →
    ∃ b', parties.recvRight b (message k i) = (b', [grant (k + window k)]) ∧
      Right (.receiving (k + window k) 0) b'
  receiving_last : ∀ k i b, k < packets → k + window k = packets → i + 1 = size k →
    Right (.receiving k i) b →
    ∃ b', parties.recvRight b (message k i) = (b', [ack]) ∧ Right .received b'
  waiting_ack : ∀ a, Left (.waiting packets) a →
    ∃ a', parties.recvLeft a ack = (a', []) ∧ Left .sent a'
  left_rest : ∀ p a x, Left p a → okLeft a x → ¬(x = drain ∧ ∃ k, p = .sending k) →
    ∃ a', parties.actLeft a x = (a', []) ∧ Left p a'
  right_rest : ∀ p b x, Right p b → okRight b x →
    ∃ b', parties.actRight b x = (b', []) ∧ Right p b'

namespace Windowed

variable {S T M α β : Type*} (W : Windowed S T M α β)

/-- One choice of the schedule. -/
abbrev step : Link S T M → LinkAct α β → Link S T M := Link.step W.parties

/-- Messages `i` and on of the window after `k` packets. -/
def messagesFrom (k i : ℕ) : List M := (List.range' i (W.size k - i)).map (W.message k)

/-- The phases of the exchange. -/
inductive Phase
  /-- The announcement is under way. -/
  | announced
  /-- The grant of the window after `k` packets is under way. -/
  | granted (k : ℕ)
  /-- That window is granted and not drained. -/
  | sending (k : ℕ)
  /-- Messages `i` and on of that window are under way. -/
  | arriving (k i : ℕ)
  /-- The acknowledgement is under way. -/
  | acknowledged
  | done

/-- Where the sender stands in a phase. -/
def sender : Phase → Sender
  | .announced => .waiting 0
  | .granted k => .waiting k
  | .sending k => .sending k
  | .arriving k _ => .waiting (k + W.window k)
  | .acknowledged => .waiting W.packets
  | .done => .sent

/-- Where the receiver stands. -/
def receiver : Phase → Receiver
  | .announced => .fresh
  | .granted k | .sending k => .receiving k 0
  | .arriving k i => .receiving k i
  | .acknowledged | .done => .received

/-- What is under way to the receiver. -/
def toRight : Phase → List M
  | .announced => [W.announce]
  | .arriving k i => W.messagesFrom k i
  | _ => []

/-- What is under way to the sender. -/
def toLeft : Phase → List M
  | .granted k => [W.grant k]
  | .acknowledged => [W.ack]
  | _ => []

/-- The window of a phase is one of the transfer, and so is its message. -/
def Inside : Phase → Prop
  | .granted k | .sending k => k < W.packets
  | .arriving k i => k < W.packets ∧ i < W.size k
  | _ => True

/-- The link in a phase. -/
def Holds (p : Phase) (l : Link S T M) : Prop :=
  W.Inside p ∧ ∃ a b, W.Left (W.sender p) a ∧ W.Right (receiver p) b ∧
    Link.At W.good a b (W.toRight p) (W.toLeft p) l

/-- What is left to do. A window of packets outweighs its messages and
the grant. -/
def rank : Phase → ℕ
  | .announced => W.packets * (W.maxSize + 3) + 2
  | .granted k => (W.packets - k) * (W.maxSize + 3) + 1
  | .sending k => (W.packets - k) * (W.maxSize + 3)
  | .arriving k i => (W.packets - k) * (W.maxSize + 3) - 1 - i
  | .acknowledged => 1
  | .done => 0

/-- What a phase waits for. -/
def help : Phase → LinkAct α β → Prop
  | .announced, act => act = .deliverRight
  | .granted _, act => act = .deliverLeft
  | .sending _, act => act = .left W.drain
  | .arriving _ _, act => act = .deliverRight
  | .acknowledged, act => act = .deliverLeft
  | .done, _ => False

/-- What a schedule may do. -/
abbrev Ok : Link S T M → LinkAct α β → Prop := Link.Allowed W.okLeft W.okRight

variable {W} {l : Link S T M} {act : LinkAct α β} {k i : ℕ} {a : S} {b : T} {p : Phase}

/-- The weight of a window. -/
theorem rank_window (hk : k < W.packets) :
    (W.packets - (k + W.window k)) * (W.maxSize + 3) + (W.maxSize + 3) ≤
      (W.packets - k) * (W.maxSize + 3) := by
  have hw := W.window_pos k hk
  rw [← succ_mul]
  exact mul_le_mul_right _ (by omega)

theorem messagesFrom_cons (h : i < W.size k) :
    W.messagesFrom k i = W.message k i :: W.messagesFrom k (i + 1) := by
  rw [messagesFrom, messagesFrom, show W.size k - i = W.size k - (i + 1) + 1 by omega,
    List.range'_succ, List.map_cons]

/-- **A message arrives**: inside the window, at its end, or as the last
of all. -/
theorem moves_message (h : W.Holds (.arriving k i) l) :
    Advances W.Holds W.rank W.help (.arriving k i) .deliverRight (W.step l .deliverRight) := by
  obtain ⟨⟨hk, hi⟩, a, b, ha, hb, h⟩ := h
  have hw := W.window_pos k hk
  have hlt := rank_window hk
  have hsize := W.size_le k
  rw [toRight, messagesFrom_cons hi] at h
  rcases Nat.lt_or_ge (i + 1) (W.size k) with hin | hend
  · obtain ⟨b', hr, hb'⟩ := W.receiving_next _ _ _ hk hin hb
    refine ⟨.arriving k (i + 1), ⟨⟨hk, hin⟩, a, b', ha, hb', ?_⟩, .inl ?_⟩
    · exact h.deliverRight hr (by simp)
    · simp only [rank]
      omega
  · have hi' : i + 1 = W.size k := by omega
    have hnil : W.messagesFrom k (i + 1) = [] := by rw [messagesFrom, hi', Nat.sub_self]; rfl
    rw [hnil] at h
    rcases Nat.lt_or_ge (k + W.window k) W.packets with hmore | hlast
    · -- the window is used up and the transfer is not
      obtain ⟨b', hr, hb'⟩ := W.receiving_window _ _ _ hmore hi' hb
      refine ⟨.granted (k + W.window k), ⟨hmore, a, b', ha, hb', ?_⟩,
        .inl (by simp only [rank]; omega)⟩
      exact h.deliverRight hr (by simpa using W.good_grant _)
    · have hall : k + W.window k = W.packets := by omega
      obtain ⟨b', hr, hb'⟩ := W.receiving_last _ _ _ hk hall hi' hb
      rw [sender, hall] at ha
      refine ⟨.acknowledged, ⟨trivial, a, b', ha, hb', ?_⟩, .inl (by simp only [rank]; omega)⟩
      exact h.deliverRight hr (by simpa using W.good_ack)

/-- **What one choice of the schedule does in a phase.** -/
theorem moves (hok : W.Ok l act) (h : W.Holds p l) :
    Advances W.Holds W.rank W.help p act (W.step l act) := by
  obtain ⟨hin, a, b, ha, hb, hat⟩ := id h
  cases act with
  | deliverRight =>
    cases p with
    | announced =>
      obtain ⟨b', hr, hb'⟩ := W.fresh_announce _ hb
      refine ⟨.granted 0, ⟨W.packets_pos, a, b', ha, hb', ?_⟩, .inl (lt_succ_self _)⟩
      exact hat.deliverRight hr (by simpa using W.good_grant 0)
    | arriving k i => exact moves_message h
    | granted | sending | acknowledged =>
      exact .stays ⟨hin, a, b, ha, hb, hat.deliverRight_nil⟩ nofun
    | done => exact .stays ⟨hin, a, b, ha, hb, hat.deliverRight_nil⟩ id
  | deliverLeft =>
    cases p with
    | granted k =>
      obtain ⟨a', hr, ha'⟩ := W.waiting_grant _ _ hin ha
      exact ⟨.sending k, ⟨hin, a', b, ha', hb, hat.deliverLeft hr (by simp)⟩,
        .inl (lt_succ_self _)⟩
    | acknowledged =>
      obtain ⟨a', hr, ha'⟩ := W.waiting_ack _ ha
      exact ⟨.done, ⟨hin, a', b, ha', hb, hat.deliverLeft hr (by simp)⟩, .inl Nat.zero_lt_one⟩
    | announced | sending | arriving =>
      exact .stays ⟨hin, a, b, ha, hb, hat.deliverLeft_nil⟩ nofun
    | done => exact .stays ⟨hin, a, b, ha, hb, hat.deliverLeft_nil⟩ id
  | left x =>
    by_cases hx : x = W.drain ∧ ∃ k, W.sender p = .sending k
    · -- the whole window goes out at once
      obtain ⟨rfl, k, hk⟩ := hx
      cases p <;> cases hk
      obtain ⟨a', hr, ha'⟩ := W.sending_drain _ _ hin ha
      have hlt := rank_window hin
      refine ⟨.arriving k 0, ⟨⟨hin, W.size_pos k hin⟩, a', b, ha', hb, hat.actLeft hr ?_⟩,
        .inl (by simp only [rank]; omega)⟩
      intro m hm
      obtain ⟨i, -, rfl⟩ := List.mem_map.mp hm
      exact W.good_message k i
    · obtain ⟨a', hr, ha'⟩ := W.left_rest _ _ x ha (hat.left ▸ hok) hx
      refine .stays ⟨hin, a', b, ha', hb, hat.actLeft_silent hr⟩ fun hh => hx ?_
      cases p <;> cases hh
      exact ⟨rfl, _, rfl⟩
  | right x =>
    obtain ⟨b', hr, hb'⟩ := W.right_rest _ _ x hb (hat.right ▸ hok)
    refine .stays ⟨hin, a, b', ha, hb', hat.actRight_silent hr⟩ fun hh => ?_
    cases p <;> cases hh

variable (W)

/-- The phases, as a description of the link. -/
def phases : Phases W.step Phase := ⟨W.Holds, W.rank, W.help, W.Ok, fun _ _ _ => moves⟩

/-- **On the way.** Either party is at one of its points, and everything
sent so far is good. -/
structure Underway (l : Link S T M) : Prop where
  left : ∃ p, W.Left p l.left
  right : ∃ p, W.Right p l.right
  log : ∀ m ∈ l.log, W.good m

/-- **The end.** Both parties are through and nothing is under way. -/
structure Finished (l : Link S T M) : Prop where
  left : W.Left .sent l.left
  right : W.Right .received l.right
  toRight : l.toRight = []
  toLeft : l.toLeft = []

variable {W} {σ : ℕ → LinkAct α β}

theorem Holds.underway (h : W.Holds p l) : W.Underway l := by
  obtain ⟨-, a, b, ha, hb, h⟩ := h
  exact ⟨⟨_, h.left ▸ ha⟩, ⟨_, h.right ▸ hb⟩, h.log⟩

/-- Only the last phase leaves nothing to do. -/
theorem Holds.finished (h : W.Holds p l) (h0 : W.rank p = 0) : W.Finished l := by
  obtain ⟨hin, a, b, ha, hb, h⟩ := h
  cases p with
  | done => exact ⟨h.left ▸ ha, h.right ▸ hb, h.toRight, h.toLeft⟩
  | announced | granted | acknowledged => simp [rank] at h0
  | sending k =>
    have hlt := rank_window hin
    simp only [rank] at h0
    omega
  | arriving k i =>
    have hlt := rank_window hin.1
    have hi := hin.2
    have hsize := W.size_le k
    simp only [rank] at h0
    omega

/-- In a schedule that keeps delivering and draining no phase waits in
vain. -/
theorem recurs_help (hright : Recurs σ (· = .deliverRight))
    (hleft : Recurs σ (· = .deliverLeft)) (hdrain : Recurs σ (· = .left W.drain)) (p : Phase)
    (hpos : 0 < W.rank p) : Recurs σ (W.help p) := by
  cases p with
  | announced | arriving => exact hright
  | granted | acknowledged => exact hleft
  | sending => exact hdrain
  | done => exact absurd hpos (Nat.lt_irrefl 0)

/-- **A windowed transfer gets through.** From the announcement on, every
schedule that keeps delivering and draining is on the way at all times
and, from some time on, finished. -/
theorem delivers (hstart : W.Holds .announced l)
    (hok : ∀ n, W.Ok (stateAt W.step l σ n) (σ n)) (hright : Recurs σ (· = .deliverRight))
    (hleft : Recurs σ (· = .deliverLeft)) (hdrain : Recurs σ (· = .left W.drain)) :
    (∀ n, W.Underway (stateAt W.step l σ n)) ∧
      ∃ n, ∀ m, n ≤ m → W.Finished (stateAt W.step l σ m) := by
  obtain ⟨hway, n, hend⟩ := W.phases.settles hok (recurs_help hright hleft hdrain) hstart
  refine ⟨fun n => ?_, n, fun m hm => ?_⟩
  · obtain ⟨p, hp⟩ := hway n
    exact Holds.underway hp
  · obtain ⟨p, h0, hp⟩ := hend m hm
    exact Holds.finished hp h0

end Windowed

/-! ## A schedule -/

namespace LinkAct

variable {α β : Type*}

/-- Deliveries either way and one of the left party's actions, in turn. -/
def inTurn (x : α) (n : ℕ) : LinkAct α β :=
  if n % 3 = 0 then .deliverRight else if n % 3 = 1 then .deliverLeft else .left x

theorem inTurn_deliverRight (x : α) : Recurs (inTurn (β := β) x) (· = .deliverRight) :=
  fun n => ⟨3 * n, by omega, by simp [inTurn]⟩

theorem inTurn_deliverLeft (x : α) : Recurs (inTurn (β := β) x) (· = .deliverLeft) :=
  fun n => ⟨3 * n + 1, by omega, by simp [inTurn, add_mod]⟩

theorem inTurn_left (x : α) : Recurs (inTurn (β := β) x) (· = .left x) :=
  fun n => ⟨3 * n + 2, by omega, by simp [inTurn, add_mod]⟩

/-- It does nothing that `x` is not allowed to. -/
theorem allowed_inTurn {S T M : Type*} {okLeft : S → α → Prop} {okRight : T → β → Prop} {x : α}
    (h : ∀ s, okLeft s x) (l : Link S T M) (n : ℕ) : Link.Allowed okLeft okRight l
    (inTurn x n) := by
  unfold inTurn
  split
  · trivial
  split
  · trivial
  · exact h l.left

end LinkAct

end Machbus
