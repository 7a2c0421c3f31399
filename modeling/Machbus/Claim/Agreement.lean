import Machbus.Common.Bus
import Machbus.Claim.Helpers.Effect
/-!
# Address-claim agreement

Any number of control functions with distinct NAMEs on one bus, each
driven by its claimer: every Address Claimed frame one of them emits is
delivered to all others, in any order, between starts, updates and
requests for address claimed. The claimers follow the announce-and-defend
pattern of the bus library, which gives agreement in every quiet state.
-/

namespace Machbus

open Claim AddressClaimer Bool

namespace LocalCf

/-- What a control function on the bus does of its own accord, or when
asked for its address. -/
inductive Act
  | start
  | update (elapsedMs : ℕ)
  | request
  deriving DecidableEq, Repr

def Act.op : Act → Op
  | .start => .start
  | .update elapsedMs => .update elapsedMs
  | .request => .request

/-- The Address Claimed frames of a call go on the bus. -/
def announce (r : LocalCf × List Frame) : LocalCf × List Frame :=
  (r.1, r.2.filter fun f => f.pgn == pgnAddressClaimed)

/-- A control function as a node of the bus. A received Address Claimed
frame is handed to the claimer with its source address and its NAME. -/
def station : Station LocalCf Act Frame where
  act n a := announce (n.call a.op)
  recv n f :=
    match Name.fromBytes f.payload with
    | some other => announce (n.call (.claim f.source other))
    | none => (n, [])

/-- The control function is contesting or has claimed its address, and has
not lost it. -/
def Active (n : LocalCf) : Prop :=
  (n.cf.claimState = .waitForContest ∨ n.cf.claimState = .claimed) ∧
    n.claimer.reclaimPending = false
  deriving Decidable

theorem mem_announce {r : LocalCf × List Frame} {name : Name} {addr : Address} :
    makeClaimFrame name addr ∈ (announce r).2 ↔ makeClaimFrame name addr ∈ r.2 := by
  simp [announce]

end LocalCf

namespace Situation

/-- The invariant of a claimer on the bus: it listens in one state only,
and an address that is contested or claimed is a claimable one. -/
structure Sound (s : Situation) : Prop where
  listening : s.listening = true → s.claimState = .sendRequest
  pending : s.listening = true ∨ s.reclaiming = true → s.attempted = true
  active : s.claimState = .waitForContest ∨ s.claimState = .claimed →
    s.attempted = true ∧ s.address ≤ maxAddress

def Holds (s : Situation) (a : Address) : Prop :=
  ((s.claimState = .waitForContest ∨ s.claimState = .claimed) ∧ s.reclaiming = false) ∧
    s.address = a

end Situation

namespace Effect

variable {n : LocalCf} {s : Situation} {out : List Frame}

/-- **Addresses are announced.** What is held after a call was held before
or is claimed by a frame of the call. -/
theorem announced {op : LocalCf.Op} (h : Effect n op s out) (hn : n.situation.Sound)
    {a : Address} (hs : s.Holds a) : n.situation.Holds a ∨ makeClaimFrame n.cf.name a ∈ out := by
  obtain ⟨⟨hact, hrec⟩, rfl⟩ := hs
  cases h with
  | quiet | waited | ignored | noted | defended | answered | refused =>
    exact .inl ⟨⟨hact, hrec⟩, rfl⟩
  | requested => simp at hact
  | unclaimable | shutOut | gaveUp | unseated | duplicated => simp [Situation.off] at hact
  | joined | relocated | commanded => exact .inr (List.mem_singleton.mpr rfl)
  | reclaimed => exact .inr (List.mem_append_right _ (List.mem_singleton.mpr rfl))
  | claimed _ _ hcontest =>
    -- the address of the contest is claimable, so it is kept
    have haddr : n.cf.address ≠ nullAddress := ne_nullAddress (hn.active (.inl hcontest)).2
    refine .inl ⟨⟨.inl hcontest, hrec⟩, ?_⟩
    show n.cf.address = if n.cf.address = nullAddress then _ else _
    rw [if_neg haddr]
  | queued => simp at hrec

/-- The starts, updates, claims and requests keep the invariant. -/
theorem sound {op : LocalCf.Op} (h : Effect n op s out) (hn : n.situation.Sound)
    (hpref : n.cf.preferredAddress ≤ maxAddress) (hdup : op ≠ .duplicate)
    (hcom : ∀ a, op ≠ .commanded a) : s.Sound := by
  obtain ⟨hlis, hpend, hact⟩ := hn
  cases h with
  | quiet | waited | ignored | noted | defended | answered | refused => exact ⟨hlis, hpend, hact⟩
  | requested => exact ⟨fun _ => rfl, fun _ => rfl, by simp⟩
  | unclaimable h => exact absurd hpref (UInt8.not_le.mpr h)
  | joined hl h =>
    have hatt : n.claimer.attemptedClaim = true := hpend (.inl hl)
    exact ⟨nofun, fun _ => hatt, fun _ => ⟨hatt, UInt8.not_lt.mp h⟩⟩
  | shutOut hl =>
    exact ⟨nofun, fun _ => hpend (.inl hl), by simp [Situation.off]⟩
  | reclaimed hl hr h =>
    have hatt : n.claimer.attemptedClaim = true := hpend (.inr hr)
    exact ⟨fun h => absurd h (ne_true_of_eq_false hl), fun _ => hatt,
      fun _ => ⟨hatt, UInt8.not_lt.mp h⟩⟩
  | gaveUp hl hr =>
    exact ⟨fun h => absurd h (ne_true_of_eq_false hl), fun _ => hpend (.inr hr),
      by simp [Situation.off]⟩
  | claimed hl _ hcontest =>
    have hatt : n.claimer.attemptedClaim = true := (hact (.inl hcontest)).1
    have hle : n.cf.address ≤ maxAddress := (hact (.inl hcontest)).2
    refine ⟨fun h => absurd h (ne_true_of_eq_false hl), fun _ => hatt, fun _ => ⟨hatt, ?_⟩⟩
    rw [if_neg (ne_nullAddress hle)]
    exact hle
  | unseated h =>
    exact ⟨fun hl => absurd hl (ne_true_of_eq_false h.heard), hpend, by simp [Situation.off]⟩
  | queued h =>
    exact ⟨fun hl => absurd hl (ne_true_of_eq_false h.heard), fun _ => h.attempted,
      fun _ => ⟨h.attempted, h.own ▸ h.claimable⟩⟩
  | relocated h _ _ hcand =>
    exact ⟨fun hl => absurd hl (ne_true_of_eq_false h.heard), hpend,
      fun _ => ⟨h.attempted, hcand.le⟩⟩
  | duplicated => exact absurd rfl hdup
  | commanded => exact absurd rfl (hcom _)

/-- **A rival's claim is answered.** After a claim for the held address by
another NAME, the address is given up or claimed again. -/
theorem answers {a : Address} {other : Name} (h : Effect n (.claim a other) s out)
    (hcon : n.Contested a other) (hs : s.Holds a) : makeClaimFrame n.cf.name a ∈ out := by
  obtain ⟨⟨hact, hrec⟩, hown⟩ := hs
  cases h with
  | quiet _ hop => exact absurd rfl (hop a other)
  | ignored hmax => exact absurd hcon.claimable (UInt8.not_le.mpr hmax)
  | noted _ hnot => exact absurd hcon hnot
  | defended => exact List.mem_singleton.mpr (by rw [hcon.own])
  | unseated => simp [Situation.off] at hact
  | queued => cases hrec
  | relocated _ _ _ _ hfree =>
    -- the next address is a free one, and the contested one is not
    have hocc : (n.claimer.markOccupied a).isOccupied a = true :=
      isOccupied_markOccupied.mpr (.inr ⟨rfl, hcon.claimable⟩)
    have hsame := congrArg (n.claimer.markOccupied a).isOccupied hown
    exact absurd ((hfree.symm.trans hsame).trans hocc) false_ne_true

end Effect

/-! ## The instance -/

namespace LocalCf

/-- A node of the bus: sound, with a claimable preferred address. -/
def Ready (n : LocalCf) : Prop := n.situation.Sound ∧ n.cf.preferredAddress ≤ maxAddress

theorem Ready.call {n : LocalCf} (h : n.Ready) {op : Op} (hdup : op ≠ .duplicate)
    (hcom : ∀ a, op ≠ .commanded a) : (n.call op).1.Ready := by
  refine ⟨(n.call_effect op).sound h.1 h.2 hdup hcom, ?_⟩
  rw [← step, preferred_step]
  exact h.2

/-- What a received frame does, if anything: it is a claim. -/
theorem recv_cases (n : LocalCf) (f : Frame) :
    station.recv n f = (n, []) ∨ ∃ other, station.recv n f =
      announce (n.call (.claim f.source other)) := by
  simp only [station]
  split
  · exact .inr ⟨_, rfl⟩
  · exact .inl rfl

theorem recv_makeClaimFrame (n : LocalCf) (other : Name) (a : Address) :
    station.recv n (makeClaimFrame other a) = announce (n.call (.claim a other)) := by
  simp [station]

/-- **Claimers announce and defend.** -/
def contention : Contention station Name Address where
  key n := n.cf.name
  claim := makeClaimFrame
  Inv := Ready
  Holds n a := n.situation.Holds a
  key_act n a := n.name_step a.op
  key_recv n f := by
    rcases recv_cases n f with h | ⟨other, h⟩
    · rw [h]
    · rw [h]
      exact n.name_step _
  inv_act n a h := h.call (by cases a <;> simp [Act.op]) (by cases a <;> simp [Act.op])
  inv_recv n f h := by
    rcases recv_cases n f with heq | ⟨other, heq⟩
    · rw [heq]
      exact h
    · rw [heq]
      exact h.call (by simp) (by simp)
  holds_act n a r h hr :=
    ((n.call_effect a.op).announced h.1 hr).imp_right mem_announce.mpr
  holds_recv n f r h hr := by
    rcases recv_cases n f with heq | ⟨other, heq⟩
    · rw [heq] at hr
      exact .inl hr
    · rw [heq] at hr ⊢
      exact ((n.call_effect _).announced h.1 hr).imp_right mem_announce.mpr
  defend n other a h hother hheld hr := by
    rw [recv_makeClaimFrame] at hr ⊢
    obtain ⟨⟨hact, -⟩, haddr⟩ := hheld
    have hact : n.cf.claimState = .waitForContest ∨ n.cf.claimState = .claimed := hact
    have hsound := h.1.active hact
    have hcon : n.Contested a other :=
      { claimable := haddr ▸ hsound.2
        attempted := hsound.1
        active := by
          intro hfailed
          rw [hfailed] at hact
          exact absurd hact (by decide)
        heard := by
          rw [← not_eq_true]
          intro hl
          rw [show n.cf.claimState = .sendRequest from h.1.listening hl] at hact
          exact absurd hact (by decide)
        own := haddr.symm
        rival := hother }
    exact mem_announce.mpr ((n.call_effect _).answers hcon hr)

theorem Fresh.ready {n : LocalCf} (h : n.Fresh) (hpref : n.cf.preferredAddress ≤ maxAddress) :
    n.Ready := by
  obtain ⟨name, port, preferred, base, rtxd, -, rfl⟩ := h
  refine ⟨⟨?_, ?_, ?_⟩, hpref⟩ <;>
    simp [situation, new, InternalCf.new, withTimeout]

/-- **Address-claim agreement.** Whatever the nodes do and in whatever
order their claims arrive, once none is left to deliver no two active
control functions hold the same address. -/
theorem active_addresses_distinct {k : ℕ} (b : Bus k LocalCf Frame) (hfresh : ∀ i, (b.node i).Fresh)
    (hpref : ∀ i, (b.node i).cf.preferredAddress ≤ maxAddress)
    (hnames : ∀ i j, i ≠ j → (b.node i).cf.name ≠ (b.node j).cf.name) (acts : List (BusAct k Act))
    (hquiet : (run (Bus.step station) b acts).inFlight = []) (i j : Fin k) (hij : i ≠ j)
    (hi : ((run (Bus.step station) b acts).node i).Active)
    (hj : ((run (Bus.step station) b acts).node j).Active) :
    ((run (Bus.step station) b acts).node i).cf.address ≠
      ((run (Bus.step station) b acts).node j).cf.address := by
  have hnone : ∀ i r, ¬contention.Holds (b.node i) r := by
    intro i r
    obtain ⟨name, port, preferred, base, rtxd, -, hnode⟩ := hfresh i
    rw [hnode]
    rintro ⟨⟨hact, -⟩, -⟩
    exact absurd hact (by simp [situation, new, InternalCf.new])
  have hstart : contention.Fair b :=
    ⟨fun i => (hfresh i).ready (hpref i), hnames, fun i _ r _ hi => absurd hi (hnone i r)⟩
  have hend : contention.Fair (run (Bus.step station) b acts) :=
    run_induction (I := fun b : Bus k LocalCf Frame => contention.Fair b) hstart
      (fun _ a h => h.step a) acts
  intro hsame
  exact hend.exclusive hquiet hij ⟨hi, hsame⟩ ⟨hj, rfl⟩

/-- Two control functions that both prefer address 128, the second with a
higher, self-configurable NAME. -/
def twoRivals : Bus 2 LocalCf Frame where
  node i :=
    if i = 0 then new (Name.fromRaw 1) 0 128 (.new 0)
    else new (Name.fromRaw (2 ^ 63 + 2)) 0 128 (.new 0)
  inFlight := []

/-- Both start and claim; the claims cross, and the second moves on. -/
def twoRivalsRun : List (BusAct 2 Act) :=
  [.act 0 .start, .act 1 .start, .act 0 (.update 250), .act 1 (.update 250),
    .deliver 0, .deliver 0, .deliver 0, .deliver 0]

theorem active_addresses_distinct_twoRivals :
    (run (Bus.step station) twoRivals twoRivalsRun).inFlight = [] ∧
      ((run (Bus.step station) twoRivals twoRivalsRun).node 0).Active ∧
      ((run (Bus.step station) twoRivals twoRivalsRun).node 1).Active ∧
      ((run (Bus.step station) twoRivals twoRivalsRun).node 0).cf.address ≠
        ((run (Bus.step station) twoRivals twoRivalsRun).node 1).cf.address := by
  have hquiet : (run (Bus.step station) twoRivals twoRivalsRun).inFlight = [] := by
    decide +kernel
  have h0 : ((run (Bus.step station) twoRivals twoRivalsRun).node 0).Active := by
    decide +kernel
  have h1 : ((run (Bus.step station) twoRivals twoRivalsRun).node 1).Active := by
    decide +kernel
  refine ⟨hquiet, h0, h1, active_addresses_distinct twoRivals ?_ ?_ ?_ twoRivalsRun hquiet 0 1
    (by decide) h0 h1⟩
  · intro i
    unfold twoRivals
    dsimp only
    split <;> exact ⟨_, _, _, 250, 0, by decide, rfl⟩
  · decide
  · decide

end LocalCf

end Machbus
