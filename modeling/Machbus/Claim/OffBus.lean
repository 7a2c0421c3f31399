import Machbus.Common.Run
import Machbus.Claim.Helpers.Effect
/-!
# Off the bus

A control function that could not claim an address, or whose NAME is in
use twice, is taken off the bus. It stays off until it is started again or
commanded to an address, with one exception: a duplicate NAME that is
noticed while the initial listen window is open takes the control function
off the bus but leaves the window open, and when the window closes the
control function claims an address after all.
-/

namespace Machbus

open Claim AddressClaimer

namespace LocalCf

/-- The calls that are to leave a control function off the bus. -/
def Op.passive : Op → Bool
  | .start => false
  | .commanded _ => false
  | _ => true

/-- Along the calls the control function stays off the bus, and no address
but the null address is claimed. -/
def StaysOff (n : LocalCf) (ops : List Op) : Prop :=
  Along step (fun t op => (t.step op).cf.claimState = .failed ∧
    ∀ f ∈ (t.call op).2, f.pgn = pgnAddressClaimed → f.source = nullAddress) n ops

/-- The listen window is open, and an address is there to be claimed when
it closes: the preferred one, unless that is taken and the NAME may choose
another, and then a candidate that is free. -/
def WindowOpen (n : LocalCf) : Prop :=
  n.claimer.listenPending = true ∧
    (n.claimer.isOccupied n.cf.preferredAddress = false ∨ n.cf.name.selfConfigurable = false ∨
      ∃ a, Candidate n.cf.preferredAddress a ∧ n.claimer.isOccupied a = false)

end LocalCf

namespace Situation

/-- **What is pending.** An open window belongs to a claimable preferred
address, a queued re-claim to a candidate address, and a re-claim that is
still queued off the bus has no candidate left. -/
structure Pending (name : Name) (preferred : Address) (s : Situation) : Prop where
  listening : s.listening = true → preferred ≤ maxAddress
  reclaiming : s.reclaiming = true →
    name.selfConfigurable = true ∧ Candidate preferred s.reclaimAddress
  failed : s.claimState = .failed → s.reclaiming = true → Exhausted s.occupied preferred

/-- Off the bus, with no address left for an open window. -/
structure Shut (name : Name) (preferred : Address) (s : Situation) : Prop where
  failed : s.claimState = .failed
  listening : s.listening = true → maxAddress < preferred ∨
    s.occupied preferred = true ∧ name.selfConfigurable = true ∧ Exhausted s.occupied preferred

end Situation

namespace Effect

variable {n : LocalCf} {s : Situation} {out : List Frame} {op : LocalCf.Op}

/-- Every call keeps the invariant of the pending claims. -/
theorem pending (h : Effect n op s out) (hn : n.situation.Pending n.cf.name n.cf.preferredAddress) :
    s.Pending n.cf.name n.cf.preferredAddress := by
  obtain ⟨hlis, hrec, hfail⟩ := hn
  cases h with
  | quiet | waited | ignored | answered | refused => exact ⟨hlis, hrec, hfail⟩
  | requested h => exact ⟨fun _ => UInt8.not_lt.mp h, hrec, nofun⟩
  | unclaimable | gaveUp | duplicated => exact ⟨hlis, nofun, fun _ => nofun⟩
  | joined => exact ⟨nofun, hrec, nofun⟩
  | shutOut hl hnone =>
    refine ⟨nofun, hrec, fun _ _ => ?_⟩
    -- the window led nowhere because every candidate is taken
    rcases listenAddress_none_iff.mp hnone with hpref | ⟨-, -, hex⟩
    · exact absurd (hlis hl) (UInt8.not_le.mpr hpref)
    · exact hex
  | reclaimed => exact ⟨hlis, nofun, nofun⟩
  | claimed | relocated | commanded => exact ⟨hlis, hrec, nofun⟩
  | noted => exact ⟨hlis, hrec, fun hf hr => (hfail hf hr).mono fun a => LocalCf.noting_mono _ _⟩
  | defended => exact ⟨hlis, hrec, fun hf hr => (hfail hf hr).mono fun a => isOccupied_mark_of⟩
  | unseated _ _ hwhy =>
    refine ⟨hlis, hrec, fun _ hr => ?_⟩
    rcases hwhy with hself | hex
    · exact absurd (hrec hr).1 (ne_true_of_eq_false hself)
    · exact hex
  | queued h _ hself hcand =>
    exact ⟨hlis, fun _ => ⟨hself, hcand⟩, fun hf => absurd hf h.not_failed⟩

/-- **Shut stays shut.** A passive call keeps a control function off the
bus that has no window to come back through, and claims nothing. -/
theorem shut (h : Effect n op s out) (hop : op.passive = true)
    (hpend : n.situation.Pending n.cf.name n.cf.preferredAddress)
    (hn : n.situation.Shut n.cf.name n.cf.preferredAddress) :
    s.Shut n.cf.name n.cf.preferredAddress ∧
      ∀ f ∈ out, f.pgn = pgnAddressClaimed → f.source = nullAddress := by
  obtain ⟨hfailed, hlis⟩ := hn
  have hfailed : n.cf.claimState = .failed := hfailed
  have hnull : ∀ f ∈ [makeClaimFrame n.cf.name nullAddress],
      f.pgn = pgnAddressClaimed → f.source = nullAddress := by simp
  cases h with
  | quiet | ignored => exact ⟨⟨hfailed, hlis⟩, List.forall_mem_nil _⟩
  | requested | unclaimable | commanded => cases hop
  | joined hl hsome => exact absurd (listenAddress_none_iff.mpr (hlis hl)) hsome
  | shutOut => exact ⟨⟨rfl, nofun⟩, hnull⟩
  | waited _ h => exact ⟨⟨hfailed, hlis⟩, forall_deferred h hnull⟩
  | reclaimed _ hr hsome =>
    -- off the bus every candidate is taken, so there is no target
    exact absurd (reclaimTarget_none (hpend.reclaiming hr).2 (hpend.failed hfailed hr)) hsome
  | gaveUp _ _ _ h =>
    exact ⟨⟨rfl, hlis⟩, List.forall_mem_append.mpr ⟨forall_deferred h hnull, hnull⟩⟩
  | claimed _ _ hcontest => exact absurd (hfailed.symm.trans hcontest) (by decide)
  | noted =>
    refine ⟨⟨hfailed, fun hl => (hlis hl).imp_right ?_⟩, List.forall_mem_nil _⟩
    rintro ⟨hocc, hself, hex⟩
    exact ⟨LocalCf.noting_mono _ _ hocc, hself, hex.mono fun a => n.noting_mono _ _⟩
  | defended h | unseated h | queued h | relocated h => exact absurd hfailed h.active
  | duplicated _ h => exact absurd hfailed h
  | answered _ h =>
    rw [hfailed] at h
    exact absurd h (by decide)
  | refused => exact ⟨⟨hfailed, hlis⟩, hnull⟩

end Effect

namespace LocalCf

/-- The pending claims of a control function are in order. -/
def Orderly (n : LocalCf) : Prop := n.situation.Pending n.cf.name n.cf.preferredAddress

section

variable {n : LocalCf}

theorem Orderly.step (h : n.Orderly) (op : Op) : (n.step op).Orderly := by
  unfold Orderly
  rw [name_step, preferred_step]
  exact (n.call_effect op).pending h

theorem Fresh.orderly (h : n.Fresh) : n.Orderly := by
  obtain ⟨name, port, preferred, base, rtxd, -, rfl⟩ := h
  exact ⟨nofun, nofun, fun _ => nofun⟩

/-- The timeout fits its machine word throughout. -/
theorem Fresh.timeout_le (h : n.Fresh) (ops : List Op) :
    (run step n ops).claimer.timeoutMs ≤ u32Max := by
  refine run_induction (I := fun t : LocalCf => t.claimer.timeoutMs ≤ u32Max) ?_ ?_ ops
  · obtain ⟨name, port, preferred, base, rtxd, hfit, rfl⟩ := h
    show base + (if addressClaimRtxdMaxMs < rtxd then addressClaimRtxdMaxMs else rtxd) ≤ u32Max
    split <;> omega
  · intro t op ht
    have heq : (t.step op).claimer.timeoutMs = t.claimer.timeoutMs :=
      congrArg Identity.timeoutMs (t.identity_call op)
    rw [heq]
    exact ht

/-- A window with no address left leads to none. -/
theorem windowOpen_iff (h : n.Orderly) :
    n.WindowOpen ↔ n.claimer.listenPending = true ∧ n.claimer.listenAddress n.cf ≤ maxAddress := by
  refine and_congr_right ?_
  intro hlis
  have hpref : ¬maxAddress < n.cf.preferredAddress := UInt8.not_lt.mpr (h.listening hlis)
  rw [← UInt8.not_lt, listenAddress_none_iff, or_iff_right hpref]
  simp only [Exhausted, not_and_or, not_forall, exists_prop, Bool.not_eq_true]

/-- An open window is gone through as soon as its time is over. -/
theorem WindowOpen.rejoins (h : n.WindowOpen) (hord : n.Orderly)
    (hfit : n.claimer.timeoutMs ≤ u32Max) :
    (n.step (.update n.claimer.timeoutMs)).cf.claimState = .waitForContest := by
  obtain ⟨hlis, hle⟩ := (windowOpen_iff hord).mp h
  have hdue : n.claimer.timeoutMs ≤ satAdd32 n.claimer.listenTimerMs n.claimer.timeoutMs := by
    unfold satAdd32
    omega
  simp only [step, call, update]
  rw [if_pos hlis, if_pos hdue]
  simp only [finishListen]
  split
  next hnone => exact absurd hle (UInt8.not_le.mpr hnone)
  · rfl

end

/-- **Who stays off the bus.** A control function that is off the bus is
kept off by every sequence of updates, claims, requests and duplicate
NAMEs, without claiming an address, just when no listen window is open
that leads to one. -/
theorem stays_off_iff {n : LocalCf} (hn : n.Fresh) (ops : List Op)
    (hfailed : (run step n ops).cf.claimState = .failed) :
    (∀ later, (∀ op ∈ later, op.passive = true) → (run step n ops).StaysOff later) ↔
      ¬(run step n ops).WindowOpen := by
  have horder : (run step n ops).Orderly :=
    run_induction (I := fun t : LocalCf => t.Orderly) hn.orderly (fun _ op h => h.step op) ops
  have hfit := hn.timeout_le ops
  generalize run step n ops = t at hfailed horder hfit ⊢
  constructor
  · intro hstays hopen
    have hoff := (hstays [.update t.claimer.timeoutMs] (by simp [Op.passive])).1.1
    rw [hopen.rejoins horder hfit] at hoff
    cases hoff
  · intro hclosed later hpassive
    have hshut : t.situation.Shut t.cf.name t.cf.preferredAddress := by
      refine ⟨hfailed, fun hl => listenAddress_none_iff.mp ?_⟩
      exact UInt8.not_le.mp fun hle => hclosed ((windowOpen_iff horder).mpr ⟨hl, hle⟩)
    refine along_of_invariant
      (I := fun t : LocalCf => t.Orderly ∧ t.situation.Shut t.cf.name t.cf.preferredAddress)
      ⟨horder, hshut⟩ ?_ hpassive
    rintro u op hop ⟨hu, hus⟩
    obtain ⟨hkept, hsilent⟩ := (u.call_effect op).shut hop hu hus
    refine ⟨⟨hu.step op, ?_⟩, hkept.failed, hsilent⟩
    rw [name_step, preferred_step]
    exact hkept

/-- A control function with a fixed address, which it claims and loses to
a lower NAME. -/
def unseatedRun : List Op := [.start, .update 250, .claim 0x20 (Name.fromRaw 1)]

theorem stays_off_iff_unseated :
    (run step (new (Name.fromRaw 2) 0 0x20 (.new 0)) unseatedRun).cf.claimState = .failed ∧
      ∀ later, (∀ op ∈ later, op.passive = true) →
        (run step (new (Name.fromRaw 2) 0 0x20 (.new 0)) unseatedRun).StaysOff later := by
  have hfailed : (run step (new (Name.fromRaw 2) 0 0x20 (.new 0)) unseatedRun).cf.claimState =
      .failed := by decide +kernel
  have hshut : (run step (new (Name.fromRaw 2) 0 0x20 (.new 0)) unseatedRun).claimer.listenPending =
      false := by decide +kernel
  refine ⟨hfailed, (stays_off_iff ⟨_, _, _, 250, 0, by decide, rfl⟩ unseatedRun hfailed).mpr ?_⟩
  intro hopen
  exact absurd hopen.1 (ne_true_of_eq_false hshut)

/-- The duplicate NAME is noticed while the window is open: the control
function is off the bus, and claims its address when the window closes. -/
theorem rejoins_after_duplicate :
    (run step (new (Name.fromRaw 2) 0 0x20 (.new 0)) [.start, .duplicate]).cf.claimState = .failed ∧
      (run step (new (Name.fromRaw 2) 0 0x20 (.new 0))
        [.start, .duplicate, .update 250]).cf.claimState = .waitForContest ∧
      ((run step (new (Name.fromRaw 2) 0 0x20 (.new 0)) [.start, .duplicate]).call
        (.update 250)).2 = [makeClaimFrame (Name.fromRaw 2) 0x20] := by
  decide +kernel

end LocalCf

end Machbus
