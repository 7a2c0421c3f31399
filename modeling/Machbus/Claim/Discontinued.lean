import Machbus.Common.Run
import Machbus.Claim.Helpers.Effect
/-!
# A lost address is discontinued

A control function that loses the contest for its address stops claiming
it. While its re-claim of another address is queued it still stores the
lost one, though, and then a claim of that address by a weaker NAME makes
it claim the lost address once more. This is the only way it does.
-/

namespace Machbus

open Claim AddressClaimer

namespace LocalCf

/-- The calls of the claim procedure itself. -/
def Op.procedure : Op → Bool
  | .update _ => true
  | .claim _ _ => true
  | .request => true
  | _ => false

/-- While its re-claim is queued, the control function hears a weaker NAME
claim the address it has lost and still stores. -/
def WeakerContest (a : Address) (n : LocalCf) (op : Op) : Prop :=
  n.claimer.reclaimPending = true ∧ n.cf.address = a ∧
    ∃ other, op = .claim a other ∧ n.cf.name < other

/-- The frames of a call do not claim address `a`. -/
def Silent (a : Address) (n : LocalCf) (op : Op) : Prop := ∀ f ∈ (n.call op).2, ¬f.ClaimsFrom a

end LocalCf

namespace Situation

/-- **The address is lost.** It is known to be taken, so it is not taken
up again; it may still be stored, but only while a re-claim is queued. -/
structure Lost (a : Address) (s : Situation) : Prop where
  occupied : s.occupied a = true
  heard : s.listening = false
  contest : s.claimState = .waitForContest → s.address ≤ maxAddress
  stored : s.address = a → s.reclaiming = true ∧ s.attempted = true ∧ s.claimState ≠ .failed

end Situation

namespace Effect

variable {n : LocalCf} {s : Situation} {out : List Frame} {op : LocalCf.Op} {a b : Address}

/-- A free address is not the lost one. -/
theorem ne_of_free {c : AddressClaimer} (ha : c.isOccupied a = true)
    (hb : c.isOccupied b = false) : b ≠ a := by
  rintro rfl
  exact absurd ha (ne_true_of_eq_false hb)

/-- The calls of the procedure keep a lost address lost. -/
theorem lost (h : Effect n op s out) (hop : op.procedure = true)
    (hn : n.situation.Lost a) : s.Lost a := by
  obtain ⟨hocc, hl, hcon, hst⟩ := hn
  have hle : a ≤ maxAddress := le_of_isOccupied hocc
  have hnull : nullAddress ≠ a := (ne_nullAddress hle).symm
  cases h with
  | quiet | waited | ignored | answered | refused => exact ⟨hocc, hl, hcon, hst⟩
  | requested | unclaimable | duplicated | commanded => cases hop
  | joined h | shutOut h => exact absurd h (ne_true_of_eq_false hl)
  | reclaimed _ _ hsome =>
    exact ⟨hocc, hl, fun _ => UInt8.not_lt.mp hsome,
      fun heq => absurd heq (ne_of_free hocc (reclaimTarget_free hsome))⟩
  | gaveUp => exact ⟨hocc, hl, nofun, fun heq => absurd heq hnull⟩
  | claimed _ hr hcontest =>
    have hkeep : n.cf.address ≠ nullAddress := ne_nullAddress (hcon hcontest)
    refine ⟨hocc, hl, nofun, fun heq => ?_⟩
    rw [if_neg hkeep] at heq
    exact absurd (hst heq).1 (ne_true_of_eq_false hr)
  | noted => exact ⟨LocalCf.noting_mono _ _ hocc, hl, hcon, hst⟩
  | defended => exact ⟨isOccupied_mark_of hocc, hl, hcon, hst⟩
  | unseated => exact ⟨isOccupied_mark_of hocc, hl, nofun, fun heq => absurd heq hnull⟩
  | queued h =>
    exact ⟨isOccupied_mark_of hocc, hl, fun _ => h.own ▸ h.claimable,
      fun _ => ⟨rfl, h.attempted, h.not_failed⟩⟩
  | relocated _ _ _ hcand hfree =>
    exact ⟨isOccupied_mark_of hocc, hl, fun _ => hcand.le,
      fun heq => absurd heq (ne_of_free (isOccupied_mark_of hocc) hfree)⟩

theorem silent_singleton {name : Name} :
    (∀ f ∈ [makeClaimFrame name b], ¬f.ClaimsFrom a) ↔ b ≠ a := by
  simp

/-- A weaker contest is one that bears on the stored address. -/
theorem contested_of_weaker {other : Name} (hn : n.situation.Lost a)
    (h : n.WeakerContest a (.claim b other)) : n.Contested b other ∧ n.cf.name < other := by
  obtain ⟨-, haddr, other', hop, hweak⟩ := h
  obtain ⟨rfl, rfl⟩ := LocalCf.Op.claim.inj hop
  obtain ⟨-, hatt, hact⟩ := hn.stored haddr
  refine ⟨⟨le_of_isOccupied hn.occupied, hatt, hact, hn.heard, haddr.symm, ?_⟩, hweak⟩
  rintro rfl
  exact absurd hweak (Nat.lt_irrefl _)

/-- **When a lost address is claimed.** A call of the procedure claims it
just when it is a weaker contest for it. -/
theorem silent_iff (h : Effect n op s out) (hop : op.procedure = true) (hn : n.situation.Lost a) :
    (∀ f ∈ out, ¬f.ClaimsFrom a) ↔ ¬n.WeakerContest a op := by
  have hle : a ≤ maxAddress := le_of_isOccupied hn.occupied
  have hnull : nullAddress ≠ a := (ne_nullAddress hle).symm
  have hno : (∀ b other, op ≠ .claim b other) → ¬n.WeakerContest a op := by
    rintro hclaim ⟨-, -, other, hop, -⟩
    exact hclaim a other hop
  have hnone := List.forall_mem_nil fun f : Frame => ¬f.ClaimsFrom a
  have hsilent : ∀ f ∈ [makeClaimFrame n.cf.name nullAddress], ¬f.ClaimsFrom a :=
    silent_singleton.mpr hnull
  cases h with
  | quiet _ hclaim => exact iff_of_true hnone (hno hclaim)
  | requested | unclaimable | duplicated | commanded => cases hop
  | joined h | shutOut h => exact absurd h (ne_true_of_eq_false hn.heard)
  | waited _ hpre => exact iff_of_true (forall_deferred hpre hsilent) (hno nofun)
  | reclaimed _ _ hsome hpre =>
    have hfree := ne_of_free hn.occupied (reclaimTarget_free hsome)
    exact iff_of_true (List.forall_mem_append.mpr
      ⟨forall_deferred hpre hsilent, silent_singleton.mpr hfree⟩) (hno nofun)
  | gaveUp _ _ _ hpre =>
    exact iff_of_true (List.forall_mem_append.mpr
      ⟨forall_deferred hpre hsilent, hsilent⟩) (hno nofun)
  | claimed => exact iff_of_true hnone (hno nofun)
  | ignored hmax =>
    exact iff_of_true hnone fun hw =>
      absurd (contested_of_weaker hn hw).1.claimable (UInt8.not_le.mpr hmax)
  | noted _ hnot => exact iff_of_true hnone fun hw => hnot (contested_of_weaker hn hw).1
  | defended hcon hwin =>
    -- the defended address is claimed, and it may be the lost one
    rw [silent_singleton, not_iff_not]
    refine ⟨fun heq => ⟨(hn.stored heq).1, heq, _, ?_, hwin⟩, fun hw => hw.2.1⟩
    rw [hcon.own, heq]
  | unseated _ hlose =>
    exact iff_of_true hsilent fun hw => hlose (contested_of_weaker hn hw).2
  | queued _ hlose => exact iff_of_true hnone fun hw => hlose (contested_of_weaker hn hw).2
  | relocated _ hlose _ _ hfree =>
    have hne := ne_of_free (isOccupied_mark_of hn.occupied) hfree
    exact iff_of_true (silent_singleton.mpr hne) fun hw => hlose (contested_of_weaker hn hw).2
  | answered hr =>
    have hne : n.cf.address ≠ a := fun heq =>
      absurd (hn.stored heq).1 (ne_true_of_eq_false hr)
    exact iff_of_true (silent_singleton.mpr hne) (hno nofun)
  | refused => exact iff_of_true hsilent (hno nofun)

/-- **The loss itself.** The address is lost, and the call that loses it
does not claim it. -/
theorem loses {other : Name} (h : Effect n (.claim a other) s out) (hlose : n.Loses a other) :
    s.Lost a ∧ ∀ f ∈ out, ¬f.ClaimsFrom a := by
  have hcon := hlose.contested
  have hnull : nullAddress ≠ a := (ne_nullAddress hcon.claimable).symm
  have hocc : (n.claimer.markOccupied a).isOccupied a = true :=
    isOccupied_markOccupied.mpr (.inr ⟨rfl, hcon.claimable⟩)
  cases h with
  | quiet _ hclaim => exact absurd rfl (hclaim a other)
  | ignored hmax => exact absurd hcon.claimable (UInt8.not_le.mpr hmax)
  | noted _ hnot => exact absurd hcon hnot
  | defended _ hwin => exact absurd hwin (Nat.lt_asymm hlose.stronger)
  | unseated =>
    exact ⟨⟨hocc, hcon.heard, nofun, fun heq => absurd heq hnull⟩, silent_singleton.mpr hnull⟩
  | queued =>
    exact ⟨⟨hocc, hcon.heard, fun _ => hcon.own ▸ hcon.claimable,
      fun _ => ⟨rfl, hcon.attempted, hcon.not_failed⟩⟩, List.forall_mem_nil _⟩
  | relocated _ _ _ hcand hfree =>
    have hne := ne_of_free hocc hfree
    exact ⟨⟨hocc, hcon.heard, fun _ => hcand.le, fun heq => absurd heq hne⟩,
      silent_singleton.mpr hne⟩

end Effect

namespace LocalCf

/-- **When a lost address stays discontinued.** The call that loses the
contest for `a` does not claim it, and neither does any later update,
claim or request just when none of them is a weaker contest for `a` while
the re-claim is queued. -/
theorem lost_address_silent_iff {n : LocalCf} {a : Address} {other : Name}
    (hlose : n.Loses a other) (later : List Op) (hlater : ∀ op ∈ later, op.procedure = true) :
    n.Silent a (.claim a other) ∧
      (Along step (Silent a) (n.step (.claim a other)) later ↔
        Along step (fun t op => ¬t.WeakerContest a op) (n.step (.claim a other)) later) := by
  obtain ⟨hlost, hsilent⟩ := (n.call_effect (.claim a other)).loses hlose
  refine ⟨hsilent, ?_⟩
  refine along_congr (I := fun t : LocalCf => t.situation.Lost a) hlost ?_ ?_ hlater
  · intro t op hop ht
    exact (t.call_effect op).lost hop ht
  · intro t op hop ht
    exact (t.call_effect op).silent_iff hop ht

/-- A control function with a self-configurable NAME on address 128. -/
def seated : LocalCf :=
  run step (new (Name.fromRaw (2 ^ 63 + 5)) 0 128 (.new 10)) [.start, .update 260]

theorem seated_loses : seated.Loses 128 (.fromRaw 1) := by
  refine ⟨⟨?_, ?_, ?_, ?_, ?_, ?_⟩, ?_⟩ <;> decide +kernel

/-- Between the loss and the re-claim nothing but requests and stronger
claims arrive. -/
theorem lost_address_silent_iff_seated :
    seated.Loses 128 (Name.fromRaw 1) ∧
      Along step (Silent 128) (seated.step (.claim 128 (Name.fromRaw 1)))
        [.request, .claim 128 (Name.fromRaw 2), .update 10] := by
  refine ⟨seated_loses, ((lost_address_silent_iff seated_loses _ (by decide)).2).mpr ?_⟩
  have hstronger : ¬(Name.fromRaw (2 ^ 63 + 5) < Name.fromRaw 2) := by decide +kernel
  refine ⟨?_, ?_, ?_, trivial⟩
  · rintro ⟨-, -, other, hop, -⟩
    cases hop
  · rintro ⟨-, -, other, hop, hweak⟩
    obtain ⟨-, rfl⟩ := Op.claim.inj hop
    exact hstronger hweak
  · rintro ⟨-, -, other, hop, -⟩
    cases hop

/-- A weaker NAME claims the lost address while the re-claim is queued: it
is claimed once more. -/
theorem weaker_contest_claims_lost :
    seated.Loses 128 (Name.fromRaw 1) ∧
      ((seated.step (.claim 128 (Name.fromRaw 1))).call
        (.claim 128 (Name.fromRaw (2 ^ 63 + 9)))).2 =
        [makeClaimFrame (Name.fromRaw (2 ^ 63 + 5)) 128] :=
  ⟨seated_loses, by decide +kernel⟩

end LocalCf

end Machbus
