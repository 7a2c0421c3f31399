import Machbus.Claim.Model.Claimer
import Machbus.Net.Helpers.Wire
/-!
# Helpers — address claiming

What a claim frame carries, which addresses are seen as taken, and what
the search for a free one finds: any address of the configurable range
that is neither taken nor the preferred one, as long as there is one.
`Effect` lists once everything a call on a claimer can do to what decides
its behaviour, the running timers aside; the invariants of address
claiming are read off that list.
-/

namespace Machbus

open Nat

variable {a : Address}

/-! ## Claim frames -/

/-- An Address Claimed frame sent from `addr`. -/
def Frame.ClaimsFrom (f : Frame) (addr : Address) : Prop :=
  f.pgn = pgnAddressClaimed ∧ f.source = addr

namespace Claim

variable {name : Name} {addr : Address}

@[simp] theorem source_makeClaimFrame : (makeClaimFrame name addr).source = addr :=
  Identifier.source_encode

@[simp] theorem pgn_makeClaimFrame : (makeClaimFrame name addr).pgn = pgnAddressClaimed :=
  Identifier.pgn_encode (by decide)

@[simp] theorem claimsFrom_makeClaimFrame : (makeClaimFrame name addr).ClaimsFrom a ↔ addr = a := by
  rw [Frame.ClaimsFrom, pgn_makeClaimFrame, source_makeClaimFrame]
  exact ⟨And.right, fun h => ⟨rfl, h⟩⟩

/-- The NAME is read back from the frame. -/
@[simp] theorem fromBytes_makeClaimFrame :
    Name.fromBytes (makeClaimFrame name addr).payload = some name := by
  have hpay : (makeClaimFrame name addr).payload = name.toBytes.toList := rfl
  have hraw : ofLe name.toBytes.toList = name.raw :=
    (ofLe_leBytes _ 8).trans (mod_eq_of_lt name.raw_lt)
  have hname : Name.fromRaw name.raw = name := by
    cases name
    simp only [Name.fromRaw, Name.mk.injEq]
    exact mod_eq_of_lt (by assumption)
  rw [hpay, Name.fromBytes, if_neg (by simp [Bytes8.toList]), hraw, hname]

end Claim

theorem maxAddress_lt_nullAddress : maxAddress < nullAddress := by decide

theorem ne_nullAddress (h : a ≤ maxAddress) : a ≠ nullAddress := by
  rintro rfl
  exact absurd h (by decide)

namespace AddressClaimer

open Claim

variable {c : AddressClaimer} {cf : InternalCf}

/-! ## Addresses seen as taken -/

theorem le_of_isOccupied (h : c.isOccupied a = true) : a ≤ maxAddress := by
  rw [isOccupied, Bool.and_eq_true, decide_eq_true_eq] at h
  exact h.1

theorem isOccupied_markOccupied {b : Address} :
    (c.markOccupied b).isOccupied a = true ↔ c.isOccupied a = true ∨ a = b ∧ b ≤ maxAddress := by
  unfold markOccupied
  split
  next hb =>
    by_cases hab : a = b
    · subst hab
      simp [isOccupied, hb]
    · simp [isOccupied, hab]
  next hb =>
    exact ⟨.inl, fun h => h.elim id fun h => absurd h.2 hb⟩

/-- Marking an address loses none. -/
theorem isOccupied_mark_of {b : Address} (h : c.isOccupied a = true) :
    (c.markOccupied b).isOccupied a = true :=
  isOccupied_markOccupied.mpr (.inl h)

/-! ## The search -/

/-- An address of the configurable range other than the preferred one. -/
def Candidate (preferred a : Address) : Prop :=
  selfConfigAddressMin ≤ a ∧ a ≤ selfConfigAddressMax ∧ a ≠ preferred

/-- Every candidate is taken. -/
def Exhausted (occupied : Address → Bool) (preferred : Address) : Prop :=
  ∀ a, Candidate preferred a → occupied a = true

theorem Candidate.le {preferred : Address} (h : Candidate preferred a) : a ≤ maxAddress :=
  UInt8.le_trans h.2.1 (by decide)

theorem Exhausted.mono {occupied occupied' : Address → Bool} {preferred : Address}
    (h : Exhausted occupied preferred) (hocc : ∀ a, occupied a = true → occupied' a = true) :
    Exhausted occupied' preferred :=
  fun a ha => hocc a (h a ha)

variable (k : ℕ)

/-- The address the search looks at `k` steps from the first one. -/
def slot : Address := UInt8.ofNat (128 + k % 120)

theorem slot_toNat : (slot k).toNat = 128 + k % 120 := toNat_ofNat_of_le (by omega)

theorem successor_slot : successor (slot k) = slot (k + 1) := by
  have hk := slot_toNat k
  apply UInt8.toNat_inj.mp
  rw [slot_toNat]
  unfold successor
  split
  next h =>
    have h : (slot k).toNat < 247 := UInt8.lt_iff_toNat_lt.mp h
    rw [UInt8.toNat_add]
    simp only [UInt8.reduceToNat]
    omega
  next h =>
    have h : ¬(slot k).toNat < 247 := fun hlt => h (UInt8.lt_iff_toNat_lt.mpr hlt)
    show 128 = _
    omega

/-- The addresses looked at are those of the configurable range. -/
theorem slot_mem : selfConfigAddressMin ≤ slot k ∧ slot k ≤ selfConfigAddressMax := by
  have hk := slot_toNat k
  refine ⟨UInt8.le_iff_toNat_le.mpr ?_, UInt8.le_iff_toNat_le.mpr ?_⟩
  · show 128 ≤ _
    omega
  · show _ ≤ 247
    omega

theorem exists_slot (hmin : selfConfigAddressMin ≤ a)
    (hmax : a ≤ selfConfigAddressMax) (k : ℕ) : ∃ i < 120, slot (k + i) = a := by
  have hmin : 128 ≤ a.toNat := UInt8.le_iff_toNat_le.mp hmin
  have hmax : a.toNat ≤ 247 := UInt8.le_iff_toNat_le.mp hmax
  refine ⟨(a.toNat - 128 + 120 - k % 120) % 120, mod_lt _ (by decide), ?_⟩
  apply UInt8.toNat_inj.mp
  rw [slot_toNat]
  omega

/-- **The loop.** It stops at the first free address, or has seen them all
taken. -/
theorem searchFrom_cases (c : AddressClaimer) (cf : InternalCf) (tries k : ℕ) :
    (∃ i, c.searchFrom cf tries (slot k) = slot (k + i) ∧
        slot (k + i) ≠ cf.preferredAddress ∧ c.isOccupied (slot (k + i)) = false) ∨
      c.searchFrom cf tries (slot k) = nullAddress ∧
        ∀ i < tries, slot (k + i) = cf.preferredAddress ∨ c.isOccupied (slot (k + i)) = true := by
  induction tries generalizing k with
  | zero => exact .inr ⟨rfl, fun i hi => absurd hi (not_lt_zero i)⟩
  | succ tries ih =>
    rw [searchFrom]
    split
    next hfree => exact .inl ⟨0, rfl, hfree⟩
    rename_i htaken
    rw [successor_slot]
    rcases ih (k + 1) with ⟨i, heq, hfree⟩ | ⟨heq, hall⟩
    · rw [add_assoc, add_comm 1 i] at heq hfree
      exact .inl ⟨i + 1, heq, hfree⟩
    · refine .inr ⟨heq, fun i hi => ?_⟩
      rcases i with _ | i
      · -- the address that was just passed over
        rw [not_and_or, not_not, Bool.not_eq_false] at htaken
        exact htaken
      · have h := hall i (lt_of_succ_lt_succ hi)
        rwa [add_assoc, add_comm 1 i] at h

/-- **What the search finds.** A free candidate, or nothing when all are
taken. -/
theorem findNextAddress_cases (c : AddressClaimer) (cf : InternalCf) (current : Address) :
    Candidate cf.preferredAddress (c.findNextAddress cf current) ∧
        c.isOccupied (c.findNextAddress cf current) = false ∨
      c.findNextAddress cf current = nullAddress ∧ Exhausted c.isOccupied cf.preferredAddress := by
  have hfirst : ∃ k, (if selfConfigAddressMin ≤ current ∧ current < selfConfigAddressMax
      then current + 1 else selfConfigAddressMin) = slot k := by
    split
    next h =>
      have hmin : 128 ≤ current.toNat := UInt8.le_iff_toNat_le.mp h.1
      have hmax : current.toNat < 247 := UInt8.lt_iff_toNat_lt.mp h.2
      refine ⟨current.toNat - 127, UInt8.toNat_inj.mp ?_⟩
      rw [slot_toNat, UInt8.toNat_add]
      simp only [UInt8.reduceToNat]
      omega
    · exact ⟨0, rfl⟩
  obtain ⟨k, hk⟩ := hfirst
  simp only [findNextAddress, hk]
  rcases searchFrom_cases c cf 120 k with ⟨i, heq, hpref, hfree⟩ | ⟨heq, hall⟩
  · rw [heq]
    exact .inl ⟨⟨(slot_mem _).1, (slot_mem _).2, hpref⟩, hfree⟩
  · refine .inr ⟨heq, fun a ⟨hmin, hmax, hpref⟩ => ?_⟩
    obtain ⟨i, hi, rfl⟩ := exists_slot hmin hmax k
    exact (hall i hi).resolve_left hpref

/-- A found address is a free candidate. -/
theorem findNextAddress_free {current : Address} (h : ¬maxAddress < c.findNextAddress cf current) :
    Candidate cf.preferredAddress (c.findNextAddress cf current) ∧
      c.isOccupied (c.findNextAddress cf current) = false := by
  rcases c.findNextAddress_cases cf current with hfree | ⟨hnull, -⟩
  · exact hfree
  · exact absurd (hnull ▸ maxAddress_lt_nullAddress) h

/-- Nothing is found just when every candidate is taken. -/
theorem findNextAddress_none_iff {current : Address} :
    maxAddress < c.findNextAddress cf current ↔ Exhausted c.isOccupied cf.preferredAddress := by
  rcases c.findNextAddress_cases cf current with ⟨hcand, hfree⟩ | ⟨hnull, hex⟩
  · refine ⟨fun h => absurd hcand.le (UInt8.not_le.mpr h), fun h => ?_⟩
    rw [h _ hcand] at hfree
    cases hfree
  · exact ⟨fun _ => hex, fun _ => hnull ▸ maxAddress_lt_nullAddress⟩

/-! ## The addresses taken by the timers -/

/-- A re-claim that goes ahead takes an address nobody was seen on. -/
theorem reclaimTarget_free (h : ¬maxAddress < c.reclaimTarget cf) :
    c.isOccupied (c.reclaimTarget cf) = false := by
  unfold reclaimTarget at h ⊢
  split
  next hbad =>
    rw [if_pos hbad] at h
    exact (findNextAddress_free h).2
  rename_i hgood
  rw [not_or, not_or, Bool.not_eq_true] at hgood
  exact hgood.2.2

/-- With every candidate taken, a queued re-claim of a candidate comes to
nothing. -/
theorem reclaimTarget_none (hcand : Candidate cf.preferredAddress c.reclaimAddress)
    (hex : Exhausted c.isOccupied cf.preferredAddress) : maxAddress < c.reclaimTarget cf := by
  unfold reclaimTarget
  rw [if_pos (.inr (.inr (hex _ hcand)))]
  exact findNextAddress_none_iff.mpr hex

/-- When the listen window leads to no address. -/
theorem listenAddress_none_iff : maxAddress < c.listenAddress cf ↔
      maxAddress < cf.preferredAddress ∨
        c.isOccupied cf.preferredAddress = true ∧ cf.name.selfConfigurable = true ∧
          Exhausted c.isOccupied cf.preferredAddress := by
  unfold listenAddress
  split
  next h =>
    rw [findNextAddress_none_iff]
    refine ⟨fun hex => .inr ⟨h.1, h.2, hex⟩, ?_⟩
    rintro (hpref | ⟨-, -, hex⟩)
    · exact absurd (le_of_isOccupied h.1) (UInt8.not_le.mpr hpref)
    · exact hex
  next h =>
    refine ⟨.inl, ?_⟩
    rintro (hpref | ⟨hocc, hself, -⟩)
    · exact hpref
    · exact absurd ⟨hocc, hself⟩ h

end AddressClaimer

/-! ## What a call does -/

open Claim AddressClaimer

/-- What decides the behaviour of a control function: its address and the
states and flags, without the timers. -/
structure Situation where
  address : Address
  claimState : ClaimState
  state : CfState
  attempted : Bool
  listening : Bool
  reclaiming : Bool
  reclaimAddress : Address
  occupied : Address → Bool

/-- What no call changes. -/
structure Identity where
  name : Name
  canPort : UInt8
  preferred : Address
  timeoutMs : ℕ
  rtxdMs : ℕ

namespace LocalCf

def situation (n : LocalCf) : Situation where
  address := n.cf.address
  claimState := n.cf.claimState
  state := n.cf.state
  attempted := n.claimer.attemptedClaim
  listening := n.claimer.listenPending
  reclaiming := n.claimer.reclaimPending
  reclaimAddress := n.claimer.reclaimAddress
  occupied := n.claimer.isOccupied

def identity (n : LocalCf) : Identity where
  name := n.cf.name
  canPort := n.cf.canPort
  preferred := n.cf.preferredAddress
  timeoutMs := n.claimer.timeoutMs
  rtxdMs := n.claimer.rtxdMs

/-- The claimer with the address of a claim noted, if the claim is not its
own. -/
def noting (n : LocalCf) (claimed : Address) (other : Name) : AddressClaimer :=
  if other ≠ n.cf.name then n.claimer.markOccupied claimed else n.claimer

/-- A claim that bears on the address of this control function. -/
structure Contested (n : LocalCf) (claimed : Address) (other : Name) : Prop where
  claimable : claimed ≤ maxAddress
  attempted : n.claimer.attemptedClaim = true
  active : n.cf.claimState ≠ .failed
  heard : n.claimer.listenPending = false
  own : claimed = n.cf.address
  rival : other ≠ n.cf.name

/-- The contest for address `a` is lost to `other`. -/
structure Loses (n : LocalCf) (a : Address) (other : Name) : Prop where
  contested : n.Contested a other
  stronger : other < n.cf.name

end LocalCf

/-- The situation of a control function that has been taken off the bus. -/
def Situation.off (s : Situation) : Situation :=
  { s with state := .offline, claimState := .failed, address := nullAddress }

/-- **What a call does.** The situation it leads to and the frames it
emits. -/
inductive Effect (n : LocalCf) : LocalCf.Op → Situation → List Frame → Prop
  | quiet {op} : op ≠ .start → (∀ a other, op ≠ .claim a other) → Effect n op n.situation []
  | requested : ¬maxAddress < n.cf.preferredAddress →
      Effect n .start
        { n.situation with
          claimState := .sendRequest, attempted := true, listening := true,
          occupied := fun _ => false }
        [makeRequestFrame]
  | unclaimable : maxAddress < n.cf.preferredAddress →
      Effect n .start
        { n.situation.off with
          attempted := true, reclaiming := false, reclaimAddress := nullAddress,
          occupied := fun _ => false }
        [makeClaimFrame n.cf.name nullAddress]
  | joined {ms} : n.claimer.listenPending = true →
      ¬maxAddress < n.claimer.listenAddress n.cf →
      Effect n (.update ms)
        { n.situation with
          listening := false, claimState := .waitForContest,
          address := n.claimer.listenAddress n.cf }
        [makeClaimFrame n.cf.name (n.claimer.listenAddress n.cf)]
  | shutOut {ms} : n.claimer.listenPending = true →
      maxAddress < n.claimer.listenAddress n.cf →
      Effect n (.update ms) { n.situation.off with listening := false }
        [makeClaimFrame n.cf.name nullAddress]
  -- the frame of a deferred cannot-claim answer may come first
  | waited {ms pre} : n.claimer.listenPending = false →
      (pre = [] ∨ n.cf.claimState = .failed ∧ pre = [makeClaimFrame n.cf.name nullAddress]) →
      Effect n (.update ms) n.situation pre
  | reclaimed {ms pre} : n.claimer.listenPending = false → n.claimer.reclaimPending = true →
      ¬maxAddress < n.claimer.reclaimTarget n.cf →
      (pre = [] ∨ n.cf.claimState = .failed ∧ pre = [makeClaimFrame n.cf.name nullAddress]) →
      Effect n (.update ms)
        { n.situation with
          reclaiming := false, claimState := .waitForContest,
          address := n.claimer.reclaimTarget n.cf,
          reclaimAddress := n.claimer.reclaimTarget n.cf }
        (pre ++ [makeClaimFrame n.cf.name (n.claimer.reclaimTarget n.cf)])
  | gaveUp {ms pre} : n.claimer.listenPending = false → n.claimer.reclaimPending = true →
      maxAddress < n.claimer.reclaimTarget n.cf →
      (pre = [] ∨ n.cf.claimState = .failed ∧ pre = [makeClaimFrame n.cf.name nullAddress]) →
      Effect n (.update ms)
        { n.situation.off with reclaiming := false, reclaimAddress := nullAddress }
        (pre ++ [makeClaimFrame n.cf.name nullAddress])
  | claimed {ms} : n.claimer.listenPending = false → n.claimer.reclaimPending = false →
      n.cf.claimState = .waitForContest →
      Effect n (.update ms)
        { n.situation with
          claimState := .claimed, state := .online,
          address := if n.cf.address = nullAddress then n.cf.preferredAddress else n.cf.address }
        []
  | ignored {claimed other} : maxAddress < claimed → Effect n (.claim claimed other) n.situation []
  | noted {claimed other} : claimed ≤ maxAddress → ¬n.Contested claimed other →
      Effect n (.claim claimed other)
        { n.situation with occupied := (n.noting claimed other).isOccupied } []
  | defended {claimed other} : n.Contested claimed other → n.cf.name < other →
      Effect n (.claim claimed other)
        { n.situation with occupied := (n.claimer.markOccupied claimed).isOccupied }
        [makeClaimFrame n.cf.name n.cf.address]
  | unseated {claimed other} : n.Contested claimed other → ¬n.cf.name < other →
      (n.cf.name.selfConfigurable = false ∨
        Exhausted (n.claimer.markOccupied claimed).isOccupied n.cf.preferredAddress) →
      Effect n (.claim claimed other)
        { n.situation.off with occupied := (n.claimer.markOccupied claimed).isOccupied }
        [makeClaimFrame n.cf.name nullAddress]
  | queued {claimed other next} : n.Contested claimed other → ¬n.cf.name < other →
      n.cf.name.selfConfigurable = true → Candidate n.cf.preferredAddress next →
      (n.claimer.markOccupied claimed).isOccupied next = false →
      Effect n (.claim claimed other)
        { n.situation with
          state := .offline,
          claimState := if n.cf.claimState = .claimed then .waitForClaim else n.cf.claimState,
          reclaiming := true, reclaimAddress := next,
          occupied := (n.claimer.markOccupied claimed).isOccupied }
        []
  | relocated {claimed other next} : n.Contested claimed other → ¬n.cf.name < other →
      n.cf.name.selfConfigurable = true → Candidate n.cf.preferredAddress next →
      (n.claimer.markOccupied claimed).isOccupied next = false →
      Effect n (.claim claimed other)
        { n.situation with
          state := .offline, claimState := .waitForContest, address := next,
          occupied := (n.claimer.markOccupied claimed).isOccupied }
        [makeClaimFrame n.cf.name next]
  | duplicated : n.claimer.attemptedClaim = true → n.cf.claimState ≠ .failed →
      Effect n .duplicate
        { n.situation.off with reclaiming := false, reclaimAddress := nullAddress }
        [makeClaimFrame n.cf.name nullAddress]
  | answered : n.claimer.reclaimPending = false →
      (n.cf.claimState = .claimed ∨ n.cf.claimState = .waitForContest) →
      Effect n .request n.situation [makeClaimFrame n.cf.name n.cf.address]
  | refused : n.cf.claimState = .failed →
      Effect n .request n.situation [makeClaimFrame n.cf.name nullAddress]
  | commanded {newAddress} : newAddress ≤ maxAddress →
      (n.cf.claimState = .failed ∨ n.cf.claimState = .claimed ∧ n.cf.isOnline = true) →
      Effect n (.commanded newAddress)
        { n.situation with address := newAddress, state := .online, claimState := .claimed }
        [makeClaimFrame n.cf.name newAddress]

/-- What holds of a cannot-claim answer holds of a deferred one. -/
theorem Effect.forall_deferred {n : LocalCf} {Q : Frame → Prop} {pre : List Frame}
    (h : pre = [] ∨ n.cf.claimState = .failed ∧ pre = [makeClaimFrame n.cf.name nullAddress])
    (hQ : ∀ f ∈ [makeClaimFrame n.cf.name nullAddress], Q f) : ∀ f ∈ pre, Q f := by
  rcases h with rfl | ⟨-, rfl⟩
  · exact List.forall_mem_nil Q
  · exact hQ

namespace LocalCf

variable (n : LocalCf)

variable {n} in
/-- Waiting for another address is not being off the bus. -/
theorem Contested.not_failed {a : Address} {other : Name} (h : n.Contested a other) :
    (if n.cf.claimState = .claimed then .waitForClaim else n.cf.claimState) ≠
      ClaimState.failed := by
  split
  · decide
  · exact h.active

theorem start_effect : Effect n .start (n.call .start).1.situation (n.call .start).2 := by
  have hocc : ({ n.claimer with occupiedAddresses := fun _ => false } :
      AddressClaimer).isOccupied = fun _ => false := by
    funext a
    exact Bool.and_false _
  simp only [call, start]
  split
  next h =>
    have he := Effect.unclaimable h
    rw [← hocc] at he
    exact he
  next h =>
    have he := Effect.requested h
    rw [← hocc] at he
    exact he

variable (c : AddressClaimer)

/-- The deferred cannot-claim answer touches its own flag and timer only. -/
theorem tickCannotClaim_cases (cf : InternalCf) (ms : ℕ) :
    (∃ pending timer, (c.tickCannotClaim cf ms).1 =
        { c with cannotClaimPending := pending, cannotClaimDelayTimerMs := timer }) ∧
      ((c.tickCannotClaim cf ms).2 = [] ∨ cf.claimState = .failed ∧
          (c.tickCannotClaim cf ms).2 = [makeClaimFrame cf.name nullAddress]) := by
  simp only [tickCannotClaim]
  split
  · split
    · refine ⟨⟨_, _, rfl⟩, ?_⟩
      split
      next hfailed => exact .inr ⟨hfailed, rfl⟩
      · exact .inl rfl
    · refine ⟨⟨c.cannotClaimPending, _, rfl⟩, .inl rfl⟩
  · exact ⟨⟨c.cannotClaimPending, c.cannotClaimDelayTimerMs, rfl⟩, .inl rfl⟩

theorem update_effect (ms : ℕ) :
    Effect n (.update ms) (n.call (.update ms)).1.situation (n.call (.update ms)).2 := by
  simp only [call, update]
  split
  next hlisten =>
    split
    · simp only [finishListen]
      split
      next h => exact .shutOut hlisten h
      next h => exact .joined hlisten h
    · exact .quiet (by simp) (by simp)
  next hlisten =>
    have hlisten : n.claimer.listenPending = false := by simpa using hlisten
    obtain ⟨⟨pending, timer, hc⟩, hpre⟩ := tickCannotClaim_cases n.claimer n.cf ms
    generalize n.claimer.tickCannotClaim n.cf ms = r at hc hpre ⊢
    rw [hc]
    split
    next hreclaim =>
      simp only [tickReclaim]
      split
      · split
        · rename_i h
          exact .gaveUp hlisten hreclaim h hpre
        · rename_i h
          exact .reclaimed hlisten hreclaim h hpre
      · rw [List.append_nil]
        exact .waited hlisten hpre
    next hreclaim =>
      have hreclaim : n.claimer.reclaimPending = false := by simpa using hreclaim
      simp only [tickContest]
      split
      · rename_i hcontest
        have hnil : r.2 = [] := by
          rcases hpre with h | ⟨h, -⟩
          · exact h
          · rw [hcontest] at h
            cases h
        rw [hnil]
        split
        · exact .claimed hlisten hreclaim hcontest
        · exact .quiet (by simp) (by simp)
      · exact .waited hlisten hpre

/-- Noting an address leaves everything else as it was. -/
theorem markOccupied_eq (a : Address) :
    ∃ occ, c.markOccupied a = { c with occupiedAddresses := occ } := by
  unfold markOccupied
  split
  · exact ⟨_, rfl⟩
  · exact ⟨c.occupiedAddresses, rfl⟩

variable (claimed : Address) (other : Name)

theorem noting_eq :
    ∃ occ, n.noting claimed other = { n.claimer with occupiedAddresses := occ } := by
  unfold noting
  split
  · exact markOccupied_eq n.claimer claimed
  · exact ⟨n.claimer.occupiedAddresses, rfl⟩

variable {n} in
/-- Noting a claim loses no address. -/
theorem noting_mono {a : Address}
    (h : n.claimer.isOccupied a = true) : (n.noting claimed other).isOccupied a = true := by
  unfold noting
  split
  · exact isOccupied_mark_of h
  · exact h

variable {n} in
theorem yield_effect {claimed : Address} {other : Name} (h : n.Contested claimed other)
    (hlose : ¬n.cf.name < other) :
    Effect n (.claim claimed other)
      ((n.claimer.markOccupied claimed).yield n.cf claimed).1.situation
      ((n.claimer.markOccupied claimed).yield n.cf claimed).2 := by
  obtain ⟨occ, hocc⟩ := markOccupied_eq n.claimer claimed
  simp only [yield]
  by_cases hself : n.cf.name.selfConfigurable = false
  · rw [if_pos hself]
    have he := Effect.unseated h hlose (.inl hself)
    rw [hocc] at he ⊢
    exact he
  rw [if_neg hself]
  have hself : n.cf.name.selfConfigurable = true := by simpa using hself
  split
  next hnone =>
    have he := Effect.unseated h hlose (.inr (findNextAddress_none_iff.mp hnone))
    rw [hocc] at he ⊢
    exact he
  next hsome =>
    obtain ⟨hcand, hfree⟩ := findNextAddress_free hsome
    split
    · have he := Effect.queued h hlose hself hcand hfree
      rw [hocc] at he ⊢
      exact he
    have he := Effect.relocated h hlose hself hcand hfree
    rw [hocc] at he ⊢
    exact he

theorem claim_effect : Effect n (.claim claimed other) (n.call (.claim claimed other)).1.situation
      (n.call (.claim claimed other)).2 := by
  simp only [call, handleClaim]
  by_cases hmax : maxAddress < claimed
  · rw [if_pos hmax]
    exact .ignored hmax
  rw [if_neg hmax]
  have hle : claimed ≤ maxAddress := UInt8.not_lt.mp hmax
  have heq : (if other ≠ n.cf.name then n.claimer.markOccupied claimed else n.claimer) =
      n.noting claimed other := rfl
  obtain ⟨occ, hocc⟩ := n.noting_eq claimed other
  rw [heq]
  by_cases hrest : n.Contested claimed other
  · -- the claim is for our own address, so it is fought out
    have hmark : n.noting claimed other = n.claimer.markOccupied claimed := if_pos hrest.rival
    obtain ⟨occ, hocc⟩ := markOccupied_eq n.claimer claimed
    rw [hmark, if_neg (by rw [hocc]; simp [hrest.attempted]), if_neg hrest.active,
      if_neg (by rw [hocc]; simp [hrest.heard]), if_neg (not_not.mpr hrest.own), if_neg hrest.rival]
    split
    next hwin =>
      have he := Effect.defended hrest hwin
      rw [hocc] at he ⊢
      exact he
    next hlose => exact yield_effect hrest hlose
  · have hsame : ∀ r : LocalCf × List Frame,
        (r = ({ claimer := n.noting claimed other, cf := n.cf }, [])) →
        Effect n (.claim claimed other) r.1.situation r.2 := by
      rintro _ rfl
      have he := Effect.noted hle hrest
      rw [hocc] at he ⊢
      exact he
    apply hsame
    iterate 5
      split
      · rfl
    rename_i hatt hact hlis hown hriv
    refine absurd ⟨hle, ?_, hact, ?_, not_not.mp hown, hriv⟩ hrest
    · rw [hocc] at hatt
      simpa using hatt
    · rw [hocc] at hlis
      simpa using hlis

theorem request_effect : Effect n .request (n.call .request).1.situation (n.call .request).2 := by
  have hquiet : Effect n .request n.situation [] := .quiet (by simp) (by simp)
  simp only [call, handleRequestForClaim]
  split
  · exact hquiet
  split
  · exact hquiet
  rename_i hreclaim
  have hreclaim : n.claimer.reclaimPending = false := by simpa using hreclaim
  split
  · exact .answered hreclaim (.inl ‹_›)
  · exact .answered hreclaim (.inr ‹_›)
  · split
    · exact .refused ‹_›
    · exact hquiet
  · exact hquiet

variable (op : Op)

/-- **Everything a call can do.** -/
theorem call_effect : Effect n op (n.call op).1.situation (n.call op).2 := by
  cases op with
  | start => exact n.start_effect
  | update ms => exact n.update_effect ms
  | claim claimed other => exact n.claim_effect claimed other
  | duplicate =>
    simp only [call, handleDuplicateName]
    split
    · exact .quiet (by simp) (by simp)
    rename_i h
    rw [not_or, Bool.not_eq_false] at h
    exact .duplicated h.1 h.2
  | request => exact n.request_effect
  | commanded newAddress =>
    simp only [call]
    split
    next h => exact .commanded h.1 h.2
    · exact .quiet (by simp) (by simp)

theorem identity_yield (cf : InternalCf) (claimed : Address) :
    (c.yield cf claimed).1.identity = identity { claimer := c, cf := cf } := by
  simp only [yield]
  split
  · rfl
  split
  · rfl
  split <;> rfl

/-- **What no call changes.** -/
theorem identity_call : (n.call op).1.identity = n.identity := by
  cases op with
  | start =>
    simp only [call, start]
    split <;> rfl
  | update ms =>
    obtain ⟨⟨pending, timer, hc⟩, -⟩ := tickCannotClaim_cases n.claimer n.cf ms
    simp only [call, update, finishListen, hc, tickReclaim, tickContest]
    repeat' split
    all_goals rfl
  | claim claimed other =>
    obtain ⟨occ, hocc⟩ := n.noting_eq claimed other
    simp only [noting] at hocc
    simp only [call, handleClaim, hocc]
    repeat' split
    all_goals first | rfl | exact identity_yield ..
  | duplicate =>
    simp only [call, handleDuplicateName]
    split <;> rfl
  | request =>
    simp only [call, handleRequestForClaim]
    repeat' split
    all_goals rfl
  | commanded newAddress =>
    simp only [call]
    split <;> rfl

theorem name_step : (n.step op).cf.name = n.cf.name :=
  congrArg Identity.name (n.identity_call op)

theorem preferred_step : (n.step op).cf.preferredAddress = n.cf.preferredAddress :=
  congrArg Identity.preferred (n.identity_call op)

variable {n} in
theorem isOnline_iff : n.cf.isOnline = true ↔ n.cf.state = .online := beq_iff_eq

theorem canPort_step : (n.step op).cf.canPort = n.cf.canPort :=
  congrArg Identity.canPort (n.identity_call op)

variable {n} in
/-- A claim puts nobody online. -/
theorem offline_of_claim {claimed : Address} {other : Name} {s : Situation} {out : List Frame}
    (he : Effect n (.claim claimed other) s out) (h : n.cf.state = .offline) :
    s.state = .offline := by
  cases he with
  | quiet | ignored | noted | defended => exact h
  | unseated | queued | relocated => rfl

variable {n} in
theorem offline_step_claim (h : n.cf.isOnline = false) (claimed : Address) (other : Name) :
    (n.step (.claim claimed other)).cf.isOnline = false := by
  have hstate : n.cf.state = .offline := by
    cases hs : n.cf.state
    · simp [ControlFunction.isOnline, hs] at h
    · rfl
  have hoff : (n.step (.claim claimed other)).cf.state = .offline :=
    offline_of_claim (n.call_effect (.claim claimed other)) hstate
  simp [ControlFunction.isOnline, hoff]

end LocalCf

end Machbus
