import Machbus.Claim.Helpers.Effect
/-!
# Self-configured addresses

A self-configurable control function that cannot have its preferred address
looks for another one: when the listen window closes, when a re-claim that
was put off is due, or at once if it claims without delay.
-/

namespace Machbus.AddressClaimer

open Claim

variable {c : AddressClaimer} {cf : InternalCf}

/-- The null address is not kept track of. -/
theorem isOccupied_of_lt {a : Address} (h : maxAddress < a) : c.isOccupied a = false := by
  rw [isOccupied, decide_eq_false (UInt8.not_le.mpr h), Bool.false_and]

/-- Only a fixed-address control function claims an address it knows to be
in use when the listen window closes. -/
theorem isOccupied_listenAddress (hself : cf.name.selfConfigurable = true) :
    c.isOccupied (c.listenAddress cf) = false := by
  by_cases hnone : maxAddress < c.listenAddress cf
  · exact isOccupied_of_lt hnone
  unfold listenAddress at hnone ⊢
  split
  next htaken =>
    rw [if_pos htaken] at hnone
    exact (findNextAddress_free hnone).2
  next hfree =>
    simpa [hself] using hfree

/-- **A self-configured address is free, and is found if there is one.** The
search returns a free address of the configurable range other than the
preferred one, and the null address only when there is none. What a
self-configurable control function claims, at the end of the listen window
or instead of an address it has lost, is not known to be in use. -/
theorem self_configured_address_free (c : AddressClaimer) (cf : InternalCf) (current : Address) :
    ((∃ a, Candidate cf.preferredAddress a ∧ c.isOccupied a = false) →
        Candidate cf.preferredAddress (c.findNextAddress cf current) ∧
          c.isOccupied (c.findNextAddress cf current) = false) ∧
      (c.findNextAddress cf current = nullAddress →
        ¬∃ a, Candidate cf.preferredAddress a ∧ c.isOccupied a = false) ∧
      (cf.name.selfConfigurable = true → ∀ elapsedMs,
        ∀ r ∈ [c.finishListen cf, c.tickReclaim cf elapsedMs, c.yield cf current], r.2 ≠ [] →
          r.1.claimer.isOccupied r.1.cf.address = false) := by
  refine ⟨?_, ?_, ?_⟩
  · rintro ⟨a, ha, hfree⟩
    rcases c.findNextAddress_cases cf current with hfound | ⟨-, hex⟩
    · exact hfound
    · rw [hex a ha] at hfree
      cases hfree
  · rintro hnull ⟨a, ha, hfree⟩
    have hex := findNextAddress_none_iff.mp (hnull.symm ▸ maxAddress_lt_nullAddress)
    rw [hex a ha] at hfree
    cases hfree
  · intro hself elapsedMs r hr hsent
    rcases List.mem_cons.mp hr with rfl | hr
    · unfold finishListen
      dsimp only
      split
      · exact isOccupied_of_lt maxAddress_lt_nullAddress
      · exact isOccupied_listenAddress hself
    rcases List.mem_cons.mp hr with rfl | hr
    · unfold tickReclaim at hsent ⊢
      dsimp only at hsent ⊢
      split at hsent
      next hdue =>
        rw [if_pos hdue]
        split
        · exact isOccupied_of_lt maxAddress_lt_nullAddress
        · exact reclaimTarget_free ‹_›
      · exact absurd rfl hsent
    · obtain rfl := List.mem_singleton.mp hr
      unfold yield at hsent ⊢
      dsimp only at hsent ⊢
      rw [hself] at hsent ⊢
      rw [if_neg Bool.noConfusion] at hsent ⊢
      split
      · exact isOccupied_of_lt maxAddress_lt_nullAddress
      next hfound =>
        rw [if_neg hfound] at hsent
        split at hsent
        · exact absurd rfl hsent
        next hnow =>
          rw [if_neg hnow]
          exact (findNextAddress_free hfound).2

end Machbus.AddressClaimer
