import Machbus.Common.Run
import Machbus.Niu.Model.Router
/-!
# Rate limits and the clock

A rule with an interval passes a frame if the interval has gone by since
it last passed one. The clock wraps at `2 ^ 32`, and the time gone by is
measured by a subtraction that stops at zero: once the clock has wrapped,
the rule holds frames back until the clock reads as late as it did.
`rate_limit_iff` says that this is the only way the limit goes wrong.
-/

namespace Machbus.Niu

open List FilterRule

/-- A frame, the side it comes from and the clock. -/
structure Arrival where
  frame : Frame
  origin : Side
  nowMs : UInt32
  deriving DecidableEq, Repr

variable (n : Niu) (x : Arrival)

/-- The unit after a frame. -/
def arrive : Niu := (n.processFrame x.frame x.origin x.nowMs.toNat).1

/-- What the unit sends on. -/
def sends : Option Frame := (n.processFrame x.frame x.origin x.nowMs.toNat).2

/-- The unit when it consults its rules. -/
def consulting : Niu :=
  (n.isLoopEcho x.frame x.origin x.nowMs.toNat).1.observeAddressClaim x.frame x.origin

/-- The rule is about the frame. -/
def about (rule : FilterRule) : Bool :=
  rule.applies x.frame.pgn x.origin ((n.consulting x).observedName x.origin x.frame.source)
    (if x.frame.isBroadcast then none
      else (n.consulting x).observedName x.origin x.frame.destination)

/-- The frame gets as far as the rules, and the one at `k` is the first
about it. It lets frames through at an interval. -/
structure Meets (k : ℕ) (rule : FilterRule) : Prop where
  active : n.state = .active
  source : invalidSource x.frame = false
  noEcho : (n.isLoopEcho x.frame x.origin x.nowMs.toNat).2 = false
  first : n.filters.findIdx? (n.about x) = some k
  entry : n.filters[k]? = some rule
  policy : rule.policy = .allow
  interval : 0 < rule.maxFrequencyMs

/-- The interval has gone by on the clock since the last forward. -/
def Due (rule : FilterRule) (nowMs : ℕ) : Prop :=
  ∀ last ∈ rule.lastForwardTimeMs, rule.maxFrequencyMs ≤ wrappingSub32 nowMs last

/-- **The limit is kept.** A frame is forwarded and its time noted if it is
due; otherwise it is counted as rate limited. -/
def Limits : Prop :=
  ∀ k rule, n.Meets x k rule →
    (Due rule x.nowMs.toNat → n.sends x = some x.frame ∧ (n.arrive x).filters =
      n.filters.set k { rule with lastForwardTimeMs := some x.nowMs.toNat }) ∧
    (¬Due rule x.nowMs.toNat → n.sends x = none ∧ (n.arrive x).filters = n.filters ∧
      (n.arrive x).rateLimitedCount = satAdd32 n.rateLimitedCount 1)

/-- A frame that is due does not come at an earlier reading of the clock
than the rule's last forward. -/
def Unwrapped : Prop :=
  ∀ k rule, n.Meets x k rule → Due rule x.nowMs.toNat →
    ∀ last ∈ rule.lastForwardTimeMs, last ≤ x.nowMs.toNat

/-! ## One frame -/

variable {n x} {k : ℕ} {rule : FilterRule}

theorem resolve_of_findIdx {pgn : ℕ} {origin : Side} {source destination : Option Name} {nowMs : ℕ}
    {rules : List FilterRule}
    (hfirst : rules.findIdx? (·.applies pgn origin source destination) = some k)
    (hrule : rules[k]? = some rule) : resolve pgn origin source destination nowMs rules =
      some (rules.set k (rule.fire nowMs).1, rule.policy, (rule.fire nowMs).2) := by
  induction rules generalizing k with
  | nil => cases hfirst
  | cons r rules ih =>
    rw [findIdx?_cons] at hfirst
    rw [resolve]
    split at hfirst
    · cases hfirst
      cases hrule
      rw [if_pos ‹_›]
      rfl
    · obtain ⟨i, hi, rfl⟩ := Option.map_eq_some_iff.mp hfirst
      rw [if_neg ‹_›, ih hi hrule]
      rfl

theorem consulting_eq : (n.consulting x).filters = n.filters ∧
    (n.consulting x).rateLimitedCount = n.rateLimitedCount := by
  unfold consulting observeAddressClaim isLoopEcho
  split <;> split
  · exact ⟨rfl, rfl⟩
  · exact ⟨rfl, rfl⟩
  · split <;> exact ⟨rfl, rfl⟩
  · split <;> exact ⟨rfl, rfl⟩

theorem filters_rememberForwardedFrame (n : Niu) (frame : Frame) (side : Side) (nowMs : ℕ) :
    (n.rememberForwardedFrame frame side nowMs).filters = n.filters := by
  unfold rememberForwardedFrame
  dsimp only
  split
  · rfl
  split
  · rfl
  · rfl

/-- **The rule decides.** -/
theorem Meets.outcome (h : n.Meets x k rule) :
    (n.arrive x).filters = n.filters.set k (rule.fire x.nowMs.toNat).1 ∧
      if (rule.fire x.nowMs.toNat).2 then
        n.sends x = none ∧ (n.arrive x).rateLimitedCount = satAdd32 n.rateLimitedCount 1
      else n.sends x = some x.frame := by
  obtain ⟨hfilters, hcount⟩ := @consulting_eq n x
  have hresolve : (n.consulting x).resolvePolicy x.frame x.origin x.nowMs.toNat =
      ({ n.consulting x with filters := n.filters.set k (rule.fire x.nowMs.toNat).1 }, rule.policy,
        (rule.fire x.nowMs.toNat).2) := by
    have hfirst := h.first
    unfold resolvePolicy
    dsimp only
    rw [hfilters, resolve_of_findIdx hfirst h.entry]
  unfold consulting at hresolve hcount
  unfold arrive sends processFrame processFrameInner
  rw [if_neg (not_not_intro h.active), h.source]
  simp only [h.noEcho, hresolve, h.policy]
  cases (rule.fire x.nowMs.toNat).2 with
  | true => exact ⟨rfl, rfl, congrArg (satAdd32 · 1) hcount⟩
  | false => exact ⟨filters_rememberForwardedFrame _ _ _ _, rfl⟩

/-- **What a rule with an interval does.** It passes the frame if the
difference of the readings is at least the interval. -/
theorem fire_of_interval (h : 0 < rule.maxFrequencyMs) (nowMs : ℕ) : rule.fire nowMs =
      if ∀ last ∈ rule.lastForwardTimeMs, rule.maxFrequencyMs ≤ nowMs - last then
        ({ rule with lastForwardTimeMs := some nowMs }, false)
      else (rule, true) := by
  unfold fire
  rw [if_pos h]
  cases rule.lastForwardTimeMs with
  | none => simp
  | some last =>
    by_cases hlt : nowMs - last < rule.maxFrequencyMs
    · simp [hlt]
    · simp [hlt]

theorem le_wrappingSub32 {a b : ℕ} (h : a < 2 ^ 32) (hle : b ≤ a) : wrappingSub32 a b = a - b := by
  unfold wrappingSub32
  omega

theorem limits_iff : n.Limits x ↔ n.Unwrapped x := by
  refine forall_congr' fun k => forall_congr' fun rule => forall_congr' fun h => ?_
  obtain ⟨hfilters, hout⟩ := h.outcome
  have hnow : x.nowMs.toNat < 2 ^ 32 := x.nowMs.toNat_lt
  have hsame : n.filters.set k rule = n.filters := by
    obtain ⟨hk, rfl⟩ := List.getElem?_eq_some_iff.mp h.entry
    exact set_getElem_self hk
  rw [fire_of_interval h.interval] at hfilters hout
  have hdue : (∀ last ∈ rule.lastForwardTimeMs, rule.maxFrequencyMs ≤ x.nowMs.toNat - last) ↔
      Due rule x.nowMs.toNat ∧ ∀ last ∈ rule.lastForwardTimeMs, last ≤ x.nowMs.toNat := by
    have hpos := h.interval
    rw [Due, ← forall₂_and]
    refine forall₂_congr fun last _ => ⟨fun hle => ?_, fun ⟨hle, hlate⟩ => ?_⟩
    · have hlate : last ≤ x.nowMs.toNat := by omega
      exact ⟨le_wrappingSub32 hnow hlate ▸ hle, hlate⟩
    · exact le_wrappingSub32 hnow hlate ▸ hle
  split at hfilters
  next hpass =>
    rw [if_pos hpass] at hout
    obtain ⟨hd, hlate⟩ := hdue.mp hpass
    exact iff_of_true ⟨fun _ => ⟨hout, hfilters⟩, fun hno => absurd hd hno⟩ fun _ => hlate
  next hpass =>
    rw [if_neg hpass] at hout
    constructor
    · rintro ⟨hsent, -⟩ hd
      exact absurd ((hsent hd).1.symm.trans hout.1) nofun
    · intro hlate
      have hd : ¬Due rule x.nowMs.toNat := fun hd => hpass (hdue.mpr ⟨hd, hlate hd⟩)
      exact ⟨fun h => absurd h hd, fun _ => ⟨hout.1, hfilters.trans hsame, hout.2⟩⟩

/-- **The limit through a run.** It is kept for every frame just when no
frame that is due comes at an earlier reading of the clock than the last
forward. -/
theorem rate_limit_iff (n : Niu) (xs : List Arrival) :
    Along arrive Limits n xs ↔ Along arrive Unwrapped n xs :=
  along_congr (I := fun _ => True) (P := fun _ => True) trivial (fun _ _ _ _ => trivial)
    (fun _ _ _ _ => limits_iff) fun _ _ => trivial

/-- A unit with one rule, which lets a group through every 100 ms. -/
def limitedNiu : Niu :=
  { (Niu.new {}).start with
    filters := [{ pgn := 0xFF10, policy := .allow, bidirectional := true, maxFrequencyMs := 100 }] }

def groupAt (nowMs : UInt32) : Arrival :=
  ⟨Frame.new (.encode .default 0xFF10 0x26 broadcastAddress) ⟨1, 2, 3, 4, 5, 6, 7, 8⟩,
    .tractor, nowMs⟩

/-- The second frame comes 512 ms after the first, with the clock wrapped in
between. -/
theorem due_frame_held_back :
    wrappingSub32 0x100 0xFFFFFF00 = 512 ∧
      limitedNiu.sends (groupAt 0xFFFFFF00) = some (groupAt 0xFFFFFF00).frame ∧
      (limitedNiu.arrive (groupAt 0xFFFFFF00)).sends (groupAt 0x100) = none ∧
      ¬Along arrive Limits limitedNiu [groupAt 0xFFFFFF00, groupAt 0x100] := by
  refine ⟨by decide, by decide +kernel, by decide +kernel, fun h => ?_⟩
  have hmeets : (limitedNiu.arrive (groupAt 0xFFFFFF00)).Meets (groupAt 0x100) 0
      ⟨0xFF10, .allow, true, none, none, 100, some 0xFFFFFF00, false⟩ :=
    ⟨by decide +kernel, by decide +kernel, by decide +kernel, by decide +kernel, by decide +kernel,
      rfl, by decide⟩
  have hlate := limits_iff.mp h.2.1 0 _ hmeets (by rintro _ ⟨⟩; decide) _ rfl
  exact absurd hlate (by decide)

end Machbus.Niu
