import Machbus.Common.Lockstep
import Machbus.Common.OrderedMap
import Machbus.Net.Model.Frame
/-!
# Task controller — process-data rate limiter

The caller drives the clock, which stops at the end of its range, and asks
before each value it sends whether the variable may go out again. The
limiter spaces the values of one variable by `1000 / r` milliseconds,
rounded down. `rate_capped_iff` says when that keeps them at `r` a second,
and `due_is_served` that a variable which is due goes out while the clock
runs, whatever is asked for the others.
-/

namespace Machbus.Tc

def defaultMinIntervalMs : ℕ := 100

/-- A process-data variable, ordered like the pair it stands for. -/
structure Variable where
  element : UInt16
  ddi : UInt16
  deriving DecidableEq, Repr

instance : LT Variable :=
  ⟨fun v w => v.element < w.element ∨ v.element = w.element ∧ v.ddi < w.ddi⟩

instance : DecidableLT Variable := fun _ _ => inferInstanceAs (Decidable (_ ∨ _))

structure ProcessDataRateLimiter where
  nowMs : ℕ
  minIntervalMs : ℕ
  lastSend : OrderedMap Variable ℕ
  deriving DecidableEq, Repr

namespace ProcessDataRateLimiter

def new : ProcessDataRateLimiter := ⟨0, defaultMinIntervalMs, []⟩

variable (l : ProcessDataRateLimiter)

def withMaxRatePerS (perS : ℕ) : ProcessDataRateLimiter :=
  { l with minIntervalMs := 1000 / max perS 1 }

def tick (elapsedMs : ℕ) : ProcessDataRateLimiter :=
  { l with nowMs := satAdd32 l.nowMs elapsedMs }

def allow (v : Variable) : ProcessDataRateLimiter × Bool :=
  let ok :=
    match l.lastSend.get v with
    | some last => decide (l.minIntervalMs ≤ l.nowMs - last)
    | none => true
  (if ok then { l with lastSend := l.lastSend.insert v l.nowMs } else l, ok)

/-- A call of the client. -/
inductive Call
  | tick (elapsedMs : ℕ)
  | allow (v : Variable)
  deriving DecidableEq, Repr

def step : Call → ProcessDataRateLimiter
  | .tick elapsedMs => l.tick elapsedMs
  | .allow v => (l.allow v).1

/-! ## How often a variable goes out -/

open List Nat Call

/-- The time a call takes. -/
def Call.elapsed : Call → ℕ
  | .tick elapsedMs => elapsedMs
  | .allow _ => 0

/-- What a call answers about a variable. -/
def answer (v : Variable) (l : ProcessDataRateLimiter) : Call → List Bool
  | .allow w => if w = v then [(l.allow v).2] else []
  | .tick _ => []

/-- When the variable is let through, in a run that begins at a time. -/
def sentAt (v : Variable) : ProcessDataRateLimiter → ℕ → List Call → List ℕ
  | _, _, [] => []
  | l, t, c :: cs =>
    (if l.answer v c = [true] then [t] else []) ++ sentAt v (l.step c) (t + c.elapsed) cs

/-- The clock does not stop during the call. -/
def Ticks (l : ProcessDataRateLimiter) (c : Call) : Prop := l.nowMs + c.elapsed ≤ u32Max
  deriving Decidable

variable {l : ProcessDataRateLimiter} {v : Variable} {c : Call} {cs : List Call} {t interval : ℕ}

/-! ## One call -/

theorem allow_fst : (l.allow v).1 =
    if (l.allow v).2 then { l with lastSend := l.lastSend.insert v l.nowMs } else l := rfl

theorem allow_snd_iff :
    (l.allow v).2 = true ↔ ∀ last ∈ l.lastSend.get v, l.minIntervalMs ≤ l.nowMs - last := by
  cases h : l.lastSend.get v <;> simp [allow, h]

theorem minIntervalMs_step : (l.step c).minIntervalMs = l.minIntervalMs := by
  cases c with
  | tick elapsedMs => rfl
  | allow w =>
    rw [step, allow_fst]
    split <;> rfl

theorem nowMs_allow (w : Variable) : (l.step (.allow w)).nowMs = l.nowMs := by
  rw [step, allow_fst]
  split <;> rfl

theorem nowMs_step (h : l.Ticks c) : (l.step c).nowMs = l.nowMs + c.elapsed := by
  cases c with
  | tick elapsedMs => exact min_eq_left h
  | allow w => exact nowMs_allow w

/-- **What is noted** of a variable is when it was last let through. -/
theorem get_step : (l.step c).lastSend.get v =
    if l.answer v c = [true] then some l.nowMs else l.lastSend.get v := by
  cases c with
  | tick elapsedMs => rfl
  | allow w =>
    rw [step, allow_fst, answer]
    by_cases hw : w = v
    · subst hw
      cases (l.allow w).2 <;> simp [OrderedMap.get_insert]
    · rw [if_neg hw]
      split
      · simp [OrderedMap.get_insert, Ne.symm hw]
      · rfl

/-- Who is let through has waited. -/
theorem waited_of_answer (h : l.answer v c = [true]) :
    ∀ last ∈ l.lastSend.get v, l.minIntervalMs ≤ l.nowMs - last := by
  cases c with
  | tick elapsedMs => cases h
  | allow w =>
    rw [answer] at h
    split at h
    · exact allow_snd_iff.mp (singleton_inj.mp h)
    · cases h

/-! ## The cap -/

/-- Values of a variable keep the interval. -/
theorem sentAt_spaced (hpos : 0 < l.minIntervalMs)
    (hend : t + (cs.map elapsed).sum ≤ u32Max) (hnow : l.nowMs = t) :
    (sentAt v l t cs).Pairwise (fun x y => x + l.minIntervalMs ≤ y) ∧
      ∀ x ∈ sentAt v l t cs, t ≤ x ∧ ∀ last ∈ l.lastSend.get v, last + l.minIntervalMs ≤ x := by
  induction cs generalizing l t with
  | nil => exact ⟨.nil, nofun⟩
  | cons c cs ih =>
    rw [map_cons, sum_cons] at hend
    have hnow' : (l.step c).nowMs = t + c.elapsed := by
      rw [nowMs_step (by rw [Ticks]; omega), hnow]
    obtain ⟨hpair, hall⟩ := ih (by rwa [minIntervalMs_step]) (by omega) hnow'
    rw [minIntervalMs_step] at hpair
    simp only [minIntervalMs_step, get_step] at hall
    rw [sentAt]
    split
    · -- what follows keeps the interval to this one, and this one to what was before
      rename_i hsent
      rw [if_pos hsent, hnow] at hall
      have hwaited := waited_of_answer hsent
      refine ⟨pairwise_cons.mpr ⟨fun x hx => (hall x hx).2 t rfl, hpair⟩, fun x hx => ?_⟩
      have hx : t ≤ x := by
        rcases mem_cons.mp hx with rfl | hx
        · exact le_rfl
        · exact le_trans (le_add_right _ _) (hall x hx).1
      refine ⟨hx, fun last hlast => ?_⟩
      have := hwaited last hlast
      omega
    next hsent =>
      rw [if_neg hsent] at hall
      exact ⟨hpair, fun x hx => ⟨le_trans (le_add_right _ _) (hall x hx).1, (hall x hx).2⟩⟩

/-- As many intervals as a window has, so many times fit in it. -/
theorem length_le_of_spaced {xs : List ℕ} {n : ℕ} (hpair : xs.Pairwise fun x y => x + interval ≤ y)
    (hall : ∀ x ∈ xs, t ≤ x ∧ x < t + n * interval) : xs.length ≤ n := by
  induction xs generalizing t n with
  | nil => exact zero_le _
  | cons x xs ih =>
    obtain ⟨hfirst, hpair⟩ := pairwise_cons.mp hpair
    obtain ⟨hx, hlt⟩ := hall x mem_cons_self
    cases n with
    | zero => omega
    | succ n =>
      rw [succ_mul] at hall
      refine succ_le_succ (ih (t := t + interval) hpair fun y hy => ?_)
      have := hfirst y hy
      have := hall y (mem_cons_of_mem _ hy)
      omega

/-- A value at every interval. -/
def burst (v : Variable) (interval : ℕ) : ℕ → List Call
  | 0 => [.allow v]
  | n + 1 => .allow v :: .tick interval :: burst v interval n

theorem elapsed_burst (n : ℕ) : ((burst v interval n).map elapsed).sum = n * interval := by
  induction n with
  | zero => rw [zero_mul]; rfl
  | succ n ih =>
    rw [burst, map_cons, map_cons, sum_cons, sum_cons, ih, succ_mul, elapsed, elapsed]
    omega

theorem sentAt_burst (n : ℕ) (hend : t + n * interval ≤ u32Max) (hint : l.minIntervalMs = interval)
    (hnow : l.nowMs = t) (hdue : (l.allow v).2 = true) :
    (sentAt v l t (burst v interval n)).length = n + 1 ∧
      ∀ x ∈ sentAt v l t (burst v interval n), t ≤ x ∧ x ≤ t + n * interval := by
  have hsent : l.answer v (.allow v) = [true] := by rw [answer, if_pos rfl, hdue]
  induction n generalizing l t with
  | zero => simp [burst, sentAt, hsent]
  | succ n ih =>
    rw [succ_mul] at hend ⊢
    have hticks : (l.step (.allow v)).Ticks (.tick interval) := by
      rw [Ticks, nowMs_allow, hnow, elapsed]
      omega
    have hnow' : ((l.step (.allow v)).step (.tick interval)).nowMs = t + interval := by
      rw [nowMs_step hticks, nowMs_allow, hnow, elapsed]
    have hint' : ((l.step (.allow v)).step (.tick interval)).minIntervalMs = interval := by
      rw [minIntervalMs_step, minIntervalMs_step, hint]
    have hdue' : (((l.step (.allow v)).step (.tick interval)).allow v).2 = true := by
      rw [allow_snd_iff, hnow', hint', get_step, if_neg (by simp [answer]), get_step, if_pos hsent]
      rintro last ⟨⟩
      omega
    have hsent' : ((l.step (.allow v)).step (.tick interval)).answer v (.allow v) = [true] := by
      rw [answer, if_pos rfl, hdue']
    obtain ⟨hlen, hall⟩ := ih (by omega) hint' hnow' hdue' hsent'
    rw [burst, sentAt, if_pos hsent, sentAt, if_neg (by simp [answer])]
    refine ⟨congrArg succ hlen, fun x hx => ?_⟩
    rcases mem_cons.mp hx with rfl | hx
    · omega
    · have := hall x hx
      omega

/-- **The cap is kept** by a rate just when it divides the second: the
interval is rounded down. -/
theorem rate_capped_iff (r : ℕ) :
    (∀ cs v t, (cs.map Call.elapsed).sum < 2 ^ 32 →
      (sentAt v (new.withMaxRatePerS r) 0 cs).countP (fun x => t ≤ x ∧ x < t + 1000) ≤ r) ↔
        r ∣ 1000 := by
  have hle : r * (1000 / max r 1) ≤ 1000 := by
    rcases Nat.eq_zero_or_pos r with rfl | hr
    · omega
    · rw [max_eq_left hr]
      exact Nat.mul_div_le 1000 r
  constructor
  · intro h
    by_contra hdvd
    have hlt : r * (1000 / max r 1) < 1000 :=
      lt_of_le_of_ne hle fun he => hdvd ⟨_, he.symm⟩
    have hmax : 0 + r * (1000 / max r 1) ≤ u32Max := by unfold u32Max; omega
    obtain ⟨hlen, hall⟩ := sentAt_burst (l := new.withMaxRatePerS r) (v := ⟨0, 0⟩)
      r hmax rfl rfl rfl
    have hcount := h (burst ⟨0, 0⟩ (1000 / max r 1) r) ⟨0, 0⟩ 0 (by rw [elapsed_burst]; omega)
    have hwindow : ∀ x ∈ sentAt ⟨0, 0⟩ (new.withMaxRatePerS r) 0 (burst ⟨0, 0⟩ (1000 / max r 1) r),
        decide (0 ≤ x ∧ x < 0 + 1000) = true := fun x hx => by
      have := hall x hx
      exact decide_eq_true (by omega)
    rw [countP_eq_length.mpr hwindow, hlen] at hcount
    omega
  · intro hdvd cs v t hend
    have hr : 0 < r := pos_of_dvd_of_pos hdvd (by decide)
    have hone : r * (1000 / max r 1) = 1000 := by
      rw [max_eq_left hr]
      exact Nat.mul_div_cancel' hdvd
    have hpos : 0 < 1000 / max r 1 := pos_of_ne_zero fun he => by rw [he] at hone; omega
    have hmax : 0 + (cs.map elapsed).sum ≤ u32Max := by unfold u32Max; omega
    obtain ⟨hpair, -⟩ := sentAt_spaced (l := new.withMaxRatePerS r) (v := v) hpos hmax rfl
    rw [countP_eq_length_filter]
    refine length_le_of_spaced (t := t) (hpair.filter _) fun x hx => ?_
    have hx := (mem_filter.mp hx).2
    simp only [Bool.decide_and, Bool.and_eq_true, decide_eq_true_eq] at hx
    change t ≤ x ∧ x < t + r * (1000 / max r 1)
    omega

/-- Three a second go out every 333 ms, so that four are out before the
second is over. -/
theorem four_in_a_second :
    (sentAt ⟨1, 65⟩ (new.withMaxRatePerS 3) 0 (burst ⟨1, 65⟩ 333 3)).countP
      (fun x => 0 ≤ x ∧ x < 0 + 1000) = 4 := by
  decide +kernel

/-! ## Being served -/

/-- What a run has come to. -/
theorem noted_run (h : Along step Ticks l cs) (hnow : l.nowMs = t) :
    (run step l cs).nowMs = t + (cs.map elapsed).sum ∧
      (run step l cs).minIntervalMs = l.minIntervalMs ∧
      ∀ last ∈ (run step l cs).lastSend.get v,
        last ∈ sentAt v l t cs ∨ last ∈ l.lastSend.get v := by
  induction cs generalizing l t with
  | nil => exact ⟨hnow, rfl, fun _ h => .inr h⟩
  | cons c cs ih =>
    obtain ⟨hend, hint, hnoted⟩ := ih h.2 (by rw [nowMs_step h.1, hnow])
    refine ⟨?_, hint.trans minIntervalMs_step, fun last hlast => ?_⟩
    · rw [run_cons, hend, map_cons, sum_cons, add_assoc]
    rw [sentAt]
    rcases hnoted last hlast with hsent | hbefore
    · exact .inl (mem_append_right _ hsent)
    rw [get_step] at hbefore
    split at hbefore
    · cases hbefore
      exact .inl (mem_append_left _ (by rw [if_pos ‹_›, hnow]; exact mem_singleton_self _))
    · exact .inr hbefore

/-- The calls a variable depends on. -/
def concerns (v : Variable) : Call → Bool
  | .tick _ => true
  | .allow w => w = v

/-- **Variables unwind.** Asking for another one changes nothing of what
answers are read off. -/
theorem unwinding (v : Variable) : Unwinding step (answer v) (concerns v)
      (fun l => (l.nowMs, l.minIntervalMs, l.lastSend.get v)) (fun _ => True) fun _ _ => True where
  keeps _ _ _ _ := trivial
  unseen l c _ _ hc := by
    cases c with
    | tick elapsedMs => cases hc
    | allow w =>
      have hnone : l.answer v (.allow w) = [] := if_neg (by simpa [concerns] using hc)
      rw [nowMs_allow, minIntervalMs_step, get_step, hnone]
      exact ⟨rfl, rfl⟩
  seen l l' c _ _ _ _ _ hview := by
    simp only [Prod.mk.injEq] at hview ⊢
    obtain ⟨hnow, hint, hget⟩ := hview
    have hanswer : l.answer v c = l'.answer v c := by
      cases c with
      | tick elapsedMs => rfl
      | allow w => rw [answer, answer, allow, allow, hnow, hint, hget]
    rw [minIntervalMs_step, minIntervalMs_step, get_step, get_step, hanswer, hnow, hget]
    refine ⟨⟨?_, hint, rfl⟩, rfl⟩
    cases c with
    | tick elapsedMs => exact congrArg (satAdd32 · elapsedMs) hnow
    | allow w => rw [nowMs_allow, nowMs_allow, hnow]

/-- A limiter as it is built. -/
def spacing (interval : ℕ) : ProcessDataRateLimiter := { new with minIntervalMs := interval }

/-- **Nobody starves** while the clock runs: a variable that was not let
through within the interval is let through. Its answers are in every run
those it would get if it were the only one. -/
theorem due_is_served (interval : ℕ) (cs : List Call) (v : Variable) :
    (Along step Ticks (spacing interval) cs →
        (∀ x ∈ sentAt v (spacing interval) 0 cs, x + interval ≤ (cs.map Call.elapsed).sum) →
          ((run step (spacing interval) cs).allow v).2 = true) ∧
      emissions step (answer v) (spacing interval) cs =
        emissions step (answer v) (spacing interval) (cs.filter (concerns v)) := by
  have hany (ds : List Call) : Along step (fun _ _ => True) (spacing interval) ds :=
    along_of_invariant (I := fun _ => True) (P := fun _ => True) trivial
      (fun _ _ _ _ => ⟨trivial, trivial⟩) fun _ _ => trivial
  constructor
  · intro h hdue
    obtain ⟨hnow, hint, hnoted⟩ := noted_run h rfl
    rw [allow_snd_iff, hnow, hint]
    intro last hlast
    rcases hnoted last hlast with hsent | hbefore
    · have := hdue last hsent
      change interval ≤ _
      omega
    · cases hbefore
  · refine (unwinding v).emissions_eq trivial trivial rfl (hany _) (hany _) ?_
    rw [filter_filter]
    simp

theorem due_is_served_second :
    ((run step (spacing 100) [.allow ⟨1, 65⟩, .tick 100]).allow ⟨1, 65⟩).2 = true :=
  (due_is_served 100 _ _).1 (by decide) (by decide)

/-- The clock has come to its end before the last value goes out, and then
stands still. -/
def lastValue : List Call := [.tick u32Max, .allow ⟨1, 65⟩, .tick 100]

theorem starved_at_the_end :
    (∀ x ∈ sentAt ⟨1, 65⟩ (spacing 100) 0 lastValue,
        x + 100 ≤ (lastValue.map Call.elapsed).sum) ∧
      ((run step (spacing 100) lastValue).allow ⟨1, 65⟩).2 = false := by
  decide +kernel

end ProcessDataRateLimiter

end Machbus.Tc
