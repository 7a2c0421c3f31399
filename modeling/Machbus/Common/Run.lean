import Mathlib.Data.List.Induction
import Mathlib.Data.List.Basic
/-!
# Runs, invariants and fair schedules

A component is a step function on its state. A run folds a list of
actions through it, an invariant is carried along by one induction, and
a property that reads the past carries the history with it. An unending
schedule is a function of time; if every phase of the system names the
actions that move it forward and those keep coming, the last phase is
reached.
-/

namespace Machbus

open List

variable {S A : Type*} (step : S → A → S)

/-- The state a list of actions leads to. -/
def run (s : S) (as : List A) : S := as.foldl step s

@[simp] theorem run_cons (s : S) (a : A) (as : List A) :
    run step s (a :: as) = run step (step s a) as := rfl

theorem run_append (s : S) (as bs : List A) : run step s (as ++ bs) = run step (run step s as) bs :=
  foldl_append

@[simp] theorem run_concat (s : S) (as : List A) (a : A) :
    run step s (as ++ [a]) = step (run step s as) a :=
  run_append step s as [a]

/-- Everything a run puts out, in order. -/
def emissions {O : Type*} (out : S → A → List O) : S → List A → List O
  | _, [] => []
  | s, a :: as => out s a ++ emissions out (step s a) as

/-- Every action of the run is taken in a state that allows it. -/
def Along (C : S → A → Prop) : S → List A → Prop
  | _, [] => True
  | s, a :: as => C s a ∧ Along C (step s a) as

instance Along.decidable {C : S → A → Prop} [∀ s a, Decidable (C s a)] :
    ∀ (s : S) (as : List A), Decidable (Along step C s as)
  | _, [] => inferInstanceAs (Decidable True)
  | s, a :: as =>
    have := Along.decidable (C := C) (step s a) as
    inferInstanceAs (Decidable (C s a ∧ Along step C (step s a) as))

variable {step} {C : S → A → Prop} {as : List A} {s : S} {I : S → Prop}

/-- **What a step keeps, a run keeps.** -/
theorem run_induction (hs : I s)
    (hstep : ∀ s a, I s → I (step s a)) (as : List A) : I (run step s as) := by
  induction as generalizing s with
  | nil => exact hs
  | cons a as ih => exact ih (hstep s a hs)

/-- **Runs that meet a condition.** What every allowed step keeps holds at
the end of a run of such steps. -/
theorem Along.induction
    (h : Along step C s as) (hs : I s) (hstep : ∀ s a, C s a → I s → I (step s a)) :
    I (run step s as) := by
  induction as generalizing s with
  | nil => exact hs
  | cons a as ih => exact ih h.2 (hstep s a h.1 hs)

/-- **The exact condition.** If the allowed actions are just those that
keep an invariant, a run keeps it throughout just when all its actions
are allowed. -/
theorem always_iff_along (hs : I s) (hstep : ∀ s a, I s → (I (step s a) ↔ C s a)) (as : List A) :
    (∀ pre, pre <+: as → I (run step s pre)) ↔ Along step C s as := by
  induction as generalizing s with
  | nil =>
    refine ⟨fun _ => trivial, fun _ pre hpre => ?_⟩
    rw [prefix_nil.mp hpre]
    exact hs
  | cons a as ih =>
    constructor
    · intro h
      have ha : I (step s a) := h [a] ⟨as, rfl⟩
      exact ⟨(hstep s a hs).mp ha,
        (ih ha).mp fun pre hpre => h (a :: pre) (cons_prefix_cons.mpr ⟨rfl, hpre⟩)⟩
    · rintro ⟨hc, hrest⟩ pre hpre
      rcases pre with _ | ⟨b, pre⟩
      · exact hs
      · obtain ⟨rfl, htail⟩ := cons_prefix_cons.mp hpre
        exact (ih ((hstep s b hs).mpr hc)).mpr hrest pre htail

/-- What an invariant implies holds of every action of a run. -/
theorem along_of_invariant {P : A → Prop} (hs : I s)
    (hstep : ∀ s a, P a → I s → I (step s a) ∧ C s a) (has : ∀ a ∈ as, P a) :
    Along step C s as := by
  induction as generalizing s with
  | nil => trivial
  | cons a as ih =>
    obtain ⟨hkept, hc⟩ := hstep s a (has a mem_cons_self) hs
    exact ⟨hc, ih hkept fun b hb => has b (mem_cons_of_mem _ hb)⟩

theorem Along.mono {C D : S → A → Prop} (hCD : ∀ s a, C s a → D s a)
    (h : Along step C s as) : Along step D s as := by
  induction as generalizing s with
  | nil => trivial
  | cons a as ih => exact ⟨hCD s a h.1, ih h.2⟩

/-- Conditions that agree where a third holds, along a run that meets
that. -/
theorem along_congr_of {B C D : S → A → Prop} (h : Along step B s as)
    (hiff : ∀ s a, B s a → (C s a ↔ D s a)) : Along step C s as ↔ Along step D s as := by
  induction as generalizing s with
  | nil => exact Iff.rfl
  | cons a as ih => exact and_congr (hiff s a h.1) (ih h.2)

/-- Two conditions that agree wherever an invariant holds, for the actions
of one kind, allow the same runs of these. -/
theorem along_congr {P : A → Prop} {C D : S → A → Prop} (hs : I s)
    (hstep : ∀ s a, P a → I s → I (step s a)) (hiff : ∀ s a, P a → I s → (C s a ↔ D s a))
    (has : ∀ a ∈ as, P a) : Along step C s as ↔ Along step D s as := by
  have h : Along step (fun s a => P a ∧ I s) s as :=
    along_of_invariant hs (fun s a ha hi => ⟨hstep s a ha hi, ha, hi⟩) has
  exact along_congr_of h fun s a ⟨ha, hi⟩ => hiff s a ha hi

/-- Conditions that hold along a run hold together. -/
theorem Along.and {C D : S → A → Prop} (hC : Along step C s as)
    (hD : Along step D s as) : Along step (fun s a => C s a ∧ D s a) s as := by
  induction as generalizing s with
  | nil => trivial
  | cons a as ih => exact ⟨⟨hC.1, hD.1⟩, ih hC.2 hD.2⟩

/-- They hold along the run of a machine that carries more along. -/
theorem Along.of_map {T : Type*} {stepT : T → A → T} {f : T → S}
    (hstep : ∀ t a, f (stepT t a) = step (f t) a) {t : T}
    (h : Along step C (f t) as) : Along stepT (fun t a => C (f t) a) t as := by
  induction as generalizing t with
  | nil => trivial
  | cons a as ih => exact ⟨h.1, ih (by rw [hstep]; exact h.2)⟩

/-- **An invariant with its history.** What holds of the start with
nothing behind it, and is kept by a step that extends the history, holds
of every run. -/
theorem run_induction_history {I : List A → S → Prop} (hs : I [] s)
    (hstep : ∀ h a, I h (run step s h) → I (h ++ [a]) (step (run step s h) a)) (as : List A) :
    I as (run step s as) := by
  induction as using reverseRecOn with
  | nil => exact hs
  | append_singleton as a ih => simpa using hstep as a ih

variable (step)

theorem along_append {as bs : List A} :
    Along step C s (as ++ bs) ↔ Along step C s as ∧ Along step C (run step s as) bs := by
  induction as generalizing s with
  | nil => exact ⟨fun h => ⟨trivial, h⟩, fun h => h.2⟩
  | cons a as ih => rw [cons_append, Along, Along, ih, run_cons, and_assoc]

theorem along_concat {a : A} :
    Along step C s (as ++ [a]) ↔ Along step C s as ∧ C (run step s as) a := by
  rw [along_append]
  exact and_congr_right fun _ => ⟨fun h => h.1, fun h => ⟨h, trivial⟩⟩

/-- **Since the last.** The history ends in `post`, which starts right
behind `a`, its last action of kind `C`. -/
def SinceLast (C : S → A → Prop) (s : S) (history : List A) (a : A) (post : List A) : Prop :=
  ∃ pre, history = pre ++ a :: post ∧ C (run step s pre) a ∧
    Along step (fun t b => ¬C t b) (run step s (pre ++ [a])) post

variable {step}

theorem SinceLast.start {history : List A} {a : A}
    (h : C (run step s history) a) : SinceLast step C s (history ++ [a]) a [] :=
  ⟨history, rfl, h, trivial⟩

theorem SinceLast.extend {history post : List A} {a b : A}
    (h : SinceLast step C s history a post) (hb : ¬C (run step s history) b) :
    SinceLast step C s (history ++ [b]) a (post ++ [b]) := by
  obtain ⟨pre, rfl, hpre, hpost⟩ := h
  refine ⟨pre, by simp, hpre, ?_⟩
  rw [along_concat]
  refine ⟨hpost, ?_⟩
  rw [← run_append]
  simpa using hb

variable (step)

/-! ## Unending schedules -/

/-- The state after `n` actions of a schedule. -/
def stateAt (s : S) (σ : ℕ → A) : ℕ → S
  | 0 => s
  | n + 1 => step (stateAt s σ n) (σ n)

/-- The schedule keeps coming back to actions of a kind. -/
def Recurs (σ : ℕ → A) (P : A → Prop) : Prop := ∀ n, ∃ m, n ≤ m ∧ P (σ m)

/-- **What an action does in a phase**: it leaves less to do, or it leaves
the phase as it is and is not one that the phase waits for. -/
def Advances {ι : Type*} (P : ι → S → Prop) (rank : ι → ℕ) (help : ι → A → Prop) (i : ι) (a : A)
    (s : S) : Prop :=
  ∃ j, P j s ∧ (rank j < rank i ∨ j = i ∧ (0 < rank i → ¬help i a))

theorem Advances.stays {ι : Type*} {P : ι → S → Prop} {rank : ι → ℕ} {help : ι → A → Prop} {i : ι}
    {a : A} {s : S} (h : P i s) (hno : ¬help i a) : Advances P rank help i a s :=
  ⟨i, h, .inr ⟨rfl, fun _ => hno⟩⟩

/-- **Phases.** A description of where a system stands: `P i` holds of
the states in phase `i`, `rank i` is how much is left to do, and `help i`
names the actions that get something done there. -/
structure Phases (ι : Type*) where
  P : ι → S → Prop
  rank : ι → ℕ
  help : ι → A → Prop
  /-- The actions allowed in a state. -/
  ok : S → A → Prop
  moves : ∀ i s a, ok s a → P i s → Advances P rank help i a (step s a)

namespace Phases

variable {step} {ι : Type*} (Φ : Phases step ι) {s : S} {σ : ℕ → A} {i : ι}
  (hok : ∀ n, Φ.ok (stateAt step s σ n) (σ n))
include hok

/-- The phase stays as it is or has less to do. -/
theorem wait {n : ℕ} (h : Φ.P i (stateAt step s σ n)) (d : ℕ) :
    ∃ j, Φ.P j (stateAt step s σ (n + d)) ∧ (Φ.rank j < Φ.rank i ∨ j = i) := by
  induction d with
  | zero => exact ⟨i, h, .inr rfl⟩
  | succ d ih =>
    obtain ⟨j, hj, hji⟩ := ih
    obtain ⟨k, hk, hkj⟩ := Φ.moves j _ _ (hok (n + d)) hj
    refine ⟨k, hk, ?_⟩
    rcases hji with hlt | rfl
    · exact .inl (hkj.elim (Nat.lt_trans · hlt) fun h => h.1 ▸ hlt)
    · exact hkj.imp_right And.left

/-- **A fair schedule finishes.** If in every phase with something left
to do a helpful action keeps coming, a phase with nothing left to do is
reached. -/
theorem exists_done (hfair : ∀ i, 0 < Φ.rank i → Recurs σ (Φ.help i)) (h : Φ.P i s) :
    ∃ n j, Φ.rank j = 0 ∧ Φ.P j (stateAt step s σ n) := by
  suffices key : ∀ r n i, Φ.rank i ≤ r → Φ.P i (stateAt step s σ n) →
      ∃ m j, Φ.rank j = 0 ∧ Φ.P j (stateAt step s σ m) from
    key _ 0 i (Nat.le_refl _) h
  intro r
  induction r with
  | zero => intro n i hr hi; exact ⟨n, i, by omega, hi⟩
  | succ r ih =>
    intro n i hr hi
    rcases Nat.eq_zero_or_pos (Φ.rank i) with h0 | hpos
    · exact ⟨n, i, h0, hi⟩
    · obtain ⟨m, hnm, hm⟩ := hfair i hpos n
      obtain ⟨d, rfl⟩ := Nat.exists_eq_add_of_le hnm
      obtain ⟨j, hj, hlt | rfl⟩ := Φ.wait hok hi d
      · exact ih _ j (by omega) hj
      · -- still waiting when the helpful action comes
        obtain ⟨k, hk, hlt | ⟨-, hno⟩⟩ := Φ.moves j _ _ (hok (n + d)) hj
        · exact ih (n + d + 1) k (by omega) hk
        · exact absurd hm (hno hpos)

/-- **Always in a phase, and done for good.** -/
theorem settles (hfair : ∀ i, 0 < Φ.rank i → Recurs σ (Φ.help i)) (h : Φ.P i s) :
    (∀ n, ∃ j, Φ.P j (stateAt step s σ n)) ∧
      ∃ n, ∀ m, n ≤ m → ∃ j, Φ.rank j = 0 ∧ Φ.P j (stateAt step s σ m) := by
  constructor
  · intro n
    obtain ⟨j, hj, -⟩ := Φ.wait hok (n := 0) h n
    exact ⟨j, Nat.zero_add n ▸ hj⟩
  · obtain ⟨n, j, h0, hj⟩ := Φ.exists_done hok hfair h
    refine ⟨n, fun m hm => ?_⟩
    obtain ⟨d, rfl⟩ := Nat.exists_eq_add_of_le hm
    obtain ⟨k, hk, hlt | rfl⟩ := Φ.wait hok hj d
    · omega
    · exact ⟨k, h0, hk⟩

end Phases

end Machbus
