import Mathlib.Data.List.Basic
/-!
# Checks

Fallible code is a sequence of checks, each of which fails with an error
of its own. What is left of a sequence that passed is the conjunction of
what it checked.
-/

namespace Machbus

open List

variable {ε α β : Type} {f : α → Except ε β} {e : ε} {x : Except ε α} {c : Prop} {o : Option α}
  {a : α} {b : β} {Q : ε → Prop} {xs : List α}

/-- Fails unless the condition holds. -/
def require (c : Prop) [Decidable c] (e : ε) : Except ε Unit := if c then .ok () else .error e

@[simp] theorem require_eq_ok [Decidable c] : require c e = .ok () ↔ c := by
  rw [require]
  split
  case isTrue h => exact ⟨fun _ => h, fun _ => rfl⟩
  case isFalse h => exact ⟨nofun, fun hc => absurd hc h⟩

/-- A check that passes can be left out. -/
theorem require_bind_of [Decidable c] (h : c) (f : Unit → Except ε β) :
    (require c e >>= f) = f () := by
  rw [require, if_pos h]
  rfl

theorem require_bind_of_not [Decidable c] (h : ¬ c) (f : Unit → Except ε β) :
    (require c e >>= f) = .error e := by
  rw [require, if_neg h]
  rfl

/-- Fails unless there is a value. -/
def given (o : Option α) (e : ε) : Except ε α :=
  match o with
  | some a => .ok a
  | none => .error e

@[simp] theorem given_eq_ok : given o e = .ok a ↔ o = some a := by
  cases o <;> simp [given]

theorem given_bind_of (h : o = some a) (f : α → Except ε β) : (given o e >>= f) = f a := by
  rw [h]
  rfl

/-- Another error is no result either. -/
@[simp] theorem mapError_eq_ok {ε' : Type} {f : ε → ε'} : x.mapError f = .ok a ↔ x = .ok a := by
  cases x <;> simp [Except.mapError]

theorem map_eq_ok {f : α → β} : x.map f = .ok b ↔ ∃ a, x = .ok a ∧ f a = b := by
  cases x <;> simp [Except.map]

theorem bind_eq_ok : (x >>= f) = .ok b ↔ ∃ a, x = .ok a ∧ f a = .ok b := by
  cases x with
  | error e => exact ⟨nofun, fun ⟨_, h, _⟩ => nomatch h⟩
  | ok a => exact ⟨fun h => ⟨a, rfl, h⟩, fun ⟨_, h, hf⟩ => by cases h; exact hf⟩

theorem check_bind_eq_ok {x : Except ε Unit} {f : Unit → Except ε β} :
    (x >>= f) = .ok b ↔ x = .ok () ∧ f () = .ok b := by
  rw [bind_eq_ok]
  exact ⟨fun ⟨(), hx, hf⟩ => ⟨hx, hf⟩, fun ⟨hx, hf⟩ => ⟨(), hx, hf⟩⟩

/-- A sequence that passed, one check taken off. -/
theorem require_then_eq_ok [Decidable c] {f : Unit → Except ε β} :
    (require c e >>= f) = .ok b ↔ c ∧ f () = .ok b := by
  rw [check_bind_eq_ok, require_eq_ok]

theorem given_then_eq_ok : (given o e >>= f) = .ok b ↔ ∃ a, o = some a ∧ f a = .ok b := by
  simp [bind_eq_ok]

/-- What holds of every result. -/
def Ensures (P : α → Prop) (x : Except ε α) : Prop := ∀ a, x = .ok a → P a

theorem ensures_ok {P : α → Prop} : Ensures P (.ok a : Except ε α) ↔ P a :=
  ⟨fun h => h a rfl, fun h _ he => Except.ok.inj he ▸ h⟩

theorem ensures_map {P : β → Prop} {f : α → β} :
    Ensures P (x.map f) ↔ Ensures (fun a => P (f a)) x := by
  cases x with
  | ok a => exact ensures_ok.trans (ensures_ok (P := fun a => P (f a))).symm
  | error e => exact iff_of_true nofun nofun

theorem ensures_bind {P : β → Prop} : Ensures P (x >>= f) ↔ ∀ a, x = .ok a → Ensures P (f a) := by
  simp only [Ensures, bind_eq_ok]
  exact ⟨fun h a ha b hb => h b ⟨a, ha, hb⟩, fun h b ⟨a, ha, hb⟩ => h a ha b hb⟩

/-- What holds of every error. -/
def Refuses (Q : ε → Prop) (x : Except ε α) : Prop := ∀ e, x = .error e → Q e

@[simp] theorem refuses_ok : Refuses Q (.ok a) := nofun

@[simp] theorem refuses_require [Decidable c]
    {f : Unit → Except ε β} :
    Refuses Q (require c e >>= f) ↔ (¬c → Q e) ∧ (c → Refuses Q (f ())) := by
  by_cases hc : c
  · rw [require_bind_of hc]
    exact ⟨fun h => ⟨fun hn => absurd hc hn, fun _ => h⟩, fun h => h.2 hc⟩
  rw [require_bind_of_not hc]
  exact ⟨fun h => ⟨fun _ => h e rfl, fun h' => absurd h' hc⟩,
    fun h _ he => Except.error.inj he ▸ h.1 hc⟩

@[simp] theorem refuses_given :
    Refuses Q (given o e >>= f) ↔ (o = none → Q e) ∧ ∀ a, o = some a → Refuses Q (f a) := by
  cases o with
  | none => exact ⟨fun h => ⟨fun _ => h e rfl, nofun⟩, fun h _ he => Except.error.inj he ▸ h.1 rfl⟩
  | some a => exact ⟨fun h => ⟨nofun, fun _ ha => Option.some.inj ha ▸ h⟩, fun h => h.2 a rfl⟩

/-- One check in front of a result. -/
theorem require_pure_eq_ok [Decidable c] {x y : α} :
    (require c e >>= fun _ => pure x : Except ε α) = .ok y ↔ c ∧ x = y := by
  rw [check_bind_eq_ok, require_eq_ok]
  exact and_congr_right fun _ => Except.ok.injEq x y ▸ Iff.rfl

/-- A loop of checks passes when each of them does. -/
theorem forM_eq_ok {f : α → Except ε Unit} : xs.forM f = .ok () ↔ ∀ x ∈ xs, f x = .ok () := by
  induction xs with
  | nil => exact ⟨nofun, fun _ => rfl⟩
  | cons x xs ih =>
    rw [forM_eq_forM, forM_cons, check_bind_eq_ok, forall_mem_cons, ← forM_eq_forM, ih]

/-- A loop that collects passes when each round does. -/
theorem mapM_eq_ok_map {g : α → β}
    (h : ∀ x ∈ xs, f x = .ok (g x)) : xs.mapM f = .ok (xs.map g) := by
  induction xs with
  | nil => rfl
  | cons x xs ih =>
    rw [forall_mem_cons] at h
    rw [mapM_cons, h.1, ih h.2]
    rfl

/-- A loop that collects passes only when each round does. -/
theorem exists_eq_ok_of_mapM {ys : List β}
    (h : xs.mapM f = .ok ys) : ∀ x ∈ xs, ∃ y, f x = .ok y := by
  induction xs generalizing ys with
  | nil => exact nofun
  | cons x xs ih =>
    rw [mapM_cons, bind_eq_ok] at h
    obtain ⟨y, hy, h⟩ := h
    rw [bind_eq_ok] at h
    obtain ⟨ys, hys, -⟩ := h
    rw [forall_mem_cons]
    exact ⟨⟨y, hy⟩, ih hys⟩

end Machbus
