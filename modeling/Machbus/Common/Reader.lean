import Mathlib.Data.List.Basic
/-!
# Readers

A reader takes a value off the front of a list of symbols, or fails. The
records of a wire format are read one after the other without lengths
between them, so what a reader does with the bytes of its own record must
not depend on what comes next: `Reads P p bs x` says that `p` takes
exactly `bs` off the front, and gives `x`, whatever follows, as long as
what follows satisfies `P`.

`Yields` is the other direction: what a reader can give at all.
-/

namespace Machbus

open List

variable {τ ε σ α β : Type}

/-- A reader of symbols `τ`, failing with `ε`. -/
abbrev Reader (τ ε α : Type) := StateT (List τ) (Except ε) α

namespace Reader

/-- Fails unless `n` symbols are left. -/
def need (n : ℕ) (e : ε) : Reader τ ε Unit := fun l =>
  if l.length < n then .error e else .ok ((), l)

/-- Takes the next `n` symbols. -/
def take (n : ℕ) (e : ε) : Reader τ ε (List τ) := fun l =>
  if l.length < n then .error e else .ok (l.take n, l.drop n)

/-- Fails unless the condition holds. -/
def ensure (c : Prop) [Decidable c] (e : ε) : Reader τ ε Unit := fun l =>
  if c then .ok ((), l) else .error e

/-- Reads the same thing `n` times. -/
def times (p : Reader τ ε α) : ℕ → Reader τ ε (List α)
  | 0 => pure []
  | n + 1 => do
      let x ← p
      let xs ← times p n
      pure (x :: xs)

/-- Reads on until nothing is left, threading a state through. -/
def drain (p : σ → Reader τ ε σ) (e : ε) : ℕ → σ → List τ → Except ε σ
  | _, s, [] => .ok s
  | 0, _, _ :: _ => .error e
  | fuel + 1, s, l => (p s l).bind fun r => drain p e fuel r.1 r.2

/-! ## What a reader takes -/

/-- `p` takes exactly `bs` and gives `x`, whatever follows that satisfies
`P`. -/
def Reads (P : List τ → Prop) (p : Reader τ ε α) (bs : List τ) (x : α) : Prop :=
  ∀ rest, P rest → p (bs ++ rest) = .ok (x, rest)

variable {P : List τ → Prop} {p : Reader τ ε α} {q : Reader τ ε β} {f : α → Reader τ ε β}
variable {bs cs : List τ} {x : α} {y : β} {e : ε} {step : σ → Reader τ ε σ}

theorem reads_pure (x : α) : Reads P (pure x : Reader τ ε α) [] x := fun _ _ => rfl

theorem reads_take {n : ℕ} (h : bs.length = n) : Reads P (take n e) bs bs := by
  intro rest _
  have hlen : ¬ (bs ++ rest).length < n := by
    rw [length_append]
    omega
  rw [take, if_neg hlen, ← h, take_left, drop_left]

theorem reads_bind_eq {rest : List τ} (hp : p (bs ++ (cs ++ rest)) = .ok (x, cs ++ rest))
    (hf : f x (cs ++ rest) = .ok (y, rest)) : (p >>= f) ((bs ++ cs) ++ rest) = .ok (y, rest) := by
  change (p ((bs ++ cs) ++ rest)).bind (fun r => f r.1 r.2) = _
  rw [append_assoc, hp]
  exact hf

/-- **Readers compose**: the second takes what follows the first. -/
theorem Reads.bind (hp : Reads (fun _ => True) p bs x) (hf : Reads P (f x) cs y) :
    Reads P (p >>= f) (bs ++ cs) y :=
  fun rest hrest => reads_bind_eq (hp _ .intro) (hf rest hrest)

/-- A reader followed by one that takes nothing. -/
theorem Reads.finish (hp : Reads P p bs x) (hf : Reads P (f x) [] y) : Reads P (p >>= f) bs y := by
  intro rest hrest
  have h : (p >>= f) ((bs ++ []) ++ rest) = .ok (y, rest) :=
    reads_bind_eq (hp rest hrest) (hf rest hrest)
  rwa [append_nil] at h

theorem Reads.map (g : α → β) (hp : Reads P p bs x) : Reads P (g <$> p) bs (g x) := by
  intro rest hrest
  change (p (bs ++ rest)).bind (fun r => .ok (g r.1, r.2)) = _
  rw [hp rest hrest]
  rfl

theorem Reads.need {n : ℕ} (h : n ≤ bs.length) (hq : Reads P q bs y) :
    Reads P (need n e >>= fun _ => q) bs y := by
  intro rest hrest
  have hlen : ¬ (bs ++ rest).length < n := by
    rw [length_append]
    omega
  have hneed : Reader.need n e (bs ++ rest) = .ok ((), bs ++ rest) := if_neg hlen
  change (Reader.need n e (bs ++ rest)).bind (fun r => q r.2) = _
  rw [hneed]
  exact hq rest hrest

theorem Reads.ensure {c : Prop} [Decidable c] (h : c) (hq : Reads P q bs y) :
    Reads P (ensure c e >>= fun _ => q) bs y := by
  intro rest hrest
  have hens : Reader.ensure c e (bs ++ rest) = .ok ((), bs ++ rest) := if_pos h
  change (Reader.ensure c e (bs ++ rest)).bind (fun r => q r.2) = _
  rw [hens]
  exact hq rest hrest

theorem reads_times {write : α → List τ} (h : ∀ x, Reads (fun _ => True) p (write x) x) :
    ∀ xs : List α, Reads P (times p xs.length) (xs.flatMap write) xs
  | [] => reads_pure []
  | x :: xs => by
    rw [flatMap_cons]
    exact (h x).bind ((reads_times h xs).finish (reads_pure _))

/-- **A list of records is read record by record.** Each record, written
out, is not empty and is read as one step of the state; what follows a
record is another one or nothing. -/
theorem drain_flatMap {ρ : Type} {push : σ → ρ → σ} {write : ρ → List τ} (hP : P []) (rs : List ρ)
    (hstep : ∀ r ∈ rs, write r ≠ [] ∧ (∀ l, P (write r ++ l)) ∧
      ∀ s, Reads P (step s) (write r) (push s r)) :
    ∀ {fuel : ℕ} (s : σ), (rs.flatMap write).length ≤ fuel →
      drain step e fuel s (rs.flatMap write) = .ok (rs.foldl push s) := by
  induction rs with
  | nil =>
    intro fuel s _
    cases fuel <;> rfl
  | cons r rs ih =>
    intro fuel s hfuel
    rw [forall_mem_cons] at hstep
    obtain ⟨⟨hne, -, hreads⟩, htail⟩ := hstep
    have hpos : 0 < (write r).length := length_pos_of_ne_nil hne
    rw [flatMap_cons, length_append] at hfuel
    obtain ⟨fuel, rfl⟩ : ∃ n, fuel = n + 1 := ⟨fuel - 1, by omega⟩
    have hrest : P (rs.flatMap write) := by
      cases rs with
      | nil => exact hP
      | cons r' rs => exact (htail r' (mem_cons_self ..)).2.1 _
    obtain ⟨b, bs, hb⟩ := exists_cons_of_ne_nil hne
    have hunroll : drain step e (fuel + 1) s (write r ++ rs.flatMap write)
        = (step s (write r ++ rs.flatMap write)).bind fun z => drain step e fuel z.1 z.2 := by
      rw [hb]
      rfl
    rw [flatMap_cons, hunroll, hreads s _ hrest]
    exact ih htail _ (by omega)

/-! ## What a reader can give -/

/-- Whatever `p` gives satisfies `Q`. -/
def Yields (p : Reader τ ε α) (Q : α → Prop) : Prop := ∀ l x rest, p l = .ok (x, rest) → Q x

variable {Q : α → Prop} {R : β → Prop}

theorem Yields.trivial (p : Reader τ ε α) : Yields p fun _ => True := fun _ _ _ _ => .intro

theorem yields_pure {x : α} (h : Q x) : Yields (pure x : Reader τ ε α) Q := by
  intro l y rest heq
  cases heq
  exact h

theorem yields_throw (e : ε) : Yields (throw e : Reader τ ε α) Q := by
  intro l y rest heq
  cases heq

theorem Yields.bind (hp : Yields p Q) (hf : ∀ x, Q x → Yields (f x) R) : Yields (p >>= f) R := by
  intro l y rest heq
  change (p l).bind (fun r => f r.1 r.2) = _ at heq
  cases hpl : p l with
  | error e => rw [hpl] at heq; cases heq
  | ok r =>
    rw [hpl] at heq
    exact hf r.1 (hp l r.1 r.2 hpl) r.2 y rest heq

/-- What was checked holds. -/
theorem yields_ensure {c : Prop} [Decidable c] :
    Yields (ensure c e : Reader τ ε Unit) fun _ => c := by
  intro l y rest heq
  by_contra hc
  rw [ensure, if_neg hc] at heq
  cases heq

/-- A check that reads nothing passed. -/
theorem yields_lift (c : Except ε α) : Yields (liftM c : Reader τ ε α) fun x => c = .ok x := by
  intro l y rest heq
  cases c with
  | error e => cases heq
  | ok x => cases heq; rfl

/-- What every step keeps holds of what is left at the end. -/
theorem drain_keeps {I : σ → Prop} (hstep : ∀ s, I s → Yields (step s) I) :
    ∀ (fuel : ℕ) (s : σ) (l : List τ) (s' : σ), I s → drain step e fuel s l = .ok s' → I s' := by
  intro fuel
  induction fuel with
  | zero =>
    intro s l s' hs heq
    cases l with
    | nil => cases heq; exact hs
    | cons a l => cases heq
  | succ fuel ih =>
    intro s l s' hs heq
    cases l with
    | nil => cases heq; exact hs
    | cons a l =>
      rw [drain] at heq
      cases hr : step s (a :: l) with
      | error e => rw [hr] at heq; cases heq
      | ok r =>
        rw [hr] at heq
        exact ih r.1 r.2 s' (hstep s hs _ _ _ hr) heq
      · exact cons_ne_nil _ _

end Reader

end Machbus
