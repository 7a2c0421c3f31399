import Mathlib.Data.Nat.ModEq
import Machbus.Common.Lockstep
/-!
# Fixed-capacity queue

A ring of `N` slots, with the position of the first item and the number of
items. It answers as a list that takes no more than `N` items.
-/

namespace Machbus

open List

variable {α : Type*} {N : ℕ}

structure FixedQueue (α : Type*) (N : ℕ) where
  buf : ℕ → Option α := fun _ => none
  head : ℕ := 0
  len : ℕ := 0

namespace FixedQueue

variable (q : FixedQueue α N)

def advance (idx : ℕ) : ℕ := if N = 0 then 0 else (idx + 1) % N

def physicalIndex (logical : ℕ) : ℕ := if N = 0 then 0 else (q.head + logical) % N

/-- A full queue gives the item back. -/
def pushBack (item : α) : FixedQueue α N × Except α Unit :=
  if q.len = N then (q, .error item)
  else
    ({ q with
      buf := Function.update q.buf (q.physicalIndex q.len) (some item)
      len := q.len + 1 }, .ok ())

def popFront : FixedQueue α N × Option α :=
  if q.len = 0 then (q, none)
  else
    ({ buf := Function.update q.buf q.head none
       head := if q.len - 1 = 0 then 0 else advance (N := N) q.head
       len := q.len - 1 }, q.buf q.head)

def front : Option α := if 0 < q.len then q.buf q.head else none

/-- Every item is taken out once, and put back if it is kept. -/
def retainLoop (keep : α → Bool) (q : FixedQueue α N) : ℕ → FixedQueue α N
  | 0 => q
  | n + 1 =>
    match q.popFront with
    | (q, none) => q
    | (q, some item) => retainLoop keep (if keep item then (q.pushBack item).1 else q) n

def retain (keep : α → Bool) : FixedQueue α N := q.retainLoop keep q.len

def clear (q : FixedQueue α N) : FixedQueue α N :=
  if q.popFront.2.isSome then clear q.popFront.1 else q.popFront.1
termination_by q.len
decreasing_by
  simp only [popFront] at *
  grind

end FixedQueue

/-- What is asked of a queue. -/
inductive QueueCall (α : Type*)
  | pushBack (item : α)
  | popFront
  | front
  | retain (keep : α → Bool)
  | clear
  | len

/-- What it answers. -/
inductive QueueAnswer (α : Type*)
  | pushed (r : Except α Unit)
  | item (r : Option α)
  | done
  | len (n : ℕ)

def FixedQueue.call (q : FixedQueue α N) : QueueCall α → FixedQueue α N × QueueAnswer α
  | .pushBack item => q.pushBack item |>.map id .pushed
  | .popFront => q.popFront |>.map id .item
  | .front => (q, .item q.front)
  | .retain keep => (q.retain keep, .done)
  | .clear => (q.clear, .done)
  | .len => (q, .len q.len)

/-- **A bounded FIFO.** The list of the items, the first one first. -/
def fifo (N : ℕ) (l : List α) : QueueCall α → List α × QueueAnswer α
  | .pushBack item =>
    if l.length = N then (l, .pushed (.error item)) else (l ++ [item], .pushed (.ok ()))
  | .popFront => (l.tail, .item l.head?)
  | .front => (l, .item l.head?)
  | .retain keep => (l.filter keep, .done)
  | .clear => ([], .done)
  | .len => (l, .len l.length)

namespace FixedQueue

variable {q : FixedQueue α N} {a : α} {l r : List α}

/-- The queue holds these items, in order from the head on. -/
structure Holds (q : FixedQueue α N) (l : List α) : Prop where
  len : q.len = l.length
  le : l.length ≤ N
  head : 0 < N → q.head < N
  buf : ∀ i (h : i < l.length), q.buf ((q.head + i) % N) = some l[i]

/-- Slots at different distances from the head are different. -/
theorem slot_ne {i j : ℕ} (hi : i < N) (hj : j < N) (h : i ≠ j) :
    (q.head + i) % N ≠ (q.head + j) % N := fun heq =>
  h (Nat.ModEq.eq_of_lt_of_lt (Nat.ModEq.add_left_cancel' q.head heq) hi hj)

theorem Holds.pushBack (h : Holds q l) (hl : l.length < N) :
    (q.pushBack a).2 = .ok () ∧ Holds (q.pushBack a).1 (l ++ [a]) := by
  have hlen := h.len
  have hroom : q.len ≠ N ∧ N ≠ 0 := by omega
  rw [FixedQueue.pushBack, if_neg hroom.1, physicalIndex, if_neg hroom.2]
  refine ⟨rfl, by simp [hlen], by simp; omega, h.head, fun i hi => ?_⟩
  rw [length_append, length_singleton] at hi
  by_cases hlast : i = l.length
  · simp [hlast, hlen]
  · have hbefore : i < l.length := by omega
    dsimp only
    rw [Function.update_of_ne (slot_ne (by omega) (by omega) (by omega)), h.buf i hbefore,
      getElem_append_left hbefore]

theorem popFront_nil (h : Holds q []) : q.popFront = (q, none) := if_pos h.len

theorem Holds.front (h : Holds q (a :: l)) : q.buf q.head = some a := by
  have hfirst := h.buf 0 (by simp)
  rwa [Nat.add_zero, Nat.mod_eq_of_lt (h.head (by have := h.le; grind))] at hfirst

theorem Holds.popFront (h : Holds q (a :: l)) : ∃ q', q.popFront = (q', some a) ∧ Holds q' l := by
  have hlen : q.len = l.length + 1 := h.len
  have hle : l.length < N := h.le
  rw [FixedQueue.popFront, if_neg (by omega), h.front, hlen, Nat.add_sub_cancel, advance,
    if_neg (show N ≠ 0 by omega)]
  refine ⟨_, rfl, rfl, by omega, fun hN => ?_, fun i hi => ?_⟩
  · dsimp only
    split
    · exact hN
    · exact Nat.mod_lt _ hN
  · have hnext : ((q.head + 1) % N + i) % N = (q.head + (i + 1)) % N := by
      rw [Nat.mod_add_mod, Nat.add_assoc, Nat.add_comm 1]
    have hne : (q.head + (i + 1)) % N ≠ (q.head + 0) % N :=
      slot_ne (by omega) (by omega) (by omega)
    rw [Nat.add_zero q.head, Nat.mod_eq_of_lt (h.head (by omega))] at hne
    dsimp only
    rw [if_neg (by omega), hnext, Function.update_of_ne hne, h.buf (i + 1) (by simpa using hi)]
    rfl

theorem Holds.retainLoop (keep : α → Bool) (h : Holds q (l ++ r)) :
    Holds (q.retainLoop keep l.length) (r ++ l.filter keep) := by
  induction l generalizing q r with
  | nil => rwa [filter_nil, append_nil]
  | cons a l ih =>
    obtain ⟨q', hpop, hrest⟩ := h.popFront
    rw [length_cons, FixedQueue.retainLoop, hpop]
    by_cases hkeep : keep a
    · have hroom : (l ++ r).length < N := h.le
      have hback := ih (r := r ++ [a]) (by rw [← append_assoc]; exact (hrest.pushBack hroom).2)
      simpa [hkeep] using hback
    · simpa [hkeep] using ih hrest

theorem Holds.clear (h : Holds q l) : Holds q.clear [] := by
  induction l generalizing q with
  | nil =>
    rw [FixedQueue.clear, popFront_nil h]
    exact h
  | cons a l ih =>
    obtain ⟨q', hpop, hrest⟩ := h.popFront
    rw [FixedQueue.clear, hpop]
    exact ih hrest

theorem Holds.call (h : Holds q l) (c : QueueCall α) :
    (q.call c).2 = (fifo N l c).2 ∧ Holds (q.call c).1 (fifo N l c).1 := by
  cases c with
  | pushBack item =>
    rw [FixedQueue.call, fifo]
    split
    case isTrue hfull =>
      rw [FixedQueue.pushBack, if_pos (h.len.trans hfull)]
      exact ⟨rfl, h⟩
    case isFalse hroom =>
      obtain ⟨hok, hback⟩ := h.pushBack (a := item) (by have := h.le; omega)
      exact ⟨congrArg _ hok, hback⟩
  | popFront =>
    cases l with
    | nil =>
      rw [FixedQueue.call, popFront_nil h]
      exact ⟨rfl, h⟩
    | cons a l =>
      obtain ⟨q', hpop, hrest⟩ := h.popFront
      rw [FixedQueue.call, hpop]
      exact ⟨rfl, hrest⟩
  | front =>
    refine ⟨congrArg QueueAnswer.item ?_, h⟩
    cases l with
    | nil => exact if_neg (by simp [h.len])
    | cons a l => exact (if_pos (by simp [h.len])).trans h.front
  | retain keep =>
    refine ⟨rfl, ?_⟩
    have hkept := Holds.retainLoop (r := []) keep (by rwa [append_nil])
    rwa [← h.len] at hkept
  | clear => exact ⟨rfl, h.clear⟩
  | len => exact ⟨congrArg _ h.len, h⟩

/-- **The queue is a bounded FIFO**, whatever is asked of it. -/
theorem fixedQueue_fifo (calls : List (QueueCall α)) :
    outputs call ({} : FixedQueue α N) calls = outputs (fifo N) [] calls :=
  outputs_eq_of_lockstep (R := Holds) (P := fun _ => True) (D := fun _ _ => True)
    (fun _ _ c _ _ h => h.call c) ⟨rfl, Nat.zero_le N, id, fun _ h => absurd h (Nat.not_lt_zero _)⟩
    (fun _ _ => trivial) (along_of_invariant (I := fun _ => True) trivial
      (fun _ _ _ _ => ⟨trivial, trivial⟩) fun _ _ => trivial)

end FixedQueue

end Machbus
