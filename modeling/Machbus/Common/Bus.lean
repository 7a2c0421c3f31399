import Machbus.Common.Run
/-!
# A broadcast bus

Any number of nodes on one bus: what a node emits is posted to every
other node and delivered there later, in any order. On it stands a
pattern of agreement without a coordinator: a node announces what it
takes, and a node that hears a rival announce what it holds either gives
it up or announces it again. Two holders of one resource are then always
about to hear of each other, so once nothing is left to deliver there are
none.
-/

namespace Machbus

open List

variable {S A M : Type*} {n : ℕ} {i j : Fin n}

/-- A kind of node: what it does of its own accord and on a message, and
what it emits then. -/
structure Station (S A M : Type*) where
  act : S → A → S × List M
  recv : S → M → S × List M

/-- The nodes, and the messages on their way with where they go. -/
structure Bus (n : ℕ) (S M : Type*) where
  node : Fin n → S
  inFlight : List (Fin n × M)

inductive BusAct (n : ℕ) (A : Type*)
  | act (i : Fin n) (a : A)
  /-- The message at this position is delivered. -/
  | deliver (k : ℕ)
  deriving DecidableEq, Repr

namespace Bus

/-- A copy of each message to every node but the emitting one. -/
def posted (i : Fin n) (ms : List M) : List (Fin n × M) :=
  (List.finRange n).flatMap fun j => if j = i then [] else ms.map (Prod.mk j)

theorem mem_posted {ms : List M} {m : M} : (j, m) ∈ posted i ms ↔ j ≠ i ∧ m ∈ ms := by
  rw [posted, mem_flatMap]
  constructor
  · rintro ⟨x, -, hx⟩
    split at hx
    · cases hx
    rename_i hxi
    obtain ⟨m', hm', heq⟩ := mem_map.mp hx
    obtain ⟨rfl, rfl⟩ := Prod.mk.inj heq
    exact ⟨hxi, hm'⟩
  · rintro ⟨hji, hm⟩
    refine ⟨j, mem_finRange j, ?_⟩
    rw [if_neg hji]
    exact mem_map.mpr ⟨m, hm, rfl⟩

/-- Node `i` has moved to a state and emitted messages, with `rest` still
on the way. -/
def moved (b : Bus n S M) (i : Fin n) (rest : List (Fin n × M)) (r : S × List M) : Bus n S M where
  node := Function.update b.node i r.1
  inFlight := rest ++ posted i r.2

variable (P : Station S A M)

def step (b : Bus n S M) : BusAct n A → Bus n S M
  | .act i a => b.moved i b.inFlight (P.act (b.node i) a)
  | .deliver k =>
    match b.inFlight[k]? with
    | some (i, m) => b.moved i (b.inFlight.eraseIdx k) (P.recv (b.node i) m)
    | none => b

/-- What the delivered message is not, is still on the way. -/
theorem mem_eraseIdx_of_ne {α : Type*} {l : List α} {k : ℕ} {x y : α} (hk : l[k]? = some y)
    (hx : x ∈ l) (hne : x ≠ y) : x ∈ l.eraseIdx k := by
  obtain ⟨i, hi⟩ := mem_iff_getElem?.mp hx
  refine mem_eraseIdx_iff_getElem?.mpr ⟨i, ?_, hi⟩
  rintro rfl
  exact hne (Option.some.inj (hi.symm.trans hk))

end Bus

/-! ## Agreement -/

/-- **Announce and defend.** `Holds s r` says that a node in state `s`
holds resource `r`; a node is known by its key and announces a resource by
a message made of the two. -/
structure Contention (P : Station S A M) (K R : Type*) where
  key : S → K
  claim : K → R → M
  Inv : S → Prop
  Holds : S → R → Prop
  key_act : ∀ s a, key (P.act s a).1 = key s
  key_recv : ∀ s m, key (P.recv s m).1 = key s
  inv_act : ∀ s a, Inv s → Inv (P.act s a).1
  inv_recv : ∀ s m, Inv s → Inv (P.recv s m).1
  /-- What is newly held is announced. -/
  holds_act : ∀ s a r, Inv s → Holds (P.act s a).1 r → Holds s r ∨ claim (key s) r ∈ (P.act s a).2
  holds_recv : ∀ s m r, Inv s → Holds (P.recv s m).1 r →
    Holds s r ∨ claim (key s) r ∈ (P.recv s m).2
  /-- A rival's announcement makes a holder give up or announce again. -/
  defend : ∀ s k r, Inv s → k ≠ key s → Holds s r → Holds (P.recv s (claim k r)).1 r →
    claim (key s) r ∈ (P.recv s (claim k r)).2

namespace Contention

variable {P : Station S A M} {K R : Type*} (C : Contention P K R)

/-- One of two nodes is about to hear the other announce `r`. -/
def Pending (b : Bus n S M) (i j : Fin n) (r : R) : Prop :=
  (j, C.claim (C.key (b.node i)) r) ∈ b.inFlight ∨ (i, C.claim (C.key (b.node j)) r) ∈ b.inFlight

/-- The invariant of the bus. -/
structure Fair (b : Bus n S M) : Prop where
  inv : ∀ i, C.Inv (b.node i)
  distinct : ∀ i j, i ≠ j → C.key (b.node i) ≠ C.key (b.node j)
  pending : ∀ i j r, i ≠ j → C.Holds (b.node i) r → C.Holds (b.node j) r → C.Pending b i j r

variable {C} {b : Bus n S M}

/-- **One node moves.** It keeps its key and its invariant, and what it
holds it has announced, or held already with no rival's announcement of it
taken off the bus. -/
theorem Fair.moved (h : C.Fair b) {i : Fin n} {rest : List (Fin n × M)} {t : S × List M}
    (hkey : C.key t.1 = C.key (b.node i)) (hinv : C.Inv t.1)
    (hothers : ∀ j m, j ≠ i → (j, m) ∈ b.inFlight → (j, m) ∈ rest)
    (hheld : ∀ r, C.Holds t.1 r → C.claim (C.key (b.node i)) r ∈ t.2 ∨
      C.Holds (b.node i) r ∧ ∀ j, j ≠ i → (i, C.claim (C.key (b.node j)) r) ∈ b.inFlight →
        (i, C.claim (C.key (b.node j)) r) ∈ rest) : C.Fair (b.moved i rest t) := by
  have hself : (b.moved i rest t).node i = t.1 := Function.update_self ..
  have hother : ∀ {j}, j ≠ i → (b.moved i rest t).node j = b.node j := fun hj =>
    Function.update_of_ne hj ..
  have hkeys : ∀ j, C.key ((b.moved i rest t).node j) = C.key (b.node j) := by
    intro j
    by_cases hj : j = i
    · rw [hj, hself, hkey]
    · rw [hother hj]
  -- the moved node against any other
  have hmoved : ∀ j r, j ≠ i → C.Holds t.1 r → C.Holds (b.node j) r →
      C.Pending (b.moved i rest t) i j r := by
    intro j r hj hi hjr
    unfold Pending
    rw [hkeys, hkeys]
    rcases hheld r hi with hann | ⟨hheld, hkept⟩
    · exact .inl (mem_append_right _ (Bus.mem_posted.mpr ⟨hj, hann⟩))
    · rcases h.pending i j r (Ne.symm hj) hheld hjr with hin | hin
      · exact .inl (mem_append_left _ (hothers j _ hj hin))
      · exact .inr (mem_append_left _ (hkept j hj hin))
  refine ⟨fun j => ?_, fun x y hxy => ?_, fun x y r hxy hx hy => ?_⟩
  · by_cases hj : j = i
    · rw [hj, hself]
      exact hinv
    · rw [hother hj]
      exact h.inv j
  · rw [hkeys, hkeys]
    exact h.distinct x y hxy
  · by_cases hxi : x = i
    · subst hxi
      rw [hself] at hx
      rw [hother (Ne.symm hxy)] at hy
      exact hmoved y r (Ne.symm hxy) hx hy
    · rw [hother hxi] at hx
      by_cases hyi : y = i
      · subst hyi
        rw [hself] at hy
        exact Or.symm (hmoved x r hxi hy hx)
      rw [hother hyi] at hy
      unfold Pending
      rw [hkeys, hkeys]
      exact (h.pending x y r hxy hx hy).imp (fun hin => mem_append_left _ (hothers y _ hyi hin))
        (fun hin => mem_append_left _ (hothers x _ hxi hin))

theorem Fair.step (h : C.Fair b) (a : BusAct n A) : C.Fair (b.step P a) := by
  cases a with
  | act i a =>
    refine h.moved (C.key_act _ _) (C.inv_act _ _ (h.inv i)) (fun _ _ _ hm => hm) ?_
    intro r hr
    rcases C.holds_act _ _ r (h.inv i) hr with hheld | hann
    · exact .inr ⟨hheld, fun _ _ hm => hm⟩
    · exact .inl hann
  | deliver k =>
    simp only [Bus.step]
    split
    next i m hk =>
      refine h.moved (C.key_recv _ _) (C.inv_recv _ _ (h.inv i)) (fun j m' hj hm => ?_)
        fun r hr => ?_
      · exact Bus.mem_eraseIdx_of_ne hk hm fun heq => hj (Prod.mk.inj heq).1
      · rcases C.holds_recv _ _ r (h.inv i) hr with hheld | hann
        · by_cases hrival : ∃ j, j ≠ i ∧ m = C.claim (C.key (b.node j)) r
          · -- the delivered message is a rival's claim, so it was answered
            obtain ⟨j, hj, rfl⟩ := hrival
            exact .inl (C.defend _ _ r (h.inv i) (h.distinct j i hj) hheld hr)
          · refine .inr ⟨hheld, fun j hj hm => Bus.mem_eraseIdx_of_ne hk hm fun heq => ?_⟩
            exact hrival ⟨j, hj, (Prod.mk.inj heq).2.symm⟩
        · exact .inl hann
    · exact h

/-- **Nobody shares what is held.** With nothing left to deliver, no two
nodes hold one resource. -/
theorem Fair.exclusive (h : C.Fair b) (hquiet : b.inFlight = []) {r : R}
    (hij : i ≠ j) (hi : C.Holds (b.node i) r) : ¬C.Holds (b.node j) r := by
  intro hj
  have hpend := h.pending i j r hij hi hj
  unfold Pending at hpend
  rw [hquiet] at hpend
  rcases hpend with hmem | hmem <;> cases hmem

end Contention

end Machbus
