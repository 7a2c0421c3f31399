import Machbus.Common.Run
/-!
# Two runs side by side

A machine takes an input, moves and gives an output. Two machines fed the
same inputs agree if a relation between their states is kept by every
step and implies the same output; where the steps that break it are known,
they agree exactly as long as none of those is taken. An observer sees
some of the actions of one machine and a view of its state: if the actions
it does not see leave the view alone, and those it sees do the same to
equal views, two runs that look the same to it give it the same outputs.
-/

namespace Machbus

open List

variable {S T A O : Type*}

/-- What a machine gives out, input by input. -/
def outputs (step : S → A → S × O) : S → List A → List O
  | _, [] => []
  | s, a :: as => (step s a).2 :: outputs step (step s a).1 as

/-- The states a machine passes through. -/
abbrev moves (step : S → A → S × O) : S → A → S := fun s a => (step s a).1

variable {stepS : S → A → S × O} {stepT : T → A → T × O} {R : S → T → Prop} {P : A → Prop}
  {C D : S → A → Prop}

/-- **Lockstep.** A relation kept by every allowed step, with equal
outputs, makes the two machines give out the same. -/
theorem outputs_eq_of_lockstep (hstep : ∀ s t a, P a → D s a → R s t →
      (stepS s a).2 = (stepT t a).2 ∧ R (stepS s a).1 (stepT t a).1)
    {s : S} {t : T} (hR : R s t) {as : List A} (has : ∀ a ∈ as, P a)
    (hD : Along (moves stepS) D s as) : outputs stepS s as = outputs stepT t as := by
  induction as generalizing s t with
  | nil => rfl
  | cons a as ih =>
    obtain ⟨hout, hnext⟩ := hstep s t a (has a mem_cons_self) hD.1 hR
    rw [outputs, outputs, hout, ih hnext (fun b hb => has b (mem_cons_of_mem _ hb)) hD.2]

/-- **Where lockstep ends.** If the steps in `C` keep the relation and the
others give different outputs, the machines give out the same exactly when
every step is in `C`. -/
theorem outputs_eq_iff_along (hstep : ∀ s t a, P a → D s a → R s t → C s a →
      (stepS s a).2 = (stepT t a).2 ∧ R (stepS s a).1 (stepT t a).1)
    (hbreak : ∀ s t a, P a → D s a → R s t → ¬C s a → (stepS s a).2 ≠ (stepT t a).2)
    {s : S} {t : T} (hR : R s t) {as : List A} (has : ∀ a ∈ as, P a)
    (hD : Along (moves stepS) D s as) :
    outputs stepS s as = outputs stepT t as ↔ Along (moves stepS) C s as := by
  induction as generalizing s t with
  | nil => exact ⟨fun _ => trivial, fun _ => rfl⟩
  | cons a as ih =>
    have ha : P a := has a mem_cons_self
    have hrest : ∀ b ∈ as, P b := fun b hb => has b (mem_cons_of_mem _ hb)
    rw [outputs, outputs, cons.injEq]
    constructor
    · rintro ⟨hout, htail⟩
      have hc : C s a := by
        by_contra hc
        exact hbreak s t a ha hD.1 hR hc hout
      exact ⟨hc, (ih (hstep s t a ha hD.1 hR hc).2 hrest hD.2).mp htail⟩
    · rintro ⟨hc, htail⟩
      obtain ⟨hout, hnext⟩ := hstep s t a ha hD.1 hR hc
      exact ⟨hout, (ih hnext hrest hD.2).mpr htail⟩

/-!
## Interleavings

Several jobs each have a list of things to do, in order. An interleaving is
a merge of the lists that keeps each one's order. If a machine takes in one
thing of one job at a time, keeps an invariant that knows how far each job
has come, and gives out what the job is owed, then over a whole
interleaving it gives out what all the jobs are owed.
-/

variable {α S J O : Type*}

/-- **A merge of lists** that keeps the order of each. -/
inductive Interleaves : List (List α) → List α → Prop
  | done {ls : List (List α)} (h : ∀ l ∈ ls, l = []) : Interleaves ls []
  | take (pre : List (List α)) {post : List (List α)} {a : α} {l as : List α}
      (h : Interleaves (pre ++ l :: post) as) : Interleaves (pre ++ (a :: l) :: post) (a :: as)

variable {step : S → α → S × Option O} {todo : J → List α} (next : J → J) {owed : J → List O}
  {I : List J → S → Prop}

/-- **A machine under any interleaving.** What one step keeps, and gives
out of what its job is owed, a whole interleaving keeps and gives out. -/
theorem outputs_perm_of_interleaves
    (hstep : ∀ pre j post s a l, I (pre ++ j :: post) s → todo j = a :: l →
      todo (next j) = l ∧ I (pre ++ next j :: post) (step s a).1 ∧
        owed j = (step s a).2.toList ++ owed (next j))
    (hdone : ∀ j, todo j = [] → owed j = []) {as : List α} :
    ∀ {js : List J} {s : S}, Interleaves (js.map todo) as → I js s →
      ((outputs step s as).flatMap Option.toList).Perm (js.flatMap owed) ∧
        ∃ js', (∀ j ∈ js', todo j = []) ∧ I js' (run (moves step) s as) := by
  induction as with
  | nil =>
    intro js s h hI
    generalize hjs : js.map todo = ls at h
    cases h with
    | done hnil =>
      subst hjs
      have hall : ∀ j ∈ js, todo j = [] := fun j hj => hnil _ (mem_map_of_mem hj)
      refine ⟨?_, js, hall, hI⟩
      rw [flatMap_eq_nil_iff.mpr fun j hj => hdone j (hall j hj)]
      exact List.Perm.refl _
  | cons a as ih =>
    intro js s h hI
    generalize hjs : js.map todo = ls at h
    cases h with
    | take pre hrest =>
      -- the job the next thing belongs to
      obtain ⟨jpre, jrest, rfl, rfl, hjrest⟩ := map_eq_append_iff.mp hjs
      obtain ⟨j, jpost, rfl, hj, rfl⟩ := map_eq_cons_iff.mp hjrest
      obtain ⟨htodo, hnext, howed⟩ := hstep jpre j jpost s a _ hI hj
      have hmap : (jpre ++ next j :: jpost).map todo = jpre.map todo ++ todo (next j) ::
          jpost.map todo := by simp
      rw [← htodo, ← hmap] at hrest
      obtain ⟨hperm, hend⟩ := ih hrest hnext
      refine ⟨?_, hend⟩
      rw [outputs, flatMap_cons, flatMap_append, flatMap_cons, howed]
      rw [flatMap_append] at hperm
      refine (hperm.append_left _).trans ?_
      rw [append_assoc]
      exact perm_append_comm_assoc _ _ _

/-! ## What an observer can tell -/

variable {S A O V : Type*} (step : S → A → S) (out : S → A → List O)

variable {step out} in
/-- A machine that carries more along puts out the same. -/
theorem emissions_eq_of_map {T : Type*} {stepT : T → A → T} {outT : T → A → List O} {f : T → S}
    (hstep : ∀ t a, f (stepT t a) = step (f t) a) (hout : ∀ t a, outT t a = out (f t) a)
    (t : T) (as : List A) : emissions stepT outT t as = emissions step out (f t) as := by
  induction as generalizing t with
  | nil => rfl
  | cons a as ih => rw [emissions, emissions, ih, hstep, hout]

/-- **Unwinding.** The two conditions on single steps: `unseen` for an
action the observer does not see, `seen` for one taken in two states that
look the same to it. -/
structure Unwinding (sees : A → Bool) (view : S → V) (I : S → Prop) (C : S → A → Prop) :
    Prop where
  keeps : ∀ s a, I s → C s a → I (step s a)
  unseen : ∀ s a, I s → C s a → sees a = false → view (step s a) = view s ∧ out s a = []
  seen : ∀ s t a, I s → I t → C s a → C t a → sees a = true → view s = view t →
    view (step s a) = view (step t a) ∧ out s a = out t a

variable {step out} {sees : A → Bool} {view : S → V} {I : S → Prop} {C : S → A → Prop}

namespace Unwinding

section

variable (h : Unwinding step out sees view I C)
include h

/-- A run of actions the observer does not see. -/
theorem of_filter_nil {s : S} (hs : I s) {as : List A}
    (hc : Along step C s as) (hnone : as.filter sees = []) :
    emissions step out s as = [] := by
  induction as generalizing s with
  | nil => rfl
  | cons a as ih =>
    obtain ⟨ha, hrest⟩ := hc
    have hsees : sees a = false := by
      have := filter_eq_nil_iff.mp hnone a mem_cons_self
      simpa using this
    rw [filter_cons_of_neg (by simp [hsees])] at hnone
    rw [emissions, (h.unseen s a hs ha hsees).2, ih (h.keeps s a hs ha) hrest hnone]
    rfl

/-- Up to the next action the observer sees. -/
theorem of_filter_cons {s : S} (hs : I s) {as bs : List A}
    {b : A} (hc : Along step C s as) (hfilter : as.filter sees = b :: bs) :
    ∃ s' rest, I s' ∧ Along step C s' (b :: rest) ∧ view s' = view s ∧ rest.filter sees = bs ∧
      emissions step out s as = emissions step out s' (b :: rest) := by
  induction as generalizing s with
  | nil => cases hfilter
  | cons a as ih =>
    by_cases hsees : sees a = true
    · rw [filter_cons_of_pos hsees, cons.injEq] at hfilter
      obtain ⟨rfl, hrest⟩ := hfilter
      exact ⟨s, as, hs, hc, rfl, hrest, rfl⟩
    rw [filter_cons_of_neg hsees] at hfilter
    obtain ⟨hview, hout⟩ := h.unseen s a hs hc.1 (by simpa using hsees)
    obtain ⟨s', rest, hs', hc', hview', hrest, hemit⟩ := ih (h.keeps s a hs hc.1) hc.2 hfilter
    refine ⟨s', rest, hs', hc', hview'.trans hview, hrest, ?_⟩
    rw [emissions, hout]
    exact hemit

/-- **What looks the same sounds the same.** Two runs from states of equal
view, with the same seen actions, put out the same. -/
theorem emissions_eq {s t : S} (hs : I s) (ht : I t)
    (hview : view s = view t) {as bs : List A} (has : Along step C s as)
    (hbs : Along step C t bs) (hsame : as.filter sees = bs.filter sees) :
    emissions step out s as = emissions step out t bs := by
  -- the induction is on the actions seen, which are the same in both runs
  generalize hseen : as.filter sees = common at hsame
  induction common generalizing s t as bs with
  | nil => rw [h.of_filter_nil hs has hseen, h.of_filter_nil ht hbs hsame.symm]
  | cons b common ih =>
    obtain ⟨s', as', hs', hc, hv, hrest, hemit⟩ := h.of_filter_cons hs has hseen
    obtain ⟨t', bs', ht', hc', hv', hrest', hemit'⟩ := h.of_filter_cons ht hbs hsame.symm
    have hsees : sees b = true := by
      have hmem : b ∈ as.filter sees := by
        rw [hseen]
        exact mem_cons_self
      exact (mem_filter.mp hmem).2
    obtain ⟨hnext, hout⟩ := h.seen s' t' b hs' ht' hc.1 hc'.1 hsees
      (hv.trans (hview.trans hv'.symm))
    rw [hemit, hemit', emissions, hout, ih (h.keeps s' b hs' hc.1) (h.keeps t' b ht' hc'.1) hnext
      hc.2 hc'.2 hrest hrest'.symm]
    rfl

end

end Unwinding

end Machbus
