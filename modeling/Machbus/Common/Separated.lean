import Mathlib.Data.List.DropRight
/-!
# Lists of names

Names written one behind the other, a separator before each. As long as
no name contains the separator, the names can be read off again, so that
a fact about the text is one about the list of names.
-/

namespace Machbus

open List

variable {α : Type*}

/-- The names, each behind a separator. -/
def rooted (a : α) (cs : List (List α)) : List α := cs.flatMap (a :: ·)

section Rooted

variable {a : α} {c : List α} {cs ds : List (List α)}

@[simp] theorem rooted_nil : rooted a [] = [] := rfl

@[simp] theorem rooted_cons : rooted a (c :: cs) = a :: (c ++ rooted a cs) := by
  simp [rooted]

@[simp] theorem rooted_append : rooted a (cs ++ ds) = rooted a cs ++ rooted a ds := by
  simp [rooted]

theorem cons_intercalate (h : cs ≠ []) : a :: [a].intercalate cs = rooted a cs := by
  induction cs with
  | nil => exact absurd rfl h
  | cons c cs ih =>
    cases cs with
    | nil => simp
    | cons d cs =>
      rw [rooted_cons, ← ih (cons_ne_nil _ _)]
      simp

theorem mem_rooted {x : α} (h : x ∈ rooted a cs) : x = a ∨ ∃ c ∈ cs, x ∈ c := by
  rw [rooted, mem_flatMap] at h
  obtain ⟨c, hc, hx⟩ := h
  rcases mem_cons.mp hx with rfl | hx
  · exact .inl rfl
  · exact .inr ⟨c, hc, hx⟩

/-- Names behind separators end in one only when the last name is empty. -/
theorem getLast?_rooted_concat (hc : c ≠ []) : (rooted a (cs ++ [c])).getLast? = c.getLast? := by
  cases c with
  | nil => exact absurd rfl hc
  | cons x c => simp [List.getLast?_cons]

variable [DecidableEq α]

/-- **The names are read off again.** -/
theorem splitOn_rooted (h : ∀ c ∈ cs, a ∉ c) : (rooted a cs).splitOn a = [] :: cs := by
  induction cs with
  | nil => rfl
  | cons c cs ih =>
    rw [forall_mem_cons] at h
    specialize ih h.2
    have hrest : (c ++ rooted a cs).splitOn a = c :: cs := by
      cases cs with
      | nil => simpa using splitOn_eq_singleton h.1
      | cons d cs =>
        rw [rooted_cons, splitOn_cons_eq_if_modifyHead, if_pos (by simp), List.cons.injEq] at ih
        rw [rooted_cons, splitOn_append_cons_self_of_not_mem h.1, ih.2]
    rw [rooted_cons, splitOn_cons_eq_if_modifyHead, if_pos (by simp), hrest]

theorem rooted_inj (hc : ∀ c ∈ cs, a ∉ c) (hd : ∀ d ∈ ds, a ∉ d)
    (h : rooted a cs = rooted a ds) : cs = ds := by
  have := congrArg (List.splitOn a) h
  rw [splitOn_rooted hc, splitOn_rooted hd] at this
  exact tail_eq_of_cons_eq this

/-- No part of a split contains the separator, or anything that was not
there before. -/
theorem of_mem_splitOn {l : List α} (h : c ∈ l.splitOn a) : a ∉ c ∧ c ⊆ l := by
  induction l generalizing c with
  | nil =>
    rw [splitOn_nil, mem_singleton] at h
    subst h
    exact ⟨not_mem_nil, nil_subset _⟩
  | cons x l ih =>
    rw [splitOn_cons_eq_if_modifyHead] at h
    split at h
    · rcases mem_cons.mp h with rfl | h
      · exact ⟨not_mem_nil, nil_subset _⟩
      · exact ⟨(ih h).1, subset_cons_of_subset _ (ih h).2⟩
    rename_i hx
    cases hl : l.splitOn a with
    | nil => exact absurd hl (splitOn_ne_nil a l)
    | cons d ds =>
      rw [hl, modifyHead_cons, mem_cons] at h
      rcases h with rfl | h
      · have hd := ih (hl ▸ mem_cons_self)
        refine ⟨?_, cons_subset_cons x hd.2⟩
        rw [mem_cons, not_or]
        exact ⟨fun he => hx (by simp [he]), hd.1⟩
      · have hc := ih (hl ▸ mem_cons_of_mem _ h)
        exact ⟨hc.1, subset_cons_of_subset _ hc.2⟩

end Rooted

/-! ## The last separator -/

section Last

variable [DecidableEq α] {a : α} {c l : List α}

/-- What is before and behind the last separator. -/
def splitLast (a : α) : List α → Option (List α × List α)
  | [] => none
  | x :: l =>
    match splitLast a l with
    | some (before, behind) => some (x :: before, behind)
    | none => if x = a then some ([], l) else none

theorem splitLast_eq_none (h : a ∉ l) : splitLast a l = none := by
  induction l with
  | nil => rfl
  | cons x l ih =>
    rw [mem_cons, not_or] at h
    rw [splitLast, ih h.2]
    simp [Ne.symm h.1]

theorem splitLast_append (h : a ∉ c) : splitLast a (l ++ a :: c) = some (l, c) := by
  induction l with
  | nil =>
    rw [nil_append, splitLast, splitLast_eq_none h]
    simp
  | cons x l ih => rw [cons_append, splitLast, ih]

end Last

end Machbus
