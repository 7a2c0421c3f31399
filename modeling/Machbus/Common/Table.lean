import Mathlib.Data.List.Nodup
import Mathlib.Data.List.Perm.Basic
/-!
# Tables kept in a vector

A table is a vector whose slots are searched front to back and vacated by
`Vec::swap_remove`, which moves the last element into the hole. What a
search returns is stated as a split of the list around the element found,
and a removal as a permutation of what is left, so that a caller never
has to reason about indices.
-/

namespace Machbus

open List

variable {α β : Type*} {l l₁ l₂ : List α} {v : α → Option α}

/-- `Vec::swap_remove`: the last element takes the place of the one at
`i`. -/
def swapRemove (l : List α) (i : ℕ) : List α :=
  match l.getLast? with
  | none => []
  | some x => (l.set i x).dropLast

/-- What moving the last element to the front leaves. -/
def lastFirst (l : List α) : List α := l.getLast?.toList ++ l.dropLast

theorem lastFirst_perm (l : List α) : (lastFirst l).Perm l := by
  rcases eq_nil_or_concat l with rfl | ⟨l', x, rfl⟩
  · rfl
  · rw [concat_eq_append, lastFirst, getLast?_concat, dropLast_concat]
    exact (perm_append_singleton x l').symm

@[simp] theorem mem_lastFirst {x : α} : x ∈ lastFirst l ↔ x ∈ l := (lastFirst_perm l).mem_iff

@[simp] theorem length_lastFirst (l : List α) : (lastFirst l).length = l.length :=
  (lastFirst_perm l).length_eq

/-- **A removal only touches what lies behind it.** -/
@[simp] theorem swapRemove_append_cons (l₁ l₂ : List α) (s : α) :
    swapRemove (l₁ ++ s :: l₂) l₁.length = l₁ ++ lastFirst l₂ := by
  rcases eq_nil_or_concat l₂ with rfl | ⟨l, x, rfl⟩
  · simp [swapRemove, lastFirst]
  · rw [concat_eq_append]
    have hlast : (l₁ ++ s :: (l ++ [x])).getLast? = some x := by
      rw [← cons_append, ← append_assoc, getLast?_concat]
    have hset : (l₁ ++ s :: (l ++ [x])).set l₁.length x = l₁ ++ x :: l ++ [x] := by
      simp
    simp only [swapRemove, hlast, hset, lastFirst, getLast?_concat, dropLast_concat]
    rfl

/-- What a removal leaves was there before. -/
theorem mem_of_mem_remove {s x : α} (h : x ∈ l₁ ++ lastFirst l₂) : x ∈ l₁ ++ s :: l₂ := by
  rcases mem_append.mp h with h | h
  · exact mem_append_left _ h
  · exact mem_append_right _ (mem_cons_of_mem s (mem_lastFirst.mp h))

/-- What a rewritten slot leaves is the rest, or what was written. -/
theorem mem_replace {s x : α} (h : x ∈ l₁ ++ s :: l₂) : x ∈ l₁ ++ lastFirst l₂ ∨ x = s := by
  rcases mem_append.mp h with h | h
  · exact .inl (mem_append_left _ h)
  · rcases mem_cons.mp h with h | h
    · exact .inr h
    · exact .inl (mem_append_right _ (mem_lastFirst.mpr h))

/-- **What a search returns.** The index splits the table around the
first element the predicate holds of. -/
theorem exists_split_of_findIdx? {p : α → Bool} {i : ℕ} (h : l.findIdx? p = some i) :
    ∃ l₁ s l₂, l = l₁ ++ s :: l₂ ∧ l₁.length = i ∧ p s = true ∧ ∀ x ∈ l₁, p x = false := by
  obtain ⟨hi, hp, hbefore⟩ := findIdx?_eq_some_iff_getElem.mp h
  refine ⟨l.take i, l[i], l.drop (i + 1), ?_, ?_, hp, ?_⟩
  · rw [getElem_cons_drop, take_append_drop]
  · rw [length_take]; omega
  · intro x hx
    obtain ⟨j, hj, rfl⟩ := mem_iff_getElem.mp hx
    rw [length_take] at hj
    simpa using hbefore j (by omega)

@[simp] theorem getD_append_cons (l₁ l₂ : List α) (s d : α) :
    (l₁ ++ s :: l₂).getD l₁.length d = s := by
  simp

@[simp] theorem set_append_cons (l₁ l₂ : List α) (s s' : α) :
    (l₁ ++ s :: l₂).set l₁.length s' = l₁ ++ s' :: l₂ := by
  simp

/-- What a permuted list of images comes from is permuted alike. -/
theorem exists_map_eq_of_perm {f : α → β} {m : List β} (h : m.Perm (l.map f)) :
    ∃ l' : List α, l'.Perm l ∧ l'.map f = m := by
  have hmap : List.Forall₂ (fun b a => b = f a) (l.map f) l := by
    rw [forall₂_map_left_iff]
    exact forall₂_same.mpr fun _ _ => rfl
  obtain ⟨l', hrel, hperm⟩ := perm_comp_forall₂ h hmap
  refine ⟨l', hperm, ?_⟩
  rw [← forall₂_map_right_iff, forall₂_eq_eq_eq] at hrel
  exact hrel.symm

/-! ## Sweeping a table

A sweep visits the slots from the front. A visit rewrites its slot and
moves on, or vacates it and visits what `swap_remove` has moved there. -/

section Sweep

variable {ε : Type*} (visit : α → Option α × ε)

/-- The loop `while i < table.len()`, with what each visit reports. Every
turn brings `i` and the length one closer, so the length is enough
fuel. -/
def sweepFrom : ℕ → ℕ → List α → List α × List ε
  | 0, _, l => (l, [])
  | fuel + 1, i, l =>
    match l[i]? with
    | none => (l, [])
    | some s =>
      match visit s with
      | (some s', e) =>
        let r := sweepFrom fuel (i + 1) (l.set i s')
        (r.1, e :: r.2)
      | (none, e) =>
        let r := sweepFrom fuel i (swapRemove l i)
        (r.1, e :: r.2)

/-- A sweep of the whole table. -/
def sweep (l : List α) : List α × List ε := sweepFrom visit l.length 0 l

variable {visit}

/-- One turn of the sweep, at the slot behind those already visited. -/
theorem sweepFrom_cons (done l : List α) (s : α) (fuel : ℕ) :
    sweepFrom visit (fuel + 1) done.length (done ++ s :: l) = match visit s with
      | (some s', e) =>
        let r := sweepFrom visit fuel (done ++ [s']).length (done ++ [s'] ++ l)
        (r.1, e :: r.2)
      | (none, e) =>
        let r := sweepFrom visit fuel done.length (done ++ lastFirst l)
        (r.1, e :: r.2) := by
  have hget : (done ++ s :: l)[done.length]? = some s := by simp
  rw [sweepFrom]
  simp only [hget]
  rcases hv : visit s with ⟨_ | s', e⟩
  · simp
  · simp

theorem sweepFrom_perm (fuel : ℕ) (done l : List α) (h : l.length ≤ fuel) :
    (sweepFrom visit fuel done.length (done ++ l)).1.Perm
        (done ++ l.filterMap fun s => (visit s).1) ∧
      (sweepFrom visit fuel done.length (done ++ l)).2.Perm (l.map fun s => (visit s).2) := by
  -- the induction is on the fuel: what is left is moved about by a removal
  induction fuel generalizing done l with
  | zero =>
    have hnil : l = [] := length_eq_zero_iff.mp (by omega)
    subst hnil
    simp [sweepFrom]
  | succ fuel ih =>
    rcases l with _ | ⟨s, l⟩
    · simp [sweepFrom]
    · rw [length_cons] at h
      rw [sweepFrom_cons]
      rcases hv : visit s with ⟨_ | s', e⟩
      · obtain ⟨h₁, h₂⟩ := ih done (lastFirst l) (by rw [length_lastFirst]; omega)
        refine ⟨?_, ?_⟩
        · rw [filterMap_cons_none (by rw [hv])]
          exact h₁.trans (((lastFirst_perm l).filterMap _).append_left done)
        · rw [map_cons, hv]
          exact (h₂.trans ((lastFirst_perm l).map _)).cons e
      · obtain ⟨h₁, h₂⟩ := ih (done ++ [s']) l (by omega)
        refine ⟨?_, ?_⟩
        · rw [filterMap_cons_some (by rw [hv])]
          simpa using h₁
        · rw [map_cons, hv]
          exact h₂.cons e

/-- **A sweep visits every slot once.** Up to order, the table left is
what the visits kept and the reports are theirs. -/
theorem sweep_perm (l : List α) : (sweep visit l).1.Perm (l.filterMap fun s => (visit s).1) ∧
      (sweep visit l).2.Perm (l.map fun s => (visit s).2) :=
  sweepFrom_perm l.length [] l (Nat.le_refl _)

/-- A table of one slot. -/
theorem sweep_singleton (s : α) : sweep visit [s] = ((visit s).1.toList, [(visit s).2]) := by
  have h : sweep visit [s] = _ := sweepFrom_cons [] [] s 0
  rcases hv : visit s with ⟨_ | s', e⟩
  all_goals
    rw [hv] at h
    exact h

end Sweep

/-! ## A part of a table

A search that is after slots of one kind finds the same slot in the part of
the table that is of this kind, and the rest of the table is not touched
by what it does there. -/

section Part

variable {p R mine : α → Bool} {l l₁ l₂ : List α} {s s' : α}

/-- A search that fails in the whole table fails in the part. -/
theorem findIdx?_filter_none (h : l.findIdx? p = none) : (l.filter R).findIdx? p = none := by
  rw [findIdx?_eq_none_iff] at h ⊢
  exact fun x hx => h x (mem_of_mem_filter hx)

/-- **A search in the part.** -/
theorem findIdx?_filter_cases (hp : ∀ x, p x = true → R x = true) (l : List α) :
    (l.findIdx? p = none ∧ (l.filter R).findIdx? p = none) ∨
      ∃ l₁ s l₂, l = l₁ ++ s :: l₂ ∧ p s = true ∧ l.findIdx? p = some l₁.length ∧
        l.filter R = l₁.filter R ++ s :: l₂.filter R ∧
        (l.filter R).findIdx? p = some (l₁.filter R).length := by
  rcases hfind : l.findIdx? p with _ | i
  · exact .inl ⟨rfl, findIdx?_filter_none hfind⟩
  · obtain ⟨l₁, s, l₂, rfl, rfl, hs, hbefore⟩ := exists_split_of_findIdx? hfind
    have hfilter : (l₁ ++ s :: l₂).filter R = l₁.filter R ++ s :: l₂.filter R := by
      rw [filter_append, filter_cons_of_pos (hp s hs)]
    refine .inr ⟨l₁, s, l₂, rfl, hs, rfl, hfilter, ?_⟩
    have hnone : (l₁.filter R).findIdx? p = none := by
      rw [findIdx?_eq_none_iff]
      exact fun x hx => hbefore x (mem_of_mem_filter hx)
    rw [hfilter, findIdx?_append, hnone, findIdx?_cons, hs]
    simp

/-- A slot vacated in the part. -/
theorem remove_perm_part (hs : R s = true) : (l₁ ++ lastFirst l₂).Perm
      ((l₁ ++ s :: l₂).filter (fun x => !R x) ++ (l₁.filter R ++ lastFirst (l₂.filter R))) := by
  have hrest : (l₁ ++ s :: l₂).filter (fun x => !R x) = (l₁ ++ l₂).filter (fun x => !R x) := by
    rw [filter_append, filter_cons_of_neg (by simp [hs]), ← filter_append]
  have hpart : (l₁.filter R ++ lastFirst (l₂.filter R)).Perm ((l₁ ++ l₂).filter R) := by
    rw [filter_append]
    exact (lastFirst_perm _).append_left _
  rw [hrest]
  refine ((lastFirst_perm l₂).append_left l₁).trans ?_
  refine (filter_append_perm R (l₁ ++ l₂)).symm.trans ?_
  exact perm_append_comm.trans (hpart.symm.append_left _)

/-- A slot rewritten in the part. -/
theorem replace_perm_part (hs : R s = true) (s' : α) : (l₁ ++ s' :: l₂).Perm
      ((l₁ ++ s :: l₂).filter (fun x => !R x) ++ (l₁.filter R ++ s' :: l₂.filter R)) := by
  have hleft : (l₁ ++ s' :: l₂).Perm (s' :: (l₁ ++ lastFirst l₂)) :=
    perm_middle.trans (((lastFirst_perm l₂).symm.append_left l₁).cons s')
  refine hleft.trans (((remove_perm_part hs).cons s').trans ?_)
  refine perm_middle.symm.trans (.append_left _ ?_)
  exact (((lastFirst_perm _).append_left _).cons s').trans perm_middle.symm

/-- **One search, both tables.** What is found in the table is found in the
part, and reading, rewriting and vacating it there does to the part what it
does to the table. -/
theorem search_part [Inhabited α] {i : ℕ} (h : l.findIdx? p = some i)
    (hp : ∀ x, p x = true → R x = true) :
    ∃ j s, (l.filter R).findIdx? p = some j ∧ l.getD i default = s ∧
      (l.filter R).getD j default = s ∧ (swapRemove l i).length < l.length ∧
      (swapRemove l i).Perm (l.filter (fun x => !R x) ++ swapRemove (l.filter R) j) ∧
      ∀ s', (l.set i s').Perm (l.filter (fun x => !R x) ++ (l.filter R).set j s') := by
  rcases findIdx?_filter_cases hp l with ⟨h', -⟩ | ⟨l₁, s, l₂, rfl, hs, hi, hR, h'⟩
  · cases h.symm.trans h'
  cases h.symm.trans hi
  refine ⟨(l₁.filter R).length, s, h', ?_, ?_, ?_, ?_, ?_⟩
  · exact getD_append_cons _ _ _ _
  · rw [hR, getD_append_cons]
  · simp only [swapRemove_append_cons, length_append, length_lastFirst, length_cons]
    omega
  · rw [hR, swapRemove_append_cons, swapRemove_append_cons]
    exact remove_perm_part (hp s hs)
  · intro s'
    rw [hR, set_append_cons, set_append_cons]
    exact replace_perm_part (hp s hs) s'

/-- What is not of the kind and is not put into the part looks the same
afterwards. -/
theorem filter_perm_of_untouched {l' m : List α}
    (h : l'.Perm (l.filter (fun x => !R x) ++ m)) (hl : ∀ x ∈ l, mine x = true → R x = false)
    (hm : ∀ x ∈ m, mine x = false) : (l'.filter mine).Perm (l.filter mine) := by
  have hrest : (l.filter fun x => !R x).filter mine = l.filter mine := by
    rw [filter_filter]
    refine filter_congr fun x hx => ?_
    cases hmine : mine x with
    | false => rfl
    | true => rw [hl x hx hmine]; rfl
  have hnone : m.filter mine = [] := filter_eq_nil_iff.mpr fun x hx => by simp [hm x hx]
  have hfilter := h.filter mine
  rw [filter_append, hrest, hnone, append_nil] at hfilter
  exact hfilter

/-- Two tables that look the same, and into whose parts the same is put. -/
theorem filter_perm_of_same {l₁' l₂' m₁ m₂ : List α}
    (h₁ : l₁'.Perm (l₁.filter (fun x => !R x) ++ m₁))
    (h₂ : l₂'.Perm (l₂.filter (fun x => !R x) ++ m₂))
    (hl : (l₁.filter mine).Perm (l₂.filter mine)) (hm : (m₁.filter mine).Perm (m₂.filter mine)) :
    (l₁'.filter mine).Perm (l₂'.filter mine) := by
  have hrest : ((l₁.filter fun x => !R x).filter mine).Perm
      ((l₂.filter fun x => !R x).filter mine) := by
    rw [filter_comm, filter_comm (p := mine)]
    exact hl.filter _
  have hfilter := h₁.filter mine
  have hfilter' := h₂.filter mine
  rw [filter_append] at hfilter hfilter'
  exact hfilter.trans ((hrest.append hm).trans hfilter'.symm)

/-- **At most one slot is sought.** In two tables that look the same it is
the same slot, or none that is looked at. -/
theorem filter_eq_or_not_mine (hone : (l₁.filter R).length ≤ 1) (hone' : (l₂.filter R).length ≤ 1)
    (hl : (l₁.filter mine).Perm (l₂.filter mine)) :
    l₁.filter R = l₂.filter R ∨ (∃ x, R x = true ∧ mine x = false) ∧
      ∀ x ∈ l₁.filter R ++ l₂.filter R, mine x = false := by
  have heq : ∀ {l : List α} {x : α}, (l.filter R).length ≤ 1 → x ∈ l.filter R →
      l.filter R = [x] := by
    intro l x hlen hx
    obtain ⟨y, hy⟩ := length_eq_one_iff.mp (Nat.le_antisymm hlen (length_pos_of_mem hx))
    rw [hy, mem_singleton] at hx
    rw [hy, hx]
  by_cases hex : ∃ x ∈ l₁.filter R ++ l₂.filter R, mine x = true
  · obtain ⟨x, hx, hmine⟩ := hex
    have hiff : x ∈ l₁.filter R ↔ x ∈ l₂.filter R := by
      have hmem := hl.mem_iff (a := x)
      simp only [mem_filter, hmine, and_true] at hmem ⊢
      rw [hmem]
    have hboth : x ∈ l₁.filter R ∧ x ∈ l₂.filter R := by
      rcases mem_append.mp hx with hx | hx
      · exact ⟨hx, hiff.mp hx⟩
      · exact ⟨hiff.mpr hx, hx⟩
    exact .inl ((heq hone hboth.1).trans (heq hone' hboth.2).symm)
  · have hnot : ∀ x ∈ l₁.filter R ++ l₂.filter R, mine x = false := fun x hx =>
      Bool.eq_false_iff.mpr fun hmine => hex ⟨x, hx, hmine⟩
    by_cases hnil : l₁.filter R ++ l₂.filter R = []
    · rw [append_eq_nil_iff] at hnil
      exact .inl (hnil.1.trans hnil.2.symm)
    · obtain ⟨x, hx⟩ := exists_mem_of_ne_nil _ hnil
      refine .inr ⟨⟨x, ?_, hnot x hx⟩, hnot⟩
      rw [← filter_append] at hx
      exact (mem_filter.mp hx).2

/-- What rewrites or drops slots within their kinds does the same to the
slots of one kind. -/
theorem filter_filterMap_comm (hv : ∀ x x', v x = some x' → mine x' = mine x) :
    (l.filterMap v).filter mine = (l.filter mine).filterMap v := by
  induction l with
  | nil => rfl
  | cons x l ih =>
    rcases hx : v x with _ | x'
    · rw [filterMap_cons_none hx, ih, filter_cons]
      split
      · rw [filterMap_cons_none hx]
      · rfl
    · rw [filterMap_cons_some hx, filter_cons, filter_cons, hv x x' hx, ih]
      split
      · rw [filterMap_cons_some hx]
      · rfl

/-- **Tables that look the same answer the same.** Each is changed as its
part would be alone, by `respond`; at most one slot is sought; and what is
done to slots that are not looked at cannot be seen. -/
theorem filter_perm_of_respond {respond : List α → List α × List β} {heard : β → Bool}
    {l₁' l₂' : List α}
    (hblind : ∀ x, R x = true → mine x = false → ∀ l, (∀ y ∈ l, R y = true ∧ mine y = false) →
      (respond l).1.filter mine = [] ∧ (respond l).2.filter heard = [])
    (h₁ : l₁'.Perm (l₁.filter (fun x => !R x) ++ (respond (l₁.filter R)).1))
    (h₂ : l₂'.Perm (l₂.filter (fun x => !R x) ++ (respond (l₂.filter R)).1))
    (hone₁ : (l₁.filter R).length ≤ 1) (hone₂ : (l₂.filter R).length ≤ 1)
    (hl : (l₁.filter mine).Perm (l₂.filter mine)) :
    (l₁'.filter mine).Perm (l₂'.filter mine) ∧
      (respond (l₁.filter R)).2.filter heard = (respond (l₂.filter R)).2.filter heard := by
  rcases filter_eq_or_not_mine hone₁ hone₂ hl with heq | ⟨⟨x, hR, hmine⟩, hnot⟩
  · rw [heq] at h₁ ⊢
    exact ⟨filter_perm_of_same h₁ h₂ hl (.refl _), rfl⟩
  · -- something is found that is not looked at
    obtain ⟨hs₁, hd₁⟩ := hblind x hR hmine (l₁.filter R)
      fun y hy => ⟨(mem_filter.mp hy).2, hnot y (mem_append_left _ hy)⟩
    obtain ⟨hs₂, hd₂⟩ := hblind x hR hmine (l₂.filter R)
      fun y hy => ⟨(mem_filter.mp hy).2, hnot y (mem_append_right _ hy)⟩
    refine ⟨filter_perm_of_same h₁ h₂ hl ?_, hd₁.trans hd₂.symm⟩
    rw [hs₁, hs₂]

end Part

/-! ## Tables keyed without repetition -/

/-- No two slots share a key, among the keys `g` picks out. -/
def KeyNodup (g : β → Bool) (key : α → β) (l : List α) : Prop := ((l.map key).filter g).Nodup

variable {g : β → Bool} {key : α → β} {l l₁ l₂ : List α} {s s' : α}

@[simp] theorem keyNodup_nil : KeyNodup g key [] := nodup_nil

theorem KeyNodup.perm {m : List α} (h : KeyNodup g key l) (hp : m.Perm l) : KeyNodup g key m :=
  (((hp.map key).filter g).nodup_iff).mpr h

/-- Fewer slots, the same keys. -/
theorem KeyNodup.sublist {m : List α} (h : KeyNodup g key l)
    (hsub : (m.map key).Sublist (l.map key)) : KeyNodup g key m :=
  List.Nodup.sublist (hsub.filter g) h

/-- Vacating a slot keeps the keys distinct. -/
theorem KeyNodup.remove (h : KeyNodup g key (l₁ ++ s :: l₂)) :
    KeyNodup g key (l₁ ++ lastFirst l₂) := by
  have hsub : (l₁ ++ l₂).Sublist (l₁ ++ s :: l₂) := (sublist_cons_self s l₂).append_left l₁
  exact (h.sublist (hsub.map key)).perm ((lastFirst_perm l₂).append_left l₁)

/-- Rewriting a slot under its own key keeps the keys distinct. -/
theorem KeyNodup.replace (h : KeyNodup g key (l₁ ++ s :: l₂)) (hk : key s' = key s) :
    KeyNodup g key (l₁ ++ s' :: l₂) := by
  refine h.sublist ?_
  rw [map_append, map_append, map_cons, map_cons, hk]

/-- So does rewriting or vacating any of them. -/
theorem KeyNodup.filterMap (h : KeyNodup g key l)
    (hk : ∀ s s', v s = some s' → key s' = key s) : KeyNodup g key (l.filterMap v) := by
  refine h.sublist ?_
  clear h
  induction l with
  | nil => exact .refl _
  | cons x l ih =>
    rcases hv : v x with _ | x'
    · rw [filterMap_cons_none hv]
      exact ih.cons _
    · rw [filterMap_cons_some hv, map_cons, hk x x' hv]
      exact ih.cons_cons _

/-- Opening a slot under an unused key keeps the keys distinct. -/
theorem KeyNodup.push (h : KeyNodup g key l) (hk : g (key s) = true → ∀ x ∈ l, key x ≠ key s) :
    KeyNodup g key (l ++ [s]) := by
  rw [KeyNodup, map_append, map_singleton, filter_append, nodup_append]
  refine ⟨h, (nodup_singleton _).filter g, ?_⟩
  rintro a ha b hb rfl
  rw [mem_filter, mem_singleton] at hb
  obtain ⟨x, hx, hxa⟩ := mem_map.mp (mem_of_mem_filter ha)
  exact hk (hb.1 ▸ hb.2) x hx (hxa.trans hb.1)

/-- Opening one under a key in use does not. -/
theorem not_keyNodup_push (hg : g (key s) = true) {x : α} (hx : x ∈ l) (hk : key x = key s) :
    ¬KeyNodup g key (l ++ [s]) := by
  intro h
  rw [KeyNodup, map_append, filter_append, nodup_append] at h
  refine h.2.2 (key s) ?_ (key s) ?_ rfl
  · exact mem_filter.mpr ⟨mem_map.mpr ⟨x, hx, hk⟩, hg⟩
  · exact mem_filter.mpr ⟨mem_singleton_self _, hg⟩

/-- Once a slot is vacated, its key is gone from the table. -/
theorem KeyNodup.ne_of_mem_remove (h : KeyNodup g key (l₁ ++ s :: l₂)) (hg : g (key s) = true) :
    ∀ x ∈ l₁ ++ lastFirst l₂, key x ≠ key s := by
  intro x hx heq
  rw [KeyNodup, map_append, map_cons, filter_append, filter_cons_of_pos hg,
    nodup_append, nodup_cons] at h
  obtain ⟨-, ⟨hs, -⟩, hdisj⟩ := h
  rcases mem_append.mp hx with hx | hx
  · exact hdisj _ (mem_filter.mpr ⟨mem_map.mpr ⟨x, hx, heq⟩, hg⟩) _ mem_cons_self rfl
  · exact hs (mem_filter.mpr ⟨mem_map.mpr ⟨x, mem_lastFirst.mp hx, heq⟩, hg⟩)

end Machbus
