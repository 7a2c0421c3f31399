import Mathlib.Data.List.Nodup
/-!
# Tables found by a key

A registry is a list of entries. A lookup takes the first entry it meets,
and a change is made to that entry in place. An ordered map is kept as the
list of its entries, in the order of the keys.
-/

namespace Machbus

open List

variable {α β : Type*}

/-- Changes the first entry that is sought. -/
def modifyFirst (p : α → Bool) (f : α → α) : List α → List α
  | [] => []
  | x :: xs => if p x then f x :: xs else x :: modifyFirst p f xs

variable {p : α → Bool} {f : α → α} {l : List α} {x : α}

/-- The only entry that changed is the one a lookup finds. -/
theorem mem_modifyFirst_find? (h : x ∈ modifyFirst p f l) :
    x ∈ l ∨ ∃ y, l.find? p = some y ∧ x = f y := by
  induction l with
  | nil => cases h
  | cons y l ih =>
    rw [modifyFirst] at h
    cases hy : p y with
    | true =>
      rw [hy] at h
      rcases mem_cons.mp h with rfl | h
      · exact .inr ⟨y, by simp [hy], rfl⟩
      · exact .inl (mem_cons_of_mem _ h)
    | false =>
      rw [hy] at h
      rcases mem_cons.mp h with rfl | h
      · exact .inl (mem_cons_self ..)
      · rcases ih h with h | ⟨z, hz, rfl⟩
        · exact .inl (mem_cons_of_mem _ h)
        · exact .inr ⟨z, by simp [hy, hz], rfl⟩

/-- An entry afterwards was there, or is what a sought entry became. -/
theorem mem_modifyFirst (h : x ∈ modifyFirst p f l) : x ∈ l ∨ ∃ y ∈ l, p y = true ∧ x = f y := by
  rcases mem_modifyFirst_find? h with h | ⟨y, hy, rfl⟩
  · exact .inl h
  · exact .inr ⟨y, mem_of_find?_eq_some hy, List.find?_some hy, rfl⟩

/-- An entry is still there, or what it became is. -/
theorem mem_modifyFirst_of_mem (h : x ∈ l) : x ∈ modifyFirst p f l ∨ f x ∈ modifyFirst p f l := by
  induction l with
  | nil => cases h
  | cons y l ih =>
    rw [modifyFirst]
    rcases mem_cons.mp h with rfl | h
    · split
      · exact .inr mem_cons_self
      · exact .inl mem_cons_self
    · split
      · exact .inl (mem_cons_of_mem _ h)
      · exact (ih h).imp (mem_cons_of_mem _) (mem_cons_of_mem _)

/-- What the change leaves alone is left alone everywhere. -/
theorem map_modifyFirst {g : α → β} (h : ∀ x, g (f x) = g x) :
    (modifyFirst p f l).map g = l.map g := by
  induction l with
  | nil => rfl
  | cons y l ih =>
    rw [modifyFirst]
    split
    · rw [map_cons, map_cons, h]
    · rw [map_cons, map_cons, ih]

/-- **A lookup finds the changed entry.** -/
theorem find?_modifyFirst (h : ∀ x, p (f x) = p x) :
    (modifyFirst p f l).find? p = (l.find? p).map f := by
  induction l with
  | nil => rfl
  | cons y l ih =>
    rw [modifyFirst]
    cases hy : p y with
    | true => simp [hy, h]
    | false => simp [hy, ih]

/-- A lookup for something else does not see the change. -/
theorem find?_modifyFirst_of_ne {q : α → Bool} (hne : ∀ x, p x = true → q x = false)
    (hf : ∀ x, q (f x) = q x) : (modifyFirst p f l).find? q = l.find? q := by
  induction l with
  | nil => rfl
  | cons y l ih =>
    rw [modifyFirst]
    cases hy : p y with
    | true => simp [hf, hne y hy]
    | false =>
      cases hq : q y with
      | true => simp [hq]
      | false => simp [hq, ih]

/-- Where the sought entries share a key that no other has, taking out
the first takes out all. -/
theorem eraseP_eq_filter {key : α → β} {k : β} (hkeys : (l.map key).Nodup)
    (hp : ∀ x, p x = true → key x = k) : l.eraseP p = l.filter fun x => !p x := by
  induction l with
  | nil => rfl
  | cons y l ih =>
    rw [map_cons, nodup_cons] at hkeys
    cases hy : p y with
    | true =>
      rw [eraseP_cons_of_pos hy, filter_cons_of_neg (by simp [hy])]
      refine (filter_eq_self.mpr fun z hz => ?_).symm
      by_contra hpz
      refine hkeys.1 (mem_map.mpr ⟨z, hz, ?_⟩)
      rw [hp y hy, hp z (by simpa using hpz)]
    | false => rw [eraseP_cons_of_neg (by simp [hy]), filter_cons_of_pos (by simp [hy]), ih hkeys.2]

/-! ## Ordered maps -/

open List Option

abbrev OrderedMap (K V : Type*) := List (K × V)

namespace OrderedMap

variable {K V : Type*} [DecidableEq K]

section

variable (m : OrderedMap K V)

/-- The value under a key. -/
def get (k : K) : Option V := (List.find? (fun e => e.1 = k) m).map (·.2)

def keys : List K := List.map (·.1) m

/-- Takes the key out. -/
def remove (k : K) : OrderedMap K V := List.filter (fun e => e.1 ≠ k) m

/-- Puts the value under the key in place of whatever was there. -/
def insert [LT K] [DecidableLT K] (m : OrderedMap K V) (k : K) (v : V) : OrderedMap K V :=
  List.filter (fun e => e.1 < k) (remove m k) ++
    (k, v) :: List.filter (fun e => ¬e.1 < k) (remove m k)

/-- Changes the value under a key, if there is one. -/
def modify (k : K) (f : V → V) : OrderedMap K V :=
  List.map (fun e => if e.1 = k then (e.1, f e.2) else e) m

/-- Changes every value. -/
def mapValues (f : V → V) : OrderedMap K V :=
  List.map (fun e => (e.1, f e.2)) m

/-- Keeps the entries that meet a condition. -/
def retain (p : K → V → Bool) : OrderedMap K V :=
  List.filter (fun e => p e.1 e.2) m

end

variable {m : OrderedMap K V} {k k' : K} {v : V} {p : K × V → Bool} {f : V → V}

@[simp] theorem get_nil : get ([] : OrderedMap K V) k = none := rfl

theorem get_cons {e : K × V} :
    get (e :: m : OrderedMap K V) k = if e.1 = k then some e.2 else get m k := by
  rw [get, get]
  by_cases h : e.1 = k
  · simp [h]
  · simp [h]

theorem mem_of_get (h : get m k = some v) : (k, v) ∈ m := by
  rw [get, map_eq_some_iff] at h
  obtain ⟨e, he, rfl⟩ := h
  have hk : e.1 = k := by simpa using find?_some he
  exact hk ▸ mem_of_find?_eq_some he

theorem mem_keys_iff : k ∈ keys m ↔ ∃ v, get m k = some v := by
  induction m with
  | nil => simp [keys]
  | cons e m ih =>
    rw [keys, map_cons, mem_cons, get_cons, ← keys, ih]
    by_cases h : e.1 = k
    · simp [h]
    · simp [h, Ne.symm h]

theorem get_eq_none : get m k = none ↔ k ∉ keys m := by
  rw [mem_keys_iff]
  cases get m k <;> simp

/-! ## Lookups after a change -/

/-- A filter that keeps all of a key's entries does not show in its
lookups. -/
theorem get_filter (h : ∀ v, p (k, v) = true) : get (filter p m) k = get m k := by
  induction m with
  | nil => rfl
  | cons e m ih =>
    obtain ⟨a, b⟩ := e
    rw [get_cons]
    by_cases ha : a = k
    · subst ha
      rw [filter_cons_of_pos (h b), get_cons]
      simp
    rw [filter_cons]
    split
    · rw [get_cons, if_neg ha, ih]
    · exact ih

/-- One that drops all of them makes it absent. -/
theorem get_filter_none (h : ∀ v, p (k, v) = false) : get (filter p m) k = none := by
  rw [get_eq_none, keys, List.mem_map]
  rintro ⟨⟨a, b⟩, he, rfl⟩
  rw [mem_filter, h b] at he
  exact Bool.false_ne_true he.2

theorem get_append {m' : OrderedMap K V} :
    get (m ++ m' : OrderedMap K V) k = (get m k).or (get m' k) := by
  induction m with
  | nil => rfl
  | cons e m ih =>
    rw [cons_append, get_cons, get_cons, ih]
    split <;> rfl

theorem get_remove : get (remove m k) k' = if k' = k then none else get m k' := by
  by_cases h : k' = k
  · rw [if_pos h, remove, get_filter_none (by simp [h])]
  · rw [if_neg h, remove, get_filter (by simp [h])]

theorem get_insert [LT K] [DecidableLT K] :
    get (insert m k v) k' = if k' = k then some v else get m k' := by
  have hrest : (get (filter (fun e => e.1 < k) (remove m k)) k').or
      (get (filter (fun e => ¬e.1 < k) (remove m k)) k') = get (remove m k) k' := by
    by_cases hlt : k' < k
    · rw [get_filter (by simp [hlt]), get_filter_none (by simp [hlt]), or_none]
    · rw [get_filter_none (by simp [hlt]), get_filter (by simp [hlt]), none_or]
  rw [get_remove] at hrest
  rw [insert, get_append, get_cons]
  by_cases h : k' = k
  · rw [if_pos h, or_eq_none_iff] at hrest
    rw [hrest.1, if_pos h.symm, if_pos h]
    rfl
  · rw [if_neg (Ne.symm h), hrest, if_neg h, if_neg h]

theorem get_modify : get (modify m k f) k' = if k' = k then (get m k).map f else get m k' := by
  induction m with
  | nil => simp [modify]
  | cons e m ih =>
    rw [modify, map_cons, get_cons, get_cons, get_cons, ← modify, ih]
    by_cases he : e.1 = k
    · by_cases h : k' = k
      · simp [he, h]
      · simp [he, h, Ne.symm h]
    · rw [if_neg he]
      by_cases h : k' = k
      · simp [he, h]
      · simp [h]

/-- What a change leaves alone looks the same under every key. -/
theorem map_get_modify {g : V → β} (hg : ∀ v, g (f v) = g v) :
    (get (modify m k f) k').map g = (get m k').map g := by
  rw [get_modify]
  split
  · subst k'
    cases get m k <;> simp [hg]
  · rfl

theorem get_mapValues : get (mapValues m f) k = (get m k).map f := by
  induction m with
  | nil => rfl
  | cons e m ih =>
    rw [mapValues, map_cons, get_cons, get_cons, ← mapValues, ih]
    split <;> rfl

/-! ## Keys after a change -/

theorem isSome_get : (get m k).isSome = true ↔ k ∈ keys m := by
  rw [isSome_iff_exists, mem_keys_iff]

theorem mem_keys_remove : k' ∈ keys (remove m k) ↔ k' ≠ k ∧ k' ∈ keys m := by
  rw [← isSome_get, get_remove, ← isSome_get]
  split <;> simp [*]

theorem mem_keys_insert [LT K] [DecidableLT K] :
    k' ∈ keys (insert m k v) ↔ k' = k ∨ k' ∈ keys m := by
  rw [← isSome_get, get_insert, ← isSome_get]
  split <;> simp [*]

/-! ## One entry for a key -/

omit [DecidableEq K] in
theorem keys_mapValues : keys (mapValues m f) = keys m := by
  simp [keys, mapValues]

omit [DecidableEq K] in
theorem nodup_keys_filter (h : (keys m).Nodup) : (keys (filter p m)).Nodup :=
  h.sublist (filter_sublist.map _)

theorem nodup_keys_insert [LT K] [DecidableLT K] (h : (keys m).Nodup) :
    (keys (insert m k v)).Nodup := by
  have hperm : List.Perm (insert m k v) ((k, v) :: remove m k) := by
    refine perm_middle.trans (.cons _ ?_)
    simpa using filter_append_perm (fun e => decide (e.1 < k)) (remove m k)
  refine ((hperm.map Prod.fst).nodup_iff).mpr (nodup_cons.mpr ⟨?_, nodup_keys_filter h⟩)
  intro hmem
  exact (mem_keys_remove.mp hmem).1 rfl

theorem get_retain {p : K → V → Bool} (h : (keys m).Nodup) :
    get (retain m p) k = (get m k).filter (p k) := by
  induction m with
  | nil => rfl
  | cons e m ih =>
    have hrest := ih (nodup_cons.mp h).2
    have hnew : e.1 ∉ keys m := (nodup_cons.mp h).1
    rw [retain, filter_cons, ← retain, get_cons]
    by_cases hk : e.1 = k
    · subst hk
      have hnone : get m e.1 = none := get_eq_none.mpr hnew
      rw [hnone] at hrest
      rw [if_pos rfl, filter_some]
      split
      · rw [get_cons, if_pos rfl]
      · exact hrest
    · rw [if_neg hk, ← hrest]
      split
      · rw [get_cons, if_neg hk]
      · rfl

end OrderedMap

end Machbus
