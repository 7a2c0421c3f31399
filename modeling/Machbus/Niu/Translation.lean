import Machbus.Common.Run
import Machbus.Common.Table
import Machbus.Niu.Model.Router
/-!
# The translation table is a partial bijection

`WellFormed` says what the table is kept as: one entry per NAME, one entry
per address on each side, every address claimable and every entry active.
The three calls keep it, so the two directions of `translate` undo each
other, and the table is a partial equivalence between the addresses of the
tractor side and those of the implement side.
-/

namespace Machbus

open List

@[simp] theorem Side.other_other (side : Side) : side.other.other = side := by
  cases side <;> rfl

/-! ## One entry -/

namespace AddressTranslation

variable {t : AddressTranslation} {a b : Address} {side : Side}

/-- **One entry, both ways.** It translates its address on one side to its
address on the other. -/
theorem translate_eq_some :
    t.translate a side = some b ↔ t.addressOn side = a ∧ t.addressOn side.other = b := by
  all_goals
    simp only [translate, addressOn, Side.other]
    split <;> simp_all [eq_comm]

theorem translate_addressOn (t : AddressTranslation) (side : Side) :
    t.translate (t.addressOn side) side = some (t.addressOn side.other) :=
  translate_eq_some.mpr ⟨rfl, rfl⟩

end AddressTranslation

namespace AddressTranslationDb

open AddressTranslation

variable {db : AddressTranslationDb} {name : Name} {tractorAddr implementAddr : Address}

/-- **What the table is kept as.** -/
structure WellFormed (db : AddressTranslationDb) : Prop where
  /-- A NAME has at most one entry. -/
  name_nodup : (db.entries.map AddressTranslation.name).Nodup
  /-- An address of a side belongs to at most one entry. -/
  address_nodup : ∀ side, (db.entries.map (addressOn · side)).Nodup
  /-- Every address can be claimed. -/
  address_le : ∀ t ∈ db.entries, ∀ side, t.addressOn side ≤ maxAddress
  /-- No entry is ever switched off. -/
  active : ∀ t ∈ db.entries, t.active = true

/-! ## What the checks of an add establish -/

theorem validateTranslationAddress_ok {addr : Address}
    (h : validateTranslationAddress addr = .ok ()) : addr ≤ maxAddress := by
  unfold validateTranslationAddress at h
  split at h
  · assumption
  · cases h

theorem sideConflict_eq_none {entry : AddressTranslation} :
    sideConflict name tractorAddr implementAddr entry = none ↔
      entry.tractorAddress ≠ tractorAddr ∧ entry.implementAddress ≠ implementAddr := by
  unfold sideConflict
  split
  · simp_all
  · split <;> simp_all

/-- The add of an accepted pair of addresses. -/
structure Accepts (db : AddressTranslationDb) (name : Name) (tractorAddr implementAddr : Address) :
    Prop where
  tractor_le : tractorAddr ≤ maxAddress
  implement_le : implementAddr ≤ maxAddress
  tractor_free : ∀ t ∈ db.entries, t.name ≠ name → t.tractorAddress ≠ tractorAddr
  implement_free : ∀ t ∈ db.entries, t.name ≠ name → t.implementAddress ≠ implementAddr

theorem checkAdd_ok (hdb : db.WellFormed)
    (h : db.checkAdd name tractorAddr implementAddr = .ok ()) :
    db.Accepts name tractorAddr implementAddr := by
  simp only [checkAdd] at h
  rcases ht : validateTranslationAddress tractorAddr with e | u
  · rw [ht] at h; cases h
  rcases hi : validateTranslationAddress implementAddr with e | v
  · rw [ht, hi] at h; cases h
  rw [ht, hi] at h
  have hfree : ∀ t ∈ db.entries, t.name ≠ name →
      sideConflict name tractorAddr implementAddr t = none := by
    unfold ensureSideAddressesAvailable at h
    split at h
    · cases h
    rename_i hnone
    intro t hmem hne
    refine List.findSome?_eq_none_iff.mp hnone t (mem_filter.mpr ⟨hmem, ?_⟩)
    simp [hdb.active t hmem, hne]
  exact
    { tractor_le := validateTranslationAddress_ok ht
      implement_le := validateTranslationAddress_ok hi
      tractor_free := fun t ht hne => (sideConflict_eq_none.mp (hfree t ht hne)).1
      implement_free := fun t ht hne => (sideConflict_eq_none.mp (hfree t ht hne)).2 }

namespace Accepts

/-- The entry an accepted add writes. -/
def entry (name : Name) (tractorAddr implementAddr : Address) : AddressTranslation :=
  ⟨name, tractorAddr, implementAddr, true⟩

variable (h : db.Accepts name tractorAddr implementAddr)
include h

theorem address_free (side : Side) : ∀ t ∈ db.entries, t.name ≠ name →
      t.addressOn side ≠ (entry name tractorAddr implementAddr).addressOn side := by
  cases side
  · exact h.tractor_free
  · exact h.implement_free

theorem address_le (side : Side) :
    (entry name tractorAddr implementAddr).addressOn side ≤ maxAddress := by
  cases side
  · exact h.tractor_le
  · exact h.implement_le

end Accepts

open Accepts (entry)

/-- **What an add does.** It fails and changes nothing, or it is accepted
and puts its entry in the place of the one for the NAME, or at the end. -/
theorem WellFormed.add_cases (hdb : db.WellFormed) (name : Name)
    (tractorAddr implementAddr : Address) :
    (∃ e, db.add name tractorAddr implementAddr = (db, .error e)) ∨
      db.Accepts name tractorAddr implementAddr ∧
        ((∃ l₁ t l₂, db.entries = l₁ ++ t :: l₂ ∧ t.name = name ∧
            db.add name tractorAddr implementAddr =
              (⟨l₁ ++ entry name tractorAddr implementAddr :: l₂⟩, .ok ())) ∨
          (∀ t ∈ db.entries, t.name ≠ name) ∧ db.add name tractorAddr implementAddr =
              (⟨db.entries ++ [entry name tractorAddr implementAddr]⟩, .ok ())) := by
  rcases hc : db.checkAdd name tractorAddr implementAddr with e | u
  · exact .inl ⟨e, by rw [add, hc]⟩
  · refine .inr ⟨checkAdd_ok hdb hc, ?_⟩
    rcases hf : db.entries.findIdx? (fun t => t.name == name) with _ | idx
    · right
      refine ⟨fun t ht => ?_, by rw [add, hc, hf]; rfl⟩
      simpa using List.findIdx?_eq_none_iff.mp hf t ht
    · left
      obtain ⟨l₁, t, l₂, hl, rfl, hname, -⟩ := exists_split_of_findIdx? hf
      have hname : t.name = name := by simpa using hname
      refine ⟨l₁, t, l₂, hl, hname, ?_⟩
      rw [add, hc, hf, hl]
      simp [hname, entry]

/-- A failed add leaves the table as it was. -/
theorem add_error {e : Error} (h : (db.add name tractorAddr implementAddr).2 = .error e) :
    (db.add name tractorAddr implementAddr).1 = db := by
  unfold add at h ⊢
  rcases hc : db.checkAdd name tractorAddr implementAddr with e' | u
  · rfl
  · rw [hc] at h
    simp only at h
    split at h <;> cases h

/-! ## The calls keep the table -/

/-- A key occurs once: the others have other keys, and those are distinct. -/
theorem nodup_map_middle {α β : Type*} {f : α → β} {l₁ l₂ : List α} {x : α} :
    ((l₁ ++ x :: l₂).map f).Nodup ↔ (∀ y ∈ l₁ ++ l₂, f y ≠ f x) ∧ ((l₁ ++ l₂).map f).Nodup := by
  rw [map_append, map_cons, nodup_middle, nodup_cons, ← map_append, mem_map]
  push Not
  rfl

namespace WellFormed

theorem empty : WellFormed ⟨[]⟩ where
  name_nodup := nodup_nil
  address_nodup _ := nodup_nil
  address_le := nofun
  active := nofun

theorem sublist (hdb : db.WellFormed) {l : List AddressTranslation} (hl : l.Sublist db.entries) :
    WellFormed ⟨l⟩ where
  name_nodup := hdb.name_nodup.sublist (hl.map _)
  address_nodup side := (hdb.address_nodup side).sublist (hl.map _)
  address_le t ht := hdb.address_le t (hl.subset ht)
  active t ht := hdb.active t (hl.subset ht)

/-- One more entry, for a NAME that has none, at addresses of its own. -/
theorem insert {l₁ l₂ : List AddressTranslation} {t : AddressTranslation}
    (hdb : WellFormed ⟨l₁ ++ l₂⟩) (hname : ∀ x ∈ l₁ ++ l₂, x.name ≠ t.name)
    (haddr : ∀ side, ∀ x ∈ l₁ ++ l₂, x.addressOn side ≠ t.addressOn side)
    (hle : ∀ side, t.addressOn side ≤ maxAddress) (hact : t.active = true) :
    WellFormed ⟨l₁ ++ t :: l₂⟩ where
  name_nodup := nodup_map_middle.mpr ⟨hname, hdb.name_nodup⟩
  address_nodup side := nodup_map_middle.mpr ⟨haddr side, hdb.address_nodup side⟩
  address_le x hx side := by
    rcases mem_cons.mp (perm_middle.mem_iff.mp hx) with rfl | hx
    · exact hle side
    · exact hdb.address_le x hx side
  active x hx := by
    rcases mem_cons.mp (perm_middle.mem_iff.mp hx) with rfl | hx
    · exact hact
    · exact hdb.active x hx

theorem add (hdb : db.WellFormed) (name : Name) (tractorAddr implementAddr : Address) :
    (db.add name tractorAddr implementAddr).1.WellFormed := by
  rcases hdb.add_cases name tractorAddr implementAddr
    with ⟨e, h⟩ | ⟨hacc, ⟨l₁, t, l₂, hl, hname, h⟩ | ⟨hnew, h⟩⟩
  · rw [h]
    exact hdb
  · -- the old entry of the NAME makes room for the new one
    rw [h]
    have hdb' : WellFormed ⟨l₁ ++ t :: l₂⟩ := ⟨hl ▸ hdb.1, hl ▸ hdb.2, hl ▸ hdb.3, hl ▸ hdb.4⟩
    have hrest : ∀ x ∈ l₁ ++ l₂, x ∈ db.entries ∧ x.name ≠ name := by
      intro x hx
      refine ⟨?_, hname ▸ (nodup_map_middle.mp hdb'.name_nodup).1 x hx⟩
      rw [hl, perm_middle.mem_iff]
      exact mem_cons_of_mem _ hx
    refine insert (hdb'.sublist ((sublist_cons_self t l₂).append_left l₁))
      (fun x hx => (hrest x hx).2) (fun side x hx => ?_) hacc.address_le rfl
    exact hacc.address_free side x (hrest x hx).1 (hrest x hx).2
  · rw [h]
    have happ : db.entries ++ [] = db.entries := append_nil _
    refine insert (by rw [happ]; exact hdb) ?_ ?_ hacc.address_le rfl
    · rw [happ]
      exact hnew
    · rw [happ]
      exact fun side x hx => hacc.address_free side x hx (hnew x hx)

theorem step (hdb : db.WellFormed) (op : Op) : (db.step op).WellFormed := by
  cases op with
  | add name tractorAddr implementAddr => exact hdb.add name tractorAddr implementAddr
  | remove name => exact hdb.sublist eraseP_sublist
  | clear => exact empty

end WellFormed

/-- **Every reachable table is well formed.** -/
theorem wellFormed_run (ops : List Op) :
    (run AddressTranslationDb.step AddressTranslationDb.new ops).WellFormed :=
  run_induction (I := WellFormed) .empty (fun _ op h => h.step op) ops

/-! ## What a well-formed table translates -/

namespace WellFormed

variable {a b : Address} {side : Side}

section

variable (hdb : db.WellFormed)
include hdb

theorem eq_of_addressOn_eq {t t' : AddressTranslation} (ht : t ∈ db.entries)
    (ht' : t' ∈ db.entries) (h : t.addressOn side = t'.addressOn side) : t = t' :=
  inj_on_of_nodup_map (hdb.address_nodup side) ht ht' h

/-- A translation is an entry's, and the other way round. -/
theorem translate_eq_some_iff : db.translate a side = some b ↔
      ∃ t ∈ db.entries, t.addressOn side = a ∧ t.addressOn side.other = b := by
  have hall : db.entries.filter (fun t => t.active) = db.entries := filter_eq_self.mpr hdb.active
  unfold translate
  rw [hall]
  constructor
  · intro h
    obtain ⟨t, ht, htr⟩ := exists_of_findSome?_eq_some h
    exact ⟨t, ht, AddressTranslation.translate_eq_some.mp htr⟩
  · rintro ⟨t, ht, rfl, rfl⟩
    rcases hf : db.entries.findSome? (fun x => x.translate (t.addressOn side) side) with _ | c
    · have hnone := List.findSome?_eq_none_iff.mp hf t ht
      rw [translate_addressOn] at hnone
      cases hnone
    · obtain ⟨x, hx, htr⟩ := exists_of_findSome?_eq_some hf
      obtain ⟨haddr, hc⟩ := AddressTranslation.translate_eq_some.mp htr
      rw [hf, ← hc, hdb.eq_of_addressOn_eq hx ht haddr]

theorem translate_eq_none_iff :
    db.translate a side = none ↔ ∀ t ∈ db.entries, t.addressOn side ≠ a := by
  constructor
  · intro h t ht haddr
    have := hdb.translate_eq_some_iff.mpr ⟨t, ht, haddr, rfl⟩
    rw [h] at this
    cases this
  · intro h
    rcases ht : db.translate a side with _ | b
    · rfl
    · obtain ⟨t, ht, haddr, -⟩ := hdb.translate_eq_some_iff.mp ht
      exact absurd haddr (h t ht)

/-- **The two directions undo each other.** -/
theorem translate_other_iff (a b : Address) (side : Side) :
    db.translate b side.other = some a ↔ db.translate a side = some b := by
  rw [hdb.translate_eq_some_iff, hdb.translate_eq_some_iff, Side.other_other]
  constructor
  all_goals
    rintro ⟨t, ht, h₁, h₂⟩
    exact ⟨t, ht, h₂, h₁⟩

end

end WellFormed

/-- **Router translation is a partial bijection**, in every table reached
by adds, failed or not, removals and clears. -/
theorem translation_partial_bijection (ops : List Op) :
    let db := run AddressTranslationDb.step AddressTranslationDb.new ops
    (db.entries.map AddressTranslation.name).Nodup ∧
      (db.entries.map AddressTranslation.tractorAddress).Nodup ∧
      (db.entries.map AddressTranslation.implementAddress).Nodup ∧
      (∀ t ∈ db.entries, t.tractorAddress ≤ 0xFD ∧ t.implementAddress ≤ 0xFD) ∧
      (∀ a b side, db.translate a side = some b → db.translate b side.other = some a) ∧
      ∀ name tractorAddr implementAddr e,
        (db.add name tractorAddr implementAddr).2 = .error e →
          (db.add name tractorAddr implementAddr).1 = db := by
  intro db
  have hdb : db.WellFormed := wellFormed_run ops
  refine ⟨hdb.name_nodup, hdb.address_nodup .tractor, hdb.address_nodup .implement, ?_, ?_, ?_⟩
  · intro t ht
    exact ⟨hdb.address_le t ht .tractor, hdb.address_le t ht .implement⟩
  · intro a b side h
    exact (hdb.translate_other_iff a b side).mpr h
  · intro name tractorAddr implementAddr e h
    exact add_error h

end AddressTranslationDb

end Machbus
