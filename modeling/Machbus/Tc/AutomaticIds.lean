import Machbus.Tc.Model.Ddop
/-!
# Task controller — ids assigned to the objects of a pool

Objects that come without an id get the next free one, except for the
device, which is always object `0`. The ids start at `0`, so that whatever
is added first takes the device's id: `automatic_ids_distinct_iff` says
that the ids are distinct just when a device is added first or not at all.
-/

namespace Machbus.Tc

open List

/-- A call that adds an object. -/
inductive Addition
  | device (obj : DeviceObject)
  | element (elem : DeviceElement)
  | processData (pd : DeviceProcessData)
  | property (prop : DeviceProperty)
  | valuePresentation (vp : DeviceValuePresentation)

namespace Addition

/-- The id is left to be assigned. -/
def Automatic : Addition → Prop
  | device _ => True
  | element elem => elem.id = 0
  | processData pd => pd.id = 0
  | property prop => prop.id = 0
  | valuePresentation vp => vp.id = 0

def isDevice : Addition → Bool
  | device _ => true
  | _ => false

end Addition

namespace DDOP

def add (d : DDOP) : Addition → Except Error (DDOP × ObjectID)
  | .device obj => d.addDevice obj
  | .element elem => d.addElement elem
  | .processData pd => d.addProcessData pd
  | .property prop => d.addProperty prop
  | .valuePresentation vp => d.addValuePresentation vp

/-- A sequence of calls that all succeed. -/
def addAll : DDOP → List Addition → Except Error DDOP
  | d, [] => .ok d
  | d, a :: as => do
      let r ← d.add a
      r.1.addAll as

/-- The ids of all objects. -/
def ids (d : DDOP) : List ObjectID :=
  d.devices.map (·.id) ++ d.elements.map (·.id) ++ d.processData.map (·.id) ++
    d.properties.map (·.id) ++ d.valuePresentations.map (·.id)

variable {d d' : DDOP} {id : ObjectID} {a : Addition} {as : List Addition}

theorem objectKind_isNone : (d.objectKind id).isNone = true ↔ id ∉ d.ids := by
  unfold objectKind ids
  split_ifs <;> simp_all

theorem findId_spec {n : ℕ} {candidate : ObjectID} (h : d.findId n candidate = .ok (d', id)) :
    id ≠ .null ∧ id ∉ d.ids ∧ ∃ next, d' = { d with nextId := next } := by
  induction n generalizing candidate with
  | zero => cases h
  | succ n ih =>
    rw [findId] at h
    split at h
    next hfree =>
      cases h
      exact ⟨hfree.1, objectKind_isNone.mp hfree.2, _, rfl⟩
    · exact ih h

/-- An id that is assigned was free; the first one is `0`. -/
theorem idFor_spec {given : ObjectID} (hauto : given = 0) (h : d.idFor given = .ok (d', id)) :
    id ≠ .null ∧ id ∉ d.ids ∧ (∃ next, d' = { d with nextId := next }) ∧ (d = {} → id = 0) := by
  rw [idFor, if_pos hauto] at h
  have hfind := (require_then_eq_ok.mp h).2
  obtain ⟨hnull, hfree, hsame⟩ := findId_spec hfind
  refine ⟨hnull, hfree, hsame, ?_⟩
  rintro rfl
  cases hfind
  rfl

/-- **What a call adds.** Object `0`, or one whose id was free. -/
theorem add_spec (hauto : a.Automatic) (h : d.add a = .ok (d', id)) :
    d'.ids ~ id :: d.ids ∧ (a.isDevice = true ∨ d = {} → id = 0) ∧
      (a.isDevice = false → id ≠ .null ∧ id ∉ d.ids) := by
  cases a with
  | device obj =>
    obtain ⟨-, h⟩ := require_then_eq_ok.mp h
    cases h
    exact ⟨perm_iff_count.mpr fun x => by simp [ids, count_cons]; omega, fun _ => rfl, nofun⟩
  | _ =>
    obtain ⟨⟨u, i⟩, hid, h⟩ := bind_eq_ok.mp h
    cases h
    obtain ⟨hnull, hfree, ⟨next, rfl⟩, hfirst⟩ := idFor_spec hauto hid
    exact ⟨perm_iff_count.mpr fun x => by simp [ids, count_cons]; omega,
      fun h => hfirst (h.resolve_left nofun), fun _ => ⟨hnull, hfree⟩⟩

/-- Ids are never taken back. -/
theorem nodup_of_addAll (hauto : ∀ a ∈ as, a.Automatic) (h : d.addAll as = .ok d')
    (hd : d'.ids.Nodup) : d.ids.Nodup := by
  induction as generalizing d with
  | nil => cases h; exact hd
  | cons a as ih =>
    obtain ⟨⟨u, id⟩, hadd, h⟩ := bind_eq_ok.mp h
    have hperm := (add_spec (hauto a mem_cons_self) hadd).1
    exact (hperm.nodup_iff.mp (ih (fun b hb => hauto b (mem_cons_of_mem _ hb)) h)).of_cons

/-- The ids are distinct, and none is the null id. -/
def Distinct (d : DDOP) : Prop := d.ids.Nodup ∧ ObjectID.null ∉ d.ids

theorem Distinct.of_perm (hd : d.Distinct) (hperm : d'.ids ~ id :: d.ids)
    (hid : id ≠ .null ∧ id ∉ d.ids) : d'.Distinct :=
  ⟨hperm.nodup_iff.mpr (nodup_cons.mpr ⟨hid.2, hd.1⟩), fun hnull =>
    (mem_cons.mp (hperm.mem_iff.mp hnull)).elim (fun he => hid.1 he.symm) hd.2⟩

/-- **Once object `0` is there**, the ids stay distinct just when no device
is added. -/
theorem distinct_addAll_iff (hauto : ∀ a ∈ as, a.Automatic) (h : d.addAll as = .ok d')
    (hd : d.Distinct) (hzero : 0 ∈ d.ids) : d'.Distinct ↔ ∀ a ∈ as, a.isDevice = false := by
  induction as generalizing d with
  | nil => cases h; exact iff_of_true hd nofun
  | cons a as ih =>
    obtain ⟨⟨u, id⟩, hadd, h⟩ := bind_eq_ok.mp h
    have hrest : ∀ b ∈ as, b.Automatic := fun b hb => hauto b (mem_cons_of_mem _ hb)
    obtain ⟨hperm, hdevice, hother⟩ := add_spec (hauto a mem_cons_self) hadd
    rw [forall_mem_cons]
    cases hdev : a.isDevice with
    | true =>
      -- two objects have the id 0, and keep it
      refine iff_of_false (fun hall => ?_) fun h => Bool.noConfusion h.1
      have hu : u.ids.Nodup := nodup_of_addAll hrest h hall.1
      exact (nodup_cons.mp (hperm.nodup_iff.mp hu)).1 (hdevice (.inl hdev) ▸ hzero)
    | false =>
      rw [ih hrest h (hd.of_perm hperm (hother hdev))
        (hperm.mem_iff.mpr (mem_cons_of_mem _ hzero)), and_iff_right rfl]

/-- **When automatic ids are distinct.** Whatever calls succeed on an empty
pool, the ids are distinct and none is the null id just when no device is
added behind another object. -/
theorem automatic_ids_distinct_iff (hauto : ∀ a ∈ as, a.Automatic) (h : addAll {} as = .ok d) :
    d.ids.Nodup ∧ ObjectID.null ∉ d.ids ↔ ∀ a ∈ as.tail, a.isDevice = false := by
  cases as with
  | nil => cases h; exact iff_of_true ⟨nodup_nil, nofun⟩ nofun
  | cons a as =>
    obtain ⟨⟨u, id⟩, hadd, h⟩ := bind_eq_ok.mp h
    obtain ⟨hperm, hfirst, -⟩ := add_spec (hauto a mem_cons_self) hadd
    obtain rfl := hfirst (.inr rfl)
    have hempty : Distinct {} := ⟨nodup_nil, nofun⟩
    exact distinct_addAll_iff (fun b hb => hauto b (mem_cons_of_mem _ hb)) h
      (hempty.of_perm hperm ⟨by decide, nofun⟩) (hperm.mem_iff.mpr mem_cons_self)

/-- A device and its element, in the order that is meant. -/
theorem automatic_ids_deviceFirst :
    ∃ d, addAll {} [.device { designator := "Sprayer" }, .element { designator := "Boom" }]
      = .ok d ∧ d.ids.Nodup ∧ ObjectID.null ∉ d.ids := by
  have h : addAll {} [.device { designator := "Sprayer" }, .element { designator := "Boom" }] =
      .ok _ := rfl
  exact ⟨_, h, (automatic_ids_distinct_iff (by simp [Addition.Automatic]) h).mpr
    (by simp [Addition.isDevice])⟩

/-- An element added before the device takes its id. -/
theorem element_first_shares_id :
    ∃ d, addAll {} [.element { designator := "Boom" }, .device { designator := "Sprayer" }]
      = .ok d ∧ d.ids = [0, 0] :=
  ⟨_, rfl, rfl⟩

end DDOP

end Machbus.Tc
