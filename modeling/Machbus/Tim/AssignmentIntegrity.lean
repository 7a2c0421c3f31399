import Machbus.Common.Run
import Machbus.Tim.Model.Assignment
/-!
# TIM function assignment — the table never lies

Whatever is done with the table, a function has one owner, the owner is
authenticated and has been heard from within the time limit, nobody takes
a function from another, and a client that is told it has a function has
it.
-/

namespace Machbus.Tim.AssignmentTable

open List

variable {t : AssignmentTable} {client a : Address} {function f : TimFunctionId}

/-- **What holds of every table.** -/
structure Integrity (t : AssignmentTable) : Prop where
  /-- A function has at most one owner. -/
  exclusive : (t.owners.map (·.1)).Nodup
  supported : ∀ e ∈ t.owners, e.1 ∈ t.supported
  authenticated : ∀ e ∈ t.owners, e.2 ∈ t.authenticated
  /-- Every owner is on the watchdog, and in time. -/
  watched : ∀ e ∈ t.owners, ∃ age, (e.2, age) ∈ t.liveness ∧ age < clientStatusTimeoutMs
  /-- The watchdog has one age for a client. -/
  single : (t.liveness.map (·.1)).Nodup

theorem owner_eq_some (h : t.Integrity) : t.owner function = some a ↔ (function, a) ∈ t.owners := by
  rw [owner, Option.map_eq_some_iff]
  constructor
  · rintro ⟨e, he, rfl⟩
    obtain rfl : e.1 = function := by simpa using find?_some he
    exact mem_of_find?_eq_some he
  · intro hmem
    have hsome : (t.owners.find? (·.1 == function)).isSome = true :=
      find?_isSome.mpr ⟨_, hmem, by simp⟩
    obtain ⟨e, he⟩ := Option.isSome_iff_exists.mp hsome
    refine ⟨e, he, ?_⟩
    have hkey : e.1 = function := by simpa using find?_some he
    have := inj_on_of_nodup_map h.exclusive (mem_of_find?_eq_some he) hmem hkey
    rw [this]

/-! ## What each change keeps -/

/-- Functions are given up. -/
theorem Integrity.retain (h : t.Integrity) (p : TimFunctionId × Address → Bool) :
    Integrity { t with owners := t.owners.filter p } where
  exclusive := h.exclusive.sublist (filter_sublist.map _)
  supported e he := h.supported e (mem_of_mem_filter he)
  authenticated e he := h.authenticated e (mem_of_mem_filter he)
  watched e he := h.watched e (mem_of_mem_filter he)
  single := h.single

/-- A client that owns nothing is taken off the watchdog. -/
theorem Integrity.released (h : t.Integrity) (client : Address) :
    ((t.releaseAll client).unwatch client).Integrity where
  exclusive := (h.retain _).exclusive
  supported := (h.retain _).supported
  authenticated := (h.retain _).authenticated
  watched e he := by
    obtain ⟨age, hage, hlt⟩ := (h.retain _).watched e he
    refine ⟨age, mem_filter.mpr ⟨hage, ?_⟩, hlt⟩
    exact (mem_filter.mp he).2
  single := h.single.sublist (filter_sublist.map _)

theorem map_noteClientStatus (t : AssignmentTable) (client : Address) :
    (t.noteClientStatus client).liveness.map (·.1) =
      if t.liveness.any (·.1 == client) then t.liveness.map (·.1)
      else t.liveness.map (·.1) ++ [client] := by
  rw [noteClientStatus]
  split
  · exact map_modifyFirst fun _ => rfl
  · rw [map_append]
    rfl

/-- The watchdog of a client starts again, and no other's changes. -/
theorem mem_noteClientStatus {e : Address × ℕ} (he : e ∈ t.liveness) :
    e ∈ (t.noteClientStatus client).liveness ∨ (e.1, 0) ∈ (t.noteClientStatus client).liveness := by
  rw [noteClientStatus]
  split
  · exact mem_modifyFirst_of_mem he
  · exact .inl (mem_append_left _ he)

theorem Integrity.noteClientStatus (h : t.Integrity) (client : Address) :
    (t.noteClientStatus client).Integrity where
  exclusive := h.exclusive
  supported := h.supported
  authenticated := h.authenticated
  watched e he := by
    obtain ⟨age, hage, hlt⟩ := h.watched e he
    rcases @mem_noteClientStatus t client _ hage with h | h
    · exact ⟨age, h, hlt⟩
    · exact ⟨0, h, by decide⟩
  single := by
    rw [map_noteClientStatus]
    split
    · exact h.single
    rename_i hnew
    rw [← concat_eq_append]
    refine h.single.concat fun hmem => ?_
    obtain ⟨e, he, rfl⟩ := mem_map.mp hmem
    exact hnew (any_eq_true.mpr ⟨e, he, beq_self_eq_true _⟩)

/-- The client is on the watchdog with age 0. -/
theorem watched_noteClientStatus (t : AssignmentTable) (client : Address) :
    ∃ age, (client, age) ∈ (t.noteClientStatus client).liveness ∧ age < clientStatusTimeoutMs := by
  refine ⟨0, ?_, by decide⟩
  rw [AssignmentTable.noteClientStatus]
  split
  next hany =>
    have hfind := @find?_modifyFirst _ (fun e : Address × ℕ => e.1 == client)
      (fun e => (e.1, 0)) t.liveness fun _ => rfl
    obtain ⟨e, he⟩ := Option.isSome_iff_exists.mp (find?_isSome.mpr (any_eq_true.mp hany))
    rw [he] at hfind
    obtain rfl : e.1 = client := by simpa using find?_some he
    exact mem_of_find?_eq_some hfind
  · exact mem_append_right _ mem_cons_self

theorem Integrity.assign (h : t.Integrity) (hsupported : function ∈ t.supported)
    (hauth : client ∈ t.authenticated) (hfree : t.owner function = none) :
    (t.assign function client).Integrity := by
  have hnew : function ∉ t.owners.map (·.1) := by
    intro hmem
    obtain ⟨⟨g, a⟩, he, rfl⟩ := mem_map.mp hmem
    rw [(owner_eq_some h).mpr he] at hfree
    cases hfree
  have hnoted := h.noteClientStatus client
  refine ⟨?_, ?_, ?_, ?_, hnoted.single⟩
  · change ((t.owners ++ [(function, client)]).map (·.1)).Nodup
    rw [map_append, map_singleton, ← concat_eq_append]
    exact h.exclusive.concat hnew
  · exact forall_mem_append.mpr ⟨h.supported, forall_mem_singleton.mpr hsupported⟩
  · exact forall_mem_append.mpr ⟨h.authenticated, forall_mem_singleton.mpr hauth⟩
  · exact forall_mem_append.mpr
      ⟨hnoted.watched, forall_mem_singleton.mpr (watched_noteClientStatus _ client)⟩

theorem Integrity.tick (h : t.Integrity) (elapsedMs : ℕ) : (t.tick elapsedMs).1.Integrity := by
  have hsingle : ((t.liveness.map fun e => (e.1, satAdd32 e.2 elapsedMs)).map (·.1)).Nodup := by
    rw [map_map]
    exact h.single
  refine ⟨(h.retain _).exclusive, (h.retain _).supported, (h.retain _).authenticated,
    fun e he => ?_, hsingle.sublist (filter_sublist.map _)⟩
  obtain ⟨hmem, hkept⟩ := mem_filter.mp he
  obtain ⟨age, hage, -⟩ := h.watched e hmem
  have haged : (e.2, satAdd32 age elapsedMs) ∈
      t.liveness.map fun e => (e.1, satAdd32 e.2 elapsedMs) := mem_map.mpr ⟨_, hage, rfl⟩
  refine ⟨satAdd32 age elapsedMs, mem_filter.mpr ⟨haged, hkept⟩, ?_⟩
  -- a client whose age has reached the limit is released
  by_contra hge
  simp only [Bool.not_eq_true', contains_eq_mem, decide_eq_false_iff_not] at hkept
  exact hkept (mem_map.mpr ⟨_, mem_filter.mpr ⟨haged, by simpa using hge⟩, rfl⟩)

theorem Integrity.setAuthenticated (h : t.Integrity) (client : Address) (authenticated : Bool) :
    (t.setAuthenticated client authenticated).Integrity := by
  rw [AssignmentTable.setAuthenticated]
  split
  · split
    · exact h
    · exact { h with authenticated := fun e he => mem_append_left _ (h.authenticated e he) }
  · have hreleased := h.retain (·.2 != client)
    refine ⟨hreleased.exclusive, hreleased.supported, fun e he => ?_, hreleased.watched, h.single⟩
    exact mem_filter.mpr ⟨hreleased.authenticated e he, (mem_filter.mp he).2⟩

/-! ## Requests -/

/-- **What one entry of a request does.** -/
inductive Entry (t : AssignmentTable) (client : Address) (function : TimFunctionId) :
    AssignmentTable → AssignmentStatus → Prop
  | refused {status} (hstatus : status ≠ .assignedToRequester) : Entry t client function t status
  | held {status} (howner : t.owner function = some client) : Entry t client function t status
  | assigned {status} (hsupported : function ∈ t.supported) (hauth : client ∈ t.authenticated)
      (hfree : t.owner function = none) : Entry t client function (t.assign function client) status
  | released {status} (hstatus : status ≠ .assignedToRequester)
      (howner : t.owner function = some client) :
      Entry t client function { t with owners := t.owners.filter (·.1 != function) } status

theorem applyEntry_entry (t : AssignmentTable) (client : Address) (function : TimFunctionId)
    (requestType : RequestType) :
    Entry t client function (t.applyEntry client function requestType).1
      (t.applyEntry client function requestType).2.1 := by
  unfold applyEntry
  split
  · exact .refused nofun
  split
  · exact .refused nofun
  rename_i hsupported
  split
  · exact .refused nofun
  rename_i hauth
  split
  · split
    · split
      next howner heq => exact .held (by rw [howner, heq])
      · exact .refused nofun
    next hfree =>
      exact .assigned (by simpa using hsupported) (by simpa [isAuthenticated] using hauth) hfree
  · split
    · exact .released nofun ‹_›
    · exact .refused nofun
  · split
    next howner => exact .held (by simpa [isAssignedTo] using howner)
    · exact .refused nofun
  · exact .refused nofun

theorem owner_assign (t : AssignmentTable) (client : Address) (function f : TimFunctionId) :
    (t.assign function client).owner f =
      (t.owner f).or (if function = f then some client else none) := by
  change ((t.owners ++ [(function, client)]).find? (·.1 == f)).map (·.2) = _
  rw [find?_append, owner]
  cases t.owners.find? (·.1 == f) with
  | some e => rfl
  | none =>
    simp

theorem owner_retain_of_ne (hne : f ≠ function) :
    owner { t with owners := t.owners.filter (·.1 != function) } f = t.owner f := by
  rw [owner, find?_filter]
  congr 2
  funext e
  by_cases he : e.1 = f
  · simp [he, hne]
  · simp [he]

namespace Entry

variable {u : AssignmentTable} {status : AssignmentStatus}

section

variable (h : Entry t client function u status)
include h

theorem integrity (ht : t.Integrity) : u.Integrity := by
  cases h with
  | refused | held => exact ht
  | assigned hsupported hauth hfree => exact ht.assign hsupported hauth hfree
  | released => exact ht.retain _

/-- Another function stays where it is. -/
theorem owner_of_ne (hne : f ≠ function) : u.owner f = t.owner f := by
  cases h with
  | refused | held => rfl
  | assigned =>
    rw [owner_assign, if_neg hne.symm]
    cases t.owner f <;> rfl
  | released => exact owner_retain_of_ne hne

/-- What another client owns stays with it. -/
theorem respects (hne : a ≠ client) (howner : t.owner f = some a) : u.owner f = some a := by
  by_cases hf : f = function
  · subst hf
    cases h with
    | refused | held => exact howner
    | assigned _ _ hfree => exact absurd (howner.symm.trans hfree) nofun
    | released _ howner' => exact absurd (Option.some.inj (howner.symm.trans howner')) hne
  · rw [h.owner_of_ne hf, howner]

end

/-- A client that is told it has the function has it. -/
theorem owner_of_assigned (h : Entry t client function u .assignedToRequester) :
    u.owner function = some client := by
  cases h with
  | refused hstatus | released hstatus => exact absurd rfl hstatus
  | held howner => exact howner
  | assigned _ _ hfree => rw [owner_assign, hfree, if_pos rfl]; rfl

end Entry

variable {request : AssignmentRequest}

theorem Integrity.apply (h : t.Integrity) (client : Address) (request : AssignmentRequest) :
    (apply client request t).1.Integrity := by
  induction request generalizing t with
  | nil => exact h
  | cons e request ih => exact ih ((applyEntry_entry t client e.1 e.2).integrity h)

theorem apply_respects (hne : a ≠ client) (howner : t.owner f = some a) :
    (apply client request t).1.owner f = some a := by
  induction request generalizing t with
  | nil => exact howner
  | cons e request ih => exact ih ((applyEntry_entry t client e.1 e.2).respects hne howner)

/-- The answer is about the functions asked for, in their order. -/
theorem map_apply : (apply client request t).2.map (·.1) = request.map (·.1) := by
  induction request generalizing t with
  | nil => rfl
  | cons e request ih => exact congrArg (e.1 :: ·) ih

theorem apply_owner_of_notMem (hf : f ∉ request.map (·.1)) :
    (apply client request t).1.owner f = t.owner f := by
  induction request generalizing t with
  | nil => rfl
  | cons e request ih =>
    rw [map_cons, mem_cons, not_or] at hf
    exact (ih hf.2).trans ((applyEntry_entry t client e.1 e.2).owner_of_ne hf.1)

/-- **The last word on a function is true.** -/
theorem apply_answers {before after : AssignmentResponse} {reason : AssignmentReason}
    (h : (apply client request t).2 = before ++ (f, .assignedToRequester, reason) :: after)
    (hlast : f ∉ after.map (·.1)) : (apply client request t).1.owner f = some client := by
  induction request generalizing t before with
  | nil => cases before <;> cases h
  | cons e request ih =>
    cases before with
    | cons b before => exact ih (cons.inj h).2
    | nil =>
      obtain ⟨g, requestType⟩ := e
      obtain ⟨hhead, hrest⟩ := cons.inj h
      obtain rfl : g = f := (Prod.mk.inj hhead).1
      have hentry := applyEntry_entry t client g requestType
      rw [(Prod.mk.inj hhead).2] at hentry
      rw [← hrest, map_apply] at hlast
      exact (apply_owner_of_notMem hlast).trans hentry.owner_of_assigned

/-! ## Runs -/

theorem Integrity.step (h : t.Integrity) (op : AssignmentOp) : (t.step op).Integrity := by
  cases op with
  | apply request client => exact h.apply client request
  | noteClientStatus client => exact h.noteClientStatus client
  | noteClientHeartbeat client counter previous =>
    rw [AssignmentTable.step, noteClientHeartbeat]
    split
    · exact h.released client
    split
    · exact h.released client
    · exact h.noteClientStatus client
  | noteClientHeartbeatError client => exact h.released client
  | tick elapsedMs => exact h.tick elapsedMs
  | setAuthenticated client authenticated => exact h.setAuthenticated client authenticated
  | setBusy busy => exact { h with }
  | releaseAll client => exact h.retain _

/-- What one client gives up is not another's. -/
theorem mem_releaseAll (hne : a ≠ client) (h : (f, a) ∈ t.owners) : (f, a) ∈
    (t.releaseAll client).owners :=
  mem_filter.mpr ⟨h, by simpa using hne⟩

/-- **A function is lost on behalf of its owner, or when the owner has been
silent for too long.** -/
theorem Integrity.respects (h : t.Integrity) (op : AssignmentOp) (howner : t.owner f = some a) :
    (t.step op).owner f = some a ∨ op.client = some a ∨
      ∃ elapsedMs age, op = .tick elapsedMs ∧ (a, age) ∈ t.liveness ∧
        clientStatusTimeoutMs ≤ satAdd32 age elapsedMs := by
  have hstep := h.step op
  have hmem := (owner_eq_some h).mp howner
  rw [owner_eq_some hstep]
  by_cases hclient : op.client = some a
  · exact .inr (.inl hclient)
  have hne : ∀ client, op.client = some client → a ≠ client := by
    rintro client hop rfl
    exact hclient hop
  cases op with
  | apply request client =>
    left
    rw [← owner_eq_some hstep]
    exact apply_respects (hne client rfl) howner
  | noteClientStatus client | setBusy busy => exact .inl hmem
  | noteClientHeartbeat client counter previous =>
    left
    rw [AssignmentTable.step, noteClientHeartbeat]
    split
    · exact mem_releaseAll (hne client rfl) hmem
    split
    · exact mem_releaseAll (hne client rfl) hmem
    · exact hmem
  | noteClientHeartbeatError client | releaseAll client =>
    exact .inl (mem_releaseAll (hne client rfl) hmem)
  | tick elapsedMs =>
    by_cases hreleased : a ∈ (t.tick elapsedMs).2
    · obtain ⟨e, he, rfl⟩ := mem_map.mp hreleased
      obtain ⟨haged, hold⟩ := mem_filter.mp he
      obtain ⟨⟨b, age⟩, hage, rfl⟩ := mem_map.mp haged
      exact .inr (.inr ⟨elapsedMs, age, rfl, hage, by simpa using hold⟩)
    · refine .inl (mem_filter.mpr ⟨hmem, ?_⟩)
      change (!(t.tick elapsedMs).2.contains a) = true
      rw [contains_eq_mem, decide_eq_false hreleased]
      rfl
  | setAuthenticated client authenticated =>
    left
    rw [AssignmentTable.step, AssignmentTable.setAuthenticated]
    split
    · split <;> exact hmem
    · exact mem_releaseAll (hne client rfl) hmem

theorem integrity_new (supported : List TimFunctionId) : (new supported).Integrity :=
  ⟨nodup_nil, by simp [new], by simp [new], by simp [new], nodup_nil⟩

/-- **The table is sound in every state.** Its entries are in order, a
function is lost only on behalf of its owner or when the owner has been
silent for too long, and the last word of an answer on a function is
true. -/
theorem assignment_table_integrity (supported : List TimFunctionId) (ops : List AssignmentOp) :
    let t := Machbus.run step (new supported) ops
    t.Integrity ∧
      (∀ op f a, t.owner f = some a →
        (t.step op).owner f = some a ∨ op.client = some a ∨
          ∃ elapsedMs age, op = .tick elapsedMs ∧ (a, age) ∈ t.liveness ∧
            clientStatusTimeoutMs ≤ satAdd32 age elapsedMs) ∧
      ∀ request client f reason before after,
        (apply client request t).2 = before ++ (f, .assignedToRequester, reason) :: after →
          f ∉ after.map (·.1) → (apply client request t).1.owner f = some client := by
  have h : (Machbus.run step (new supported) ops).Integrity :=
    run_induction (integrity_new supported) (fun _ op h => h.step op) ops
  exact ⟨h, fun op f a => h.respects op, fun _ _ _ _ _ _ hanswer hlast =>
    apply_answers hanswer hlast⟩

end Machbus.Tim.AssignmentTable
