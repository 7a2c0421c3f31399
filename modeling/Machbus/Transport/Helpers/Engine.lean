import Mathlib.Data.Multiset.Filter
import Machbus.Common.Table
import Machbus.Transport.Model.Session
/-!
# Helpers — engines over a table of sessions

The two engines keep their sessions in a table and serve all ports with
it. What frames and other calls do to a table is said for both alike, and
`SessionEngine` is what they have in common. An engine that deals with
a frame as it would with the sessions the frame may find (`StaysWithin`)
shows a port nothing but its own messages: `heardOn` is what the port sees.
-/

namespace Machbus

open List TransportSession

namespace TransportSession

variable {p : UInt8} {s : TransportSession} {l : List TransportSession}

/-- The session receives a message on the port. -/
def heardOn (p : UInt8) (s : TransportSession) : Bool := s.direction == .receive && s.canPort == p

theorem heardOn_iff : s.heardOn p = true ↔ s.direction = .receive ∧ s.canPort = p := by
  simp [heardOn]

/-- A session of the port that does not receive transmits. -/
theorem transmit_of_not_heardOn (hport : s.canPort = p) (h : s.heardOn p = false) :
    s.direction = .transmit := by
  cases hdir : s.direction with
  | transmit => rfl
  | receive =>
    rw [heardOn, hdir, hport] at h
    simp at h

theorem heardOn_of_path {s' : TransportSession} (h : s'.path = s.path) :
    s'.heardOn p = s.heardOn p := by
  have hdir : s'.direction = s.direction := congrArg Prod.fst h
  have hport : s'.canPort = s.canPort := congrArg (fun q : Path => q.2.2.2) h
  rw [heardOn, heardOn, hdir, hport]

/-! ## Tables -/

/-- What leaves receive sessions alone leaves those of a port alone. -/
theorem filter_map_heardOn {f : TransportSession → TransportSession}
    (hf : ∀ s, (f s).path = s.path) (hrx : ∀ s, s.direction = .receive → f s = s) : (l.map f).filter
    (heardOn p) = l.filter (heardOn p) := by
  rw [filter_map]
  have hcomp : heardOn p ∘ f = heardOn p := funext fun s => heardOn_of_path (hf s)
  rw [hcomp]
  refine (map_congr_left fun s hs => ?_).trans (map_id _)
  exact hrx s (heardOn_iff.mp (mem_filter.mp hs).2).1

/-- A teardown on another port. -/
theorem filter_teardown_heardOn {q : UInt8} (hq : q ≠ p) (cut : TransportSession → Bool) :
    (l.filter fun s => s.canPort != q || cut s).filter (heardOn p) = l.filter (heardOn p) := by
  rw [filter_filter]
  refine filter_congr fun s _ => ?_
  cases hs : heardOn p s with
  | false => rfl
  | true =>
    have hne : s.canPort ≠ q := fun h => hq (h.symm.trans (heardOn_iff.mp hs).2)
    simp [hne]

end TransportSession

/-! ## What a frame does to a table -/

/-- **What an incoming frame can do to a table of sessions** and to the
list of those completed. `opening` is what opens one. -/
inductive TableStep (opening : Prop) (port : UInt8) (l done : List TransportSession) :
    List TransportSession → List TransportSession → Prop
  | keeps : TableStep opening port l done l done
  | opens {base : List TransportSession} {s : TransportSession} (hopening : opening)
      (hbase : ∀ x ∈ base, x ∈ l) {a b : Address} (hpath : s.path = (.receive, a, b, port)) :
      TableStep opening port l done (base ++ [s]) done
  | rewrites {l₁ l₂ : List TransportSession} {s s' : TransportSession} (hl : l = l₁ ++ s :: l₂)
      (hpath : s'.path = s.path) : TableStep opening port l done (l₁ ++ s' :: l₂) done
  | removes {l₁ l₂ : List TransportSession} {s : TransportSession} (hl : l = l₁ ++ s :: l₂) :
      TableStep opening port l done (l₁ ++ lastFirst l₂) done
  | completes {l₁ l₂ : List TransportSession} {s s' : TransportSession} (hl : l = l₁ ++ s :: l₂)
      {d : TransportDirection} {a b : Address} (hport : s.path = (d, a, b, port))
      (hpath : s'.path = s.path) :
      TableStep opening port l done (l₁ ++ lastFirst l₂) (done ++ [s'])

namespace TableStep

variable {opening : Prop} {port p : UInt8} {l l' done done' : List TransportSession}

/-- What holds of every path in the table, and of one that is opened,
holds of every path in the table left and of those completed. -/
theorem forall_path (h : TableStep opening port l done l' done') {P : Path → Prop}
    (hopen : opening → ∀ a b, P (.receive, a, b, port)) (hall : ∀ s ∈ l, P s.path) :
    (∀ s ∈ l', P s.path) ∧ ∃ new, done' = done ++ new ∧ ∀ s ∈ new, P s.path := by
  have hnone : ∃ new, done = done ++ new ∧ ∀ s ∈ new, P s.path := ⟨[], (append_nil _).symm, nofun⟩
  cases h with
  | keeps => exact ⟨hall, hnone⟩
  | opens hopening hbase hpath =>
    refine ⟨forall_mem_append.mpr ⟨fun x hx => hall x (hbase x hx), ?_⟩, hnone⟩
    rw [forall_mem_singleton, hpath]
    exact hopen hopening _ _
  | rewrites hl hpath =>
    subst hl
    refine ⟨fun x hx => ?_, hnone⟩
    rcases mem_replace hx with hx | rfl
    · exact hall x (mem_of_mem_remove hx)
    · rw [hpath]
      exact hall _ (by simp)
  | removes hl =>
    subst hl
    exact ⟨fun x hx => hall x (mem_of_mem_remove hx), hnone⟩
  | completes hl hport hpath =>
    subst hl
    refine ⟨fun x hx => hall x (mem_of_mem_remove hx), _, rfl, ?_⟩
    rw [forall_mem_singleton, hpath]
    exact hall _ (by simp)

/-- What a frame completes is a session of its port. -/
theorem completed (h : TableStep opening port l done l' done') :
    ∃ new, done' = done ++ new ∧ ∀ s ∈ new, s.canPort = port := by
  cases h with
  | completes hl hport hpath =>
    refine ⟨_, rfl, ?_⟩
    rw [forall_mem_singleton]
    exact congrArg (fun q : Path => q.2.2.2) (hpath.trans hport)
  | _ => exact ⟨[], (append_nil _).symm, nofun⟩

variable {R : TransportSession → Bool} {m : List TransportSession}

/-- **A frame on another port** shows nowhere on this one: it deals with
the sessions `R`, which are of its port. -/
theorem heardOn_of_ne (h : TableStep opening port (l.filter R) [] m done) (hport : port ≠ p)
    (hR : ∀ s, R s = true → s.canPort = port) (hbeside : l'.Perm (l.filter (fun s => !R s) ++ m)) :
    (l'.filter (·.heardOn p)).Perm (l.filter (·.heardOn p)) := by
  have hm := (h.forall_path (P := fun q => q.2.2.2 = port) (fun _ _ _ => rfl)
    fun s hs => hR s (mem_filter.mp hs).2).1
  refine filter_perm_of_untouched hbeside ?_ ?_
  · intro s _ hmine
    by_contra hs
    have hp := hR s (by simpa using hs)
    exact hport (hp.symm.trans (heardOn_iff.mp hmine).2)
  · intro s hs
    by_contra hmine
    exact hport ((hm s hs).symm.trans (heardOn_iff.mp (by simpa using hmine)).2)

/-- **A frame on the port** does the same to tables that look the same to
it, if it can find at most one session in each; and it completes the same
messages. What it makes of the sessions it can find is `r`. -/
theorem heardOn_of_same {r : List TransportSession → List TransportSession × List TransportSession}
    {l₁ l₂ l₁' l₂' : List TransportSession} (hR : ∀ s, R s = true → s.canPort = p)
    (hopening : ∀ s, opening → R s = true → s.direction = .receive)
    (h : ∀ l, TableStep opening p l [] (r l).1 (r l).2)
    (h₁ : l₁'.Perm (l₁.filter (fun s => !R s) ++ (r (l₁.filter R)).1))
    (h₂ : l₂'.Perm (l₂.filter (fun s => !R s) ++ (r (l₂.filter R)).1))
    (hone₁ : (l₁.filter R).length ≤ 1) (hone₂ : (l₂.filter R).length ≤ 1)
    (hsame : (l₁.filter (·.heardOn p)).Perm (l₂.filter (·.heardOn p))) :
    (l₁'.filter (·.heardOn p)).Perm (l₂'.filter (·.heardOn p)) ∧
      (r (l₁.filter R)).2.filter (·.direction == .receive) =
        (r (l₂.filter R)).2.filter (·.direction == .receive) := by
  refine filter_perm_of_respond (fun x hx hmine l hl => ?_) h₁ h₂ hone₁ hone₂ hsame
  have htx : ∀ {y : TransportSession}, R y = true → y.heardOn p = false →
      y.direction = .transmit := fun hy hm => transmit_of_not_heardOn (hR _ hy) hm
  -- one that finds a transmit session opens nothing, and of those it makes transmit sessions
  obtain ⟨hs, new, hnew, hd⟩ := (h l).forall_path (P := fun q => q.1 = .transmit)
    (fun ho => absurd ((hopening x ho hx).symm.trans (htx hx hmine)) nofun)
    fun y hy => htx (hl y hy).1 (hl y hy).2
  rw [nil_append] at hnew
  refine ⟨filter_eq_nil_iff.mpr fun y hy => ?_, filter_eq_nil_iff.mpr fun y hy => ?_⟩
  · rw [heardOn, show y.direction = .transmit from hs y hy]
    simp
  · rw [show y.direction = .transmit from hd y (hnew ▸ hy)]
    decide

end TableStep

/-! ## What the other calls do -/

/-- No session can be opened on a path: one has it, or every slot is
taken. -/
def PathBlocked (slots : ℕ) (l : List TransportSession) (path : Path) : Prop :=
  (∃ s ∈ l, s.path = path) ∨ slots ≤ l.length

/-- **What a call other than a frame can do to a table.** -/
inductive CallStep (l : List TransportSession) : List TransportSession → Prop
  | keeps : CallStep l l
  | opens {s : TransportSession} {a b : Address} {port : UInt8}
      (hpath : s.path = (.transmit, a, b, port)) (hfree : ∀ x ∈ l, x.path ≠ s.path) :
      CallStep l (l ++ [s])
  /-- Sessions go or stay; for those that receive only time has passed. -/
  | passes {l' : List TransportSession} {v : TransportSession → Option TransportSession}
      (hpath : ∀ s s', v s = some s' → s'.path = s.path)
      (hrx : ∀ s s', v s = some s' → s.direction = .receive → ∃ ms, s' = { s with timerMs := ms })
      (hl : l'.Perm (l.filterMap v)) : CallStep l l'

namespace CallStep

variable {l l' : List TransportSession}

theorem keyNodup {g : Path → Bool} (h : CallStep l l')
    (hn : KeyNodup g path l) : KeyNodup g path l' := by
  cases h with
  | keeps => exact hn
  | opens _ hfree => exact hn.push fun _ => hfree
  | passes hpath _ hl => exact (hn.filterMap hpath).perm hl

/-- A receive session was there before, and has grown older at most. -/
theorem receive (h : CallStep l l') {x : TransportSession} (hx : x ∈ l')
    (hd : x.direction = .receive) : ∃ y ∈ l, ∃ ms, x = { y with timerMs := ms } := by
  cases h with
  | keeps => exact ⟨x, hx, x.timerMs, rfl⟩
  | opens hpath =>
    rcases mem_append.mp hx with hx | hx
    · exact ⟨x, hx, x.timerMs, rfl⟩
    · rw [mem_singleton.mp hx] at hd
      exact absurd (hd.symm.trans (congrArg Prod.fst hpath)) nofun
  | passes hpath hrx hl =>
    obtain ⟨y, hy, hyx⟩ := mem_filterMap.mp (hl.mem_iff.mp hx)
    have hdir : y.direction = .receive := (congrArg Prod.fst (hpath y x hyx)).symm.trans hd
    exact ⟨y, hy, hrx y x hyx hdir⟩

/-- The sessions that a map leaves on their paths, and a filter keeps. -/
theorem of_map {u : TransportSession → TransportSession} (hpath : ∀ s, (u s).path = s.path)
    (hrx : ∀ s, s.direction = .receive → u s = s) : CallStep l (l.map u) := by
  refine .passes (v := fun s => some (u s)) ?_ ?_ (.of_eq (congrFun filterMap_eq_map l).symm)
  · rintro s s' ⟨⟩
    exact hpath s
  · rintro s s' ⟨⟩ hd
    exact ⟨s.timerMs, hrx s hd⟩

theorem of_filter (c : TransportSession → Bool) : CallStep l (l.filter c) := by
  refine .passes (v := Option.guard c) ?_ ?_ (.of_eq (congrFun filterMap_eq_filter l).symm)
  · intro s s' h
    rw [(Option.guard_eq_some_iff.mp h).1]
  · intro s s' h _
    exact ⟨s.timerMs, (Option.guard_eq_some_iff.mp h).1.symm⟩

end CallStep

/-! ## Engines -/

open List

/-- An engine: its table, the messages it has completed, and the same
engine with another table and no past. -/
class SessionEngine (E : Type) where
  sessions : E → List TransportSession
  onComplete : E → List TransportSession
  fresh : E → List TransportSession → E
  sessions_fresh : ∀ t l, sessions (fresh t l) = l
  onComplete_fresh : ∀ t l, onComplete (fresh t l) = []
  fresh_fresh : ∀ t l l', fresh (fresh t l) l' = fresh t l'

namespace SessionEngine

variable {E : Type} [SessionEngine E] {t u t' u' : E} {R : TransportSession → Bool}
  {rest past : List TransportSession} {port p : UInt8}

/-! ## Side by side -/

/-- The engine with a part of its table and no past. -/
def only (t : E) (R : TransportSession → Bool) : E := fresh t ((sessions t).filter R)

/-- **Side by side.** The engine `t` has the table of `u` and the sessions
`rest` beside it, and had completed `past` before. -/
structure Beside (rest past : List TransportSession) (t u : E) : Prop where
  table : (sessions t).Perm (rest ++ sessions u)
  done : onComplete t = past ++ onComplete u

/-- **A change that stays with the sessions `R`**: made to these alone, it
leaves the others beside them. -/
def StaysWithin (t : E) (R : TransportSession → Bool) (change : E → E) : Prop :=
  Beside ((sessions t).filter fun s => !R s) (onComplete t) (change t) (change (only t R))

theorem beside_only (t : E) (R : TransportSession → Bool) : StaysWithin t R id where
  table := by
    rw [id, id, only, sessions_fresh]
    exact (filter_append_perm R (sessions t)).symm.trans perm_append_comm
  done := by
    rw [id, id, only, onComplete_fresh, append_nil]

/-- What moves neither table nor events. -/
theorem Beside.congr (h : Beside rest past t u) (hs : sessions t' = sessions t)
    (hc : onComplete t' = onComplete t) (hs' : sessions u' = sessions u)
    (hc' : onComplete u' = onComplete u) : Beside rest past t' u' :=
  ⟨by rw [hs, hs']; exact h.table, by rw [hc, hc']; exact h.done⟩

/-- What is short of a bound beside the others is so without them. -/
theorem Beside.length_lt (h : Beside rest past t u) {n : ℕ} (hn : (sessions t).length < n) :
    (sessions u).length < n := by
  have := h.table.length_eq
  rw [length_append] at this
  omega

/-- A session opened on both sides. -/
theorem Beside.push (h : Beside rest past t u) {s : TransportSession}
    (hs : sessions t' = sessions t ++ [s]) (hc : onComplete t' = onComplete t)
    (hs' : sessions u' = sessions u ++ [s]) (hc' : onComplete u' = onComplete u) :
    Beside rest past t' u' := by
  refine ⟨?_, by rw [hc, hc']; exact h.done⟩
  rw [hs, hs', ← append_assoc]
  exact h.table.append_right [s]

/-! ## What a port sees -/

/-- **What a port sees.** The configuration, and the messages that are
being received on the port, in no order. -/
def heardOn (p : UInt8) (t : E) : E × Multiset TransportSession :=
  (fresh t [], ↑((sessions t).filter (·.heardOn p)))

/-- Equal views, field by field. -/
theorem heardOn_eq_iff : heardOn p t = heardOn p u ↔ fresh t [] = fresh u [] ∧
    ((sessions t).filter (·.heardOn p)).Perm ((sessions u).filter (·.heardOn p)) :=
  Prod.ext_iff.trans (and_congr_right fun _ => Multiset.coe_eq_coe)

/-- **An engine that takes frames**, and what it does with one. -/
class FrameEngine (E : Type) extends SessionEngine E where
  processFrame : E → Frame → UInt8 → E
  mayFind : Frame → UInt8 → TransportSession → Bool
  Announces : Frame → Prop
  Room : E → Prop
  fresh_processFrame : ∀ t f port, fresh (processFrame t f port) [] = fresh t []
  tableStep : ∀ t f port, TableStep (Announces f) port (sessions t) (onComplete t)
    (sessions (processFrame t f port)) (onComplete (processFrame t f port))
  staysWithin : ∀ t f port, Room t → StaysWithin t (mayFind f port) fun t => processFrame t f port
  canPort_of_mayFind : ∀ f port s, mayFind f port s = true → s.canPort = port
  receive_of_mayFind : ∀ f port s, Announces f → mayFind f port s = true → s.direction = .receive

section Frames

variable {E : Type} [FrameEngine E] {t u : E} {f : Frame}

open FrameEngine

/-- What the engine makes of the sessions a frame can find. -/
theorem tableStep_fresh (t : E) (f : Frame) (port : UInt8) (l : List TransportSession) :
    TableStep (Announces E f) port l [] (sessions (processFrame (fresh t l) f port))
      (onComplete (processFrame (fresh t l) f port)) := by
  have h := tableStep (fresh t l) f port
  rw [sessions_fresh, onComplete_fresh] at h
  exact h

/-- A frame on another port shows nowhere on this one. -/
theorem heardOn_processFrame_of_ne (hport : port ≠ p) (hroom : Room t) :
    heardOn p (processFrame t f port) = heardOn p t := by
  rw [heardOn_eq_iff]
  exact ⟨fresh_processFrame t f port, (tableStep_fresh t f port _).heardOn_of_ne hport
    (canPort_of_mayFind f port) (staysWithin t f port hroom).table⟩

/-- **A frame on the port** does the same to two engines that look the same
to it, if it can find at most one session in each; and it completes the
same messages. -/
theorem heardOn_processFrame (h : heardOn p t = heardOn p u) (hroom : Room t) (hroom' : Room u)
    (hone : ((sessions t).filter (mayFind E f p)).length ≤ 1)
    (hone' : ((sessions u).filter (mayFind E f p)).length ≤ 1) :
    heardOn p (processFrame t f p) = heardOn p (processFrame u f p) ∧
      ∃ done done', onComplete (processFrame t f p) = onComplete t ++ done ∧
        onComplete (processFrame u f p) = onComplete u ++ done' ∧
        done.filter (·.direction == .receive) = done'.filter (·.direction == .receive) := by
  obtain ⟨hblank, hsame⟩ := heardOn_eq_iff.mp h
  have hbeside := staysWithin t f p hroom
  have hbeside' := staysWithin u f p hroom'
  have honly : only u (mayFind E f p) = fresh t ((sessions u).filter (mayFind E f p)) := by
    rw [only, ← fresh_fresh u [], ← hblank, fresh_fresh]
  rw [StaysWithin, honly] at hbeside'
  obtain ⟨hview, hdone⟩ := TableStep.heardOn_of_same
    (r := fun l => (sessions (processFrame (fresh t l) f p),
      onComplete (processFrame (fresh t l) f p)))
    (canPort_of_mayFind f p) (receive_of_mayFind f p) (tableStep_fresh t f p) hbeside.table
    hbeside'.table hone hone' hsame
  refine ⟨heardOn_eq_iff.mpr ⟨?_, hview⟩, _, _, hbeside.done, hbeside'.done, hdone⟩
  rw [fresh_processFrame, fresh_processFrame, hblank]

end Frames

/-! ## Other calls -/

/-- A call that deals with each session by itself. -/
theorem heardOn_passes {v : TransportSession → Option TransportSession}
    (hpath : ∀ s s', v s = some s' → s'.path = s.path) (h : heardOn p t = heardOn p u)
    (ht : fresh t' [] = fresh t []) (hu : fresh u' [] = fresh u [])
    (hs : (sessions t').Perm ((sessions t).filterMap v))
    (hs' : (sessions u').Perm ((sessions u).filterMap v)) : heardOn p t' = heardOn p u' := by
  obtain ⟨hblank, hsame⟩ := heardOn_eq_iff.mp h
  have hv : ∀ l : List TransportSession, (l.filterMap v).filter (·.heardOn p) =
      (l.filter (·.heardOn p)).filterMap v := fun l =>
    filter_filterMap_comm fun s s' hss' => TransportSession.heardOn_of_path (hpath s s' hss')
  rw [heardOn_eq_iff, ht, hu]
  refine ⟨hblank, (hs.filter _).trans (.trans ?_ (hs'.filter _).symm)⟩
  rw [hv, hv]
  exact hsame.filterMap v

/-- What leaves the receive sessions of the port where they are. -/
theorem heardOn_congr (ht : fresh t' [] = fresh t [])
    (hs : (sessions t').filter (·.heardOn p) = (sessions t).filter (·.heardOn p)) :
    heardOn p t' = heardOn p t :=
  heardOn_eq_iff.mpr ⟨ht, .of_eq hs⟩

/-- A session that transmits is not heard. -/
theorem heardOn_push {s : TransportSession} {a b : Address} {q : UInt8}
    (hpath : s.path = (.transmit, a, b, q)) (ht : fresh t' [] = fresh t [])
    (hs : sessions t' = sessions t ++ [s]) : heardOn p t' = heardOn p t := by
  have hdir : s.direction = .transmit := congrArg Prod.fst hpath
  have hnot : s.heardOn p = false := by simp [TransportSession.heardOn, hdir]
  refine heardOn_congr ht ?_
  rw [hs, filter_append, filter_singleton, hnot]
  simp

/-- A teardown on the port. -/
theorem heardOn_filter {c : TransportSession → Bool} (h : heardOn p t = heardOn p u)
    (ht : fresh t' [] = fresh t []) (hu : fresh u' [] = fresh u [])
    (hs : sessions t' = (sessions t).filter c) (hs' : sessions u' = (sessions u).filter c) :
    heardOn p t' = heardOn p u' := by
  obtain ⟨hblank, hsame⟩ := heardOn_eq_iff.mp h
  rw [heardOn_eq_iff, ht, hu, hs, hs', filter_comm, filter_comm (p := TransportSession.heardOn p)]
  exact ⟨hblank, hsame.filter c⟩

end SessionEngine

end Machbus
