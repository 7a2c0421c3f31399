import Mathlib.Data.List.Basic
/-!
# Two parties over a link

Two state machines that answer each other's messages, with a queue in
either direction. A schedule decides when the oldest message of a queue
is delivered and when a party acts on its own; the order within a queue
is kept and nothing is lost. `Link.At` says where the whole link stands,
and there is one lemma for each kind of action.
-/

namespace Machbus

/-- What two parties do with messages and actions: the new state and the
messages sent. -/
structure Parties (S T M α β : Type*) where
  recvLeft : S → M → S × List M
  recvRight : T → M → T × List M
  actLeft : S → α → S × List M
  actRight : T → β → T × List M

/-- Both parties, what is under way between them, and everything either
of them has sent so far. -/
structure Link (S T M : Type*) where
  left : S
  right : T
  toRight : List M
  toLeft : List M
  log : List M

/-- What a schedule can choose. -/
inductive LinkAct (α β : Type*)
  | deliverLeft
  | deliverRight
  | left (x : α)
  | right (x : β)

namespace Link

variable {S T M α β : Type*} (parties : Parties S T M α β)

/-- One choice of the schedule. Delivering from an empty queue does
nothing. -/
def step (l : Link S T M) : LinkAct α β → Link S T M
  | .deliverLeft =>
    match l.toLeft with
    | [] => l
    | m :: ms =>
      let r := parties.recvLeft l.left m
      { l with left := r.1, toLeft := ms, toRight := l.toRight ++ r.2, log := l.log ++ r.2 }
  | .deliverRight =>
    match l.toRight with
    | [] => l
    | m :: ms =>
      let r := parties.recvRight l.right m
      { l with right := r.1, toRight := ms, toLeft := l.toLeft ++ r.2, log := l.log ++ r.2 }
  | .left x =>
    let r := parties.actLeft l.left x
    { l with left := r.1, toRight := l.toRight ++ r.2, log := l.log ++ r.2 }
  | .right x =>
    let r := parties.actRight l.right x
    { l with right := r.1, toLeft := l.toLeft ++ r.2, log := l.log ++ r.2 }

section Step

variable {parties} {l : Link S T M} {a : S} {b : T} {m : M} {ms sent : List M}

theorem step_deliverRight (hm : l.toRight = m :: ms)
    (hr : parties.recvRight l.right m = (b, sent)) :
    step parties l .deliverRight
      = { l with right := b, toRight := ms, toLeft := l.toLeft ++ sent, log := l.log ++ sent } := by
  simp [step, hm, hr]

theorem step_deliverLeft (hm : l.toLeft = m :: ms) (hr : parties.recvLeft l.left m = (a, sent)) :
    step parties l .deliverLeft
      = { l with left := a, toLeft := ms, toRight := l.toRight ++ sent, log := l.log ++ sent } := by
  simp [step, hm, hr]

theorem step_deliverRight_nil (hm : l.toRight = []) : step parties l .deliverRight = l := by
  rw [step, hm]

theorem step_deliverLeft_nil (hm : l.toLeft = []) : step parties l .deliverLeft = l := by
  rw [step, hm]

theorem step_left {x : α} (hr : parties.actLeft l.left x = (a, sent)) : step parties l (.left x)
      = { l with left := a, toRight := l.toRight ++ sent, log := l.log ++ sent } := by
  simp [step, hr]

theorem step_right {x : β} (hr : parties.actRight l.right x = (b, sent)) : step parties l (.right x)
      = { l with right := b, toLeft := l.toLeft ++ sent, log := l.log ++ sent } := by
  simp [step, hr]

end Step

/-- What a schedule may do when either party restricts its own actions. -/
def Allowed (okLeft : S → α → Prop) (okRight : T → β → Prop) (l : Link S T M) : LinkAct α β → Prop
  | .left x => okLeft l.left x
  | .right x => okRight l.right x
  | _ => True

/-- **Where the link stands**, and that everything sent so far is
good. -/
structure At (good : M → Prop) (a : S) (b : T) (ab ba : List M) (l : Link S T M) : Prop where
  left : l.left = a
  right : l.right = b
  toRight : l.toRight = ab
  toLeft : l.toLeft = ba
  log : ∀ m ∈ l.log, good m

namespace At

variable {parties} {good : M → Prop} {a a' : S} {b b' : T} {ab ba ms : List M} {m : M}
  {l : Link S T M}

theorem log_append (h : At good a b ab ba l) (hms : ∀ m ∈ ms, good m) : ∀ m ∈ l.log ++ ms, good m :=
  List.forall_mem_append.mpr ⟨h.log, hms⟩

theorem deliverRight (h : At good a b (m :: ab) ba l) (hr : parties.recvRight b m = (b', ms))
    (hms : ∀ m ∈ ms, good m) : At good a b' ab (ba ++ ms) (step parties l .deliverRight) := by
  obtain ⟨rfl, rfl, hab, rfl, -⟩ := id h
  rw [step_deliverRight hab hr]
  exact ⟨rfl, rfl, rfl, rfl, h.log_append hms⟩

theorem deliverRight_nil (h : At good a b [] ba l) :
    At good a b [] ba (step parties l .deliverRight) := by
  rw [step_deliverRight_nil h.toRight]
  exact h

theorem deliverLeft (h : At good a b ab (m :: ba) l) (hr : parties.recvLeft a m = (a', ms))
    (hms : ∀ m ∈ ms, good m) : At good a' b (ab ++ ms) ba (step parties l .deliverLeft) := by
  obtain ⟨rfl, rfl, rfl, hba, -⟩ := id h
  rw [step_deliverLeft hba hr]
  exact ⟨rfl, rfl, rfl, rfl, h.log_append hms⟩

theorem deliverLeft_nil (h : At good a b ab [] l) :
    At good a b ab [] (step parties l .deliverLeft) := by
  rw [step_deliverLeft_nil h.toLeft]
  exact h

variable (h : At good a b ab ba l)
include h

theorem actLeft {x : α} (hr : parties.actLeft a x = (a', ms))
    (hms : ∀ m ∈ ms, good m) : At good a' b (ab ++ ms) ba (step parties l (.left x)) := by
  obtain ⟨rfl, rfl, rfl, rfl, -⟩ := id h
  rw [step_left hr]
  exact ⟨rfl, rfl, rfl, rfl, h.log_append hms⟩

/-- An action that sends nothing. -/
theorem actLeft_silent {x : α} (hr : parties.actLeft a x = (a', [])) :
    At good a' b ab ba (step parties l (.left x)) := by
  simpa using h.actLeft hr (by simp)

theorem actRight_silent {x : β}
    (hr : parties.actRight b x = (b', [])) : At good a b' ab ba (step parties l (.right x)) := by
  obtain ⟨rfl, rfl, rfl, rfl, -⟩ := id h
  rw [step_right hr]
  exact ⟨rfl, rfl, rfl, List.append_nil _, h.log_append (by simp)⟩

end At

end Link

end Machbus
