import Machbus.Common.Run
import Machbus.Niu.Model.Router
/-!
# Configured rules under remote control

A command message may add, delete and clear filter rules. Clearing spares
the persistent ones, and no message installs a rule for any PGN at all.
Deleting goes by the PGN alone: the first rule for it is taken out, a
persistent one too. `remote_control_iff` says that a sequence of messages
keeps the configured rules just when none of its deletions finds one.
-/

namespace Machbus.Niu

open List

variable {n : Niu} {msg : Message}

/-- The command in a message for this unit. -/
def command (msg : Message) : Option NiuNetworkMsg :=
  if msg.pgn ≠ pgnNiuNetworkMsg ∨ msg.hasUsableSource = false ∨ msg.destination = nullAddress ∨
      msg.destination = broadcastAddress then none
  else NiuNetworkMsg.decode msg.data

/-- A message for the unit. -/
def remote (n : Niu) (msg : Message) : Niu := (n.handleNiuMessage msg).1

/-- If the message deletes a rule, the first rule for its PGN is not a
persistent one. -/
def Spares (n : Niu) (msg : Message) : Prop :=
  ∀ m, command msg = some m → m.function = .deleteFilterEntry →
    ∀ rule, n.filters.find? (·.pgn == m.filterPgn) = some rule → rule.persistent = false

/-- The persistent rules. -/
def configured (n : Niu) : List FilterRule := n.filters.filter (·.persistent)

/-- The configured rules are still there, as they were and in their order. -/
def KeepsPersistent (n n' : Niu) : Prop := n.configured <+ n'.filters

/-- Rules for any PGN at all were there before. -/
def AddsNoWildcard (n n' : Niu) : Prop := n'.filters.filter (·.pgn == 0) <+ n.filters

/-- The edits of the rule list. -/
inductive Edit (n : Niu) (msg : Message) : List FilterRule → Prop
  | same : n.Spares msg → Edit n msg n.filters
  | added {rule : FilterRule} : n.Spares msg → rule.pgn ≠ 0 → rule.persistent = false →
      Edit n msg (n.filters ++ [rule])
  | deleted {m : NiuNetworkMsg} : command msg = some m → m.function = .deleteFilterEntry →
      Edit n msg (n.filters.eraseP (·.pgn == m.filterPgn))
  | cleared : n.Spares msg → Edit n msg (n.filters.filter (·.persistent))

theorem spares_of_function {m : NiuNetworkMsg} (hm : command msg = some m)
    (hne : m.function ≠ .deleteFilterEntry) : n.Spares msg := by
  intro m' hm' hdel
  rw [hm, Option.some.injEq] at hm'
  exact absurd (hm' ▸ hdel) hne

section

variable (n : Niu) (msg : Message)

theorem remote_eq : n.remote msg = (((command msg).bind n.obeyNiuMessage).map Prod.fst).getD n := by
  unfold remote handleNiuMessage command
  split
  · rw [if_pos (.inl ‹_›)]
    rfl
  split
  · rw [if_pos (.inr ‹_›)]
    rfl
  rw [if_neg (by tauto)]
  cases (NiuNetworkMsg.decode msg.data).bind n.obeyNiuMessage with
  | none => rfl
  | some r => rfl

/-- **What a message can do.** -/
theorem remote_edit : n.Edit msg (n.remote msg).filters := by
  rw [remote_eq]
  cases hm : command msg with
  | none => exact .same fun m h => by simp [hm] at h
  | some m =>
    simp only [Option.bind_some, obeyNiuMessage]
    split
    · have hs : n.Spares msg := spares_of_function hm (by simp_all)
      split
      · exact .same hs
      · exact .added hs ‹_› rfl
    · exact .deleted hm ‹_›
    · exact .cleared (spares_of_function hm (by simp_all))
    · exact .same (spares_of_function hm (by simp_all))
    · exact .same (spares_of_function hm ‹_›)

/-! ## What becomes of the configured rules -/

/-- A message that spares the configured rules leaves them as they are, any
other leaves fewer. -/
theorem configured_remote : (n.remote msg).configured = n.configured ∧ n.Spares msg ∨
      (n.remote msg).configured.length < n.configured.length ∧ ¬n.Spares msg := by
  have hedit := remote_edit n msg
  unfold configured
  generalize (n.remote msg).filters = rules at hedit ⊢
  cases hedit with
  | same hs => exact .inl ⟨rfl, hs⟩
  | added hs _ hp => exact .inl ⟨by simp [hp], hs⟩
  | cleared hs => exact .inl ⟨by simp, hs⟩
  | @deleted m hm hdel =>
    have hspares : n.Spares msg ↔
        ∀ rule, n.filters.find? (·.pgn == m.filterPgn) = some rule → rule.persistent = false := by
      simp [Spares, hm, hdel]
    rw [hspares]
    cases hfind : n.filters.find? (·.pgn == m.filterPgn) with
    | none => exact .inl ⟨by rw [eraseP_of_forall_not (find?_eq_none.mp hfind)], nofun⟩
    | some rule =>
      obtain ⟨hrule, front, back, hl, hfront⟩ := find?_eq_some_iff_append.mp hfind
      have herase : n.filters.eraseP (·.pgn == m.filterPgn) = front ++ back := by
        rw [hl, eraseP_append_right _ (by simpa using hfront)]
        simp_all
      rw [herase, hl]
      cases hp : rule.persistent with
      | false => exact .inl ⟨by simp [hp], by simpa using hp⟩
      | true => exact .inr ⟨by simp [hp], by simp [hp]⟩

theorem wildcards_remote : n.AddsNoWildcard (n.remote msg) := by
  have hedit := remote_edit n msg
  unfold AddsNoWildcard
  generalize (n.remote msg).filters = rules at hedit ⊢
  cases hedit with
  | same => exact filter_sublist
  | added _ hne => simp [hne]
  | cleared => exact filter_sublist.trans filter_sublist
  | deleted => exact filter_sublist.trans eraseP_sublist

end

theorem length_configured_run (n : Niu) (msgs : List Message) :
    (run remote n msgs).configured.length ≤ n.configured.length := by
  refine run_induction (I := fun s : Niu => s.configured.length ≤ n.configured.length)
    le_rfl ?_ msgs
  intro s msg hs
  rcases configured_remote s msg with ⟨heq, -⟩ | ⟨hlt, -⟩
  · exact heq ▸ hs
  · omega

theorem keepsPersistent_run_iff (n : Niu) (msgs : List Message) :
    n.KeepsPersistent (run remote n msgs) ↔ Along remote Spares n msgs := by
  induction msgs generalizing n with
  | nil => exact iff_of_true filter_sublist trivial
  | cons msg msgs ih =>
    rcases configured_remote n msg with ⟨heq, hs⟩ | ⟨hlt, hs⟩
    · rw [Along, and_iff_right hs, ← ih, KeepsPersistent, KeepsPersistent, heq, run_cons]
    · -- what is lost does not come back: no message makes a rule persistent
      refine iff_of_false (fun hkept => ?_) fun h => hs h.1
      have hback : n.configured <+ (run remote n (msg :: msgs)).configured := by
        simpa [configured] using hkept.filter (·.persistent)
      have hfew := length_configured_run (n.remote msg) msgs
      have hmany := hback.length_le
      rw [run_cons] at hmany
      omega

/-- **What a sequence of messages leaves.** The configured rules are all
kept just when each deletion spares them; a rule for any PGN at all is
never added. -/
theorem remote_control_iff (n : Niu) (msgs : List Message) :
    n.KeepsPersistent (run remote n msgs) ∧ n.AddsNoWildcard (run remote n msgs) ↔
      Along remote Spares n msgs := by
  rw [keepsPersistent_run_iff, and_iff_left]
  refine run_induction (I := n.AddsNoWildcard) filter_sublist (fun s msg hs => ?_) msgs
  have h := ((wildcards_remote s msg).filter fun rule : FilterRule => rule.pgn == 0).trans hs
  simpa [AddsNoWildcard] using h

/-- One deletion takes a persistent rule out. -/
theorem remote_delete_persistent :
    let n : Niu := { config := {}, filters := [⟨0xFE49, .block, true, none, none, 0, none, true⟩] }
    let msg : Message := .withAddressing pgnNiuNetworkMsg [3, 0, 0x49, 0xFE, 0, 0xFF, 0xFF, 0xFF]
      0x30 0x20 .default
    (run remote n [msg]).filters = [] ∧ ¬n.KeepsPersistent (run remote n [msg]) := by
  unfold KeepsPersistent
  decide

end Machbus.Niu
