import Machbus.Sc.Helpers.Master
/-!
# Sequence control — no step runs unattended

While a step runs with its acknowledgement on record, enough clients have
told that they play it back, since it was given to them, and have told so
not longer ago than a client may be silent.
-/

namespace Machbus.Sc.SCMaster

open OrderedMap Finset

/-! ## What has been reported -/

/-- The master once these inputs have reached it. -/
def after (config : SCMasterConfig) (inputs : List MasterInput) : SCMaster :=
  run receive (new config) inputs

/-- A step is given to the clients, or given to them again. -/
def Dispatches (m : SCMaster) (i : MasterInput) : Prop :=
  (m.receive i).state = .active ∧
    (m.state ≠ .active ∨ (m.receive i).currentStepIndex ≠ m.currentStepIndex)

/-- The input is an accepted status of this client. -/
def StatusOf (a : Address) (i : MasterInput) : Prop :=
  ∃ msg s, i = .status msg ∧ decodeClientStatus msg = .ok s ∧ s.source = a

/-- **A client plays the step back.** Its latest status said so, for the
step of this number, no step has been given since, and so much time has
passed. -/
inductive Reported (config : SCMasterConfig) : List MasterInput → Address → UInt8 → ℕ → Prop
  | report {inputs msg s} : decodeClientStatus msg = .ok s → s.state = .enabled →
      s.sequence = .playBack → (after config inputs).state = .active →
      s.number = (after config inputs).currentSequenceNumber →
      Reported config (inputs ++ [.status msg]) s.source s.number 0
  | ages {inputs a number age} (elapsedMs : ℕ) : Reported config inputs a number age →
      Reported config (inputs ++ [.call (.update elapsedMs)]) a number (age + elapsedMs)
  | later {inputs a number age i} : Reported config inputs a number age → ¬StatusOf a i →
      ¬(after config inputs).Dispatches i → (∀ elapsedMs, i ≠ .call (.update elapsedMs)) →
      Reported config (inputs ++ [i]) a number age

/-! ## What an input can do -/

variable {m m' : SCMaster} {elapsedMs : ℕ} {s : ClientStatus} {config : SCMasterConfig}
  {inputs : List MasterInput} {i : MasterInput} {a : Address} {age : ℕ}

/-- **What a status can do to the step that is running.** -/
inductive Answers (m : SCMaster) (s : ClientStatus) (m' : SCMaster) : Prop
  | leaves : m'.state ≠ .active → Answers m s m'
  | clears : m'.activeAckClients = ∅ → m'.clientAckReceived = false → Answers m s m'
  | acks : m.state = .active → s.mapped = .active → s.number = m.currentSequenceNumber →
      Keeps { m with
        clientSeen := m.clientSeen.insert s.source ⟨0, s.sequence⟩
        activeAckClients := insert s.source m.activeAckClients
        clientAckReceived := m.clientAckReceived ||
          decide (m.config.required ≤ (insert s.source m.activeAckClients).card) } m' →
      Answers m s m'
  | lapses : m.state = .active →
      Keeps { m with
        clientSeen := (m.noteSeen s).clientSeen
        activeAckClients := m.activeAckClients.erase s.source
        clientAckReceived := m.clientAckReceived && !decide (s.source ∈ m.activeAckClients ∧
          (m.activeAckClients.erase s.source).card < m.config.required) } m' →
      Answers m s m'

/-- A status that reaches a running step and does not abort it. -/
theorem answers_of_active (hm : m.state = .active) :
    Answers m s (((((m.noteSeen s).noteUnready s).noteLapse s).noteReady s).noteAck s) := by
  have hseen : (m.noteSeen s).state = .active := hm
  have hunready : (m.noteSeen s).noteUnready s = m.noteSeen s :=
    if_neg fun h => absurd (h.1.symm.trans hseen) nofun
  have hlapse : ∀ m₁ : SCMaster, m₁.state = .active → (m₁.noteLapse s).state = .active := by
    intro m₁ h₁
    unfold noteLapse
    split <;> exact h₁
  have hready : ∀ m₁ : SCMaster, m₁.state = .active → m₁.noteReady s = m₁ := fun m₁ h₁ =>
    if_neg fun h => absurd (h.1.symm.trans h₁) nofun
  rw [hunready, hready _ (hlapse _ hseen)]
  by_cases hack : s.mapped = .active ∧ s.number = m.currentSequenceNumber
  · have hnot : (m.noteSeen s).noteLapse s = m.noteSeen s :=
      if_neg fun h => h.2.elim (fun h => h hack.1) fun h => h hack.2
    rw [hnot]
    unfold noteAck
    rw [if_pos ⟨hseen, hack⟩]
    obtain ⟨henabled, -⟩ := mapped_eq_active hack.1
    dsimp only
    split
    case isTrue hrequired =>
      refine .acks hm hack.1 hack.2 ⟨rfl, rfl, rfl, rfl, rfl, ?_, if_pos henabled, rfl⟩
      simpa using .inr hrequired
    case isFalse hrequired =>
      refine .acks hm hack.1 hack.2 ⟨rfl, rfl, rfl, rfl, rfl, ?_, if_pos henabled, rfl⟩
      change ¬m.config.required ≤ (insert s.source m.activeAckClients).card at hrequired
      change m.clientAckReceived = (m.clientAckReceived || decide _)
      rw [decide_eq_false hrequired, Bool.or_false]
  · have hlapses : s.mapped ≠ .active ∨ s.number ≠ m.currentSequenceNumber := by
      rwa [not_and_or] at hack
    unfold noteAck
    rw [if_neg]
    · unfold noteLapse
      rw [if_pos ⟨hseen, hlapses⟩]
      refine .lapses hm ⟨rfl, rfl, rfl, rfl, rfl, ?_, rfl, rfl⟩
      change (if s.source ∈ m.activeAckClients ∧
        (m.activeAckClients.erase s.source).card < m.config.required then false
        else m.clientAckReceived) = (m.clientAckReceived && !decide _)
      split
      case isTrue hlost => rw [decide_eq_true hlost, Bool.not_true, Bool.and_false]
      case isFalse hlost => rw [decide_eq_false hlost, Bool.not_false, Bool.and_true]
    · rintro ⟨-, hmapped, hnumber⟩
      refine hack ⟨hmapped, hnumber.trans ?_⟩
      unfold noteLapse
      split <;> rfl

theorem answers_of_not_active (hm : m.state ≠ .active) :
    Answers m s (((((m.noteSeen s).noteUnready s).noteLapse s).noteReady s).noteAck s) := by
  have hunready : ((m.noteSeen s).noteUnready s).state ≠ .active := by
    unfold noteUnready
    split <;> exact hm
  have hlapse : ((m.noteSeen s).noteUnready s).noteLapse s = (m.noteSeen s).noteUnready s :=
    if_neg fun h => hunready h.1
  rw [hlapse]
  unfold noteReady
  split
  case isTrue hready =>
    have hnoAck : ∀ m₂ : SCMaster, m₂.noteAck s = m₂ := fun m₂ =>
      if_neg fun h => absurd (h.2.1.symm.trans hready.2) nofun
    rw [hnoAck]
    dsimp only
    split
    · exact .clears (by simp [transition, hready.1]) (by simp [transition, hready.1])
    · exact .leaves hunready
  case isFalse =>
    rw [noteAck, if_neg fun h => hunready h.1]
    exact .leaves hunready

theorem handleStatus_answers : Answers m s (m.handleStatus s) := by
  unfold handleStatus
  dsimp only
  split
  · exact .leaves (by simp [transition_state])
  split
  case isTrue herror =>
    rcases (@noteAbort_config (m.noteSeen s) s).2 with hstate | hstate
    · exact .leaves (by rw [hstate, herror]; nofun)
    · exact .leaves (by rw [hstate]; nofun)
  case isFalse =>
    by_cases hm : m.state = .active
    · exact answers_of_active hm
    · exact answers_of_not_active hm

/-! ## Attendance -/

/-- **What a running step rests on**, with the inputs that led to it. -/
structure Attended (config : SCMasterConfig) (inputs : List MasterInput) (m : SCMaster) : Prop where
  acks : m.state = .active → m.clientAckReceived = true →
    m.config.required ≤ m.activeAckClients.card
  reports : m.state = .active → ∀ a ∈ m.activeAckClients, ∃ age,
    m.clientSeen.get a = some ⟨age, .playBack⟩ ∧ age < m.config.activeTimeoutMs.toNat ∧
      Reported config inputs a m.currentSequenceNumber age

theorem Keeps.number (h : Keeps m m') : m'.currentSequenceNumber = m.currentSequenceNumber := by
  rw [currentSequenceNumber, currentStep, h.steps, h.index]
  rfl

/-- A step that goes on is not given again. -/
theorem Keeps.not_dispatches (h : Keeps m (m.receive i)) : ¬m.Dispatches i := by
  rintro ⟨hactive, hother⟩
  rcases hother with hother | hother
  · exact hother (h.state.symm.trans hactive)
  · exact hother h.index

theorem attended_of_not_active (h : m.state ≠ .active) : Attended config inputs m :=
  ⟨fun hm => absurd hm h, fun hm => absurd hm h⟩

theorem attended_of_clear (hacks : m.activeAckClients = ∅)
    (hreceived : m.clientAckReceived = false) : Attended config inputs m :=
  ⟨fun _ h => absurd (hreceived.symm.trans h) nofun, fun _ a ha => by simp [hacks] at ha⟩

/-- An input that tells nothing new, and changes nothing. -/
theorem Attended.keeps (h : Attended config inputs (after config inputs))
    (hk : Keeps (after config inputs) ((after config inputs).receive i))
    (hstatus : ∀ a, ¬StatusOf a i) (hupdate : ∀ elapsedMs, i ≠ .call (.update elapsedMs)) :
    Attended config (inputs ++ [i]) ((after config inputs).receive i) := by
  constructor
  · intro hm hreceived
    rw [hk.config, hk.acks]
    exact h.acks (hk.state.symm.trans hm) (hk.received.symm.trans hreceived)
  · intro hm a ha
    obtain ⟨age, hseen, hage, hreport⟩ := h.reports (hk.state.symm.trans hm) a (hk.acks ▸ ha)
    refine ⟨age, hk.seen ▸ hseen, hk.config ▸ hage, ?_⟩
    rw [hk.number]
    exact .later hreport (hstatus a) hk.not_dispatches hupdate

/-- Time passes, and nobody has been silent for too long. -/
theorem Attended.ages (h : Attended config inputs m) (ha : Ages m elapsedMs m') :
    Attended config (inputs ++ [.call (.update elapsedMs)]) m' := by
  constructor
  · intro hm hreceived
    rw [ha.config, ha.acks]
    exact h.acks (ha.state.symm.trans hm) (ha.received.symm.trans hreceived)
  · intro hm a hack
    obtain ⟨age, hseen, -, hreport⟩ := h.reports (ha.state.symm.trans hm) a (ha.acks ▸ hack)
    have hget : m'.clientSeen.get a = some ⟨satAdd32 age elapsedMs, .playBack⟩ := by
      rw [ha.seen, aged, get_mapValues, hseen]
      rfl
    have hfresh := ha.fresh _ (mem_of_get hget)
    have hlimit : satAdd32 age elapsedMs < m'.config.activeTimeoutMs.toNat :=
      Nat.lt_of_not_le (of_decide_eq_false hfresh)
    -- below the limit the counter has not reached its end
    have hcounted : satAdd32 age elapsedMs = age + elapsedMs := by
      have := toNat_le_u32Max m'.config.activeTimeoutMs
      unfold satAdd32 at hlimit ⊢
      omega
    rw [hcounted] at hget hlimit
    exact ⟨age + elapsedMs, hget, hlimit, ha.number ▸ .ages elapsedMs hreport⟩

/-- A client of the running step reports, and the others are as before. -/
theorem Attended.answers {msg : Message} (h : Attended config inputs (after config inputs))
    (hlimit : 0 < (after config inputs).config.activeTimeoutMs.toNat)
    (hd : decodeClientStatus msg = .ok s) (hm' : (after config inputs).receive (.status msg) = m')
    (ha : Answers (after config inputs) s m') : Attended config (inputs ++ [.status msg]) m' := by
  have hother : ∀ {a}, a ≠ s.source → ¬StatusOf a (.status msg) := by
    rintro a hne ⟨msg', s', heq, hd', rfl⟩
    cases heq
    exact hne (congrArg ClientStatus.source (Except.ok.inj (hd'.symm.trans hd)))
  have hgoes (hm : (after config inputs).state = .active)
      (hindex : m'.currentStepIndex = (after config inputs).currentStepIndex) :
      ¬(after config inputs).Dispatches (.status msg) := by
    rintro ⟨-, hne | hne⟩
    · exact hne hm
    · exact hne (hm' ▸ hindex)
  cases ha with
  | leaves hstate => exact attended_of_not_active hstate
  | clears hacks hreceived => exact attended_of_clear hacks hreceived
  | acks hm hmapped hnumber hk =>
    obtain ⟨henabled, hsequence⟩ := mapped_eq_active hmapped
    constructor
    · intro _ hreceived
      rw [hk.config, hk.acks]
      rw [hk.received, Bool.or_eq_true, decide_eq_true_eq] at hreceived
      rcases hreceived with hreceived | hrequired
      · exact (h.acks hm hreceived).trans (card_le_card (subset_insert _ _))
      · exact hrequired
    · intro _ a hack
      rw [hk.acks, mem_insert] at hack
      rw [hk.seen, hk.config, hk.number, get_insert]
      by_cases hsource : a = s.source
      · subst hsource
        refine ⟨0, ?_, hlimit, ?_⟩
        · rw [if_pos rfl, hsequence]
        · change Reported config _ s.source (after config inputs).currentSequenceNumber 0
          rw [← hnumber]
          exact .report hd henabled hsequence hm hnumber
      · obtain ⟨age, hseen, hage, hreport⟩ := h.reports hm a (hack.resolve_left hsource)
        rw [if_neg hsource]
        exact ⟨age, hseen, hage, .later hreport (hother hsource) (hgoes hm hk.index) nofun⟩
  | lapses hm hk =>
    constructor
    · intro _ hreceived
      rw [hk.config, hk.acks]
      rw [hk.received, Bool.and_eq_true, Bool.not_eq_true', decide_eq_false_iff_not,
        not_and, not_lt] at hreceived
      by_cases hmem : s.source ∈ (after config inputs).activeAckClients
      · exact hreceived.2 hmem
      · rw [erase_eq_of_notMem hmem]
        exact h.acks hm hreceived.1
    · intro _ a hack
      rw [hk.acks, mem_erase] at hack
      obtain ⟨age, hseen, hage, hreport⟩ := h.reports hm a hack.2
      have hget : m'.clientSeen.get a = (after config inputs).clientSeen.get a := by
        rw [hk.seen]
        unfold noteSeen
        split
        · rw [get_insert, if_neg hack.1]
        · rw [get_remove, if_neg hack.1]
      refine ⟨age, hget.trans hseen, hk.config ▸ hage, ?_⟩
      rw [hk.number]
      exact .later hreport (hother hack.1) (hgoes hm hk.index) nofun

/-! ## Runs -/

theorem handleClientStatus_of_error {msg : Message} {e : Error}
    (h : decodeClientStatus msg = .error e) : m.handleClientStatus msg = m := by
  simp only [handleClientStatus, tryHandleClientStatus, h]
  rfl

theorem receive_config : (m.receive i).config = m.config := by
  cases i with
  | call a =>
    obtain ⟨elapsedMs, h⟩ := m.act_follows a
    exact h.config
  | status msg =>
    change (m.handleClientStatus msg).config = m.config
    cases hd : decodeClientStatus msg with
    | error e => rw [handleClientStatus_of_error hd]
    | ok s => rw [handleClientStatus_of_ok hd, handleStatus_config]

/-- **Whatever reaches the master**, a running step stays attended. -/
theorem Attended.receive (h : Attended config inputs (after config inputs))
    (hlimit : 0 < (after config inputs).config.activeTimeoutMs.toNat) (i : MasterInput) :
    Attended config (inputs ++ [i]) ((after config inputs).receive i) := by
  cases i with
  | status msg =>
    cases hd : decodeClientStatus msg with
    | error e =>
      refine h.keeps ?_ ?_ nofun
      · change Keeps _ (handleClientStatus _ msg)
        rw [handleClientStatus_of_error hd]
        exact .refl _
      · rintro a ⟨msg', s, heq, hs, -⟩
        cases heq
        nomatch hd.symm.trans hs
    | ok s =>
      have hreceive : (after config inputs).receive (.status msg)
          = (after config inputs).handleStatus s := handleClientStatus_of_ok hd
      rw [hreceive]
      exact h.answers hlimit hd hreceive handleStatus_answers
  | call a =>
    by_cases hupdate : ∃ elapsedMs, a = .update elapsedMs
    · obtain ⟨elapsedMs, rfl⟩ := hupdate
      by_cases hm : ((after config inputs).update elapsedMs).1.state = .active
      · exact h.ages (update_passes.runs hm)
      · exact attended_of_not_active hm
    · have hother : ∀ elapsedMs, a ≠ .update elapsedMs := fun elapsedMs heq =>
        hupdate ⟨elapsedMs, heq⟩
      cases @act_interrupts (after config inputs) a hother with
      | leaves hstate => exact attended_of_not_active hstate
      | clears hacks hreceived => exact attended_of_clear hacks hreceived
      | keeps hk =>
        exact h.keeps hk (by rintro b ⟨msg, s, heq, -⟩; nomatch heq)
          fun elapsedMs heq => hother elapsedMs (MasterInput.call.inj heq)

theorem attended_after (hlimit : 0 < config.activeTimeoutMs.toNat) (inputs : List MasterInput) :
    (after config inputs).config = config ∧ Attended config inputs (after config inputs) := by
  induction inputs using List.reverseRecOn with
  | nil => exact ⟨rfl, attended_of_not_active nofun⟩
  | append_singleton inputs i ih =>
    obtain ⟨hconfig, ih⟩ := ih
    rw [show after config (inputs ++ [i]) = (after config inputs).receive i from
      run_concat SCMaster.receive _ inputs i]
    exact ⟨receive_config.trans hconfig, ih.receive (by rwa [hconfig]) i⟩

/-- **No step runs unattended.** While a step runs with its acknowledgement
on record, as many clients as are required have reported since it was
given that they play it back, and none of them longer ago than it may be
silent. -/
theorem attended_step (config : SCMasterConfig) (hlimit : 0 < config.activeTimeoutMs.toNat)
    (inputs : List MasterInput) :
    (after config inputs).state = .active → (after config inputs).clientAckReceived = true →
      ∃ clients : Finset Address, config.required ≤ clients.card ∧ ∀ a ∈ clients, ∃ age,
        Reported config inputs a (after config inputs).currentSequenceNumber age ∧
          age < config.limitFor .playBack := by
  intro hm hreceived
  obtain ⟨hconfig, h⟩ := attended_after hlimit inputs
  refine ⟨(after config inputs).activeAckClients, ?_, fun a ha => ?_⟩
  · have hacks := h.acks hm hreceived
    rwa [hconfig] at hacks
  · obtain ⟨age, -, hage, hreport⟩ := h.reports hm a ha
    rw [hconfig] at hage
    exact ⟨age, hreport, hage⟩

/-- A status of the client at 0x20, which is enabled. -/
def statusFrom (sequence : SCSequenceState) (number : UInt8) : MasterInput :=
  .status (.withAddressing pgnScClientStatus
    [scMsgCodeClient, 1, number, sequence.asU8, 0, 0xFF, 0xFF, 0xFF] 0x20 broadcastAddress .default)

/-- The client plays the step back, and time passes. -/
theorem attended_step_one_client :
    let inputs := [.call (.addStep { stepId := 1 }), .call .start, statusFrom .ready 0xFF,
      statusFrom .playBack 1, .call (.update 100)]
    (after {} inputs).state = .active ∧ (after {} inputs).clientAckReceived = true ∧
      ∃ clients : Finset Address, SCMasterConfig.required {} ≤ clients.card ∧ ∀ a ∈ clients, ∃ age,
        Reported {} inputs a (after {} inputs).currentSequenceNumber age ∧
          age < SCMasterConfig.limitFor {} .playBack :=
  ⟨by decide +kernel, by decide +kernel,
    attended_step {} (by decide) _ (by decide +kernel) (by decide +kernel)⟩

/-- **With a limit of zero no report is younger than the limit**, and the
acknowledgement is on record until the next update. -/
theorem unattended_without_limit :
    let config : SCMasterConfig := { activeTimeoutMs := 0 }
    let inputs := [.call (.addStep { stepId := 1 }), .call .start, statusFrom .ready 0xFF,
      statusFrom .playBack 1]
    (after config inputs).state = .active ∧ (after config inputs).clientAckReceived = true ∧
      ¬∃ clients : Finset Address, config.required ≤ clients.card ∧ ∀ a ∈ clients, ∃ age,
        Reported config inputs a (after config inputs).currentSequenceNumber age ∧
          age < config.limitFor .playBack := by
  refine ⟨by decide +kernel, by decide +kernel, ?_⟩
  rintro ⟨clients, hcard, hclients⟩
  obtain ⟨a, ha⟩ := card_pos.mp (Nat.lt_of_lt_of_le (by decide) hcard)
  obtain ⟨age, -, hage⟩ := hclients a ha
  exact Nat.not_lt_zero age hage

end Machbus.Sc.SCMaster
