import Machbus.Sc.Model.Client
/-!
# Sequence control — what the statuses say

A client that is sound sends statuses that a master accepts, and they say
whether it is in an abort. The master's statuses let a client out of an
abort only when they are not about an abort.
-/

namespace Machbus.Sc

open SCSequenceState

/-! ## Timers -/

/-- A configured number of milliseconds fits the counters. -/
theorem toNat_le_u32Max (n : UInt32) : n.toNat ≤ u32Max := Nat.le_of_lt_succ n.toNat_lt

/-- A sum within range is not cut off. -/
theorem le_satAdd32 {a b n : ℕ} (h : n ≤ a + b) (hn : n ≤ u32Max) : n ≤ satAdd32 a b := le_min h hn

/-! ## Status of the master -/

namespace MasterStatus

/-- The status lets a client out of an abort. -/
def releases (s : MasterStatus) : Bool := s.state != .active || s.sequence == .ready

end MasterStatus

/-- The fields are those of the bytes, and belong together. -/
theorem decodeMasterStatus_eq_ok {msg : Message} {s : MasterStatus}
    (h : decodeMasterStatus msg = .ok s) :
    SCMasterState.tryFromU8 (getU8 msg 1) = some s.state ∧
      tryFromU8 (getU8 msg 3) = some s.sequence ∧
      (s.state = .active → scStatusSequenceStateIsSupported s.sequence) ∧
      scStatusSequenceNumberIsValid s.sequence s.number := by
  obtain ⟨-, h⟩ := check_bind_eq_ok.mp h
  simp only [given_then_eq_ok, require_then_eq_ok] at h
  obtain ⟨state, hstate, -, sequence, hsequence, -, hsupported, hnumber, h⟩ := h
  cases h
  exact ⟨hstate, hsequence, hsupported, hnumber⟩

/-- The message lets a client out of an abort. -/
def releases (msg : Message) : Bool :=
  match decodeMasterStatus msg with
  | .ok s => s.releases
  | .error _ => false

/-- **A master in an abort releases nobody.** -/
theorem releases_of_error (x : Exchange) {m : SCMaster} (h : m.state = .error) :
    releases (x.masterStatus m.encodeMasterStatus) = false := by
  unfold releases
  cases hd : decodeMasterStatus (x.masterStatus m.encodeMasterStatus) with
  | error e => rfl
  | ok s =>
    obtain ⟨hstate, hsequence, -, -⟩ := decodeMasterStatus_eq_ok hd
    have hactive : m.isoMasterState = .active := by rw [SCMaster.isoMasterState, h]
    have hbytes : getU8 (x.masterStatus m.encodeMasterStatus) 1 = 1 ∧
        getU8 (x.masterStatus m.encodeMasterStatus) 3 = 5 := by
      simp [getU8, Exchange.masterStatus, Exchange.status, Message.withAddressing,
        SCMaster.encodeMasterStatus, hactive, h, SCMasterState.asU8, SCState.isoSequenceState, asU8]
    rw [hbytes.1] at hstate
    rw [hbytes.2] at hsequence
    have hs : .active = s.state := Option.some.inj hstate
    have hq : .abort = s.sequence := Option.some.inj hsequence
    simp [MasterStatus.releases, ← hs, ← hq]

/-! ## Status of the client -/

namespace SCClient

/-- What the client's statuses rest on. -/
structure Sound (c : SCClient) : Prop where
  state : c.state ≠ .complete
  step : c.currentStepId ≤ scMaxSequenceStepId

variable {c : SCClient} {r : SCClient × Option (List UInt8)}

/-- **A status says what the client is.** Nothing that a status tells is
changed by telling it. -/
structure Tells (c : SCClient) (r : SCClient × Option (List UInt8)) : Prop where
  state : r.1.state = c.state
  step : r.1.currentStepId = c.currentStepId
  config : r.1.config = c.config
  report : ∀ data ∈ r.2, data = c.encodeClientStatus

/-- A report keeps the client sound. -/
theorem Tells.sound (h : Tells c r) (hc : c.Sound) : r.1.Sound :=
  ⟨h.state ▸ hc.state, h.step ▸ hc.step⟩

/-- Saying nothing tells nothing wrong. -/
theorem silent_tells : Tells c (c, none) := ⟨rfl, rfl, rfl, nofun⟩

/-- A report sent at once is the client as it is. -/
theorem encodeClientStatusNow_tells : Tells c c.encodeClientStatusNow :=
  ⟨rfl, rfl, rfl, fun _ h => (Option.mem_some.mp h).symm⟩

/-- So is one that may have to wait for the spacing. -/
theorem requestStatusSendInline_tells : Tells c c.requestStatusSendInline := by
  unfold requestStatusSendInline
  split
  · exact encodeClientStatusNow_tells
  · exact ⟨rfl, rfl, rfl, nofun⟩

/-- And one the timer sends. -/
theorem updateStatus_tells : Tells c c.updateStatus := by
  unfold updateStatus
  split
  · exact ⟨rfl, rfl, rfl, fun _ h => (Option.mem_some.mp h).symm⟩
  split
  · exact encodeClientStatusNow_tells
  · exact silent_tells

end SCClient

/-- A status that decodes is handled. -/
theorem SCMaster.handleClientStatus_of_ok {m : SCMaster} {s : ClientStatus} {msg : Message}
    (h : decodeClientStatus msg = .ok s) : m.handleClientStatus msg = m.handleStatus s := by
  simp only [handleClientStatus, tryHandleClientStatus, h]
  rfl

namespace Exchange

variable {x : Exchange} {c : SCClient}

/-- The client's status, as the master reads it. -/
def reported (x : Exchange) (c : SCClient) : ClientStatus :=
  { source := x.client
    state := c.isoClientState
    sequence := if c.isoClientState = .disabled then .notApplicable else c.state.isoSequenceState
    number := getU8 (x.clientStatus c.encodeClientStatus) 2 }

/-- A report passes the checks on its envelope. -/
theorem checkEnvelope_clientStatus :
    checkEnvelope (x.clientStatus c.encodeClientStatus) pgnScClientStatus scMsgCodeClient
      "SC client status must be exactly 8 bytes" "SC client status has wrong message code"
      = .ok () := by
  have hsource : (x.clientStatus c.encodeClientStatus).hasUsableSource := by
    simp [Message.hasUsableSource, clientStatus, status, Message.withAddressing,
      x.client_ne_null, x.client_ne_broadcast]
  have hdestination : (x.clientStatus c.encodeClientStatus).hasValidDestinationForPgn := by
    change (broadcastAddress != nullAddress &&
      (!decide (240 ≤ (pgnScClientStatus >>> 8) &&& 0xFF) ||
      broadcastAddress == broadcastAddress)) = true
    decide
  simp only [checkEnvelope, require_then_eq_ok, require_eq_ok]
  exact ⟨rfl, hsource, hdestination, rfl, rfl⟩

/-- The number of a step that a client was given is one that it may
report. -/
theorem reported_number_valid (hc : c.Sound) :
    scStatusSequenceNumberIsValid (x.reported c).sequence (x.reported c).number := by
  have hstep : (UInt8.ofNat (c.currentStepId % 256)).toNat ≤ scMaxSequenceStepId := by
    have := hc.step
    simp only [UInt8.toNat_ofNat'] at this ⊢
    omega
  cases hs : c.state <;>
    simp_all [reported, SCClient.isoClientState, SCState.isoSequenceState, getU8, clientStatus,
      status, Message.withAddressing, SCClient.encodeClientStatus, scStatusSequenceNumberIsValid]

/-- **The master accepts every status of a sound client.** -/
theorem decodeClientStatus_reported (hc : c.Sound) :
    decodeClientStatus (x.clientStatus c.encodeClientStatus) = .ok (x.reported c) := by
  have hsound := hc.state
  have hstate : SCClientState.tryFromU8 (getU8 (x.clientStatus c.encodeClientStatus) 1)
      = some (x.reported c).state := by
    change SCClientState.tryFromU8 c.isoClientState.asU8 = some c.isoClientState
    cases c.isoClientState <;> rfl
  have hsequence : tryFromU8 (getU8 (x.clientStatus c.encodeClientStatus) 3)
      = some (x.reported c).sequence := by
    change tryFromU8 (if c.isoClientState = .disabled then _ else _)
      = some (if c.isoClientState = .disabled then _ else _)
    split
    · rfl
    · cases c.state <;> rfl
  have hfields : (x.reported c).state ≠ .initialization ∧
      scClientFuncErrorByteIsValid (getU8 (x.clientStatus c.encodeClientStatus) 4) ∧
      ((x.reported c).state = .enabled ∨
        scInactiveStatusSequenceFieldsAreValid (x.reported c).sequence (x.reported c).number) ∧
      ((x.reported c).state = .enabled →
        scStatusSequenceStateIsSupported (x.reported c).sequence) := by
    cases hs : c.state <;>
      simp_all [reported, SCClient.isoClientState, SCState.isoSequenceState, getU8, clientStatus,
        status, Message.withAddressing, SCClient.encodeClientStatus, scClientFuncErrorByteIsValid,
        scInactiveStatusSequenceFieldsAreValid, scStatusSequenceStateIsSupported]
  obtain ⟨hinit, herror, hinactive, hsupported⟩ := hfields
  refine check_bind_eq_ok.mpr ⟨checkEnvelope_clientStatus, ?_⟩
  simp only [given_then_eq_ok, require_then_eq_ok]
  exact ⟨_, hstate, hinit, herror, _, hsequence, hinactive, hsupported,
    reported_number_valid hc, rfl⟩

/-- A client reports an error if it is in one. -/
theorem mapped_reported : (x.reported c).mapped = .error ↔ c.state = .error := by
  cases hs : c.state <;>
    simp_all [reported, ClientStatus.mapped, SCClient.isoClientState, SCState.isoSequenceState]

end Exchange

/-!
## What can happen to a master

Once for the calls, for the passing of time and for a client's status:
what each leaves as it was, what it does to the step that is running, and
what becomes of the clients that have been heard of.
-/

namespace SCMaster

variable {m m₁ m' : SCMaster} {elapsedMs : ℕ} {s : ClientStatus} {send : Option (List UInt8)}

/-- Nothing changes that a running step rests on. -/
structure Keeps (m m' : SCMaster) : Prop where
  state : m'.state = m.state
  config : m'.config = m.config
  steps : m'.steps = m.steps
  index : m'.currentStepIndex = m.currentStepIndex
  acks : m'.activeAckClients = m.activeAckClients
  received : m'.clientAckReceived = m.clientAckReceived
  seen : m'.clientSeen = m.clientSeen
  aborts : (m'.abortConfirmed, m'.abortSeen) = (m.abortConfirmed, m.abortSeen)

/-- **What becomes of an abort**: an abort that starts has been seen by
nobody. -/
structure Aborts (m m' : SCMaster) : Prop where
  confirmed : m'.abortConfirmed = m.abortConfirmed ∨ m'.abortConfirmed = ∅
  abortSeen : m'.state = .error →
    m'.abortSeen = ∅ ∨ m.state = .error ∧ m'.abortSeen = m.abortSeen

/-- The clients that have been heard of stay. -/
structure Moves (m m' : SCMaster) : Prop extends Aborts m m' where
  config : m'.config = m.config
  seen : m'.clientSeen = m.clientSeen

/-- Doing nothing keeps everything. -/
theorem Keeps.refl (m : SCMaster) : Keeps m m := ⟨rfl, rfl, rfl, rfl, rfl, rfl, rfl, rfl⟩

/-- The books of an abort that are left alone. -/
theorem Aborts.of_eq (hstate : m'.state = m.state)
    (h : (m'.abortConfirmed, m'.abortSeen) = (m.abortConfirmed, m.abortSeen)) : Aborts m m' :=
  ⟨.inl (congrArg Prod.fst h), fun herror => .inr ⟨hstate ▸ herror, congrArg Prod.snd h⟩⟩

theorem Aborts.trans (h : Aborts m m₁) (h' : Aborts m₁ m') : Aborts m m' := by
  constructor
  · rcases h'.confirmed with hc | hc
    · rw [hc]
      exact h.confirmed
    · exact .inr hc
  · intro herror
    rcases h'.abortSeen herror with hnone | ⟨herror₁, hsame⟩
    · exact .inl hnone
    · rw [hsame]
      exact h.abortSeen herror₁

/-- What keeps the state moves nothing. -/
theorem Keeps.moves (h : Keeps m m') : Moves m m' := ⟨.of_eq h.state h.aborts, h.config, h.seen⟩

theorem Moves.trans (h : Moves m m₁) (h' : Moves m₁ m') : Moves m m' :=
  ⟨h.toAborts.trans h'.toAborts, h'.config.trans h.config, h'.seen.trans h.seen⟩

/-! ## Transitions -/

/-- A transition goes where it says. -/
theorem transition_state (new : SCState) : (m.transition new).state = new := by
  unfold transition
  split
  · assumption
  · split <;> rfl

/-- **A transition.** An abort that starts has been seen by nobody. -/
theorem transition_moves (new : SCState) : Moves m (m.transition new) := by
  unfold transition
  split
  · exact (Keeps.refl m).moves
  split
  · exact ⟨⟨.inr rfl, fun _ => .inl rfl⟩, rfl, rfl⟩
  next hnew => exact ⟨⟨.inl rfl, fun h => absurd h hnew⟩, rfl, rfl⟩

theorem timeOut_state : m.timeOut.1.state = .error := transition_state .error

/-- A transition, and timers besides. -/
theorem Moves.of_transition {new : SCState} (hstate : m'.state = new)
    (h : (m'.abortConfirmed, m'.abortSeen, m'.config, m'.clientSeen) =
      ((m.transition new).abortConfirmed, (m.transition new).abortSeen,
        (m.transition new).config, (m.transition new).clientSeen)) : Moves m m' := by
  simp only [Prod.mk.injEq] at h
  have hmoves := @transition_moves m new
  exact hmoves.trans
    ⟨.of_eq (hstate.trans (transition_state new).symm) (by simp [h]), h.2.2.1, h.2.2.2⟩

theorem timeOut_moves : Moves m m.timeOut.1 := .of_transition timeOut_state rfl

/-- A call that ends in a transition. -/
theorem Moves.transition (h : Moves m m₁) (new : SCState) : Moves m (m₁.transition new) :=
  h.trans (transition_moves new)

/-! ## Calls -/

/-- What a call can do to the step that is running. -/
inductive Interrupts (m m' : SCMaster) : Prop
  | leaves : m'.state ≠ .active → Moves m m' → Interrupts m m'
  | clears : m'.activeAckClients = ∅ → m'.clientAckReceived = false → Moves m m' → Interrupts m m'
  | keeps : Keeps m m' → Interrupts m m'

/-- No interruption forgets a client. -/
theorem Interrupts.moves (h : Interrupts m m') : Moves m m' := by
  cases h with
  | leaves _ h | clears _ _ h => exact h
  | keeps h => exact h.moves

/-- The call moved the state, over what else it changed. -/
theorem Interrupts.transition {new : SCState} (h : Moves m m₁) (hnew : new ≠ .active) :
    Interrupts m (m₁.transition new) :=
  .leaves (by rwa [transition_state]) (h.transition new)

/-- Every call of the application but `update` is one. -/
theorem act_interrupts {a : MasterAct} (ha : ∀ elapsedMs, a ≠ .update elapsedMs) :
    Interrupts m (m.act a).1 := by
  have hcalled : ∀ {r : Except Error SCMaster}, (∀ m', r = .ok m' → Interrupts m m') →
      Interrupts m (m.called r) := by
    intro r h
    cases r with
    | error e => exact .keeps (.refl m)
    | ok m' => exact h m' rfl
  cases a with
  | addStep step =>
    refine hcalled fun m' h => ?_
    simp only [SCMaster.addStep, require_then_eq_ok] at h
    obtain ⟨hidle, -, -, h⟩ := h
    cases h
    exact .leaves (by simp [hidle]) ⟨.of_eq rfl rfl, rfl, rfl⟩
  | start =>
    refine hcalled fun m' h => ?_
    obtain ⟨-, h⟩ := require_then_eq_ok.mp h
    obtain ⟨-, h⟩ := require_then_eq_ok.mp h
    cases h
    exact .transition ⟨.of_eq rfl rfl, rfl, rfl⟩ nofun
  | abort =>
    refine hcalled fun m' h => ?_
    obtain ⟨-, h⟩ := require_then_eq_ok.mp h
    cases h
    exact .leaves (by simp [transition_state]) (.of_transition (transition_state .error) rfl)
  | pause =>
    refine hcalled fun m' h => ?_
    obtain ⟨-, h⟩ := require_then_eq_ok.mp h
    cases h
    exact .transition (Keeps.refl m).moves nofun
  | resume =>
    refine hcalled fun m' h => ?_
    obtain ⟨hpaused, h⟩ := require_then_eq_ok.mp h
    cases h
    refine .clears ?_ ?_ (.transition ?_ _)
    · simp [SCMaster.transition, hpaused]
    · simp [SCMaster.transition, hpaused]
    · exact ⟨.of_eq rfl rfl, rfl, rfl⟩
  | stepCompleted stepId =>
    refine hcalled fun m' h => ?_
    obtain ⟨-, h⟩ := require_then_eq_ok.mp h
    obtain ⟨current, -, h⟩ := given_then_eq_ok.mp h
    obtain ⟨-, h⟩ := require_then_eq_ok.mp h
    dsimp only at h
    split at h
    · cases h
      exact .transition ⟨.of_eq rfl rfl, rfl, rfl⟩ nofun
    · cases h
      exact .clears rfl rfl ⟨.of_eq rfl rfl, rfl, rfl⟩
  | setBusyNvMemory busy | setBusyParsingScd busy =>
    exact .keeps ⟨rfl, rfl, rfl, rfl, rfl, rfl, rfl, rfl⟩
  | update elapsedMs => exact absurd rfl (ha elapsedMs)

/-! ## Time -/

/-- The clients that have been heard of grow older. -/
def aged (m : SCMaster) (elapsedMs : ℕ) : OrderedMap Address ClientLiveness :=
  m.clientSeen.mapValues fun seen => { seen with ageMs := satAdd32 seen.ageMs elapsedMs }

/-- **What time can do to the step that is running.** If it goes on, no
client has been silent for too long. -/
structure Ages (m : SCMaster) (elapsedMs : ℕ) (m' : SCMaster) : Prop
    extends Keeps { m with clientSeen := m.aged elapsedMs } m' where
  fresh : ∀ e ∈ m'.clientSeen, m'.expired e.2 = false

/-- **What any call can do.** The clients that have been heard of stay, or
those that are left grow older. -/
structure Follows (m : SCMaster) (elapsedMs : ℕ) (m' : SCMaster) : Prop extends Aborts m m' where
  config : m'.config = m.config
  seen : m'.clientSeen = m.clientSeen ∨ ∃ kept, m'.clientSeen = (m.aged elapsedMs).filter kept

/-- What moves no client makes none older. -/
theorem Moves.follows (h : Moves m m') : Follows m elapsedMs m' :=
  ⟨h.toAborts, h.config, .inl h.seen⟩

/-- **What time can do.** -/
structure Passes (m : SCMaster) (elapsedMs : ℕ) (m' : SCMaster) : Prop
    extends Follows m elapsedMs m' where
  runs : m'.state = .active → Ages m elapsedMs m'

/-- Sending its status leaves the master where it is. -/
theorem updateStatus_keeps : Keeps m (m.updateStatus elapsedMs).1 := by
  unfold updateStatus
  dsimp only
  generalize (if m.state = .idle ∨ m.state = .complete then _ else _) = interval
  split <;> exact ⟨rfl, rfl, rfl, rfl, rfl, rfl, rfl, rfl⟩

/-- The timers leave it where it is, or it times out. -/
theorem updateTimers_keeps : Moves m (m.updateTimers elapsedMs send).1 ∧
      ((m.updateTimers elapsedMs send).1.state = .error ∨
        Keeps m (m.updateTimers elapsedMs send).1) := by
  have htimed : ∀ {m₁ : SCMaster} {c : Prop} [Decidable c], Keeps m m₁ →
      let m' := (if c then m₁.timeOut else (m₁, send)).1
      Moves m m' ∧ (m'.state = .error ∨ Keeps m m') := by
    intro m₁ c _ h
    dsimp only
    split
    · exact ⟨h.moves.trans timeOut_moves, .inl timeOut_state⟩
    · exact ⟨h.moves, .inr h⟩
  unfold updateTimers
  split
  · exact htimed ⟨rfl, rfl, rfl, rfl, rfl, rfl, rfl, rfl⟩
  · split
    · exact ⟨(Keeps.refl m).moves, .inr (.refl m)⟩
    · exact htimed ⟨rfl, rfl, rfl, rfl, rfl, rfl, rfl, rfl⟩
  · exact ⟨(Keeps.refl m).moves, .inr (.refl m)⟩

/-- The watch over the clients makes them older, or gives up. -/
theorem updateSeen_passes : Passes m elapsedMs (m.updateSeen elapsedMs send).1 := by
  unfold updateSeen
  dsimp only
  split
  case isTrue =>
    refine ⟨⟨.trans ?_ timeOut_moves.toAborts, timeOut_moves.config,
      .inr ⟨_, timeOut_moves.seen⟩⟩, fun h => ?_⟩
    · exact .of_eq rfl rfl
    · rw [timeOut_state] at h
      nomatch h
  case isFalse hfresh =>
    refine ⟨⟨.of_eq rfl rfl, rfl, .inr ⟨fun _ => true, (List.filter_true _).symm⟩⟩, fun h => ?_⟩
    refine ⟨⟨rfl, rfl, rfl, rfl, rfl, rfl, rfl, rfl⟩, fun e he => ?_⟩
    have hne : m.state ≠ .error := by
      rw [show m.state = .active from h]
      nofun
    have hnone := fun hany => hfresh ⟨hany, hne⟩
    rw [List.any_eq_true] at hnone
    exact Bool.eq_false_iff.mpr fun hexpired => hnone ⟨e, he, hexpired⟩

/-- Time passes for a master that went on, or that gave up meanwhile. -/
theorem Passes.after (h : Passes m₁ elapsedMs m') (hmoves : Moves m m₁)
    (hgoes : m₁.state = .error ∨ Keeps m m₁) : Passes m elapsedMs m' := by
  refine ⟨⟨hmoves.toAborts.trans h.toAborts, h.config.trans hmoves.config, ?_⟩, fun hactive => ?_⟩
  · rw [aged, ← hmoves.seen]
    exact h.seen
  · have hages := h.runs hactive
    rcases hgoes with herror | hkeeps
    · exact absurd (herror.symm.trans (hages.state.symm.trans hactive)) nofun
    · exact ⟨⟨hages.state.trans hkeeps.state, hages.config.trans hkeeps.config,
        hages.steps.trans hkeeps.steps, hages.index.trans hkeeps.index,
        hages.acks.trans hkeeps.acks, hages.received.trans hkeeps.received,
        hages.seen.trans (by simp only [aged, hkeeps.seen]),
        hages.aborts.trans hkeeps.aborts⟩, hages.fresh⟩

/-- Time that changes nothing has passed. -/
theorem Keeps.passes (h : Keeps m m') (hm : m.state ≠ .active) : Passes m elapsedMs m' :=
  ⟨h.moves.follows, fun hm' => absurd (h.state.symm.trans hm') hm⟩

/-- **Time passes**, for the master and for the clients it has heard of. -/
theorem update_passes : Passes m elapsedMs (m.update elapsedMs).1 := by
  have hstatus := @updateStatus_keeps m elapsedMs
  unfold update
  split
  case isTrue hidle => exact hstatus.passes fun h => by simp [h] at hidle
  case isFalse =>
    obtain ⟨htimers, hgoes⟩ := @updateTimers_keeps (m.updateStatus elapsedMs).1 elapsedMs
      (m.updateStatus elapsedMs).2
    refine .after ?_ hstatus.moves (.inr hstatus)
    split
    case isTrue => exact updateSeen_passes.after htimers hgoes
    case isFalse hidle =>
      rcases hgoes with herror | hkeeps
      · exact ⟨htimers.follows, fun h => absurd (herror.symm.trans h) nofun⟩
      · exact hkeeps.passes fun h => by simp [← hstatus.state, h] at hidle

/-- **Whatever the application calls.** -/
theorem act_follows (m : SCMaster) (a : MasterAct) :
    ∃ elapsedMs, Follows m elapsedMs (m.act a).1 := by
  by_cases hupdate : ∃ elapsedMs, a = .update elapsedMs
  · obtain ⟨elapsedMs, rfl⟩ := hupdate
    exact ⟨elapsedMs, update_passes.toFollows⟩
  · exact ⟨0, (act_interrupts fun elapsedMs heq => hupdate ⟨elapsedMs, heq⟩).moves.follows⟩

/-! ## Status of a client -/

/-- A client reports a running step when it plays back. -/
theorem mapped_eq_active (h : s.mapped = .active) :
    s.state = .enabled ∧ s.sequence = .playBack := by
  unfold ClientStatus.mapped at h
  cases hstate : s.state <;> cases hsequence : s.sequence <;> simp_all

/-- A status during an abort may end it. -/
theorem noteAbort_config : (m.noteAbort s).config = m.config ∧
    ((m.noteAbort s).state = m.state ∨ (m.noteAbort s).state = .ready) := by
  unfold noteAbort
  dsimp only
  generalize hm₁ : (if s.mapped = .error then _ else _ : SCMaster) = m₁
  have hkeeps : m₁.config = m.config ∧ m₁.state = m.state := by
    rw [← hm₁]
    split
    · exact ⟨rfl, rfl⟩
    · split <;> exact ⟨rfl, rfl⟩
  split
  · exact ⟨(transition_moves _).config.trans hkeeps.1, .inr (transition_state .ready)⟩
  · exact ⟨hkeeps.1, .inl hkeeps.2⟩

theorem noteUnready_moves : Moves m (m.noteUnready s) := by
  unfold noteUnready
  split <;> exact ⟨.of_eq rfl rfl, rfl, rfl⟩

theorem noteLapse_moves : Moves m (m.noteLapse s) := by
  unfold noteLapse
  split <;> exact ⟨.of_eq rfl rfl, rfl, rfl⟩

theorem noteReady_moves : Moves m (m.noteReady s) := by
  unfold noteReady
  split
  · dsimp only
    split
    · refine .transition ?_ _
      exact ⟨.of_eq rfl rfl, rfl, rfl⟩
    · exact ⟨.of_eq rfl rfl, rfl, rfl⟩
  · exact (Keeps.refl m).moves

theorem noteAck_moves : Moves m (m.noteAck s) := by
  unfold noteAck
  split
  · dsimp only
    split <;> exact ⟨.of_eq rfl rfl, rfl, rfl⟩
  · exact (Keeps.refl m).moves

/-- Outside an abort a status moves the state at most. -/
theorem handleStatus_moves (hm : m.state ≠ .error) : Moves (m.noteSeen s) (m.handleStatus s) := by
  unfold handleStatus
  dsimp only
  split
  · exact .of_transition (transition_state .error) rfl
  · rw [if_neg (show (m.noteSeen s).state ≠ .error from hm)]
    exact ((noteUnready_moves.trans noteLapse_moves).trans noteReady_moves).trans noteAck_moves

/-- No status changes the configuration. -/
theorem handleStatus_config : (m.handleStatus s).config = m.config := by
  by_cases hm : m.state = .error
  · have hseen : (m.noteSeen s).state = .error := hm
    unfold handleStatus
    rw [if_neg (by simp [hseen]), if_pos hseen]
    exact noteAbort_config.1
  · exact (handleStatus_moves hm).config

end SCMaster

end Machbus.Sc
