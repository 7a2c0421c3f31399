import Machbus.Sc.Helpers.Master
/-!
# Sequence control — coming back from an abort

The master leaves an abort once the client has been seen in it and has
left it; the client leaves it once the master has. What brings them back
is a status from before the abort that is still under way to the client.
Where there is none and both are in the abort, they stay there: neither
says anything but that.
-/

namespace Machbus.Sc

open List SCClient Exchange Option Link OrderedMap

/-! ## The client -/

namespace SCClient

variable {c : SCClient} {elapsedMs : ℕ} {s : MasterStatus} {msg : Message}

/-- **A report is owed.** The client waits to tell what it has become, and
neither the master's silence nor a step that is held up has lasted for
longer than it waits. -/
structure Owing (c : SCClient) : Prop where
  pending : c.statusPending = true
  early : c.timeSinceLastStatusMs < c.config.minStatusSpacingMs.toNat
  master : c.masterStatusAgeMs ≤ c.timeSinceLastStatusMs
  busy : c.busyTimerMs ≤ c.timeSinceLastStatusMs

/-- The abort is the last that the client can have told. -/
def Unreported (c : SCClient) : Prop := c.state = .error ∨ c.Owing

/-- **What a client becomes, and tells.** It becomes `c₀`, and what it says
is what that is. Where the abort was the last it told, it says nothing
only if that is still so. -/
structure Becomes (c : SCClient) (r : SCClient × Option (List UInt8)) (c₀ : SCClient) : Prop
    extends Tells c₀ r where
  configured : c₀.config = c.config
  sound : c.Sound → c₀.Sound
  owed : c.Unreported → r.2 = none → r.1.Unreported

namespace Becomes

variable {c₀ : SCClient}

theorem silent : Becomes c (c, none) c := ⟨silent_tells, rfl, id, fun h _ => h⟩

/-- A client that speaks at once owes nothing. -/
theorem now (hconfig : c₀.config = c.config) (hsound : c.Sound → c₀.Sound) :
    Becomes c c₀.encodeClientStatusNow c₀ :=
  ⟨encodeClientStatusNow_tells, hconfig, hsound, fun _ h => nomatch h⟩

/-- One that would speak waits until it may. -/
theorem request (hconfig : c₀.config = c.config) (hsound : c.Sound → c₀.Sound)
    (howed : c.Unreported → c₀.state = .error ∨ c₀.masterStatusAgeMs ≤ c₀.timeSinceLastStatusMs ∧
      c₀.busyTimerMs ≤ c₀.timeSinceLastStatusMs) : Becomes c c₀.requestStatusSendInline c₀ := by
  refine ⟨requestStatusSendInline_tells, hconfig, hsound, fun h hsilent => ?_⟩
  refine (howed h).imp requestStatusSendInline_tells.state.trans fun ⟨hmaster, hbusy⟩ => ?_
  unfold requestStatusSendInline at hsilent ⊢
  split at hsilent
  case isTrue => cases hsilent
  case isFalse hearly =>
    rw [if_neg hearly]
    exact ⟨rfl, Nat.not_le.mp hearly, hmaster, hbusy⟩

/-- A status that is owed goes out once it may. -/
theorem status (hconfig : c₀.config = c.config) (hsound : c.Sound → c₀.Sound)
    (howed : c.Unreported → c₀.state = .error ∨ c₀.statusPending = true ∧
      c₀.masterStatusAgeMs ≤ c₀.timeSinceLastStatusMs ∧
      c₀.busyTimerMs ≤ c₀.timeSinceLastStatusMs) : Becomes c c₀.updateStatus c₀ := by
  refine ⟨updateStatus_tells, hconfig, hsound, fun h hsilent => ?_⟩
  refine (howed h).imp updateStatus_tells.state.trans fun ⟨hpending, hmaster, hbusy⟩ => ?_
  unfold updateStatus at hsilent ⊢
  split at hsilent
  case isTrue => cases hsilent
  case isFalse hearly =>
    rw [if_neg hearly]
    split at hsilent
    case isTrue => cases hsilent
    case isFalse hnone =>
      rw [if_neg hnone]
      exact ⟨hpending, Nat.not_le.mp fun h => hearly ⟨hpending, h⟩, hmaster, hbusy⟩

end Becomes

/-- A step that is held up for too long takes the client into an abort. -/
theorem updateBusy_becomes {c' : SCClient} (hconfig : c'.config = c.config)
    (hsound : c.Sound → c'.Sound)
    (howed : c.Unreported → c'.state = .error ∨ c'.statusPending = true ∧
      c'.masterStatusAgeMs ≤ c'.timeSinceLastStatusMs ∧
      satAdd32 c'.busyTimerMs elapsedMs ≤ c'.timeSinceLastStatusMs ∧
      c'.busyTimerMs ≤ c'.timeSinceLastStatusMs) :
    ∃ c₀, Becomes c (c'.updateBusy elapsedMs) c₀ ∧
      (c₀.state = c'.state ∨ c₀.state = .error) := by
  unfold updateBusy
  split
  · dsimp only
    split
    · exact ⟨_, .now hconfig fun h => ⟨nofun, (hsound h).step⟩, .inr rfl⟩
    · refine ⟨_, .status hconfig (fun h => ⟨(hsound h).state, (hsound h).step⟩) fun h => ?_,
      .inl rfl⟩
      exact (howed h).imp_right fun h => ⟨h.1, h.2.1, h.2.2.1⟩
  · exact ⟨_, .status hconfig hsound fun h => (howed h).imp_right fun h => ⟨h.1, h.2.1, h.2.2.2⟩,
      .inl rfl⟩

/-- **Time takes a client into an abort**, and nowhere else, and leaves a
report owed that it does not make due. -/
theorem update_becomes : ∃ c₀, Becomes c (c.update elapsedMs) c₀ ∧
    (c₀.state = c.state ∨ c₀.state = .error) := by
  have hmax := toNat_le_u32Max c.config.minStatusSpacingMs
  unfold update
  dsimp only
  split
  case isTrue =>
    refine updateBusy_becomes rfl (fun h => ⟨h.state, h.step⟩) fun h => h.imp_right fun h => ?_
    have ⟨hpending, hearly, hmaster, hbusy⟩ := h
    refine ⟨hpending, ?_, ?_, ?_⟩ <;> simp only [satAdd32] <;> omega
  case isFalse =>
    split
    · exact ⟨_, .now rfl fun _ => ⟨nofun, Nat.zero_le _⟩, .inr rfl⟩
    refine updateBusy_becomes rfl (fun h => ⟨h.state, h.step⟩) fun h => h.imp_right fun h => ?_
    have ⟨hpending, hearly, hmaster, hbusy⟩ := h
    refine ⟨hpending, ?_, ?_, ?_⟩ <;> simp only [satAdd32] <;> omega

theorem asked_ne_complete : c.asked s ≠ .complete := by
  unfold asked
  split
  · split
    · split <;> nofun
    all_goals nofun
  · nofun

/-- Only a status about something else than an abort asks for anything
else. -/
theorem asked_of_not_releases (h : s.releases = false)
    (hsupported : s.state = .active → scStatusSequenceStateIsSupported s.sequence) :
    c.asked s = .error ∨ c.asked s = .active := by
  simp only [MasterStatus.releases] at h
  rw [asked]
  cases hq : s.sequence <;> simp_all [scStatusSequenceStateIsSupported]

theorem asked_eq_active (h : c.asked s = .active) : s.sequence = .playBack := by
  unfold asked at h
  split at h
  · cases hq : s.sequence <;> simp only [hq, reduceCtorEq] at h
    · split at h <;> simp at h
    · rfl
  · simp at h

/-- **Where a client goes.** From an abort it goes only to Ready or to
Idle. -/
theorem follow_becomes {stepId : ℕ} {asked : SCState} (hage : c.masterStatusAgeMs = 0)
    (hasked : asked ≠ .complete) (hstep : asked = .active → stepId ≤ scMaxSequenceStepId) :
    ∃ c₀, Becomes c (c.follow stepId asked) c₀ ∧
      (c.state = .error → asked = .error ∨ asked = .active → c₀.state = .error) := by
  have hmaster : c.masterStatusAgeMs ≤ c.timeSinceLastStatusMs := by omega
  have hbusy : c.Unreported → c.state ≠ .error → c.busyTimerMs ≤ c.timeSinceLastStatusMs :=
    fun h hother => (h.resolve_left hother).busy
  cases asked with
  | ready | idle =>
    rw [follow]
    split
    · exact ⟨_, .request rfl (fun _ => ⟨nofun, Nat.zero_le _⟩) fun _ =>
        .inr ⟨hmaster, Nat.zero_le _⟩, by simp⟩
    · exact ⟨c, .silent, fun h _ => h⟩
  | active =>
    rw [follow]
    split
    case isTrue hstate =>
      have hother : c.state ≠ .error := fun herror => by simp [herror] at hstate
      exact ⟨_, .request rfl (fun _ => ⟨nofun, hstep rfl⟩) fun h =>
        .inr ⟨hmaster, hbusy h hother⟩, fun h _ => absurd h hother⟩
    case isFalse => exact ⟨c, .silent, fun h _ => h⟩
  | paused =>
    rw [follow]
    split
    case isTrue hstate =>
      exact ⟨_, .request rfl (fun hc => ⟨nofun, hc.step⟩) fun h =>
        .inr ⟨hmaster, hbusy h (by simp [hstate])⟩, by simp⟩
    case isFalse => exact ⟨c, .silent, fun h _ => h⟩
  | complete => exact absurd rfl hasked
  | error =>
    exact ⟨_, .request rfl (fun hc => ⟨nofun, hc.step⟩) fun _ => .inl rfl, fun _ _ => rfl⟩

/-- **What a status of the master does to a client.** In an abort only
one that releases it does more than to be answered. -/
theorem handleStatus_becomes
    (hsupported : s.state = .active → scStatusSequenceStateIsSupported s.sequence)
    (hnumber : scStatusSequenceNumberIsValid s.sequence s.number) :
    ∃ c₀, Becomes c (c.handleStatus s) c₀ ∧
      (c.state = .error → s.releases = false → c₀.state = .error) := by
  obtain ⟨c₀, h, hlocked⟩ := @follow_becomes { c with masterStatusAgeMs := 0 }
    (if s.number = scSequenceNumberNotAvailable then 0 else s.number.toNat) _ rfl
    asked_ne_complete fun h => by
      -- the step that a status gives is one that may be reported
      split
      · exact Nat.zero_le _
      · rw [asked_eq_active h] at hnumber
        exact of_decide_eq_true hnumber
  refine ⟨c₀, ⟨h.toTells, h.configured, fun hc => h.sound ⟨hc.state, hc.step⟩, fun hu => ?_⟩,
    fun h hr => hlocked h (asked_of_not_releases hr hsupported)⟩
  exact h.owed (hu.imp_right fun h => ⟨h.pending, h.early, Nat.zero_le _, h.busy⟩)

theorem handleMasterStatus_of_ok (h : decodeMasterStatus msg = .ok s) :
    c.handleMasterStatus msg = c.handleStatus s := by
  simp only [handleMasterStatus, tryHandleMasterStatus, h]
  rfl

theorem handleMasterStatus_becomes (c : SCClient) (msg : Message) :
    ∃ c₀, Becomes c (c.handleMasterStatus msg) c₀ ∧
      (c.state = .error → releases msg = false → c₀.state = .error) := by
  cases hd : decodeMasterStatus msg with
  | error e =>
    simp only [handleMasterStatus, tryHandleMasterStatus, hd]
    exact ⟨c, .silent, fun h _ => h⟩
  | ok s =>
    obtain ⟨-, -, hsupported, hnumber⟩ := decodeMasterStatus_eq_ok hd
    rw [handleMasterStatus_of_ok hd, releases, hd]
    exact handleStatus_becomes hsupported hnumber

/-- **What the application's calls do to a client.** -/
theorem act_becomes (c : SCClient) (a : ClientAct) : ∃ c₀, Becomes c (c.act a) c₀ := by
  cases a with
  | setBusy busy =>
    rw [act, setBusy]
    split
    · exact ⟨c, .silent⟩
    · exact ⟨_, .request rfl (fun h => ⟨h.state, h.step⟩) fun h =>
        h.imp_right fun h => ⟨h.master, Nat.zero_le _⟩⟩
  | reportStepComplete stepId =>
    rw [act]
    cases h : c.reportStepComplete stepId with
    | error e => exact ⟨c, .silent⟩
    | ok r =>
      obtain ⟨-, h⟩ := require_then_eq_ok.mp h
      obtain ⟨-, h⟩ := require_then_eq_ok.mp h
      cases h
      exact ⟨c, .request rfl id fun h => h.imp_right fun h => ⟨h.master, h.busy⟩⟩
  | update elapsedMs =>
    obtain ⟨c₀, h, -⟩ := @update_becomes c elapsedMs
    exact ⟨c₀, h⟩

/-- A status that waits or is due goes out. -/
theorem updateStatus_due (h : c.statusPending ∧
      c.config.minStatusSpacingMs.toNat ≤ c.timeSinceLastStatusMs ∨
    c.statusInterval ≤ c.timeSinceLastStatusMs) :
    ∃ data, c.updateStatus.2 = some data ∧ c.updateStatus.1.state = c.state := by
  refine (exists_and_right.mpr ⟨?_, updateStatus_tells.state⟩)
  unfold updateStatus
  split
  case isTrue => exact ⟨_, rfl⟩
  case isFalse hwaits =>
    rw [if_pos (h.resolve_left hwaits)]
    exact ⟨_, rfl⟩

end SCClient

/-- The client may report before it gives up the master, or the step. -/
structure SCClientConfig.Patient (config : SCClientConfig) : Prop where
  ready : config.minStatusSpacingMs.toNat < config.masterTimeoutReadyMs.toNat
  active : config.minStatusSpacingMs.toNat < config.masterTimeoutActiveMs.toNat
  busy : config.minStatusSpacingMs.toNat < config.busyPauseTimeoutMs.toNat

namespace SCClient

/-- **What is owed can be told.** -/
theorem Owing.told {c : SCClient} (h : c.Owing) (hpatient : c.config.Patient) :
    ∃ elapsedMs data, (c.update elapsedMs).2 = some data ∧
      (c.update elapsedMs).1.state = c.state := by
  refine ⟨c.config.minStatusSpacingMs.toNat - c.timeSinceLastStatusMs, ?_⟩
  generalize helapsed : c.config.minStatusSpacingMs.toNat - c.timeSinceLastStatusMs = elapsedMs
  have hmax := toNat_le_u32Max c.config.minStatusSpacingMs
  have ⟨hpending, hearly, hmaster, hbusy⟩ := h
  have ⟨hready, hactive, hheld⟩ := hpatient
  have hdue : c.config.minStatusSpacingMs.toNat ≤ satAdd32 c.timeSinceLastStatusMs elapsedMs :=
    le_satAdd32 (by omega) hmax
  have hstep : ∀ c' : SCClient, c'.config = c.config → c'.statusPending = true →
      c'.state = c.state → c'.timeSinceLastStatusMs = satAdd32 c.timeSinceLastStatusMs elapsedMs →
      c'.busyTimerMs = c.busyTimerMs →
      ∃ data, (c'.updateBusy elapsedMs).2 = some data ∧
        (c'.updateBusy elapsedMs).1.state = c.state := by
    intro c' hconfig hpending' hstate htime hbusy'
    rw [← hstate]
    unfold updateBusy
    split
    · dsimp only
      rw [if_neg]
      · exact updateStatus_due (.inl ⟨hpending', by rw [hconfig]; exact htime ▸ hdue⟩)
      · rw [hconfig, hbusy', satAdd32]
        omega
    · exact updateStatus_due (.inl ⟨hpending', by rw [hconfig]; exact htime ▸ hdue⟩)
  unfold SCClient.update
  dsimp only
  split
  · exact hstep _ rfl hpending rfl rfl rfl
  · rw [if_neg]
    · exact hstep _ rfl hpending rfl rfl rfl
    · rintro ⟨hout, -⟩
      unfold masterLimit at hout
      split at hout <;> simp only [satAdd32] at hout <;> omega

end SCClient

/-! ## The master -/

namespace SCMaster

/-- The master has heard of one client at most, and of nobody that it
would have to wait for after that one confirmed. -/
structure Solo (client : Address) (m : SCMaster) : Prop where
  seen : m.clientSeen = [] ∨ ∃ v, m.clientSeen = [(client, v)]
  confirmed : m.abortConfirmed = ∅

variable {client : Address} {m m' : SCMaster} {elapsedMs : ℕ} {s : ClientStatus}

section

variable (h : Solo client m)
include h

theorem Solo.follows (hm : Follows m elapsedMs m') : Solo client m' := by
  refine ⟨?_, hm.confirmed.elim (·.trans h.confirmed) id⟩
  rcases hm.seen with hsame | ⟨kept, hkept⟩
  · rw [hsame]
    exact h.seen
  · rw [hkept, aged]
    rcases h.seen with hnil | ⟨v, hone⟩
    · exact .inl (by rw [hnil]; rfl)
    · rw [hone]
      simp only [mapValues, map_cons, filter_cons]
      split
      · exact .inr ⟨_, rfl⟩
      · exact .inl rfl

theorem Solo.noteSeen (hs : s.source = client) : Solo client (m.noteSeen s) := by
  refine ⟨?_, h.confirmed⟩
  unfold SCMaster.noteSeen
  subst hs
  split
  · rcases h.seen with hnil | ⟨v, hone⟩
    · simp [hnil, OrderedMap.insert, OrderedMap.remove]
    · simp [hone, OrderedMap.insert, OrderedMap.remove]
  · rcases h.seen with hnil | ⟨v, hone⟩
    · simp [hnil, remove]
    · simp [hone, remove]

theorem Solo.max_length : max m.clientSeen.length 1 = 1 := by
  rcases h.seen with hnil | ⟨v, hone⟩
  · rw [hnil]
    rfl
  · rw [hone]
    rfl

end

/-- **What a status of the only client does to a master in an abort**, if
it reports the abort and if it does not. -/
inductive Confirms (client : Address) (known : Finset Address) : Bool → SCMaster → Prop
  | aborts {m' : SCMaster} : m'.state = .error → client ∈ m'.abortSeen → Solo client m' →
      Confirms client known true m'
  | rearms {m' : SCMaster} : client ∈ known → m'.state = .ready → Solo client m' →
      Confirms client known false m'
  | waits {m' : SCMaster} : client ∉ known → m'.state = .error → m'.abortSeen = known →
      Solo client m' → Confirms client known false m'

theorem Confirms.solo {b : Bool} (h : Confirms client m.abortSeen b m') : Solo client m' := by
  cases h <;> assumption

theorem noteAbort_confirms (h : Solo client m) (hm : m.state = .error) (hs : s.source = client) :
    Confirms client m.abortSeen (decide (s.mapped = .error)) (m.noteAbort s) := by
  have hmax := h.max_length
  have hconfirmed := h.confirmed
  unfold noteAbort
  by_cases herror : s.mapped = .error
  · rw [decide_eq_true herror, if_pos herror, if_neg (by simp [hconfirmed])]
    exact .aborts hm (by simp [hs]) ⟨h.seen, by simp [hconfirmed]⟩
  rw [decide_eq_false herror, if_neg herror]
  by_cases hseen : s.source ∈ m.abortSeen
  · rw [if_pos hseen, if_pos (by simp [hmax])]
    refine .rearms (hs ▸ hseen) ?_ ⟨?_, ?_⟩
    · simp [rearmAfterAbort, SCMaster.transition, hm]
    · simpa [rearmAfterAbort, SCMaster.transition, hm] using h.seen
    · simp [rearmAfterAbort, SCMaster.transition, hm]
  · rw [if_neg hseen, if_neg (by simp [hconfirmed])]
    exact .waits (hs ▸ hseen) hm rfl h

theorem handleStatus_confirms (h : Solo client m) (hm : m.state = .error)
    (hs : s.source = client) :
    Confirms client m.abortSeen (decide (s.mapped = .error)) (m.handleStatus s) := by
  have hbusy : (m.noteSeen s).state = .error := hm
  unfold handleStatus
  rw [if_neg (by simp [hbusy]), if_pos hbusy]
  exact noteAbort_confirms (h.noteSeen hs) hbusy hs

theorem Solo.handleStatus (h : Solo client m) (hs : s.source = client) :
    Solo client (m.handleStatus s) := by
  by_cases hm : m.state = .error
  · exact (handleStatus_confirms h hm hs).solo
  · exact (h.noteSeen hs).follows ((handleStatus_moves hm).follows : Follows _ 0 _)

/-- The client was seen in the abort with its last status. -/
theorem Solo.reported (h : Solo client m) (hs : s.source = client)
    (hm' : (m.handleStatus s).state = .error) (hseen : client ∈ (m.handleStatus s).abortSeen) :
    s.mapped = .error := by
  by_cases hm : m.state = .error
  · have hconfirms := handleStatus_confirms h hm hs
    generalize m.handleStatus s = m' at hconfirms hm' hseen
    generalize hb : decide (s.mapped = .error) = b at hconfirms
    cases hconfirms with
    | aborts => exact of_decide_eq_true hb
    | rearms _ hready => exact absurd (hready.symm.trans hm') nofun
    | waits hunseen _ hsame => exact absurd (hsame ▸ hseen) hunseen
  · rcases (handleStatus_moves (s := s) hm).abortSeen hm' with hnone | ⟨herror, -⟩
    · simp [hnone] at hseen
    · exact absurd herror hm

/-- **Time changes nothing about an abort**, and the master says nothing
else. -/
theorem update_of_error (hm : m.state = .error) :
    (m.update elapsedMs).1.state = .error ∧ (m.update elapsedMs).1.abortSeen = m.abortSeen ∧
      ∀ data ∈ (m.update elapsedMs).2, data = m.encodeMasterStatus := by
  have hstatus : (m.updateStatus elapsedMs).1.state = .error ∧
      (m.updateStatus elapsedMs).1.abortSeen = m.abortSeen ∧
      ∀ data ∈ (m.updateStatus elapsedMs).2, data = m.encodeMasterStatus := by
    unfold updateStatus
    dsimp only
    generalize (if m.state = .idle ∨ m.state = .complete then _ else _) = interval
    split
    · exact ⟨hm, rfl, fun _ h => (mem_some.mp h).symm⟩
    · exact ⟨hm, rfl, nofun⟩
  unfold update
  rw [if_neg (by simp [hm]), if_neg (by simp [hm])]
  unfold updateTimers
  rw [hstatus.1]
  exact hstatus

end SCMaster

/-! ## Both together -/

/-- Whether a client's status reports the abort. -/
def abortReported (msg : Message) : Option Bool :=
  match decodeClientStatus msg with
  | .ok s => some (decide (s.mapped = .error))
  | .error _ => none

/-- **What ends an abort**: it is reported, unless that has been seen
before, and then something else is. -/
def confirms : Bool → List Bool → Bool
  | _, [] => false
  | _, true :: told => confirms true told
  | seen, false :: told => seen || confirms seen told

section

variable {seen b b' : Bool} {told : List Bool}

/-- A report of the abort at the end confirms nothing. -/
theorem confirms_append_true : confirms seen (told ++ [true]) = confirms seen told := by
  induction told generalizing seen with
  | nil => rfl
  | cons b told ih => cases b <;> rw [cons_append, confirms, confirms, ih]

/-- A report of anything else confirms what was reported before. -/
theorem confirms_append_false :
    confirms seen (told ++ [false]) = true ↔ seen = true ∨ true ∈ told := by
  induction told generalizing seen with
  | nil => simp [confirms]
  | cons b told ih => cases b <;> rw [cons_append, confirms] <;> simp [ih]

theorem reported_of_confirms (h : confirms seen told = true) : seen = true ∨ true ∈ told := by
  induction told generalizing seen with
  | nil => nomatch h
  | cons b told ih =>
    cases b with
    | true => exact .inr mem_cons_self
    | false =>
      rw [confirms, Bool.or_eq_true] at h
      exact h.elim .inl fun h => (ih h).imp_right (mem_cons_of_mem _)

/-- Behind a report that confirms nothing, only one of something else can. -/
theorem not_confirms_append (h : confirms seen (told ++ [b]) = false) (hb : b = true → b' = true) :
    confirms seen (told ++ [b']) = false ∧ confirms seen (told ++ [b'] ++ [b']) = false := by
  cases b' with
  | false =>
    obtain rfl : b = false := Bool.eq_false_iff.mpr fun h => nomatch hb h
    refine ⟨h, Bool.eq_false_iff.mpr fun h' => Bool.eq_false_iff.mp h ?_⟩
    rw [confirms_append_false] at h' ⊢
    simpa using h'
  | true =>
    simp only [confirms_append_true, and_self]
    refine Bool.eq_false_iff.mpr fun h' => Bool.eq_false_iff.mp h ?_
    cases b with
    | true => rwa [confirms_append_true]
    | false => exact confirms_append_false.mpr (reported_of_confirms h')

end

namespace Exchange

variable {x : Exchange} {l : State} {r : SCClient × Option (List UInt8)} {c c₀ : SCClient}
  {msg : Message} {msgs : List Message}

/-- What the master is about to be told of the abort. -/
def told (l : State) : List Bool := l.toLeft.filterMap abortReported

/-- The master has seen the client in the abort. -/
def seen (x : Exchange) (l : State) : Bool := decide (x.client ∈ l.left.abortSeen)

/-- The abort is the last that the master was told, or will be. -/
def AbortLast (x : Exchange) (l : State) : Prop :=
  (told l).getLast?.getD (decide (l.left.state = .error) && x.seen l) = true

/-- The message is a status of this client, in a state it can be in. -/
def IsReport (x : Exchange) (msg : Message) : Prop :=
  ∃ c : SCClient, c.Sound ∧ msg = x.clientStatus c.encodeClientStatus

/-- What holds in every state that the two reach. -/
structure Kept (x : Exchange) (l : State) : Prop where
  master : l.left.Solo x.client
  client : l.right.Sound
  toLeft : ∀ msg ∈ l.toLeft, x.IsReport msg
  owed : AbortLast x l → l.right.Unreported

theorem abortReported_report (hc : c.Sound) :
    abortReported (x.clientStatus c.encodeClientStatus) = some (decide (c.state = .error)) := by
  rw [abortReported, decodeClientStatus_reported hc]
  simp only [mapped_reported]

theorem told_report (hq : l.toLeft = x.clientStatus c.encodeClientStatus :: msgs) (hc : c.Sound) :
    told l = decide (c.state = .error) :: msgs.filterMap abortReported := by
  rw [told, hq, filterMap_cons, abortReported_report hc]

/-- What the client says is what it is. -/
theorem told_append (h : l.right.Sound) (hr : l.right.Becomes r c₀) {toRight log : List Message} :
    told ⟨l.left, r.1, toRight, l.toLeft ++ (r.2.map x.clientStatus).toList, log⟩ =
      told l ++ (r.2.map fun _ => decide (r.1.state = .error)).toList := by
  rw [told, filterMap_append, ← told]
  cases hdata : r.2 with
  | none => rfl
  | some data =>
    rw [hr.report data hdata, hr.state]
    simp [abortReported_report (hr.sound h)]

/-- A client reports, or does not. -/
theorem Kept.reports (h : Kept x l) (hr : l.right.Becomes r c₀) {toRight log : List Message} :
    Kept x ⟨l.left, r.1, toRight, l.toLeft ++ (r.2.map x.clientStatus).toList, log⟩ := by
  have hsound := hr.sound h.client
  refine ⟨h.master, hr.toTells.sound hsound, forall_mem_append.mpr ⟨h.toLeft, ?_⟩, ?_⟩
  · intro msg hmsg
    obtain ⟨data, hdata, rfl⟩ := map_eq_some_iff.mp (mem_toList.mp hmsg)
    exact ⟨c₀, hsound, by rw [hr.report data hdata]⟩
  · intro hlast
    rw [AbortLast, told_append h.client hr] at hlast
    cases hdata : r.2 with
    | none =>
      rw [hdata, map_none, toList_none, append_nil] at hlast
      exact hr.owed (h.owed hlast) hdata
    | some data =>
      rw [hdata, map_some, toList_some, getLast?_concat, getD_some] at hlast
      exact .inl (of_decide_eq_true hlast)

/-- What is delivered to the master was told before. -/
theorem abortLast_of_deliverLeft (h : Kept x l) (hc : c.Sound)
    (hq : l.toLeft = x.clientStatus c.encodeClientStatus :: msgs) {m' : SCMaster}
    (hm' : m' = l.left.handleStatus (x.reported c))
    (hlast : AbortLast x { l with left := m', toLeft := msgs }) : AbortLast x l := by
  rw [AbortLast, told_report hq hc]
  rw [AbortLast, told] at hlast
  cases hmsgs : msgs.filterMap abortReported with
  | nil =>
    rw [hmsgs, getLast?_nil, getD_none, Bool.and_eq_true, decide_eq_true_eq] at hlast
    subst hm'
    have hreported := h.master.reported rfl hlast.1 (of_decide_eq_true hlast.2)
    rw [getLast?_singleton, getD_some, decide_eq_true_eq, ← mapped_reported (x := x)]
    exact hreported
  | cons b told =>
    rw [hmsgs, getLast?_cons, getD_some] at hlast
    rw [getLast?_cons_cons, getLast?_cons, getD_some, hlast]

/-- **What one choice of the schedule keeps**, the client's configuration
included. -/
theorem kept_step (h : Kept x l) (a : Act) :
    Kept x (x.step l a) ∧ (x.step l a).right.config = l.right.config := by
  cases a with
  | deliverLeft =>
    cases hq : l.toLeft with
    | nil =>
      rw [step, step_deliverLeft_nil hq]
      exact ⟨h, rfl⟩
    | cons msg msgs =>
      rw [step, step_deliverLeft hq rfl]
      have hmsgs := h.toLeft
      rw [hq, forall_mem_cons] at hmsgs
      obtain ⟨⟨c, hc, rfl⟩, hrest⟩ := hmsgs
      have hrecv := SCMaster.handleClientStatus_of_ok (m := l.left)
        (decodeClientStatus_reported (x := x) hc)
      refine ⟨⟨?_, h.client, hrest, fun hlast => h.owed ?_⟩, rfl⟩
      · change (l.left.handleClientStatus _).Solo x.client
        rw [hrecv]
        exact h.master.handleStatus rfl
      · exact abortLast_of_deliverLeft h hc hq hrecv hlast
  | deliverRight =>
    cases hq : l.toRight with
    | nil =>
      rw [step, step_deliverRight_nil hq]
      exact ⟨h, rfl⟩
    | cons msg msgs =>
      rw [step, step_deliverRight hq rfl]
      obtain ⟨c₀, hr, -⟩ := l.right.handleMasterStatus_becomes msg
      exact ⟨h.reports hr, hr.config.trans hr.configured⟩
  | left a =>
    obtain ⟨elapsedMs, hact⟩ := l.left.act_follows a
    refine ⟨⟨h.master.follows hact, h.client, h.toLeft, fun hlast => h.owed ?_⟩, rfl⟩
    change (told l).getLast?.getD _ = true at hlast
    rw [AbortLast]
    cases htold : told l with
    | nil =>
      rw [htold, getLast?_nil, getD_none, Bool.and_eq_true] at hlast
      have hseen : x.client ∈ (l.left.act a).1.abortSeen := of_decide_eq_true hlast.2
      -- an abort that starts has been seen by nobody
      rcases hact.abortSeen (of_decide_eq_true hlast.1) with hnone | ⟨herror, hsame⟩
      · simp [hnone] at hseen
      · rw [hsame] at hseen
        simp [herror, seen, hseen]
    | cons b told =>
      rw [htold, getLast?_cons, getD_some] at hlast
      rw [getLast?_cons, getD_some, hlast]
  | right a =>
    obtain ⟨c₀, hr⟩ := l.right.act_becomes a
    exact ⟨h.reports hr, hr.config.trans hr.configured⟩

theorem Kept.step (h : Kept x l) (a : Act) : Kept x (x.step l a) := (kept_step h a).1

/-- What is delivered to a master in an abort counts as it does in the
queue. -/
theorem deliverLeft_confirms (h : Kept x l) (hm : l.left.state = .error)
    (hq : l.toLeft = msg :: msgs) :
    ∃ m' b, x.step l .deliverLeft = { l with left := m', toLeft := msgs } ∧
      told l = b :: msgs.filterMap abortReported ∧
        SCMaster.Confirms x.client l.left.abortSeen b m' := by
  obtain ⟨c, hc, rfl⟩ := h.toLeft msg (hq ▸ mem_cons_self)
  refine ⟨l.left.handleStatus (x.reported c), _, ?_, told_report hq hc, ?_⟩
  · rw [step, step_deliverLeft hq rfl]
    simp [parties, SCMaster.handleClientStatus_of_ok (decodeClientStatus_reported hc)]
  · have hconfirms := SCMaster.handleStatus_confirms h.master hm (s := x.reported c) rfl
    simpa only [mapped_reported] using hconfirms

/-! ## No way back -/

/-- **Nothing under way will end the abort**, nor will the client's next
report. -/
structure Stuck (x : Exchange) (l : State) : Prop where
  kept : Kept x l
  master : l.left.state = .error
  toRight : ∀ msg ∈ l.toRight, releases msg = false
  toLeft : confirms (x.seen l) (told l ++ [decide (l.right.state = .error)]) = false

/-- Whatever a client does that stays in the abort. -/
theorem Stuck.reports (h : Stuck x l) (hr : l.right.Becomes r c₀)
    (herror : l.right.state = .error → c₀.state = .error) {toRight log : List Message}
    (htoRight : ∀ msg ∈ toRight, releases msg = false)
    (hkept : Kept x ⟨l.left, r.1, toRight, l.toLeft ++ (r.2.map x.clientStatus).toList, log⟩) :
    Stuck x ⟨l.left, r.1, toRight, l.toLeft ++ (r.2.map x.clientStatus).toList, log⟩ := by
  refine ⟨hkept, h.master, htoRight, ?_⟩
  rw [told_append h.kept.client hr]
  obtain ⟨hsilent, htold⟩ := not_confirms_append h.toLeft
    fun h => decide_eq_true (hr.state.trans (herror (of_decide_eq_true h)))
  cases r.2 with
  | none => simpa only [map_none, toList_none, append_nil, seen] using hsilent
  | some data => exact htold

/-- One choice of the schedule leaves them there. -/
theorem Stuck.step (h : Stuck x l) {a : Act} (ha : Unattended a) : Stuck x (x.step l a) := by
  have hkept := h.kept.step a
  cases a with
  | deliverLeft =>
    cases hq : l.toLeft with
    | nil =>
      rw [Exchange.step, step_deliverLeft_nil hq]
      exact h
    | cons msg msgs =>
      have hconfirms := h.toLeft
      obtain ⟨m', b, hstep, htold, hm'⟩ := deliverLeft_confirms h.kept h.master hq
      rw [hstep] at hkept ⊢
      rw [htold, cons_append] at hconfirms
      cases hm' with
      | aborts hstate hseen =>
        exact ⟨hkept, hstate, h.toRight, by rw [seen, decide_eq_true hseen]; exact hconfirms⟩
      | rearms hseen =>
        rw [seen, decide_eq_true hseen] at hconfirms
        nomatch hconfirms
      | waits hunseen hstate hseen =>
        rw [confirms, Bool.or_eq_false_iff] at hconfirms
        exact ⟨hkept, hstate, h.toRight, by rw [seen, hseen]; exact hconfirms.2⟩
  | deliverRight =>
    cases hq : l.toRight with
    | nil =>
      rw [Exchange.step, step_deliverRight_nil hq]
      exact h
    | cons msg msgs =>
      have hreleases := h.toRight
      rw [hq, forall_mem_cons] at hreleases
      obtain ⟨c₀, hr, herror⟩ := l.right.handleMasterStatus_becomes msg
      rw [Exchange.step, step_deliverRight hq rfl] at hkept ⊢
      exact h.reports hr (fun hc => herror hc hreleases.1) hreleases.2 hkept
  | left a =>
    cases a with
    | update elapsedMs =>
      obtain ⟨hstate, hseen, hsent⟩ := @SCMaster.update_of_error l.left elapsedMs h.master
      rw [Exchange.step, step_left rfl] at hkept ⊢
      refine ⟨hkept, hstate, fun msg hmsg => ?_, ?_⟩
      · rcases mem_append.mp hmsg with hold | hnew
        · exact h.toRight msg hold
        · obtain ⟨data, hdata, rfl⟩ := map_eq_some_iff.mp (mem_toList.mp hnew)
          rw [hsent data hdata]
          exact releases_of_error x h.master
      · have hleft : (l.left.act (.update elapsedMs)).1.abortSeen = l.left.abortSeen := hseen
        simpa only [parties, seen, told, hleft] using h.toLeft
    | _ => exact absurd ha (by simp [Unattended])
  | right a =>
    cases a with
    | update elapsedMs =>
      obtain ⟨c₀, hr, hstate⟩ := @SCClient.update_becomes l.right elapsedMs
      exact h.reports hr (fun hc => hstate.elim (·.trans hc) id) h.toRight hkept
    | _ => exact absurd ha (by simp [Unattended])

end Exchange

end Machbus.Sc
