import Machbus.Tc.Helpers.Requests
/-!
# Task controller — what a client does with an answer

For each answer of the server there is one statement of the state it
leads the client to, and for each update one of what the client sends.
-/

namespace Machbus.Tc.TaskControllerClient

open Cmd ProcessDataCommands

variable {d : DDOP}

variable {c c' : TaskControllerClient} {a b : Address} {cbs : ClientCallbacks} {v : UInt8}
  {config : TCServerConfig} {q : Reply} {msg : Message}

/-- The state an answer of the server leads to. -/
def after : Reply → TCState → TCState
  | .status .., .waitForServerStatus => .sendWorkingSetMaster
  | .version, .waitForVersion => .requestStructureLabel
  | .structureLabel, .waitForStructureLabel => .transferDdop
  | .pool .noErrors, .waitForPoolResponse => .activatePool
  | .pool _, .waitForPoolResponse => .disconnected
  | .activation .noErrors, .waitForActivation => .connected
  | .activation .noErrors, .waitForDeactivation => .deletePool
  | .activation _, .waitForActivation => .disconnected
  | .activation _, .waitForDeactivation => .disconnected
  | .deleted, .waitForDeletePool => .transferDdop
  | _, st => st

theorem after_disconnected (q : Reply) : after q .disconnected = .disconnected := by
  cases q with
  | pool e | activation e => cases e <;> rfl
  | status | capabilities | version | structureLabel | deleted => rfl

theorem tryHandleTcMessage_eq (hb : Usable b) (hbound : c.tcAddress = nullAddress ∨ c.tcAddress = b)
    (hpgn : msg.pgn = pgnTcToEcu) (hsource : msg.source = b)
    (hdest : msg.destination ≠ nullAddress) (hdata : msg.data ≠ []) :
    tryHandleTcMessage cbs c msg = dispatch cbs c msg := by
  have husable : msg.hasUsableSource = true := hasUsableSource_of (by rw [hsource]; exact hb)
  have hvalid : msg.hasValidDestinationForPgn = true :=
    hasValidDestination_of_ne (by rw [hpgn]; decide) hdest
  have hserver : c.tcAddress = nullAddress ∨ msg.source = c.tcAddress := by
    rw [hsource]
    exact hbound.imp_right Eq.symm
  rw [tryHandleTcMessage, require_bind_of hpgn, require_bind_of husable, require_bind_of hvalid,
    require_bind_of hserver, require_bind_of hdata]

/-- The response a state waits for. -/
def expects : TCState → Option UInt8
  | .waitForVersion => some Cmd.versionResponse
  | .waitForStructureLabel => some Cmd.structureLabel
  | .waitForLocalizationLabel => some Cmd.localizationLabel
  | .waitForPoolResponse => some Cmd.objectPoolResponse
  | .waitForActivation | .waitForDeactivation => some Cmd.activateResponse
  | .waitForDeletePool => some Cmd.deletePoolResponse
  | _ => none

/-- A response nobody waits for is taken for process data. -/
theorem handleResponse_unexpected (hstatus : byteAt msg.data 0 ≠ tcStatus)
    (hexp : expects c.state ≠ some (byteAt msg.data 0)) :
    handleResponse cbs c msg = handleProcessData cbs c msg := by
  have hno : ∀ st k, expects st = some k → ¬ (c.state = st ∧ byteAt msg.data 0 = k) := by
    rintro st k hk ⟨hst, hcmd⟩
    rw [hst, hcmd] at hexp
    exact hexp hk
  rw [handleResponse, if_neg hstatus, if_neg (hno _ _ rfl), if_neg (hno _ _ rfl),
    if_neg (hno _ _ rfl), if_neg (hno _ _ rfl), if_neg (hno _ _ rfl), if_neg (hno _ _ rfl),
    if_neg (hno _ _ rfl)]

/-- The states of a client that knows the version of its server. -/
def knowsVersion : TCState → Bool
  | .disconnected | .waitForStartup | .waitForServerStatus | .sendWorkingSetMaster
  | .requestVersion | .waitForVersion => false
  | _ => true

/-- **What a client knows of its server** in the states that rely on it. -/
structure Bound (config : TCServerConfig) (b : Address) (c : TaskControllerClient) : Prop where
  address : c.tcAddress = nullAddress ∨ c.tcAddress = b
  bound : c.state ≠ .disconnected → c.state ≠ .waitForServerStatus → c.tcAddress = b
  version : knowsVersion c.state = true → c.tcVersion = config.tcVersion

/-- A transition that teaches the client nothing. -/
theorem Bound.of_state (h : c.Bound config b)
    (haddr : c'.tcAddress = c.tcAddress) (hversion : c'.tcVersion = c.tcVersion)
    (hbound : c'.state ≠ .disconnected → c'.state ≠ .waitForServerStatus →
      c.state ≠ .disconnected ∧ c.state ≠ .waitForServerStatus)
    (hknows : knowsVersion c'.state = true → knowsVersion c.state = true) :
    c'.Bound config b where
  address := by rw [haddr]; exact h.address
  bound hd hw := by rw [haddr]; exact h.bound (hbound hd hw).1 (hbound hd hw).2
  version hk := by rw [hversion]; exact h.version (hknows hk)

/-- The frames of a server reach the client's dispatcher. -/
theorem tryHandleTcMessage_reply (ha : Usable a) (hb : Usable b) (h : c.Bound config b)
    (q : Reply) : tryHandleTcMessage cbs c ((q.outbound config a).message b)
      = dispatch cbs c ((q.outbound config a).message b) := by
  have hdest : ((q.outbound config a).message b).destination ≠ nullAddress := by
    have hbroadcast : broadcastAddress ≠ nullAddress := by decide
    cases q <;> first | exact ha.1 | exact hbroadcast
  refine tryHandleTcMessage_eq hb h.address ?_ rfl hdest ?_
  · cases q <;> rfl
  · cases q <;> exact List.cons_ne_nil _ _

/-- The command byte of an answer. -/
def command : Reply → UInt8
  | .status .. => Cmd.tcStatus
  | .capabilities => Cmd.versionRequest
  | .version => Cmd.versionResponse
  | .structureLabel => Cmd.structureLabel
  | .pool _ => Cmd.objectPoolResponse
  | .activation _ => Cmd.activateResponse
  | .deleted => Cmd.deletePoolResponse

/-- An answer to a request, not one the server sends by itself. -/
def isResponse : Reply → Bool
  | .status .. | .capabilities => false
  | _ => true

theorem byteAt_reply (q : Reply) : byteAt ((q.outbound config a).message b).data 0 = command q := by
  cases q <;> rfl

section

variable (hq : isResponse q = true)
include hq

/-- The low four bits of a response are those of a command no client
serves. -/
theorem tryFromU8_command : tryFromU8 (command q) = some .technicalCapabilities ∨
      tryFromU8 (command q) = some .deviceDescriptor := by
  cases q <;> first | exact absurd hq Bool.false_ne_true | (dsimp only [command]; decide)

theorem command_ne : command q ≠ versionRequest ∧ command q ≠ tcStatus := by
  cases q <;> first | exact absurd hq Bool.false_ne_true | (dsimp only [command]; decide)

theorem dispatch_response : dispatch cbs c ((q.outbound config a).message b)
      = handleResponse cbs c ((q.outbound config a).message b) := by
  obtain ⟨hrequest, hstatus⟩ := command_ne hq
  have hnibble : tryFromU8 (command q) ≠ some .status := by
    rcases tryFromU8_command hq with hn | hn <;> rw [hn] <;> decide
  rw [dispatch, byteAt_reply, if_neg hrequest, require_bind_of (.inl hnibble),
    require_bind_of (.inl hstatus)]

/-- A response nobody waits for does nothing. -/
theorem handleTcMessage_unexpected (ha : Usable a) (hb : Usable b) (h : c.Bound config b)
    (hexp : expects c.state ≠ some (command q)) :
    handleTcMessage cbs c ((q.outbound config a).message b) = (c, []) := by
  have hstatus : byteAt ((q.outbound config a).message b).data 0 ≠ tcStatus := by
    rw [byteAt_reply]
    exact (command_ne hq).2
  obtain ⟨e, he⟩ : ∃ e, handleProcessData cbs c ((q.outbound config a).message b) = .error e := by
    rw [handleProcessData, byteAt_reply]
    rcases tryFromU8_command hq with hn | hn <;> rw [hn] <;> exact ⟨_, rfl⟩
  have hbyte : expects c.state ≠ some (byteAt ((q.outbound config a).message b).data 0) := by
    rw [byteAt_reply]
    exact hexp
  rw [handleTcMessage, tryHandleTcMessage_reply ha hb h, dispatch_response hq,
    handleResponse_unexpected hstatus hbyte, he]

theorem after_unexpected {st : TCState}
    (hexp : expects st ≠ some (command q)) : after q st = st := by
  cases q <;> cases st <;> simp_all [after, expects, command, isResponse]

/-- Which state waits for which answer. -/
theorem expected_cases {st : TCState} (hexp : expects st = some (command q)) :
    (q = .version ∧ st = .waitForVersion) ∨
    (q = .structureLabel ∧ st = .waitForStructureLabel) ∨
    (∃ e, q = .pool e ∧ st = .waitForPoolResponse) ∨
    (∃ e, q = .activation e ∧ st = .waitForActivation) ∨
    (∃ e, q = .activation e ∧ st = .waitForDeactivation) ∨
    (q = .deleted ∧ st = .waitForDeletePool) := by
  cases q <;> cases st <;> simp_all [expects, command, isResponse, versionResponse,
    structureLabel, localizationLabel, objectPoolResponse, activateResponse,
    deletePoolResponse]

end

/-- **What an answer can do** to a client. -/
structure Answered (config : TCServerConfig) (b : Address) (c : TaskControllerClient) (q : Reply)
    (c' : TaskControllerClient) : Prop where
  bound : c'.Bound config b
  state : c'.state = after q c.state
  ddop : c'.ddop = c.ddop
  capabilities : c'.capabilities = c.capabilities

theorem after_status {status source command : UInt8} {st : TCState}
    (hst : st ≠ .waitForServerStatus) : after (.status status source command) st = st := by
  cases st <;> first | rfl | exact absurd rfl hst

theorem answered_status (h : c.Bound config b) {status source command : UInt8}
    (hsource : msg.source = b) :
    Answered config b c (.status status source command) (c.handleTcStatus msg) := by
  have hversion := h.version
  rw [handleTcStatus]
  split
  case h_1 hst => exact ⟨⟨.inr hsource, fun _ _ => hsource, nofun⟩, by rw [hst]; rfl, rfl, rfl⟩
  case h_2 hst =>
    refine ⟨⟨.inr hsource, fun _ _ => hsource, hversion⟩, ?_, rfl, rfl⟩
    rw [hst]
    rfl
  case h_3 hserver _ =>
    refine ⟨⟨.inr hsource, fun _ _ => hsource, hversion⟩, ?_, rfl, rfl⟩
    exact (after_status hserver).symm

/-- What only the negotiation changes. -/
def fixed (c : TaskControllerClient) : DDOP × TCClientCapabilities × Address × UInt8 :=
  (c.ddop, c.capabilities, c.tcAddress, c.tcVersion)

theorem fixed_eq_iff : c'.fixed = c.fixed ↔
    c'.ddop = c.ddop ∧ c'.capabilities = c.capabilities ∧ c'.tcAddress = c.tcAddress ∧
      c'.tcVersion = c.tcVersion := by
  simp [fixed]

theorem answered_version (h : c.Bound config b) (hst : c.state = .waitForVersion)
    (hopt : tcOptionsByteIsValid config.serverOptions = true) :
    ∃ c', handleResponse cbs c ((Reply.version.outbound config a).message b) = .ok (c', []) ∧
      Answered config b c .version c' := by
  have hcanonical : versionResponseIsCanonical ((Reply.version.outbound config a).message b).data
      = true := by
    simp [versionResponseIsCanonical, Reply.outbound, Outbound.message, Message.withAddressing,
      byteAt, hopt]
  rw [handleResponse, byteAt_reply, if_neg (command_ne rfl).2, if_pos ⟨hst, rfl⟩,
    require_bind_of hcanonical, handleVersionResponse, if_pos hcanonical]
  have hbound := h.bound (by rw [hst]; decide) (by rw [hst]; decide)
  exact ⟨_, rfl, ⟨.inr hbound, fun _ _ => hbound, fun _ => rfl⟩, by rw [hst]; rfl, rfl, rfl⟩

/-- The other answers only move the client on. -/
theorem handleResponse_expected (hq : isResponse q = true) (hother : q ≠ .version)
    (hexp : expects c.state = some (command q)) :
    knowsVersion c.state = true ∧
    ∃ c', handleResponse cbs c ((q.outbound config a).message b) = .ok (c', []) ∧
      c'.state = after q c.state ∧ c'.fixed = c.fixed := by
  obtain ⟨⟩ := c
  rcases expected_cases hq hexp with ⟨rfl, hst⟩ | ⟨rfl, hst⟩ | ⟨e, rfl, hst⟩ | ⟨e, rfl, hst⟩ |
    ⟨e, rfl, hst⟩ | ⟨rfl, hst⟩
  · exact absurd rfl hother
  all_goals
    cases hst
    refine ⟨rfl, ?_⟩
  · exact ⟨_, rfl, rfl, rfl⟩
  iterate 3
    · cases e <;> exact ⟨_, rfl, rfl, rfl⟩
  · exact ⟨_, rfl, rfl, rfl⟩

variable (a cbs) in
/-- The answer a state waits for. -/
theorem answered_expected (h : c.Bound config b)
    (hopt : tcOptionsByteIsValid config.serverOptions = true)
    (hq : isResponse q = true) (hexp : expects c.state = some (command q)) :
    ∃ c', handleResponse cbs c ((q.outbound config a).message b) = .ok (c', []) ∧
      Answered config b c q c' := by
  by_cases hversion : q = .version
  · subst hversion
    rcases expected_cases hq hexp with ⟨-, hst⟩ | ⟨hno, -⟩ | ⟨_, hno, -⟩ | ⟨_, hno, -⟩ |
      ⟨_, hno, -⟩ | ⟨hno, -⟩
    · exact answered_version h hst hopt
    all_goals cases hno
  · obtain ⟨hst, c', hc', hstate, hfixed⟩ := handleResponse_expected hq hversion hexp
    obtain ⟨hddop, hcaps, haddr, hv⟩ := fixed_eq_iff.mp hfixed
    refine ⟨c', hc', h.of_state haddr hv (fun _ _ => ?_) (fun _ => hst), hstate, hddop, hcaps⟩
    constructor <;> rintro hc <;> rw [hc] at hst <;> cases hst

variable (cbs) in
/-- **A client takes in what its server sends.** -/
theorem handleTcMessage_reply (ha : Usable a) (hb : Usable b)
    (hopt : tcOptionsByteIsValid config.serverOptions = true) (h : c.Bound config b) (q : Reply) :
    ∃ (c' : TaskControllerClient) (requests : List Request),
      handleTcMessage cbs c ((q.outbound config a).message b)
        = (c', requests.map (Request.outbound b)) ∧
      Answered config b c q c' ∧ ∀ r ∈ requests, r.isPool = false := by
  have hdispatch : ∀ {r}, dispatch cbs c ((q.outbound config a).message b) = .ok r →
      handleTcMessage cbs c ((q.outbound config a).message b) = r := by
    intro r hd
    rw [handleTcMessage, tryHandleTcMessage_reply ha hb h, hd]
  by_cases hq : isResponse q = true
  · by_cases hexp : expects c.state = some (command q)
    · obtain ⟨c', hc', hanswered⟩ := answered_expected a cbs h hopt hq hexp
      exact ⟨c', [], hdispatch ((dispatch_response hq).trans hc'), hanswered, by simp⟩
    · refine ⟨c, [], handleTcMessage_unexpected hq ha hb h hexp, ⟨h, ?_, rfl, rfl⟩, by simp⟩
      exact (after_unexpected hq hexp).symm
  · cases q with
    | status s source command =>
      let msg := ((Reply.status s source command).outbound config a).message b
      refine ⟨c.handleTcStatus msg, [], hdispatch ?_, answered_status h rfl, by simp⟩
      have hcmd : byteAt msg.data 0 = tcStatus := rfl
      rw [dispatch, hcmd, if_neg (by decide), require_bind_of (.inr rfl),
        require_bind_of (.inr rfl), handleResponse, hcmd, if_pos rfl]
      rfl
    | capabilities =>
      exact ⟨c, [.capabilities c.capabilities], hdispatch rfl, ⟨h, rfl, rfl, rfl⟩,
        by simp [Request.isPool]⟩
    | version | structureLabel | pool | activation | deleted => exact absurd rfl hq

/-! ## Time -/

/-- **What an update can do** to the state of a client with pool `d` that
writes at version `v`, and what it sends. -/
inductive Tick (v : UInt8) (d : DDOP) : TCState → TCState → List Request → Prop
  | wait {st} : Tick v d st st []
  | lapse {st} : Tick v d st .disconnected []
  | introduce : Tick v d .sendWorkingSetMaster .requestVersion [.workingSetMaster]
  | askVersion : Tick v d .requestVersion .waitForVersion [.version]
  | askLabel : Tick v d .requestStructureLabel .waitForStructureLabel [.structureLabel]
  | transfer {bytes} (h : d.serializeForVersion v = .ok bytes) :
      Tick v d .transferDdop .waitForPoolResponse [.transfer bytes]
  | activate : Tick v d .activatePool .waitForActivation [.activate]
  | deactivate : Tick v d .deactivatePool .waitForDeactivation [.deactivate]
  | delete : Tick v d .deletePool .waitForDeletePool [.delete]
  | report {totals} : Tick v d .connected .connected [.clientTask totals]

theorem fixed_update (elapsedMs : ℕ) : (c.update elapsedMs).1.fixed = c.fixed := by
  unfold update watchdog transferDdop keepAlive
  dsimp only
  repeat' split
  all_goals rfl

theorem tick_watchdog : Tick v d c.state c.watchdog.state [] := by
  rw [watchdog]
  split
  · exact .lapse
  · exact .wait

theorem tick_transferDdop (hst : c.state = .transferDdop) :
    ∃ requests : List Request, c.transferDdop.2 = requests.map (Request.outbound c.tcAddress) ∧
      Tick (min c.capabilities.version c.tcVersion) c.ddop c.state c.transferDdop.1.state
        requests := by
  rw [hst]
  unfold transferDdop
  split
  case h_1 bytes hbytes => exact ⟨[.transfer bytes], rfl, .transfer hbytes⟩
  case h_2 => exact ⟨[], rfl, .lapse⟩

theorem tick_keepAlive (hst : c.state = .connected) (elapsedMs : ℕ) : ∃ requests : List Request,
      (c.keepAlive elapsedMs).2 = requests.map (Request.outbound c.tcAddress) ∧
      Tick v d c.state (c.keepAlive elapsedMs).1.state requests := by
  unfold keepAlive
  split
  · exact ⟨[], rfl, .lapse⟩
  dsimp only
  split
  · refine ⟨[.clientTask c.taskTotalsActive], rfl, ?_⟩
    rw [hst]
    exact .report
  · exact ⟨[], rfl, .wait⟩

/-- Every client that is bound to a server and asks for no localization
label. -/
theorem update_tick (h : c.Bound config b) (hlabel : c.state ≠ .requestLocalizationLabel)
    (elapsedMs : ℕ) :
    ∃ requests : List Request, (c.update elapsedMs).2 = requests.map (Request.outbound b) ∧
      Tick (min c.capabilities.version config.tcVersion) c.ddop c.state
        (c.update elapsedMs).1.state requests := by
  have haddr : ∀ {st}, c.state = st → st ≠ .disconnected ∧ st ≠ .waitForServerStatus →
      c.tcAddress = b := fun hst hne => h.bound (hst ▸ hne.1) (hst ▸ hne.2)
  rw [update]
  split
  case h_1 | h_2 | h_3 | h_4 | h_5 | h_6 | h_7 | h_8 =>
    exact ⟨[], rfl, tick_watchdog (c := { c with timerMs := satAdd32 c.timerMs elapsedMs })⟩
  case h_9 hst => exact ⟨[.workingSetMaster], rfl, by rw [hst]; exact .introduce⟩
  case h_10 hst =>
    obtain rfl := haddr hst (by decide)
    exact ⟨[.version], rfl, by rw [hst]; exact .askVersion⟩
  case h_11 hst =>
    obtain rfl := haddr hst (by decide)
    exact ⟨[.structureLabel], rfl, by rw [hst]; exact .askLabel⟩
  case h_12 hst => exact absurd hst hlabel
  case h_13 hst =>
    obtain rfl := haddr hst (by decide)
    rw [← h.version (by rw [hst]; rfl)]
    exact tick_transferDdop (c := { c with timerMs := satAdd32 c.timerMs elapsedMs }) hst
  case h_14 hst =>
    obtain rfl := haddr hst (by decide)
    exact ⟨[.activate], rfl, by rw [hst]; exact .activate⟩
  case h_15 hst =>
    obtain rfl := haddr hst (by decide)
    exact ⟨[.deactivate], rfl, by rw [hst]; exact .deactivate⟩
  case h_16 hst =>
    obtain rfl := haddr hst (by decide)
    exact ⟨[.delete], rfl, by rw [hst]; exact .delete⟩
  case h_17 hst =>
    obtain rfl := haddr hst (by decide)
    exact tick_keepAlive (c := { c with timerMs := satAdd32 c.timerMs elapsedMs }) hst elapsedMs
  case h_18 | h_19 | h_20 => exact ⟨[], rfl, .wait⟩

theorem Tick.bound {st st' : TCState} {requests : List Request} (h : Tick v d st st' requests) :
    (st' ≠ .disconnected → st' ≠ .waitForServerStatus →
      st ≠ .disconnected ∧ st ≠ .waitForServerStatus) ∧
    (knowsVersion st' = true → knowsVersion st = true) := by
  cases h with
  | wait => exact ⟨fun h1 h2 => ⟨h1, h2⟩, id⟩
  | lapse => exact ⟨fun h => absurd rfl h, nofun⟩
  | introduce | askVersion => exact ⟨fun _ _ => by decide, nofun⟩
  | askLabel | transfer | activate | deactivate | delete | report =>
    exact ⟨fun _ _ => by decide, fun _ => rfl⟩

theorem Tick.of_disconnected {st' : TCState} {requests : List Request}
    (h : Tick v d .disconnected st' requests) : st' = .disconnected ∧ requests = [] := by
  cases h <;> exact ⟨rfl, rfl⟩

/-! ## Calls -/

theorem act_connect (c : TaskControllerClient) : c.act .connect = (c, []) ∨ c.act .connect
        = ({ c with tcAddress := nullAddress, tcVersion := 0 }.enter .waitForServerStatus, []) := by
  rw [act]
  split
  case h_1 c' hc' =>
    rw [TaskControllerClient.connect, check_bind_eq_ok] at hc'
    cases hc'.2
    exact .inr rfl
  case h_2 => exact .inl rfl

theorem act_reuploadDdop (c : TaskControllerClient) (pool : DDOP) :
    c.act (.reuploadDdop pool) = (c, []) ∨ (c.state = .connected ∧
        c.act (.reuploadDdop pool) = ({ c with ddop := pool }.enter .deactivatePool, [])) := by
  rw [act]
  split
  case h_1 c' hc' =>
    rw [TaskControllerClient.reuploadDdop, check_bind_eq_ok, check_bind_eq_ok, require_eq_ok] at hc'
    obtain ⟨hst, -, hc'⟩ := hc'
    cases hc'
    exact .inr ⟨hst, rfl⟩
  case h_2 => exact .inl rfl

end Machbus.Tc.TaskControllerClient
