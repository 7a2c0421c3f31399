import Machbus.Tc.Model.Client
import Machbus.Tc.PoolRegistry
/-!
# Task controller — what a server does with a request

The frames a client and a server exchange, by what they ask and answer.
For each request there is one statement of what it can do to the pool the
server holds for the client, and how it is answered.
-/

namespace Machbus.Tc

open List TaskControllerClient TaskControllerServer Cmd

variable {msg : Message}

/-- What a client sends. -/
inductive Request
  | workingSetMaster
  | version
  | capabilities (caps : TCClientCapabilities)
  | structureLabel
  | transfer (pool : List UInt8)
  | activate
  | deactivate
  | delete
  | clientTask (taskTotalsActive : Bool)

/-- What a server sends. -/
inductive Reply
  | status (status commandSource command : UInt8)
  | capabilities
  | version
  | structureLabel
  | pool (e : ObjectPoolErrorCodes)
  | activation (e : ObjectPoolActivationError)
  | deleted

namespace Request

/-- The frames that concern the pool. -/
def isPool : Request → Bool
  | transfer _ | activate | deactivate | delete => true
  | _ => false

def data : Request → List UInt8
  | workingSetMaster => buildWorkingSetMaster 1
  | version => buildVersionRequest
  | capabilities caps => buildRequestVersionResponse caps
  | structureLabel => buildRequestStructureLabel
  | transfer pool => objectPoolTransfer :: pool
  | activate => buildActivatePool
  | deactivate => buildDeactivatePool
  | delete => buildDeleteObjectPool
  | clientTask totals => buildClientTask totals

def outbound (tc : Address) : Request → Outbound
  | workingSetMaster => ⟨pgnWorkingSetMaster, data .workingSetMaster, none⟩
  | r => ⟨pgnEcuToTc, r.data, some tc⟩

end Request

namespace Reply

def isPool : Reply → Bool
  | pool _ | activation _ | deleted => true
  | _ => false

/-- A server that was started with a configuration. -/
def outbound (config : TCServerConfig) (client : Address) : Reply → Outbound
  | status s source command =>
    ⟨pgnTcToEcu, [tcStatus, 0xFF, 0xFF, 0xFF, s, source, command, 0xFF], none⟩
  | capabilities => ⟨pgnTcToEcu, padded8 [versionRequest], some client⟩
  | version => ⟨pgnTcToEcu, [versionResponse, config.tcVersion, 0xFF, config.serverOptions,
      0x00, config.numBooms, config.numSections, config.numChannels], some client⟩
  | structureLabel => ⟨pgnTcToEcu, Cmd.structureLabel :: List.replicate 7 0xFF, some client⟩
  | pool e => answer objectPoolResponse e.asU8 client
  | activation e => answer activateResponse e.asU8 client
  | deleted => answer deletePoolResponse errorDetailsNotAvailable client

end Reply

/-! ## Envelopes -/

/-- An address that can identify a sender. -/
def Usable (a : Address) : Prop := a ≠ nullAddress ∧ a ≠ broadcastAddress
  deriving Decidable

theorem hasUsableSource_of (h : Usable msg.source) : msg.hasUsableSource = true := by
  simp [Message.hasUsableSource, h.1, h.2]

theorem hasValidDestination_of_broadcast
    (h : msg.destination = broadcastAddress) : msg.hasValidDestinationForPgn = true := by
  have hnull : broadcastAddress ≠ nullAddress := by decide
  simp [Message.hasValidDestinationForPgn, h, hnull]

/-- The groups of both directions leave room for a destination. -/
theorem hasValidDestination_of_ne (hpgn : ¬ 240 ≤ (msg.pgn >>> 8) &&& 0xFF)
    (h : msg.destination ≠ nullAddress) : msg.hasValidDestinationForPgn = true := by
  simp [Message.hasValidDestinationForPgn, hpgn, h]

/-! ## The server -/

namespace TaskControllerServer

variable {s : TaskControllerServer} {a : Address} {f : TCClientInfo → TCClientInfo}

/-- The pool held for a client, and whether it is activated. -/
def poolOf (s : TaskControllerServer) (a : Address) : Option (DDOP × Bool) :=
  (s.findClient a).map fun c => (c.ddop, c.poolActivated)

theorem poolOf_ensureClient :
    (s.ensureClient a).poolOf a = some ((s.poolOf a).getD ({}, false)) := by
  rw [poolOf, findClient_ensureClient, poolOf]
  cases s.findClient a <;> rfl

/-- What a change leaves of the pool. -/
theorem poolOf_modifyClient (haddr : ∀ c, (f c).address = c.address) : (s.modifyClient a f).poolOf a
      = (s.findClient a).map fun c => ((f c).ddop, (f c).poolActivated) := by
  have hfind : (s.modifyClient a f).findClient a = (s.findClient a).map f :=
    find?_modifyFirst fun c => by rw [haddr c]
  rw [poolOf, hfind, Option.map_map]
  rfl

theorem poolOf_modifyClient_of_pool
    (hf : ∀ c, (f c).pool = c.pool) : (s.modifyClient a f).poolOf a = s.poolOf a := by
  have hparts : ∀ c, (f c).address = c.address ∧ (f c).ddop = c.ddop ∧
      (f c).poolActivated = c.poolActivated := by
    intro c
    have h := hf c
    simp only [TCClientInfo.pool, Prod.mk.injEq] at h
    exact ⟨h.1, h.2.1, h.2.2.1⟩
  rw [poolOf_modifyClient fun c => (hparts c).1, poolOf]
  simp [fun c => (hparts c).2.1, fun c => (hparts c).2.2]

/-- A started server with its labels not set. -/
structure Ready (config : TCServerConfig) (s : TaskControllerServer) : Prop where
  tcVersion : s.tcVersion = config.tcVersion
  serverOptions : s.serverOptions = config.serverOptions
  numBooms : s.numBooms = config.numBooms
  numSections : s.numSections = config.numSections
  numChannels : s.numChannels = config.numChannels
  structureLabel : s.structureLabel = .replicate 7 0xFF
  options : tcOptionsByteIsValid config.serverOptions = true
  sound : s.Sound

variable {config : TCServerConfig}

section

variable (h : s.Ready config)
include h

theorem Ready.modifyClient (hsound : (s.modifyClient a f).Sound) :
    (s.modifyClient a f).Ready config :=
  { h with sound := hsound }

theorem Ready.ensureClient (a : Address) : (s.ensureClient a).Ready config := by
  have hsound := h.sound.ensureClient a
  rw [TaskControllerServer.ensureClient] at hsound ⊢
  split at hsound
  · rw [if_pos ‹_›]
    exact h.modifyClient hsound
  · rw [if_neg ‹_›]
    exact { h with sound := hsound }

theorem Ready.storePool (msg : Message) : (s.storePool msg).1.Ready config := by
  have hsound := h.sound.storePool msg
  have hst := stores_storePool s msg
  generalize s.storePool msg = r at hst hsound ⊢
  cases hst with
  | refused => exact h
  | duplicate => exact h.ensureClient _
  | stored => exact (h.ensureClient _).modifyClient hsound

theorem Ready.activatePool (a : Address) : (s.activatePool a).1.Ready config := by
  have hsound := h.sound.activatePool a
  revert hsound
  rw [TaskControllerServer.activatePool]
  split
  · split
    · exact h.modifyClient
    · exact fun _ => h
  · exact fun _ => h

theorem Ready.setActivation (msg : Message) : (s.setActivation msg).1.Ready config := by
  have hsound := h.sound.setActivation msg
  revert hsound
  rw [TaskControllerServer.setActivation]
  split
  · split
    · exact h.modifyClient
    · exact fun _ => h
  · exact fun _ => h.activatePool _

end

/-- **What a request can do** to the pool of the client that sends it,
and how it is answered. -/
inductive Effect : Request → Option (DDOP × Bool) → Option (DDOP × Bool) → List Reply → Prop
  /-- A frame that is not about the pool leaves it alone. -/
  | neutral {r p p' replies} (hr : r.isPool = false) (hkeep : ∀ y, p = some y → p' = some y)
      (hreplies : ∀ q ∈ replies, q.isPool = false) : Effect r p p' replies
  | refused {bytes p} : Effect (.transfer bytes) p p [.pool .anyOtherError]
  /-- Stored now, or recognised as what is stored. -/
  | stored {bytes p pool active} (hread : DDOP.deserialize bytes = .ok pool) :
      Effect (.transfer bytes) p (some (pool, active)) [.pool .noErrors]
  | activated {pool active} :
      Effect .activate (some (pool, active)) (some (pool, true)) [.activation .noErrors]
  | notActivated {p} : Effect .activate p p [.activation .thereAreErrorsInTheDDOP]
  | deactivated {p p' e} : Effect .deactivate p p' [.activation e]
  | deleted {p p'} : Effect .delete p p' [.deleted]

theorem Effect.neutral_of {r : Request} {p p' : Option (DDOP × Bool)} {replies : List Reply}
    (h : Effect r p p' replies) (hr : r.isPool = false) :
    (∀ y, p = some y → p' = some y) ∧ ∀ q ∈ replies, q.isPool = false := by
  cases h with
  | neutral _ hkeep hreplies => exact ⟨hkeep, hreplies⟩
  | refused | stored | activated | notActivated | deactivated | deleted => cases hr

section Receive

variable {b : Address} {cbs : ServerCallbacks} {command : UInt8} {data : List UInt8}

/-- A frame from a client to a server passes the checks of the envelope. -/
theorem tryHandleClientMessage_eq (ha : Usable a) (hb : Usable b) :
    tryHandleClientMessage cbs s ((⟨pgnEcuToTc, command :: data, some b⟩ : Outbound).message a)
      = dispatch cbs s ((⟨pgnEcuToTc, command :: data, some b⟩ : Outbound).message a) := by
  let msg := (⟨pgnEcuToTc, command :: data, some b⟩ : Outbound).message a
  have hpgn : msg.pgn = pgnEcuToTc := rfl
  have hsource : msg.hasUsableSource = true := hasUsableSource_of ha
  have hdest : msg.hasValidDestinationForPgn = true :=
    hasValidDestination_of_ne (by decide : ¬ 240 ≤ (pgnEcuToTc >>> 8) &&& 0xFF) hb.1
  have hpayload : msg.data ≠ [] := cons_ne_nil _ _
  rw [tryHandleClientMessage, require_bind_of hpgn, require_bind_of hsource, require_bind_of hdest,
    require_bind_of hpayload]

theorem receive_eq : s.receive cbs ((⟨pgnEcuToTc, data, some b⟩ : Outbound).message a)
      = handleClientMessage cbs s ((⟨pgnEcuToTc, data, some b⟩ : Outbound).message a) :=
  if_neg (by decide : ¬ pgnEcuToTc = pgnWorkingSetMaster)

theorem receive_of_dispatch (ha : Usable a) (hb : Usable b)
    {r : TaskControllerServer × List Outbound}
    (hr : dispatch cbs s ((⟨pgnEcuToTc, command :: data, some b⟩ : Outbound).message a) = .ok r) :
    s.receive cbs ((⟨pgnEcuToTc, command :: data, some b⟩ : Outbound).message a) = r := by
  rw [receive_eq, handleClientMessage, tryHandleClientMessage_eq ha hb, hr]

/-- The entry of the client after a transfer, as its answer says. -/
theorem effect_storePool (h : s.Sound) {bytes : List UInt8}
    (hsource : msg.source = a) (hdata : msg.data = objectPoolTransfer :: bytes) :
    Effect (.transfer bytes) (s.poolOf a) ((s.storePool msg).1.poolOf a)
      [.pool (s.storePool msg).2] := by
  have hst := stores_storePool s msg
  have hdrop : msg.data.drop 1 = bytes := by rw [hdata]; rfl
  generalize s.storePool msg = r at hst ⊢
  cases hst with
  | refused => exact .refused
  | @duplicate c hc haddr hlast hdev =>
    -- the entry found under the address is the one with these bytes
    rw [hsource] at haddr ⊢
    have hfind : s.findClient a = some c := by
      cases hf : s.findClient a with
      | none => exact absurd haddr (by simpa using find?_eq_none.mp hf c hc)
      | some c' =>
        have hc' : c' ∈ s.clients := mem_of_find?_eq_some hf
        have ha' : c'.address = a := by simpa using find?_some hf
        rw [inj_on_of_nodup_map h.distinct hc' hc (by rw [haddr, ha'])]
    rw [poolOf_ensureClient, poolOf, hfind]
    refine .stored ?_
    rcases (h.entries c hc).pool with ⟨hempty, -⟩ | ⟨hread, -⟩
    · exact absurd (by rw [hempty]) hdev
    · rw [hlast, hdrop] at hread
      exact hread
  | @stored pool hpool =>
    rw [hdrop] at hpool
    rw [hsource, poolOf_modifyClient, findClient_ensureClient]
    · exact .stored (acceptedPool_eq_ok hpool).1
    · exact fun _ => rfl

theorem effect_activatePool : Effect .activate (s.poolOf a) ((s.activatePool a).1.poolOf a)
      [.activation (s.activatePool a).2] := by
  rw [activatePool]
  split
  case h_1 c hfind =>
    split
    · rw [poolOf_modifyClient, poolOf, hfind]
      · exact .activated
      · exact fun _ => rfl
    · exact .notActivated
  case h_2 => exact .notActivated

theorem handleTechCapabilities_eq (h : s.Ready config) (hsource : msg.source = a) :
    s.handleTechCapabilities msg = (s.ensureClient a, [Reply.version.outbound config a]) := by
  have hensured := h.ensureClient a
  rw [handleTechCapabilities, hsource]
  rw [hensured.tcVersion, hensured.serverOptions, hensured.numBooms, hensured.numSections,
    hensured.numChannels]
  rfl

theorem handleStructureLabelRequest_eq (h : s.Ready config) (hsource : msg.source = a) :
    s.handleStructureLabelRequest msg
      = (s.ensureClient a, [Reply.structureLabel.outbound config a]) := by
  rw [handleStructureLabelRequest, hsource]
  rw [(h.ensureClient a).structureLabel]
  rfl

theorem receive_workingSetMaster (ha : Usable a) :
    s.receive cbs ((Request.workingSetMaster.outbound b).message a)
      = (s.ensureClient a, [Reply.capabilities.outbound config a]) := by
  have hsource : ((Request.workingSetMaster.outbound b).message a).hasUsableSource = true :=
    hasUsableSource_of ha
  have hclient : (s.ensureClient a).clients.any (·.address == a) = true := by
    have hfind := findClient_ensureClient s a
    have haddr := find?_some hfind
    exact any_eq_true.mpr ⟨_, mem_of_find?_eq_some hfind, haddr⟩
  have htry : s.tryHandleWorkingSetMaster ((Request.workingSetMaster.outbound b).message a)
      = .ok (s.ensureClient a, [Reply.capabilities.outbound config a]) := by
    simp only [tryHandleWorkingSetMaster, check_bind_eq_ok, require_eq_ok]
    refine ⟨rfl, hsource, hasValidDestination_of_broadcast rfl, rfl, ?_⟩
    change Except.ok (s.ensureClient a, ((s.ensureClient a).requestClientVersion a).toList) = _
    rw [requestClientVersion, if_pos hclient]
    rfl
  have hpgn : ((Request.workingSetMaster.outbound b).message a).pgn = pgnWorkingSetMaster := rfl
  rw [receive, if_pos hpgn, handleWorkingSetMaster, htry]

variable (cbs)

/-- The answer to a request for the version is taken down, if its options
are canonical. -/
theorem receive_capabilities (h : s.Ready config) (ha : Usable a) (hb : Usable b)
    (caps : TCClientCapabilities) :
    ∃ s', s.receive cbs (((Request.capabilities caps).outbound b).message a) = (s', []) ∧
      s'.Ready config ∧ s'.poolOf a = s.poolOf a := by
  let msg := ((Request.capabilities caps).outbound b).message a
  by_cases hcanonical : versionResponseIsCanonical msg.data = true
  · refine ⟨(s.handleClientVersionResponse msg).1,
      receive_of_dispatch ha hb ?_, ?_, ?_⟩
    · exact require_pure_eq_ok.mpr ⟨hcanonical, rfl⟩
    · exact h.modifyClient (h.sound.handleClientVersionResponse msg)
    · exact poolOf_modifyClient_of_pool fun _ => rfl
  · have hrefused : dispatch cbs s msg
        = .error (.invalidData "TC client version response must be an 8-byte canonical frame") :=
      require_bind_of_not hcanonical _
    refine ⟨s, ?_, h, rfl⟩
    have htry : tryHandleClientMessage cbs s msg = dispatch cbs s msg :=
      tryHandleClientMessage_eq ha hb
    refine receive_eq.trans (?_ : handleClientMessage cbs s msg = _)
    rw [handleClientMessage, htry, hrefused]

/-- **A server answers a request of its client.** -/
theorem receive_request (h : s.Ready config) (ha : Usable a) (hb : Usable b) (r : Request) :
    ∃ s' replies,
      s.receive cbs ((r.outbound b).message a) = (s', replies.map (Reply.outbound config a)) ∧
      s'.Ready config ∧ Effect r (s.poolOf a) (s'.poolOf a) replies := by
  have hensured := h.ensureClient a
  have hkeep : ∀ y, s.poolOf a = some y → (s.ensureClient a).poolOf a = some y := by
    intro y hy
    rw [poolOf_ensureClient, hy]
    rfl
  cases r with
  | workingSetMaster =>
    refine ⟨s.ensureClient a, [.capabilities], ?_, hensured,
      .neutral rfl hkeep (by simp [Reply.isPool])⟩
    exact receive_workingSetMaster ha
  | version =>
    refine ⟨s.ensureClient a, [.version], receive_of_dispatch ha hb ?_,
      hensured, .neutral rfl hkeep (by simp [Reply.isPool])⟩
    exact congrArg Except.ok (handleTechCapabilities_eq h rfl)
  | capabilities caps =>
    obtain ⟨s', hreceive, hready, hpool⟩ := receive_capabilities cbs h ha hb caps
    exact ⟨s', [], hreceive, hready, .neutral rfl (fun y hy => by rw [hpool, hy]) (by simp)⟩
  | structureLabel =>
    refine ⟨s.ensureClient a, [.structureLabel],
      receive_of_dispatch ha hb ?_, hensured,
      .neutral rfl hkeep (by simp [Reply.isPool])⟩
    exact congrArg Except.ok (handleStructureLabelRequest_eq h rfl)
  | transfer bytes =>
    exact ⟨_, [.pool (s.storePool (((Request.transfer bytes).outbound b).message a)).2],
      receive_of_dispatch ha hb rfl, h.storePool _,
      effect_storePool h.sound rfl rfl⟩
  | activate =>
    exact ⟨_, [.activation (s.activatePool a).2],
      receive_of_dispatch ha hb rfl, h.activatePool a,
      effect_activatePool⟩
  | deactivate =>
    let msg := (Request.deactivate.outbound b).message a
    exact ⟨(s.setActivation msg).1, [.activation (s.setActivation msg).2],
      receive_of_dispatch ha hb rfl, h.setActivation msg, .deactivated⟩
  | delete =>
    refine ⟨_, [.deleted], receive_of_dispatch ha hb rfl,
      h.modifyClient (h.sound.handleDeletePoolRequest _), .deleted⟩
  | clientTask totals =>
    let msg := ((Request.clientTask totals).outbound b).message a
    have hd : dispatch cbs s msg = .ok (s.handleClientTask msg) := by
      have hcommand : ProcessDataCommands.tryFromU8 (byteAt msg.data 0) = some .clientTask :=
        (by decide : ProcessDataCommands.tryFromU8 0xFF = some .clientTask)
      have hother : dispatch cbs s msg = handleProcessData cbs s msg := rfl
      rw [hother, handleProcessData, hcommand]
      rfl
    refine ⟨(s.handleClientTask msg).1, [], receive_of_dispatch ha hb hd, ?_,
      .neutral rfl (fun y hy => ?_) (by simp)⟩
    · exact hensured.modifyClient (hensured.sound.modifyClient (fun _ => rfl)
        fun c hc _ => (hensured.sound.entries c hc).of_pool rfl)
    · have hpool : (s.handleClientTask msg).1.poolOf a = (s.ensureClient a).poolOf a :=
        poolOf_modifyClient_of_pool (s := s.ensureClient a) fun _ => rfl
      rw [hpool, hkeep y hy]

section

variable {elapsedMs : ℕ}
  (hkeep : ∀ c ∈ s.clients, satAdd32 c.lastStatusMs elapsedMs < tcClientTimeoutMs)
include hkeep

/-- What an update does to the entries when nobody has been silent for too
long. -/
theorem clients_update : (s.update elapsedMs).1.clients = s.clients ∨ (s.update elapsedMs).1.clients
        = s.clients.map fun c => { c with lastStatusMs := satAdd32 c.lastStatusMs elapsedMs } := by
  rw [update]
  split
  · exact .inl rfl
  have hlost : (s.clients.map fun c => { c with lastStatusMs := satAdd32 c.lastStatusMs elapsedMs }
      ).filter (fun c => decide (tcClientTimeoutMs ≤ c.lastStatusMs)) = [] := by
    rw [filter_eq_nil_iff]
    intro c' hc'
    obtain ⟨c, hc, rfl⟩ := mem_map.mp hc'
    simpa using hkeep c hc
  dsimp only
  rw [hlost]
  split
  · simp
  · simp

theorem poolOf_update : (s.update elapsedMs).1.poolOf a = s.poolOf a := by
  rcases clients_update hkeep with h | h
  · rw [poolOf, findClient, h, poolOf, findClient]
  · rw [poolOf, findClient, h, find?_map, Option.map_map]
    rfl

end

theorem Ready.update (h : s.Ready config) (elapsedMs : ℕ) :
    (s.update elapsedMs).1.Ready config := by
  have hsound := h.sound.update elapsedMs
  revert hsound
  rw [TaskControllerServer.update]
  split
  · exact fun _ => h
  · dsimp only
    split <;> exact fun hsound => { h with sound := hsound }

/-- An update sends at most a status. -/
theorem status_update (s : TaskControllerServer) (elapsedMs : ℕ) :
    (s.update elapsedMs).2 = none ∨ ∃ t : TaskControllerServer,
      (s.update elapsedMs).2 = some t.encodeTcStatus := by
  rw [update]
  split
  · exact .inl rfl
  dsimp only
  split
  · exact .inr ⟨_, rfl⟩
  · exact .inl rfl

theorem tick_eq (s : TaskControllerServer) (config : TCServerConfig) (a : Address) (elapsedMs : ℕ) :
    ∃ replies : List Reply, s.tick elapsedMs
        = ((s.update elapsedMs).1, replies.map (Reply.outbound config a)) ∧
      ∀ q ∈ replies, q.isPool = false := by
  rw [tick]
  rcases status_update s elapsedMs with h | ⟨t, h⟩
  · rw [h]
    exact ⟨[], rfl, by simp⟩
  · rw [h]
    exact ⟨[.status _ _ _], rfl, by simp [Reply.isPool]⟩

end Receive

end TaskControllerServer

end Machbus.Tc
