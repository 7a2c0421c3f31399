import Machbus.Common.Run
import Machbus.Tc.Model.Server
/-!
# The server's pool registry

Whatever clients send, the entries of the registry stay one per address,
and each entry's pool stays in step with the bytes it was read from. Two
primitives touch the registry: `ensureClient`, which adds an empty entry
or notes a sign of life, and `modifyClient`, which changes one entry. What
these two keep, every handler keeps.
-/

namespace Machbus.Tc

open List

/-- **A pool in step with its bytes.** Either there is none, or it is what
the stored bytes are read as, and it passed validation. -/
structure TCClientInfo.Sound (c : TCClientInfo) : Prop where
  pool : (c.ddop = {} ∧ c.lastDdopTransfer = []) ∨
    (DDOP.deserialize c.lastDdopTransfer = .ok c.ddop ∧ c.ddop.validate = .ok ())
  activated : c.poolActivated = true → c.ddop.devices ≠ []

/-- What a transfer can change of an entry. -/
def TCClientInfo.pool (c : TCClientInfo) : Address × DDOP × Bool × List UInt8 :=
  (c.address, c.ddop, c.poolActivated, c.lastDdopTransfer)

theorem TCClientInfo.Sound.of_pool {c c' : TCClientInfo} (h : c.Sound) (heq : c'.pool = c.pool) :
    c'.Sound := by
  obtain ⟨-, hddop, hact, hlast⟩ : c'.address = c.address ∧ c'.ddop = c.ddop ∧
      c'.poolActivated = c.poolActivated ∧ c'.lastDdopTransfer = c.lastDdopTransfer := by
    simpa [TCClientInfo.pool] using heq
  exact ⟨by rw [hddop, hlast]; exact h.pool, by rw [hddop, hact]; exact h.activated⟩

namespace TaskControllerServer

variable {s : TaskControllerServer} {addr : Address} {cbs : ServerCallbacks} {msg : Message}
  {r : TaskControllerServer × List Outbound}

/-- One entry per address, each in step with its bytes. -/
structure Sound (s : TaskControllerServer) : Prop where
  distinct : (s.clients.map (·.address)).Nodup
  entries : ∀ c ∈ s.clients, c.Sound

/-! ## The two primitives -/

/-- **Changing one entry.** The change keeps the address and the sought
entry sound. -/
theorem Sound.modifyClient (h : s.Sound) {f : TCClientInfo → TCClientInfo}
    (haddr : ∀ c, (f c).address = c.address)
    (hf : ∀ c ∈ s.clients, c.address = addr → (f c).Sound) : (s.modifyClient addr f).Sound := by
  constructor
  · have hmap : (s.modifyClient addr f).clients.map (·.address) = s.clients.map (·.address) :=
      map_modifyFirst haddr
    rw [hmap]
    exact h.distinct
  · intro c hc
    rcases mem_modifyFirst hc with hc | ⟨y, hy, hp, rfl⟩
    · exact h.entries c hc
    · exact hf y hy (beq_iff_eq.mp hp)

theorem Sound.ensureClient (h : s.Sound) (addr : Address) : (s.ensureClient addr).Sound := by
  rw [TaskControllerServer.ensureClient]
  split
  case isTrue => exact h.modifyClient (fun _ => rfl) fun c hc _ => (h.entries c hc).of_pool rfl
  case isFalse hnone =>
    have hnew : ∀ c ∈ s.clients, c.address ≠ addr := by
      simpa [findClient] using hnone
    constructor
    · rw [map_append]
      refine List.Nodup.append h.distinct (nodup_singleton _) ?_
      intro a ha ha'
      obtain ⟨c, hc, rfl⟩ := mem_map.mp ha
      exact hnew c hc (by simpa using ha')
    · exact forall_mem_append.mpr ⟨h.entries, forall_mem_singleton.mpr ⟨.inl ⟨rfl, rfl⟩, nofun⟩⟩

/-! ## The handlers -/

theorem Sound.activatePool (h : s.Sound) (addr : Address) : (s.activatePool addr).1.Sound := by
  rw [TaskControllerServer.activatePool]
  split
  case h_1 c hfind =>
    split
    case isTrue hdev =>
      refine h.modifyClient (fun _ => rfl) fun c' hc' haddr => ⟨(h.entries c' hc').pool, ?_⟩
      -- the entry changed is the one that was found
      have hc : c ∈ s.clients := mem_of_find?_eq_some hfind
      have hca : c.address = addr := by simpa using List.find?_some hfind
      have heq : c' = c := inj_on_of_nodup_map h.distinct hc' hc (by rw [haddr, hca])
      subst heq
      exact fun _ => hdev
    case isFalse => exact h
  case h_2 => exact h

theorem acceptedPool_eq_ok {payload : List UInt8} {pool : DDOP}
    (h : acceptedPool payload = .ok pool) :
    DDOP.deserialize payload = .ok pool ∧ pool.validate = .ok () := by
  rw [acceptedPool, bind_eq_ok] at h
  obtain ⟨d, hd, h⟩ := h
  rw [check_bind_eq_ok] at h
  obtain ⟨hvalid, heq⟩ := h
  cases heq
  exact ⟨hd, hvalid⟩

/-- The entry a client has once it was heard from. -/
theorem findClient_ensureClient (s : TaskControllerServer) (addr : Address) :
    (s.ensureClient addr).findClient addr
      = some ((s.findClient addr).elim { address := addr }
        fun c => { c with lastStatusMs := 0 }) := by
  rw [TaskControllerServer.ensureClient]
  cases hfind : s.findClient addr with
  | some c =>
    rw [if_pos (Option.isSome_some)]
    have h : (s.modifyClient addr fun c => { c with lastStatusMs := 0 }).findClient addr
        = (s.findClient addr).map fun c => { c with lastStatusMs := 0 } :=
      find?_modifyFirst fun _ => rfl
    rw [h, hfind]
    rfl
  | none =>
    rw [findClient] at hfind ⊢
    simp [hfind]

/-- **What a transfer can do**: be refused without effect, be recognised as
the pool that is already there, or replace the pool. -/
inductive Stores (s : TaskControllerServer) (msg : Message) :
    TaskControllerServer × ObjectPoolErrorCodes → Prop
  | refused (h : msg.data.length ≤ 8 ∨ ∃ e, acceptedPool (msg.data.drop 1) = .error e) :
      Stores s msg (s, .anyOtherError)
  | duplicate {c : TCClientInfo} (hc : c ∈ s.clients) (haddr : c.address = msg.source)
      (hlast : c.lastDdopTransfer = msg.data.drop 1) (hdev : c.ddop.devices ≠ []) :
      Stores s msg (s.ensureClient msg.source, .noErrors)
  | stored {pool : DDOP} (hpool : acceptedPool (msg.data.drop 1) = .ok pool) :
      Stores s msg ((s.ensureClient msg.source).modifyClient msg.source fun c =>
        { c with ddop := pool, lastDdopTransfer := msg.data.drop 1, poolActivated := false },
        .noErrors)

theorem stores_storePool (s : TaskControllerServer) (msg : Message) :
    Stores s msg (s.storePool msg) := by
  rw [storePool]
  by_cases hlen : msg.data.length ≤ 8
  · rw [if_pos hlen]
    exact .refused (.inl hlen)
  rw [if_neg hlen]
  dsimp only
  split
  case isTrue hdup =>
    obtain ⟨c, hc, hdup⟩ := any_eq_true.mp hdup
    simp only [Bool.and_eq_true, beq_iff_eq, decide_eq_true_eq] at hdup
    obtain ⟨⟨haddr, hdev⟩, hlast⟩ := hdup
    exact .duplicate hc haddr hlast hdev
  case isFalse =>
    cases hpool : acceptedPool (msg.data.drop 1) with
    | error e => exact .refused (.inr ⟨e, hpool⟩)
    | ok pool =>
      rw [findClient_ensureClient]
      exact .stored hpool

section

variable (h : s.Sound) (msg : Message)
include h

theorem Sound.storePool : (s.storePool msg).1.Sound := by
  have hst := stores_storePool s msg
  generalize s.storePool msg = r at hst ⊢
  cases hst with
  | refused => exact h
  | duplicate => exact h.ensureClient _
  | stored hpool =>
    obtain ⟨hread, hvalid⟩ := acceptedPool_eq_ok hpool
    exact (h.ensureClient _).modifyClient (fun _ => rfl) fun c _ _ => ⟨.inr ⟨hread, hvalid⟩, nofun⟩

theorem Sound.setActivation : (s.setActivation msg).1.Sound := by
  rw [TaskControllerServer.setActivation]
  split
  · split
    · exact h.modifyClient (fun _ => rfl) fun c hc _ => ⟨(h.entries c hc).pool, nofun⟩
    · exact h
  · exact h.activatePool _

theorem Sound.handleDeletePoolRequest : (s.handleDeletePoolRequest msg).1.Sound :=
  h.modifyClient (fun _ => rfl) fun _ _ _ => ⟨.inl ⟨rfl, rfl⟩, nofun⟩

theorem Sound.handleClientVersionResponse : (s.handleClientVersionResponse msg).1.Sound :=
  h.modifyClient (fun _ => rfl) fun c hc _ => (h.entries c hc).of_pool rfl

end

/-- The registry does not depend on anything else of the server. -/
theorem Sound.of_clients {s' : TaskControllerServer} (h : s.Sound)
    (heq : s'.clients = s.clients) : s'.Sound :=
  ⟨by rw [heq]; exact h.distinct, by rw [heq]; exact h.entries⟩

/-- **What an accepted message does to the registry.** Most are a sign of
life and no more. -/
inductive Handled (s : TaskControllerServer) (msg : Message) : TaskControllerServer → Prop
  | heard {s' : TaskControllerServer} (h : s'.clients = (s.ensureClient msg.source).clients) :
      Handled s msg s'
  | task : Handled s msg (s.handleClientTask msg).1
  | transfer (h : byteAt msg.data 0 = Cmd.objectPoolTransfer) : Handled s msg (s.storePool msg).1
  | activation (h : isActivatePoolRequest msg = true ∨ isDeactivatePoolRequest msg = true) :
      Handled s msg (s.setActivation msg).1
  | delete (h : isDeletePoolRequest msg = true) : Handled s msg (s.handleDeletePoolRequest msg).1
  | version (h : byteAt msg.data 0 = Cmd.versionResponse)
      (hform : versionResponseIsCanonical msg.data = true) :
      Handled s msg (s.handleClientVersionResponse msg).1
  | misread {e : Error}
      (h : ProcessDataCommands.tryFromU8 (byteAt msg.data 0) = some .peerControlAssignment)
      (he : PeerControlAssignment.decode msg.data msg.source msg.destination = .error e) :
      Handled s msg s

theorem handleProcessData_handled (hr : handleProcessData cbs s msg = .ok r) :
    Handled s msg r.1 := by
  rw [handleProcessData] at hr
  split at hr
  case h_1 => cases hr
  case h_2 | h_3 =>
    obtain ⟨-, rfl⟩ := require_pure_eq_ok.mp hr
    exact .heard rfl
  case h_4 =>
    obtain ⟨-, rfl⟩ := require_pure_eq_ok.mp hr
    rw [handleRequestValue]
    split
    · exact .heard rfl
    · split <;> exact .heard rfl
  case h_5 hcmd =>
    obtain ⟨-, rfl⟩ := require_pure_eq_ok.mp hr
    rw [handlePeerControl]
    split
    case h_1 e he => exact .misread hcmd he
    case h_2 => split <;> exact .heard rfl
  case h_6 =>
    obtain ⟨-, rfl⟩ := require_pure_eq_ok.mp hr
    exact .task
  case h_7 => cases hr

theorem dispatch_handled (hr : dispatch cbs s msg = .ok r) : Handled s msg r.1 := by
  rw [dispatch] at hr
  split_ifs at hr with hversion _ _ _ htransfer
  · obtain ⟨hform, rfl⟩ := require_pure_eq_ok.mp hr
    exact .version hversion hform
  iterate 3
    · obtain ⟨-, rfl⟩ := require_pure_eq_ok.mp hr
      exact .heard rfl
  · cases hr
    exact .transfer htransfer
  · obtain ⟨hform, rfl⟩ := require_pure_eq_ok.mp hr
    exact .activation (Bool.or_eq_true_iff.mp hform)
  · obtain ⟨hform, rfl⟩ := require_pure_eq_ok.mp hr
    exact .delete hform
  · exact handleProcessData_handled hr

theorem tryHandleClientMessage_handled (hr : tryHandleClientMessage cbs s msg = .ok r) :
    Handled s msg r.1 := by
  simp only [tryHandleClientMessage, check_bind_eq_ok] at hr
  exact dispatch_handled hr.2.2.2.2

theorem tryHandleWorkingSetMaster_eq (hr : s.tryHandleWorkingSetMaster msg = .ok r) :
    r.1 = s.ensureClient msg.source := by
  simp only [tryHandleWorkingSetMaster, check_bind_eq_ok] at hr
  obtain ⟨-, -, -, -, hr⟩ := hr
  cases hr
  rfl

section

variable (s : TaskControllerServer)

theorem step_start_clients : (s.step .start).clients = s.clients := by
  rw [step]
  split
  case h_1 s' hs' =>
    rw [start, check_bind_eq_ok] at hs'
    obtain ⟨-, hs'⟩ := hs'
    cases hs'
    rfl
  case h_2 => rfl

/-- The entries, grown older. -/
def aged (elapsedMs : ℕ) : List TCClientInfo :=
  s.clients.map fun c => { c with lastStatusMs := satAdd32 c.lastStatusMs elapsedMs }

/-- **What time does.** A disconnected server stands still; otherwise the
addresses of the entries that have reached the timeout go. -/
theorem update_clients (elapsedMs : ℕ) : s.state = .disconnected ∧ (s.update elapsedMs).1 = s ∨
      (s.update elapsedMs).1.clients = (s.aged elapsedMs).filter fun c =>
        !(((s.aged elapsedMs).filter fun c => decide (tcClientTimeoutMs ≤ c.lastStatusMs)).map
          (·.address)).contains c.address := by
  rw [update]
  split
  next hs => exact .inl ⟨hs, rfl⟩
  · dsimp only
    split <;> exact .inr rfl

end

section

variable (h : s.Sound)
include h

theorem Sound.handled {s' : TaskControllerServer} (hs' : Handled s msg s') : s'.Sound := by
  have hensured := h.ensureClient msg.source
  cases hs' with
  | heard heq => exact hensured.of_clients heq
  | task =>
    exact hensured.modifyClient (fun _ => rfl) fun c hc _ => (hensured.entries c hc).of_pool rfl
  | transfer => exact h.storePool msg
  | activation => exact h.setActivation msg
  | delete => exact h.handleDeletePoolRequest msg
  | version => exact h.handleClientVersionResponse msg
  | misread => exact h

theorem Sound.handleClientMessage (cbs : ServerCallbacks) (msg : Message) :
    (handleClientMessage cbs s msg).1.Sound := by
  rw [TaskControllerServer.handleClientMessage]
  split
  case h_1 r hr => exact h.handled (tryHandleClientMessage_handled hr)
  case h_2 => exact h

theorem Sound.handleWorkingSetMaster (msg : Message) : (s.handleWorkingSetMaster msg).1.Sound := by
  rw [TaskControllerServer.handleWorkingSetMaster]
  split
  case h_1 r hr =>
    rw [tryHandleWorkingSetMaster_eq hr]
    exact h.ensureClient msg.source
  case h_2 => exact h

theorem Sound.update (elapsedMs : ℕ) : (s.update elapsedMs).1.Sound := by
  rcases s.update_clients elapsedMs with ⟨-, heq⟩ | heq
  · rw [heq]
    exact h
  constructor
  · have haged : (s.aged elapsedMs).map (·.address) = s.clients.map (·.address) := by
      rw [aged, map_map]
      rfl
    rw [heq]
    refine (filter_sublist.map _).nodup ?_
    rw [haged]
    exact h.distinct
  · intro c hc
    rw [heq] at hc
    obtain ⟨c', hc', rfl⟩ := mem_map.mp (mem_of_mem_filter hc)
    exact (h.entries c' hc').of_pool rfl

/-- **What one step keeps.** -/
theorem Sound.step (op : Op) : (s.step op).Sound := by
  cases op with
  | clientMessage cbs msg => exact h.handleClientMessage cbs msg
  | workingSetMaster msg => exact h.handleWorkingSetMaster msg
  | update elapsedMs => exact h.update elapsedMs
  | activatePool addr => exact h.activatePool addr
  | start => exact h.of_clients (step_start_clients s)
  | stop => exact ⟨nodup_nil, nofun⟩

end

theorem sound_new (config : TCServerConfig) : (new config).Sound :=
  ⟨nodup_nil, nofun⟩

/-! ## Refused transfers -/

/-- A transfer answered with an error changes nothing. -/
theorem storePool_refused (hcode : (s.storePool msg).2 ≠ .noErrors) : (s.storePool msg).1 = s := by
  have hst := stores_storePool s msg
  generalize s.storePool msg = r at hst hcode ⊢
  cases hst with
  | refused => rfl
  | duplicate | stored => exact absurd rfl hcode

/-- A message with the transfer command is a transfer, or is ignored. -/
theorem handleClientMessage_transfer (hcmd : byteAt msg.data 0 = Cmd.objectPoolTransfer) :
    handleClientMessage cbs s msg = (s, []) ∨
      handleClientMessage cbs s msg = s.handleObjectPoolTransfer msg := by
  rw [handleClientMessage]
  split
  case h_1 r hr =>
    simp only [tryHandleClientMessage, check_bind_eq_ok] at hr
    obtain ⟨-, -, -, -, hr⟩ := hr
    rw [dispatch, hcmd] at hr
    cases hr
    exact .inr rfl
  case h_2 => exact .inl rfl

theorem handleClientMessage_refused (hcmd : byteAt msg.data 0 = Cmd.objectPoolTransfer)
    {o : Outbound} (ho : o ∈ (handleClientMessage cbs s msg).2) (hcode : byteAt o.data 1 ≠ 0) :
    (handleClientMessage cbs s msg).1 = s := by
  rcases handleClientMessage_transfer hcmd with h | h
  · rw [h]
  · rw [h] at ho ⊢
    have ho' : o = answer Cmd.objectPoolResponse (s.storePool msg).2.asU8 msg.source :=
      mem_singleton.mp ho
    refine storePool_refused fun hno => hcode ?_
    rw [ho', hno]
    rfl

/-- **Registry integrity.** In every state a server can reach, entries have
distinct addresses, every pool is empty or is what its bytes are read as
and valid, an activated pool has a device, and a transfer that is answered
with an error leaves the pools as they are. -/
theorem registry_integrity (config : TCServerConfig) (ops : List Op) :
    ((run step (new config) ops).clients.map (·.address)).Nodup ∧
      (∀ c ∈ (run step (new config) ops).clients,
        ((c.ddop = {} ∧ c.lastDdopTransfer = []) ∨
          (DDOP.deserialize c.lastDdopTransfer = .ok c.ddop ∧ c.ddop.validate = .ok ())) ∧
        (c.poolActivated = true → c.ddop.devices ≠ [])) ∧
      ∀ cbs msg, byteAt msg.data 0 = Cmd.objectPoolTransfer →
        ∀ o ∈ (handleClientMessage cbs (run step (new config) ops) msg).2, byteAt o.data 1 ≠ 0 →
          (handleClientMessage cbs (run step (new config) ops) msg).1.clients.map TCClientInfo.pool
            = (run step (new config) ops).clients.map TCClientInfo.pool := by
  have hsound : (run step (new config) ops).Sound :=
    run_induction (sound_new config) (fun _ op h => h.step op) ops
  refine ⟨hsound.distinct, fun c hc => ⟨(hsound.entries c hc).pool,
    (hsound.entries c hc).activated⟩,
    fun cbs msg hcmd o ho hcode => ?_⟩
  rw [handleClientMessage_refused hcmd ho hcode]

end TaskControllerServer

end Machbus.Tc
