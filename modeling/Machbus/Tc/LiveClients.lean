import Machbus.Tc.PoolRegistry
/-!
# Live clients

The server forgets a client that has been silent for the timeout. What
counts as a sign of life is what passes through `ensureClient`, and not
every message the server accepts does: a version response, a request to
activate, deactivate or delete the pool, a transfer that is refused and a
peer control that is not understood leave the age of the sender as it is.
A client is kept for the timeout after a message exactly when the message
is of no such kind, or finds the client new.
-/

namespace Machbus.Tc.TaskControllerServer

open List

variable {s : TaskControllerServer} {addr : Address} {cbs : ServerCallbacks} {msg : Message}
  {r : TaskControllerServer × List Outbound} {n : ℕ}

section

variable (s : TaskControllerServer)

/-- Who the clients are and how long each was not heard of. -/
def ages : List (Address × ℕ) :=
  s.clients.map fun c => (c.address, c.lastStatusMs)

/-- **Not a sign of life.** The messages that do not touch the age of the
client that sent them when they are accepted. -/
def Unheeded (msg : Message) : Prop :=
  byteAt msg.data 0 ∈ [Cmd.versionResponse, Cmd.activatePool, Cmd.deletePool] ∨
  (byteAt msg.data 0 = Cmd.objectPoolTransfer ∧
    (msg.data.length ≤ 8 ∨ ∃ e, acceptedPool (msg.data.drop 1) = .error e)) ∨
  (ProcessDataCommands.tryFromU8 (byteAt msg.data 0) = some .peerControlAssignment ∧
    ∃ e, PeerControlAssignment.decode msg.data msg.source msg.destination = .error e)

/-- A message of a client that was not heard of for a while is a sign of
life. -/
def Heeds : Op → Prop
  | .clientMessage _ msg =>
    (∃ c ∈ s.clients, c.address = msg.source ∧ 0 < c.lastStatusMs) → ¬Unheeded msg
  | _ => True

/-- A message from an address that the server accepts. -/
def Accepts (addr : Address) : Op → Prop
  | .clientMessage cbs msg => msg.source = addr ∧ ∃ r, tryHandleClientMessage cbs s msg = .ok r
  | .workingSetMaster msg => msg.source = addr ∧ ∃ r, s.tryHandleWorkingSetMaster msg = .ok r
  | _ => False

def Op.elapsed : Op → ℕ
  | .update elapsedMs => elapsedMs
  | _ => 0

/-- The client was there, and the update took it out. -/
def Dropped (elapsedMs : ℕ) (addr : Address) : Prop :=
  addr ∈ s.clients.map (·.address) ∧ addr ∉ (s.update elapsedMs).1.clients.map (·.address)

end

/-! ## Ages -/

theorem ages_modifyClient {f : TCClientInfo → TCClientInfo}
    (hf : ∀ c, ((f c).address, (f c).lastStatusMs) = (c.address, c.lastStatusMs)) :
    (s.modifyClient addr f).ages = s.ages :=
  map_modifyFirst hf

theorem activatePool_ages (s : TaskControllerServer) (addr : Address) :
    (s.activatePool addr).1.ages = s.ages := by
  rw [activatePool]
  split
  · split
    · exact ages_modifyClient fun _ => rfl
    · rfl
  · rfl

theorem setActivation_ages (s : TaskControllerServer) (msg : Message) :
    (s.setActivation msg).1.ages = s.ages := by
  rw [setActivation]
  split
  · split
    · exact ages_modifyClient fun _ => rfl
    · rfl
  · exact activatePool_ages s _

/-- **What an accepted message does to the ages**: it is a sign of life of
its sender, or it leaves all as they are. -/
theorem Handled.ages {s' : TaskControllerServer} (h : Handled s msg s') :
    s'.ages = (s.ensureClient msg.source).ages ∨ s'.ages = s.ages ∧ Unheeded msg := by
  cases h with
  | heard heq => exact .inl (congrArg (map _) heq)
  | task => exact .inl (ages_modifyClient fun _ => rfl)
  | transfer hcmd =>
    have hst := stores_storePool s msg
    generalize s.storePool msg = r at hst ⊢
    cases hst with
    | refused h => exact .inr ⟨rfl, .inr (.inl ⟨hcmd, h⟩)⟩
    | duplicate => exact .inl rfl
    | stored => exact .inl (ages_modifyClient fun _ => rfl)
  | activation hform =>
    have hcmd : byteAt msg.data 0 = Cmd.activatePool := by
      rcases hform with h | h
      · simp_all [isActivatePoolRequest]
      · simp_all [isDeactivatePoolRequest]
    exact .inr ⟨setActivation_ages s msg, .inl (by simp [hcmd])⟩
  | delete hform =>
    have hcmd : byteAt msg.data 0 = Cmd.deletePool := by
      simp_all [isDeletePoolRequest]
    exact .inr ⟨ages_modifyClient fun _ => rfl, .inl (by simp [hcmd])⟩
  | version hcmd => exact .inr ⟨ages_modifyClient fun _ => rfl, .inl (by simp [hcmd])⟩
  | misread hcmd he => exact .inr ⟨rfl, .inr (.inr ⟨hcmd, _, he⟩)⟩

/-- A transfer that is refused leaves the server as it is: the pool that a
client has was accepted. -/
theorem Sound.storePool_refused (hs : s.Sound)
    (h : msg.data.length ≤ 8 ∨ ∃ e, acceptedPool (msg.data.drop 1) = .error e) :
    (s.storePool msg).1 = s := by
  rcases h with hlen | ⟨e, he⟩
  · rw [TaskControllerServer.storePool, if_pos hlen]
  have hst := stores_storePool s msg
  generalize s.storePool msg = r at hst ⊢
  cases hst with
  | refused => rfl
  | duplicate hc _ hlast hdev =>
    rcases (hs.entries _ hc).pool with ⟨hnone, -⟩ | ⟨hread, hvalid⟩
    · rw [hnone] at hdev
      exact absurd rfl hdev
    · rw [acceptedPool, ← hlast, hread] at he
      simp only [bind, Except.bind, hvalid] at he
      cases he
  | stored hpool =>
    rw [he] at hpool
    cases hpool

/-- **And each of those kinds does.** -/
theorem ages_of_unheeded (hs : s.Sound) (hr : tryHandleClientMessage cbs s msg = .ok r)
    (h : Unheeded msg) : r.1.ages = s.ages := by
  simp only [tryHandleClientMessage, check_bind_eq_ok] at hr
  obtain ⟨-, -, -, -, hr⟩ := hr
  rw [dispatch] at hr
  rcases h with hcmd | ⟨hcmd, hrefused⟩ | ⟨hcmd, e, he⟩
  · simp only [mem_cons, not_mem_nil, or_false] at hcmd
    rcases hcmd with hcmd | hcmd | hcmd <;> simp only [hcmd] at hr
    · obtain ⟨-, rfl⟩ := require_pure_eq_ok.mp hr
      exact ages_modifyClient fun _ => rfl
    · obtain ⟨-, rfl⟩ := require_pure_eq_ok.mp hr
      exact setActivation_ages s msg
    · obtain ⟨-, rfl⟩ := require_pure_eq_ok.mp hr
      exact ages_modifyClient fun _ => rfl
  · simp only [hcmd] at hr
    cases hr
    exact congrArg ages (hs.storePool_refused hrefused)
  · have hne : ∀ c, ProcessDataCommands.tryFromU8 c ≠ some .peerControlAssignment →
        byteAt msg.data 0 ≠ c := by
      rintro c hc rfl
      exact hc hcmd
    iterate 7 rw [if_neg (hne _ (by decide))] at hr
    simp only [handleProcessData, hcmd] at hr
    obtain ⟨-, rfl⟩ := require_pure_eq_ok.mp hr
    rw [handlePeerControl, he]

/-! ## How old a client can be -/

/-- No entry of the address is older than that. -/
def Within (addr : Address) (n : ℕ) (s : TaskControllerServer) : Prop :=
  ∀ p ∈ s.ages, p.1 = addr → p.2 ≤ n

theorem mem_ages_ensureClient {a : Address} {p : Address × ℕ} (h : p ∈ (s.ensureClient a).ages) :
    p ∈ s.ages ∨ p = (a, 0) := by
  obtain ⟨c, hc, rfl⟩ := mem_map.mp h
  rw [ensureClient] at hc
  split at hc
  · rcases mem_modifyFirst hc with hc | ⟨c', -, haddr, rfl⟩
    · exact .inl (mem_map_of_mem hc)
    · exact .inr (by rw [← beq_iff_eq.mp haddr])
  · rcases mem_append.mp hc with hc | hc
    · exact .inl (mem_map_of_mem hc)
    · exact .inr (by rw [mem_singleton.mp hc])

theorem Within.ensureClient (h : Within addr n s) (a : Address) :
    Within addr n (s.ensureClient a) := by
  intro p hp haddr
  rcases mem_ages_ensureClient hp with hp | rfl
  · exact h p hp haddr
  · exact Nat.zero_le n

/-- With one entry per address, a sign of life makes the client new. -/
theorem within_ensureClient (h : s.Sound) (addr : Address) :
    Within addr 0 (s.ensureClient addr) := by
  intro p hp haddr
  obtain ⟨c, hc, rfl⟩ := mem_map.mp hp
  -- the entry a lookup finds is the only one of this address
  obtain ⟨c', hfind, hage⟩ : ∃ c', (s.ensureClient addr).findClient addr = some c' ∧
      c'.lastStatusMs = 0 :=
    ⟨_, findClient_ensureClient s addr, by cases s.findClient addr <;> rfl⟩
  have hkey : c'.address = addr := by simpa using List.find?_some hfind
  have heq : c = c' := inj_on_of_nodup_map (h.ensureClient addr).distinct hc
    (mem_of_find?_eq_some hfind) (haddr.trans hkey.symm)
  rw [heq]
  exact hage.le

theorem satAdd32_le (a b : ℕ) : satAdd32 a b ≤ a + b := min_le_left _ _

section

variable (h : Within addr n s)
include h

theorem Within.update (elapsedMs : ℕ) : Within addr (n + elapsedMs) (s.update elapsedMs).1 := by
  intro p hp haddr
  rcases s.update_clients elapsedMs with ⟨-, heq⟩ | heq
  · rw [heq] at hp
    exact (h p hp haddr).trans (Nat.le_add_right ..)
  · rw [ages, heq] at hp
    obtain ⟨c, hc, rfl⟩ := mem_map.mp hp
    obtain ⟨c', hc', rfl⟩ := mem_map.mp (mem_of_mem_filter hc)
    exact (satAdd32_le ..).trans (Nat.add_le_add_right (h _ (mem_map_of_mem hc') haddr) _)

theorem Within.of_ages {s' : TaskControllerServer} (heq : s'.ages = s.ages) : Within addr n s' := by
  intro p hp
  rw [heq] at hp
  exact h p hp

theorem Within.handleClientMessage (cbs : ServerCallbacks) (msg : Message) :
    Within addr n (handleClientMessage cbs s msg).1 := by
  rw [TaskControllerServer.handleClientMessage]
  split
  case h_1 r hr =>
    rcases (tryHandleClientMessage_handled hr).ages with heq | ⟨heq, -⟩
    · exact (h.ensureClient msg.source).of_ages heq
    · exact h.of_ages heq
  case h_2 => exact h

/-- **Only time ages a client.** -/
theorem Within.step (op : Op) : Within addr (n + op.elapsed) (s.step op) := by
  cases op with
  | clientMessage cbs msg => exact h.handleClientMessage cbs msg
  | workingSetMaster msg =>
    rw [TaskControllerServer.step, handleWorkingSetMaster]
    split
    case h_1 r hr =>
      rw [tryHandleWorkingSetMaster_eq hr]
      exact h.ensureClient msg.source
    case h_2 => exact h
  | update elapsedMs => exact h.update elapsedMs
  | activatePool a => exact h.of_ages (activatePool_ages s a)
  | start => exact h.of_ages (congrArg (map _) (step_start_clients s))
  | stop => exact fun _ hc => absurd hc not_mem_nil

theorem Within.run (ops : List Op) :
    Within addr (n + (ops.map Op.elapsed).sum) (run TaskControllerServer.step s ops) := by
  induction ops generalizing s n with
  | nil => exact h
  | cons op ops ih =>
    rw [map_cons, sum_cons, ← Nat.add_assoc]
    exact ih (h.step op)

/-- A client that goes has been silent for the timeout. -/
theorem Within.dropped {elapsedMs : ℕ} (hgone : Dropped s elapsedMs addr) :
    tcClientTimeoutMs ≤ n + elapsedMs := by
  obtain ⟨hmem, hgone⟩ := hgone
  rcases s.update_clients elapsedMs with ⟨-, heq⟩ | heq
  · rw [heq] at hgone
    exact absurd hmem hgone
  obtain ⟨c, hc, rfl⟩ := mem_map.mp hmem
  -- what takes the entry out is an entry of its address that is too old
  have hlost : c.address ∈ ((s.aged elapsedMs).filter
      fun c => decide (tcClientTimeoutMs ≤ c.lastStatusMs)).map (·.address) := by
    by_contra hkept
    refine hgone ?_
    rw [heq]
    refine mem_map.mpr ⟨_, mem_filter.mpr ⟨mem_map_of_mem hc, ?_⟩, rfl⟩
    simpa using hkept
  obtain ⟨c', hc', haddr⟩ := mem_map.mp hlost
  obtain ⟨hmem', hold⟩ := mem_filter.mp hc'
  obtain ⟨c'', hc'', rfl⟩ := mem_map.mp hmem'
  exact (of_decide_eq_true hold).trans
    ((satAdd32_le ..).trans (Nat.add_le_add_right (h _ (mem_map_of_mem hc'') haddr) _))

end

/-- A sign of life that is heeded. An unknown sender has no age. -/
theorem within_step_of_accepts {op : Op} (hsound : s.Sound) (hacc : Accepts s addr op)
    (hheeds : Heeds s op) : Within addr 0 (s.step op) := by
  cases op with
  | clientMessage cbs msg =>
    obtain ⟨rfl, r, hr⟩ := hacc
    rw [step, handleClientMessage, hr]
    rcases (tryHandleClientMessage_handled hr).ages with heq | ⟨heq, hunheeded⟩
    · exact (within_ensureClient hsound _).of_ages heq
    · intro p hp haddr
      rw [heq] at hp
      obtain ⟨c, hc, rfl⟩ := mem_map.mp hp
      by_contra hage
      exact hheeds ⟨c, hc, haddr, Nat.pos_of_ne_zero fun h => hage h.le⟩ hunheeded
  | workingSetMaster msg =>
    obtain ⟨rfl, r, hr⟩ := hacc
    rw [step, handleWorkingSetMaster, hr]
    rw [tryHandleWorkingSetMaster_eq hr]
    exact within_ensureClient hsound _
  | update | activatePool | start | stop => exact hacc.elim

/-! ## The exact condition -/

/-- An update as long as the rest of the timeout takes out a client that
has aged. -/
theorem dropped_of_age {p : Address × ℕ} (hp : p ∈ s.ages) (hs : s.state ≠ .disconnected) :
    Dropped s (tcClientTimeoutMs - p.2) p.1 := by
  obtain ⟨c, hc, rfl⟩ := mem_map.mp hp
  refine ⟨mem_map_of_mem hc, fun hkept => ?_⟩
  rcases s.update_clients (tcClientTimeoutMs - c.lastStatusMs) with ⟨hoff, -⟩ | heq
  · exact hs hoff
  rw [heq] at hkept
  obtain ⟨c', hc', haddr⟩ := mem_map.mp hkept
  refine absurd (mem_filter.mp hc').2 ?_
  have hold : tcClientTimeoutMs ≤
      satAdd32 c.lastStatusMs (tcClientTimeoutMs - c.lastStatusMs) :=
    le_min (by omega) (by decide)
  rw [haddr, Bool.not_eq_true', Bool.not_eq_false, contains_iff_mem]
  exact mem_map.mpr ⟨_, mem_filter.mpr ⟨mem_map_of_mem hc, decide_eq_true hold⟩, rfl⟩

/-- **Live clients are kept** after a message that is heeded: one that an
update drops has been silent for the timeout since. Unless the server is
disconnected, and stands still, they are kept only then. -/
theorem live_clients_kept (config : TCServerConfig) (pre : List Op) (op : Op) (addr : Address)
    (hacc : Accepts (run step (new config) pre) addr op) :
    let s := run step (new config) pre
    let kept := ∀ post elapsedMs, Dropped (run step s (op :: post)) elapsedMs addr →
      tcClientTimeoutMs ≤ (post.map Op.elapsed).sum + elapsedMs
    (Heeds s op → kept) ∧ ((s.step op).state ≠ .disconnected → kept → Heeds s op) := by
  intro s kept
  have hsound : s.Sound := run_induction (sound_new config) (fun _ op h => h.step op) pre
  refine ⟨fun hheeds post elapsedMs hgone => ?_, fun hon hkept => ?_⟩
  · have hrun := (within_step_of_accepts hsound hacc hheeds).run post
    simpa using hrun.dropped hgone
  cases op with
  | clientMessage cbs msg =>
    rintro ⟨c, hc, haddr, hage⟩ hunheeded
    obtain ⟨rfl, r, hr⟩ := hacc
    have hages : (s.step (.clientMessage cbs msg)).ages = s.ages := by
      rw [step, handleClientMessage, hr]
      exact ages_of_unheeded hsound hr hunheeded
    have hmem : (c.address, c.lastStatusMs) ∈ (s.step (.clientMessage cbs msg)).ages :=
      hages ▸ mem_map_of_mem hc
    -- the rest of the timeout is all that the client has left
    have hearly := hkept [] _ (haddr ▸ dropped_of_age hmem hon)
    rw [map_nil, sum_nil, Nat.zero_add] at hearly
    have htimeout : 0 < tcClientTimeoutMs := by decide
    dsimp only at hearly
    omega
  | _ => trivial

/-- A frame of one client to everyone. -/
def clientFrame (pgn : ℕ) (bytes : List UInt8) : Message :=
  ⟨pgn, padded8 bytes, 0x26, broadcastAddress, .default, 0⟩

/-- The client asks for the capabilities of the server. -/
def asking : Op := .clientMessage {} (clientFrame pgnEcuToTc [Cmd.versionRequest])

/-- A client is heard of, and then not for a while. -/
def silentFor (elapsedMs : ℕ) : List Op :=
  [.start, .workingSetMaster (clientFrame pgnWorkingSetMaster [1]), .update elapsedMs]

/-- A client that was last heard of five seconds before asks, and goes a
timeout later. -/
theorem live_clients_kept_asking :
    Dropped (run step (new { numBooms := 1, numSections := 1 })
        (silentFor 5000 ++ [asking, .update 5000])) 1000 0x26 ∧
      tcClientTimeoutMs ≤ 5000 + 1000 := by
  have hgone : Dropped (run step (new { numBooms := 1, numSections := 1 })
      (silentFor 5000 ++ [asking, .update 5000])) 1000 0x26 := by
    unfold Dropped
    decide +kernel
  refine ⟨hgone, (live_clients_kept _ (silentFor 5000) asking 0x26 ⟨rfl, _, rfl⟩).1 ?_
    [.update 5000] 1000 hgone⟩
  rintro - (h | ⟨h, -⟩ | ⟨h, -⟩) <;> exact absurd h (by decide +kernel)

/-- **An accepted message that is not heeded.** A client asks to activate
its pool a millisecond before the timeout, is answered, and is dropped
when that millisecond has passed. -/
theorem activation_not_heeded :
    Accepts (run step (new { numBooms := 1, numSections := 1 }) (silentFor 5999)) 0x26
        (.clientMessage {} (clientFrame pgnEcuToTc [Cmd.activatePool])) ∧
      Dropped (run step (new { numBooms := 1, numSections := 1 }) (silentFor 5999 ++
        [.clientMessage {} (clientFrame pgnEcuToTc [Cmd.activatePool])])) 1 0x26 := by
  refine ⟨⟨rfl, _, rfl⟩, ?_⟩
  unfold Dropped
  decide +kernel

end Machbus.Tc.TaskControllerServer
