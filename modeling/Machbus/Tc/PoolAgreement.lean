import Machbus.Tc.Helpers.Replies
import Machbus.Tc.RoundTrip
/-!
# Client and server agree on the pool

A client uploads its pool, activates it, and replaces it by deactivating,
deleting and uploading again. Each of these steps is one request and one
answer, and the client makes no further request before it has the answer.
So at any time there is at most one frame about the pool under way, and
the state of the client says which (`Phase`). Whatever the schedule, a
connected client has its pool at the server, activated.
-/

namespace Machbus.Tc

open List TaskControllerClient

/-! ## The protocol -/

/-- The server holds the pool as it is written at a version. -/
def Holds (v : UInt8) (d : DDOP) (held : Option (DDOP × Bool)) (active : Bool) : Prop :=
  ∃ pool, held = some (pool, active) ∧ pool.ReadsAs d v

/-- The states in which nothing is known of the server's pool and no
frame about it is under way. -/
def TCState.isIdle : TCState → Bool
  | .disconnected | .waitForServerStatus | .sendWorkingSetMaster | .requestVersion
  | .waitForVersion | .requestStructureLabel | .waitForStructureLabel | .transferDdop
  | .deactivatePool | .deletePool => true
  | _ => false

/-- **Where the two parties stand**: the state of the client, and the
requests and answers about the pool that are under way. -/
inductive Phase (v : UInt8) (d : DDOP) (held : Option (DDOP × Bool)) :
    TCState → List Request → List Reply → Prop
  /-- A client that gave up ignores what is still under way. -/
  | lost {requests replies} : Phase v d held .disconnected requests replies
  | idle {st} (h : st.isIdle = true) : Phase v d held st [] []
  | transferring {bytes} (h : d.serializeForVersion v = .ok bytes) :
      Phase v d held .waitForPoolResponse [.transfer bytes] []
  | transferred {e} (h : e = .noErrors → ∃ active, Holds v d held active) :
      Phase v d held .waitForPoolResponse [] [.pool e]
  | stored {active} (h : Holds v d held active) : Phase v d held .activatePool [] []
  | activating {active} (h : Holds v d held active) :
      Phase v d held .waitForActivation [.activate] []
  | activated {e} (h : e = .noErrors → Holds v d held true) :
      Phase v d held .waitForActivation [] [.activation e]
  | connected (h : Holds v d held true) : Phase v d held .connected [] []
  | deactivating : Phase v d held .waitForDeactivation [.deactivate] []
  | deactivated {e} : Phase v d held .waitForDeactivation [] [.activation e]
  | deleting : Phase v d held .waitForDeletePool [.delete] []
  | deleted : Phase v d held .waitForDeletePool [] [.deleted]

namespace Phase

open TaskControllerClient (Tick after after_disconnected)

variable {v : UInt8} {d : DDOP} {held held' : Option (DDOP × Bool)} {st st' : TCState}
  {requests : List Request} {replies : List Reply} {r : Request} {q : Reply}

theorem Holds.mono {active : Bool} (h : Holds v d held active)
    (hkeep : ∀ y, held = some y → held' = some y) : Holds v d held' active := by
  obtain ⟨pool, hheld, hread⟩ := h
  exact ⟨pool, hkeep _ hheld, hread⟩

theorem mono (h : Phase v d held st requests replies)
    (hkeep : ∀ y, held = some y → held' = some y) : Phase v d held' st requests replies := by
  cases h with
  | lost => exact .lost
  | idle h => exact .idle h
  | transferring h => exact .transferring h
  | transferred h => exact .transferred fun he => (h he).imp fun _ h => Holds.mono h hkeep
  | stored h => exact .stored (Holds.mono h hkeep)
  | activating h => exact .activating (Holds.mono h hkeep)
  | activated h => exact .activated fun he => Holds.mono (h he) hkeep
  | connected h => exact .connected (Holds.mono h hkeep)
  | deactivating => exact .deactivating
  | deactivated => exact .deactivated
  | deleting => exact .deleting
  | deleted => exact .deleted

/-- A pool read back from the bytes it was written to. -/
theorem holds_of_deserialize {bytes : List UInt8} {pool : DDOP} {active : Bool}
    (hd : d.RoundTrips v) (hwrite : d.serializeForVersion v = .ok bytes)
    (hread : DDOP.deserialize bytes = .ok pool) : Holds v d (some (pool, active)) active := by
  obtain ⟨data, d', hdata, hd', hsame⟩ := hd
  rw [hwrite, Except.ok.injEq] at hdata
  rw [← hdata, hread, Except.ok.injEq] at hd'
  exact ⟨pool, rfl, by rw [hd']; exact hsame⟩

/-- **The server takes a request about the pool.** -/
theorem request (h : Phase v d held st (r :: requests) replies) (hd : d.RoundTrips v)
    (hr : r.isPool = true) {answers : List Reply}
    (heffect : TaskControllerServer.Effect r held held' answers) :
    Phase v d held' st requests (replies ++ answers.filter Reply.isPool) := by
  cases h with
  | lost => exact .lost
  | transferring hwrite =>
    cases heffect with
    | neutral hno => exact absurd hr (by simp [hno])
    | refused => exact .transferred nofun
    | stored hread => exact .transferred fun _ => ⟨_, holds_of_deserialize hd hwrite hread⟩
  | activating h =>
    cases heffect with
    | neutral hno => exact absurd hr (by simp [hno])
    | activated =>
      obtain ⟨pool, hheld, hread⟩ := h
      cases hheld
      exact .activated fun _ => ⟨_, rfl, hread⟩
    | notActivated => exact .activated nofun
  | deactivating =>
    cases heffect with
    | neutral hno => exact absurd hr (by simp [hno])
    | deactivated => exact .deactivated
  | deleting =>
    cases heffect with
    | neutral hno => exact absurd hr (by simp [hno])
    | deleted => exact .deleted

/-- **The client takes an answer about the pool.** -/
theorem reply (h : Phase v d held st requests (q :: replies)) :
    Phase v d held (after q st) requests replies := by
  cases h with
  | lost =>
    rw [after_disconnected]
    exact .lost
  | @transferred e h =>
    cases e with
    | noErrors =>
      obtain ⟨_, h⟩ := h rfl
      exact .stored h
    | anyOtherError => exact .lost
  | @activated e h =>
    cases e with
    | noErrors => exact .connected (h rfl)
    | thereAreErrorsInTheDDOP => exact .lost
  | @deactivated e =>
    cases e with
    | noErrors => exact .idle rfl
    | thereAreErrorsInTheDDOP => exact .lost
  | deleted => exact .idle rfl

section

variable (h : Phase v d held st requests replies)
include h

/-- An answer that is not about the pool leads from one idle state to
another. -/
theorem neutralReply (hq : q.isPool = false) : Phase v d held (after q st) requests replies := by
  have hafter : after q st = st ∨ (after q st).isIdle = true ∧
      (st = .waitForServerStatus ∨ st = .waitForVersion ∨ st = .waitForStructureLabel) := by
    cases q <;> cases st <;> first | exact .inl rfl | exact .inr ⟨rfl, by decide⟩ | cases hq
  rcases hafter with hst | ⟨hidle, rfl | rfl | rfl⟩
  · rw [hst]
    exact h
  all_goals
    cases h with
    | idle => exact .idle hidle

/-- **Time passes for the client.** -/
theorem tick {asked : List Request} (ht : Tick v d st st' asked) :
    Phase v d held st' (requests ++ asked.filter Request.isPool) replies := by
  cases ht with
  | wait => rw [filter_nil, append_nil]; exact h
  | lapse => exact .lost
  | introduce | askVersion | askLabel =>
    cases h with
    | idle => exact .idle rfl
  | transfer hwrite =>
    cases h with
    | idle => exact .transferring hwrite
  | activate =>
    cases h with
    | idle hno => cases hno
    | stored h => exact .activating h
  | deactivate =>
    cases h with
    | idle => exact .deactivating
  | delete =>
    cases h with
    | idle => exact .deleting
  | report =>
    cases h with
    | idle hno => cases hno
    | connected h => exact .connected h

theorem ne_requestLocalizationLabel : st ≠ .requestLocalizationLabel := by
  rintro rfl
  cases h with
  | idle h => cases h

end

/-- A connected client has nothing under way. -/
theorem of_connected (h : Phase v d held .connected requests replies) :
    requests = [] ∧ replies = [] ∧ Holds v d held true := by
  cases h with
  | idle h => cases h
  | connected h => exact ⟨rfl, rfl, h⟩

end Phase

/-! ## The exchange -/

namespace Exchange

variable {x : Exchange} {config : TCServerConfig} {caps : TCClientCapabilities} {fresh : Bool}
  {l : State}

/-- A request as it travels. -/
def asks (x : Exchange) (r : Request) : Message := (r.outbound x.server).message x.client

/-- An answer as it travels. -/
def answers (x : Exchange) (config : TCServerConfig) (q : Reply) : Message :=
  (q.outbound config x.client).message x.server

/-- The version both ends can read. -/
def version (caps : TCClientCapabilities) (config : TCServerConfig) : UInt8 :=
  min caps.version config.tcVersion

/-- **What holds of a client and a server throughout.** `fresh` says that
the client was not told to connect yet. -/
structure Session (x : Exchange) (config : TCServerConfig) (caps : TCClientCapabilities)
    (fresh : Bool) (requests : List Request) (replies : List Reply) (l : State) : Prop where
  ready : l.right.Ready config
  bound : l.left.Bound config x.server
  capabilities : l.left.capabilities = caps
  roundTrips : l.left.ddop.RoundTrips (version caps config)
  toRight : l.toRight = requests.map x.asks
  toLeft : l.toLeft = replies.map (x.answers config)
  phase : Phase (version caps config) l.left.ddop (l.right.poolOf x.client) l.left.state
    (requests.filter Request.isPool) (replies.filter Reply.isPool)
  unused : fresh = true → l.left.state = .disconnected ∧
    requests.filter Request.isPool = [] ∧ replies.filter Reply.isPool = []

variable {requests : List Request} {replies : List Reply}

theorem filter_isPool_eq_nil {replies : List Reply} (h : ∀ q ∈ replies, q.isPool = false) :
    replies.filter Reply.isPool = [] :=
  filter_eq_nil_iff.mpr fun q hq => by simp [h q hq]

section

variable (ha : Usable x.client) (hb : Usable x.server)
  (h : Session x config caps fresh requests replies l)
include ha hb h

/-- The server takes the oldest request. -/
theorem Session.deliverRight : ∃ requests' replies',
      Session x config caps fresh requests' replies' (x.step l .deliverRight) := by
  cases requests with
  | nil =>
    rw [step, Link.step_deliverRight_nil h.toRight]
    exact ⟨_, _, h⟩
  | cons r requests =>
    obtain ⟨s', out, hreceive, hready, heffect⟩ :=
      TaskControllerServer.receive_request x.serverCallbacks h.ready ha hb r
    have hrecv : x.parties.recvRight l.right (x.asks r) = (s', out.map (x.answers config)) := by
      change sent x.server (l.right.receive _ _) = _
      rw [asks, hreceive, sent, map_map]
      rfl
    rw [step, Link.step_deliverRight h.toRight hrecv]
    have hphase := h.phase
    have hunused := h.unused
    refine ⟨requests, replies ++ out, hready, h.bound, h.capabilities, h.roundTrips, rfl, ?_,
      ?_, ?_⟩
    · rw [h.toLeft, map_append]
    · rw [filter_append]
      by_cases hr : r.isPool = true
      · rw [filter_cons_of_pos hr] at hphase
        exact hphase.request h.roundTrips hr heffect
      rw [filter_cons_of_neg hr] at hphase
      obtain ⟨hkeep, hout⟩ := heffect.neutral_of (by simpa using hr)
      rw [filter_isPool_eq_nil hout, append_nil]
      exact hphase.mono hkeep
    · intro hfresh
      obtain ⟨hst, hrequests, hreplies⟩ := hunused hfresh
      have hr : ¬ r.isPool = true := filter_eq_nil_iff.mp hrequests r mem_cons_self
      rw [filter_cons_of_neg hr] at hrequests
      obtain ⟨-, hout⟩ := heffect.neutral_of (by simpa using hr)
      refine ⟨hst, hrequests, ?_⟩
      rw [filter_append, hreplies, filter_isPool_eq_nil hout]
      rfl

/-- The client takes the oldest answer. -/
theorem Session.deliverLeft : ∃ requests' replies',
      Session x config caps fresh requests' replies' (x.step l .deliverLeft) := by
  cases replies with
  | nil =>
    rw [step, Link.step_deliverLeft_nil h.toLeft]
    exact ⟨_, _, h⟩
  | cons q replies =>
    obtain ⟨c', out, hreceive, hanswered, hout⟩ :=
      handleTcMessage_reply x.clientCallbacks ha hb h.ready.options h.bound q
    have hrecv : x.parties.recvLeft l.left (x.answers config q) = (c', out.map x.asks) := by
      change sent x.client (l.left.handleTcMessage _ _) = _
      rw [answers, hreceive, sent, map_map]
      rfl
    have hnone : out.filter Request.isPool = [] :=
      filter_eq_nil_iff.mpr fun r hr => by simp [hout r hr]
    rw [step, Link.step_deliverLeft h.toLeft hrecv]
    have hphase := h.phase
    have hunused := h.unused
    refine ⟨requests ++ out, replies, h.ready, hanswered.bound, ?_, ?_, ?_, rfl, ?_, ?_⟩
    · exact hanswered.capabilities.trans h.capabilities
    · rw [hanswered.ddop]
      exact h.roundTrips
    · rw [h.toRight, map_append]
    · rw [hanswered.ddop, hanswered.state, filter_append, hnone, append_nil]
      by_cases hq : q.isPool = true
      · rw [filter_cons_of_pos hq] at hphase
        exact hphase.reply
      · rw [filter_cons_of_neg hq] at hphase
        exact hphase.neutralReply (by simpa using hq)
    · intro hfresh
      obtain ⟨hst, hrequests, hreplies⟩ := hunused hfresh
      have hq : ¬ q.isPool = true := filter_eq_nil_iff.mp hreplies q mem_cons_self
      rw [filter_cons_of_neg hq] at hreplies
      refine ⟨?_, ?_, hreplies⟩
      · rw [hanswered.state, hst, after_disconnected]
      · rw [filter_append, hrequests, hnone]
        rfl

end

/-- Time passes for the server. -/
theorem Session.serverUpdate (h : Session x config caps fresh requests replies l) {elapsedMs : ℕ}
    (hkeep : KeepsClients l (.right elapsedMs)) :
    ∃ requests' replies',
      Session x config caps fresh requests' replies' (x.step l (.right elapsedMs)) := by
  obtain ⟨out, htick, hout⟩ := l.right.tick_eq config x.client elapsedMs
  have hact : x.parties.actRight l.right elapsedMs
      = ((l.right.update elapsedMs).1, out.map (x.answers config)) := by
    change sent x.server (l.right.tick elapsedMs) = _
    rw [htick, sent, map_map]
    rfl
  rw [step, Link.step_right hact]
  refine ⟨requests, replies ++ out, h.ready.update elapsedMs, h.bound, h.capabilities,
    h.roundTrips, h.toRight, ?_, ?_, ?_⟩
  · rw [h.toLeft, map_append]
  · rw [TaskControllerServer.poolOf_update hkeep, filter_append, filter_isPool_eq_nil hout,
      append_nil]
    exact h.phase
  · intro hfresh
    obtain ⟨hst, hrequests, hreplies⟩ := h.unused hfresh
    refine ⟨hst, hrequests, ?_⟩
    rw [filter_append, hreplies, filter_isPool_eq_nil hout]
    rfl

/-- Time passes for the client. -/
theorem Session.clientUpdate (h : Session x config caps fresh requests replies l) (elapsedMs : ℕ) :
    ∃ requests' replies',
      Session x config caps fresh requests' replies' (x.step l (.left (.update elapsedMs))) := by
  obtain ⟨out, hsent, htick⟩ := update_tick h.bound h.phase.ne_requestLocalizationLabel elapsedMs
  obtain ⟨hddop, hcaps, haddr, hversion⟩ := fixed_eq_iff.mp (fixed_update (c := l.left) elapsedMs)
  have hact : x.parties.actLeft l.left (.update elapsedMs)
      = ((l.left.update elapsedMs).1, out.map x.asks) := by
    change sent x.client (l.left.update elapsedMs) = _
    rw [sent, hsent, map_map]
    rfl
  rw [h.capabilities] at htick
  rw [step, Link.step_left hact]
  refine ⟨requests ++ out, replies, h.ready, ?_, hcaps.trans h.capabilities, ?_, ?_, h.toLeft, ?_,
    ?_⟩
  · exact h.bound.of_state haddr hversion htick.bound.1 htick.bound.2
  · rw [hddop]
    exact h.roundTrips
  · rw [h.toRight, map_append]
  · rw [hddop, filter_append]
    exact h.phase.tick htick
  · intro hfresh
    obtain ⟨hst, hrequests, hreplies⟩ := h.unused hfresh
    rw [hst] at htick
    obtain ⟨hst', hout⟩ := htick.of_disconnected
    refine ⟨hst', ?_, hreplies⟩
    rw [hout, append_nil]
    exact hrequests

/-- A call of the client sends nothing. -/
theorem step_silent {act : ClientAct} {c' : TaskControllerClient}
    (hact : l.left.act act = (c', [])) : x.step l (.left act) = { l with left := c' } := by
  have hsent : x.parties.actLeft l.left act = (c', []) := by
    change sent x.client (l.left.act act) = _
    rw [hact]
    rfl
  rw [step, Link.step_left hsent, append_nil, append_nil]

/-- The one call that makes the client start. -/
theorem Session.connect (h : Session x config caps true requests replies l) :
    Session x config caps false requests replies (x.step l (.left .connect)) := by
  obtain ⟨-, hrequests, hreplies⟩ := h.unused rfl
  rcases l.left.act_connect with hact | hact
  · rw [step_silent hact]
    exact { h with unused := nofun }
  · rw [step_silent hact]
    refine { h with bound := ⟨.inl rfl, fun _ hst => absurd rfl hst, nofun⟩, phase := ?_,
                    unused := nofun }
    rw [hrequests, hreplies]
    exact .idle rfl

/-- A new pool is accepted by a connected client only. -/
theorem Session.reuploadDdop (h : Session x config caps fresh requests replies l) {pool : DDOP}
    (hpool : pool.RoundTrips (version caps config)) :
    Session x config caps fresh requests replies (x.step l (.left (.reuploadDdop pool))) := by
  rcases l.left.act_reuploadDdop pool with hact | ⟨hst, hact⟩
  · rw [step_silent hact]
    exact h
  · have hphase := h.phase
    rw [hst] at hphase
    obtain ⟨hrequests, hreplies, -⟩ := hphase.of_connected
    rw [step_silent hact]
    refine { h with bound := ?_, roundTrips := hpool, phase := ?_, unused := ?_ }
    · refine h.bound.of_state rfl rfl (fun _ _ => ?_) (fun _ => ?_)
      · rw [hst]
        decide
      · rw [hst]
        rfl
    · rw [hrequests, hreplies]
      exact .idle rfl
    · intro hfresh
      have hdisc := (h.unused hfresh).1
      rw [hst] at hdisc
      cases hdisc

section

variable (ha : Usable x.client) (hb : Usable x.server)
  (h : Session x config caps fresh requests replies l)
include ha hb h

/-- **What one step keeps.** -/
theorem Session.step {a : Act}
    (hpools : ∀ pool, a = .left (.reuploadDdop pool) → pool.RoundTrips (version caps config))
    (hkeep : KeepsClients l a) (hone : a = .left .connect → fresh = true) :
    ∃ requests' replies',
      Session x config caps (fresh && connects [a] == 0) requests' replies' (x.step l a) := by
  cases a with
  | deliverLeft => simpa [connects] using h.deliverLeft ha hb
  | deliverRight => simpa [connects] using h.deliverRight ha hb
  | right elapsedMs => simpa [connects] using h.serverUpdate hkeep
  | left act =>
    cases act with
    | connect =>
      have hfresh := hone rfl
      subst hfresh
      exact ⟨_, _, h.connect⟩
    | reuploadDdop pool => exact ⟨_, _, by simpa [connects] using h.reuploadDdop (hpools pool rfl)⟩
    | update elapsedMs => simpa [connects] using h.clientUpdate elapsedMs

/-- **What a run keeps.** -/
theorem Session.run {acts : List Act}
    (hpools : ∀ pool, .left (.reuploadDdop pool) ∈ acts → pool.RoundTrips (version caps config))
    (hkeep : Along x.step KeepsClients l acts) (hone : connects acts ≤ if fresh then 1 else 0) :
    ∃ fresh' requests' replies',
      Session x config caps fresh' requests' replies' (run x.step l acts) := by
  induction acts generalizing fresh requests replies l with
  | nil => exact ⟨_, _, _, h⟩
  | cons a acts ih =>
    have hsplit : connects (a :: acts) = connects [a] + connects acts := by
      rw [connects, ← singleton_append, countP_append]
      rfl
    have hconnect : a = .left .connect → fresh = true := by
      rintro rfl
      have hself : connects [.left .connect] = 1 := rfl
      by_contra hfresh
      rw [if_neg hfresh] at hone
      omega
    obtain ⟨_, _, hstep⟩ := h.step ha hb
      (fun pool hp => hpools pool (by rw [hp]; exact mem_cons_self)) hkeep.1 hconnect
    refine ih hstep (fun pool hp => hpools pool (mem_cons_of_mem _ hp)) hkeep.2 ?_
    cases fresh with
    | false =>
      simp only [Bool.false_eq_true, if_false] at hone
      omega
    | true =>
      simp only [if_true] at hone
      rcases Nat.eq_zero_or_pos (connects [a]) with h0 | hpos
      · simp [h0]
        omega
      · omega

end

/-- A client that was given its pool, and a server that was started. -/
theorem session_start {server : TaskControllerServer}
    (hstart : (TaskControllerServer.new config).start = .ok server)
    (client : TaskControllerClient) (hclient : client.state = .disconnected)
    (hbound : client.tcAddress = nullAddress)
    (hpool : client.ddop.RoundTrips (version client.capabilities config)) :
    Session x config client.capabilities true [] [] (start client server) := by
  rw [TaskControllerServer.start, check_bind_eq_ok] at hstart
  obtain ⟨hchecks, hserver⟩ := hstart
  simp only [TaskControllerServer.startChecks, check_bind_eq_ok, require_eq_ok] at hchecks
  cases hserver
  have hready : TaskControllerServer.Ready config
      { TaskControllerServer.new config with state := .waitForClients } :=
    ⟨rfl, rfl, rfl, rfl, rfl, rfl, hchecks.1,
      (TaskControllerServer.sound_new config).of_clients rfl⟩
  refine ⟨hready, ⟨.inl hbound, fun hst => absurd hclient hst, fun hst => ?_⟩, rfl, hpool, rfl,
    rfl, ?_, fun _ => ⟨hclient, rfl, rfl⟩⟩
  · rw [start, hclient] at hst
    cases hst
  · rw [start, hclient]
    exact .lost

theorem negotiatedDdopVersion_eq (c : TaskControllerClient) :
    c.negotiatedDdopVersion = min c.capabilities.version c.tcVersion := by
  have hmin : min c.capabilities.version c.tcVersion
      = if c.capabilities.version ≤ c.tcVersion then c.capabilities.version else c.tcVersion := rfl
  rw [negotiatedDdopVersion, hmin]
  split
  case isTrue hlt => rw [if_pos (UInt8.le_of_lt hlt)]
  case isFalse hge =>
    split
    case isTrue hle => exact UInt8.le_antisymm (UInt8.not_lt.mp hge) hle
    case isFalse => rfl

/-- **Client and server agree on the pool.** Let a client that was given a
pool and a started server exchange their frames in any order of deliveries
and updates, with one `connect` and any `reuploadDdop`. If the pools
survive writing and reading at the version both report, and the server
drops no client for silence, a connected client has its current pool at
the server, activated. -/
theorem connected_pool_agrees (ha : Usable x.client) (hb : Usable x.server)
    {server : TaskControllerServer}
    (hstart : (TaskControllerServer.new config).start = .ok server)
    (clientConfig : TCClientConfig) (d : DDOP) {acts : List Act} (hone : connects acts ≤ 1)
    (hpools : ∀ pool, pool = d ∨ .left (.reuploadDdop pool) ∈ acts →
      pool.RoundTrips (min caps.version config.tcVersion))
    (hkeep : Along x.step KeepsClients
      (start (((TaskControllerClient.new clientConfig).setCapabilities caps).setDdop d) server)
      acts) :
    let l := Machbus.run x.step
      (start (((TaskControllerClient.new clientConfig).setCapabilities caps).setDdop d) server) acts
    l.left.state = .connected →
      ∃ c ∈ l.right.clients, c.address = x.client ∧ c.poolActivated = true ∧
        c.ddop.ReadsAs l.left.ddop l.left.negotiatedDdopVersion := by
  intro l hst
  have hsession : Session x config caps true [] []
      (start (((new clientConfig).setCapabilities caps).setDdop d) server) :=
    session_start hstart (((new clientConfig).setCapabilities caps).setDdop d)
      rfl rfl (hpools d (.inl rfl))
  obtain ⟨_, _, _, hl⟩ := hsession.run ha hb (fun pool hp => hpools pool (.inr hp)) hkeep hone
  have hphase := hl.phase
  rw [hst] at hphase
  obtain ⟨-, -, pool, hheld, hread⟩ := hphase.of_connected
  obtain ⟨c, hfind, hc⟩ := Option.map_eq_some_iff.mp hheld
  have hversion : l.left.negotiatedDdopVersion = version caps config := by
    rw [negotiatedDdopVersion_eq, hl.capabilities, hl.bound.version (by rw [hst]; rfl)]
    rfl
  refine ⟨c, mem_of_find?_eq_some hfind, by simpa using List.find?_some hfind, ?_, ?_⟩
  · exact congrArg Prod.snd hc
  · rw [hversion, show c.ddop = pool from congrArg Prod.fst hc]
    exact hread

instance (l : State) (a : Act) : Decidable (KeepsClients l a) := by
  unfold KeepsClients
  split <;> infer_instance

/-- A whole connection: status, introduction, versions, label, upload and
activation. -/
def connection : List Act :=
  [.left .connect, .right 2000, .deliverLeft, .left (.update 0), .left (.update 0), .deliverRight,
   .deliverRight, .deliverLeft, .deliverLeft, .left (.update 0), .deliverRight, .deliverRight,
   .deliverLeft, .left (.update 0), .deliverRight, .deliverLeft, .left (.update 0), .deliverRight,
   .deliverLeft]

/-- A device with one element, and a client and a server for it. -/
def smallPool : DDOP where
  devices := [{ designator := "D" }]
  elements := [{ id := 2 }]

def smallExchange : Exchange where
  client := 0x80
  server := 0x26

def smallConfig : TCServerConfig where
  numBooms := 1
  numSections := 1

def smallStart : State :=
  start (((new {}).setCapabilities {}).setDdop smallPool)
    { TaskControllerServer.new smallConfig with state := .waitForClients }

theorem connection_agrees :
    (Machbus.run smallExchange.step smallStart connection).left.state = .connected ∧
      ∃ c ∈ (Machbus.run smallExchange.step smallStart connection).right.clients,
        c.address = smallExchange.client ∧ c.poolActivated = true ∧
        c.ddop.ReadsAs (Machbus.run smallExchange.step smallStart connection).left.ddop
          (Machbus.run smallExchange.step smallStart connection).left.negotiatedDdopVersion := by
  have hconnected : (run smallExchange.step smallStart connection).left.state = .connected := by
    decide +kernel
  have hkeep : Along smallExchange.step KeepsClients smallStart connection := by decide +kernel
  have hstart : (TaskControllerServer.new smallConfig).start
      = .ok { TaskControllerServer.new smallConfig with state := .waitForClients } := by
    decide +kernel
  have hpool : smallPool.RoundTrips 4 := by
    refine DDOP.roundTrips_of_encodable 4 (by decide +kernel) ⟨?_, ?_, ?_⟩ <;> decide
  have hpools : ∀ pool, pool = smallPool ∨ .left (.reuploadDdop pool) ∈ connection →
      pool.RoundTrips (min ({} : TCClientCapabilities).version smallConfig.tcVersion) := by
    rintro pool (rfl | hmem)
    · exact hpool
    · simp [connection] at hmem
  exact ⟨hconnected, connected_pool_agrees (by decide) (by decide) hstart {} smallPool (by decide)
    hpools hkeep hconnected⟩

end Exchange

end Machbus.Tc
