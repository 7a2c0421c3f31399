import Machbus.Fs.Helpers.Invariant
import Machbus.Fs.Model.Client
/-!
# File server — one request at a time

A client that asks for one thing at a time, over a connection that is
kept alive: between a request and its answer nothing is under way but
maintenance messages and status reports, which change clocks only. What
the request does to the server and what the answer does to the client
are parameters.
-/

namespace Machbus.Fs

open List Message FSFunction

variable {data : List UInt8} {elapsedMs : ℕ}

/-! ## A client that only sees time pass -/

namespace FileClient

/-- What a client waits for, without the times. -/
def outstanding (c : FileClient) : List (TAN × FSFunction × List UInt8) :=
  c.pendingRequests.map fun e => (e.1, e.2.function, e.2.requestData)

/-- **Only clocks differ.** -/
structure Calm (c d : FileClient) : Prop where
  config : d.config = c.config
  state : d.state = c.state
  serverAddress : d.serverAddress = c.serverAddress
  nextTan : d.nextTan = c.nextTan
  openFiles : d.openFiles = c.openFiles
  outstanding : d.outstanding = c.outstanding

theorem Calm.refl (c : FileClient) : Calm c c := ⟨rfl, rfl, rfl, rfl, rfl, rfl⟩

theorem Calm.trans {c d e : FileClient} (h : Calm c d) (h' : Calm d e) : Calm c e :=
  ⟨h'.config.trans h.config, h'.state.trans h.state, h'.serverAddress.trans h.serverAddress,
    h'.nextTan.trans h.nextTan, h'.openFiles.trans h.openFiles, h'.outstanding.trans h.outstanding⟩

variable {c : FileClient}

/-- A report that the server is busy sets the requests' times anew. -/
theorem handleStatusBroadcast_calm (hdata : u8At data 0 = fileServerStatus.asU8) {r : Heard}
    (h : c.handleStatusBroadcast data = some r) : c.Calm r.1 ∧ r.2 = [] := by
  rw [handleStatusBroadcast] at h
  split at h
  · cases h
  split at h
  · cases h
    refine ⟨⟨rfl, rfl, rfl, rfl, rfl, ?_⟩, rfl⟩
    simp only [FileClient.outstanding]
    split
    · simp [OrderedMap.mapValues]
    · rfl
  · split at h
    · cases h
    · split at h
      · -- the report is no report on the volume
        have hother : tryFromU8 (u8At data 0) ≠ some .volumeStatus := by
          rw [hdata]
          decide
        rw [handleVolumeStatusResponse, parseVolumeStatusFields, if_pos (.inr hother)] at h
        cases h
      · cases h

/-- **A status report changes clocks only.** -/
theorem handleServerResponse_status {msg : Message}
    (hdata : u8At msg.data 0 = fileServerStatus.asU8) :
    c.Calm (c.handleServerResponse msg).1 ∧ (c.handleServerResponse msg).2 = [] := by
  rw [handleServerResponse]
  iterate 3
    split
    · exact ⟨.refl c, rfl⟩
  rw [if_pos (.inl hdata)]
  cases h : c.handleStatusBroadcast msg.data with
  | none => exact ⟨.refl c, rfl⟩
  | some r =>
    obtain ⟨hcalm, hevents⟩ := handleStatusBroadcast_calm hdata h
    exact ⟨{ hcalm with }, hevents⟩

/-- The time that passes is short enough: the server counts as present,
and no request is given up. -/
@[mk_iff] structure Bears (c : FileClient) (elapsedMs : ℕ) : Prop where
  server : satAdd32 c.serverStatusTimerMs elapsedMs < c.config.serverStatusTimeoutMs
  requests : ∀ e ∈ c.pendingRequests,
    e.2.isExpired (satAdd32 c.currentTimeMs elapsedMs) c.config.requestTimeoutMs = false

instance (c : FileClient) (elapsedMs : ℕ) : Decidable (c.Bears elapsedMs) :=
  decidable_of_iff' _ (bears_iff c elapsedMs)

theorem updateCcm_calm (elapsedMs : ℕ) : c.Calm (c.updateCcm elapsedMs).1 ∧
      (c.updateCcm elapsedMs).1.serverStatusTimerMs = c.serverStatusTimerMs ∧
      (c.updateCcm elapsedMs).1.currentTimeMs = c.currentTimeMs ∧
      (c.updateCcm elapsedMs).1.pendingRequests = c.pendingRequests ∧
      ∀ o ∈ (c.updateCcm elapsedMs).2, o = c.sendCcm := by
  rw [updateCcm]
  split
  · split <;> exact ⟨⟨rfl, rfl, rfl, rfl, rfl, rfl⟩, rfl, rfl, rfl, by simp⟩
  · exact ⟨.refl c, rfl, rfl, rfl, by simp⟩

theorem updateStatus_calm
    (h : satAdd32 c.serverStatusTimerMs elapsedMs < c.config.serverStatusTimeoutMs) :
    c.Calm (c.updateStatus elapsedMs).1 ∧
      (c.updateStatus elapsedMs).1.currentTimeMs = c.currentTimeMs ∧
      (c.updateStatus elapsedMs).1.pendingRequests = c.pendingRequests ∧
      (c.updateStatus elapsedMs).2 = [] := by
  rw [updateStatus]
  split
  · rw [if_neg (Nat.not_le.mpr h)]
    exact ⟨⟨rfl, rfl, rfl, rfl, rfl, rfl⟩, rfl, rfl, rfl⟩
  · exact ⟨.refl c, rfl, rfl, rfl⟩

/-- **Time that the client bears changes clocks only**, and nothing but
maintenance messages is sent. -/
theorem update_calm (h : c.Bears elapsedMs) :
    c.Calm (c.update elapsedMs).1 ∧ (c.update elapsedMs).2.2 = [] ∧
      ∀ o ∈ (c.update elapsedMs).2.1, o = c.sendCcm := by
  rw [update]
  obtain ⟨hccm, htimer, hnow, hpending, hsent⟩ := @updateCcm_calm
    { c with currentTimeMs := satAdd32 c.currentTimeMs elapsedMs } elapsedMs
  generalize updateCcm { c with currentTimeMs := satAdd32 c.currentTimeMs elapsedMs } elapsedMs = r
    at *
  have hshort : satAdd32 r.1.serverStatusTimerMs elapsedMs < r.1.config.serverStatusTimeoutMs := by
    rw [htimer, hccm.config]
    exact h.server
  obtain ⟨hstatus, hnow', hpending', hevents⟩ := updateStatus_calm hshort
  generalize r.1.updateStatus elapsedMs = t at *
  have hcalm : c.Calm t.1 :=
    Calm.trans { hccm with } hstatus
  refine ⟨{ hcalm with outstanding := ?_ }, hevents, hsent⟩
  have hkept : t.1.expireRequests.pendingRequests = t.1.pendingRequests := by
    refine filter_eq_self.mpr fun e he => ?_
    rw [hnow', hnow, hcalm.config, Bool.not_eq_true']
    rw [hpending', hpending] at he
    exact h.requests e he
  rw [FileClient.outstanding, hkept]
  exact hcalm.outstanding

theorem nextTan_allocateTan (c : FileClient) : c.allocateTan.1.nextTan ≠ invalidTan := by
  rw [allocateTan]
  dsimp only
  split
  · decide
  · assumption

/-- **The answer to the one request a client waits for.** -/
theorem handleServerResponse_answer (msg : Message) {tan : TAN} {function : FSFunction}
    (hpgn : msg.pgn = pgnFileServerToClient) (hsource : msg.hasUsableSource = true)
    (hdest : msg.hasValidDestinationForPgn = true) (hserver : msg.source = c.serverAddress)
    (hlen : 2 ≤ msg.data.length) (hout : c.outstanding = [(tan, function, data)])
    (hfunction : u8At msg.data 0 = function.asU8) (htan : u8At msg.data 1 = tan)
    (htan' : tan ≠ invalidTan) (hstatus : function ≠ .fileServerStatus)
    (hvolume : function ≠ .volumeStatus) :
    ∃ pending : PendingRequest, pending.function = function ∧ pending.requestData = data ∧
      c.handleServerResponse msg =
        handleAnswer { c with pendingRequests := [], serverStatusTimerMs := 0 } pending tan
          msg.data := by
  obtain ⟨⟨t, pending⟩, hp, he⟩ : ∃ e, c.pendingRequests = [e] ∧
      (e.1, e.2.function, e.2.requestData) = (tan, function, data) := by
    simpa using map_eq_singleton_iff.mp hout
  obtain ⟨rfl, rfl, rfl⟩ := he
  refine ⟨pending, rfl, rfl, ?_⟩
  have hnot : ¬(u8At msg.data 0 = fileServerStatus.asU8 ∨ t = 0xFF) := by
    rintro (h | h)
    · exact hstatus (asU8_injective (hfunction.symm.trans h))
    · exact htan' h
  have hget : c.pendingRequests.get t = some pending := by
    rw [hp, OrderedMap.get_cons, if_pos rfl]
  have hremove : c.pendingRequests.remove t = [] := by
    rw [hp]
    simp [OrderedMap.remove]
  simp only [handleServerResponse, hpgn, hsource, hdest, hserver, htan, hfunction]
  rw [if_neg (by simp), if_neg (by simp), if_neg (by omega), if_neg (hfunction ▸ hnot), hget]
  dsimp only
  rw [if_neg (by simp), if_neg hvolume, hremove]

end FileClient

/-! ## What goes over the bus -/

namespace Exchange

variable (x : Exchange)

/-- A frame of the client, as the server receives it. -/
def request (data : List UInt8) : Message :=
  .withAddressing pgnFileClientToServer data x.client x.server .default

/-- An answer of the server, as the client receives it. -/
def answer (data : List UInt8) : Message :=
  .withAddressing pgnFileServerToClient data x.server x.client .default

def ccm : Message := x.request (CCMMessage.encode ⟨fsVersionNumber⟩)

/-- The addresses are those of two nodes. -/
structure Valid : Prop where
  client : x.client ≠ nullAddress ∧ x.client ≠ broadcastAddress
  server : x.server ≠ nullAddress ∧ x.server ≠ broadcastAddress

def pair : Exchange := ⟨0x10, 0x20⟩

/-- A status report. -/
def IsStatus (msg : Message) : Prop := u8At msg.data 0 = FSFunction.fileServerStatus.asU8
  deriving Decidable

/-- The server keeps the client over the time that passes. -/
def Keeps (s : FileServer) (elapsedMs : ℕ) : Prop :=
  x.client ∉
    { s with currentTimeMs := satAdd32 s.currentTimeMs elapsedMs }.disconnectedClients
  deriving Decidable

/-- **What goes on at a server besides the requests**: a client is taken
down, what is known of it changes, and time passes. -/
inductive Idles (s : FileServer) : FileServer → Prop
  | ensured : Idles s (s.ensureClient x.client)
  | modified {f : ServerClientConnection → ServerClientConnection}
      (hf : ∀ c, (f c).currentDirectory = c.currentDirectory) : Idles s (s.modifyClient x.client f)
  | time {elapsedMs : ℕ} (hkept : x.Keeps s elapsedMs) : Idles s (s.update elapsedMs).1

/-- **What none of it changes about a server.** -/
structure Steady (P : FileServer → Prop) : Prop where
  volume : ∀ s, P s → s.volumeState = .present ∨ s.volumeState = .inUse
  idles : ∀ s t, x.Idles s t → P s → P t

variable {x}

theorem fromClient_ccm {c : FileClient} {os : List FSClientOutbound}
    (hos : ∀ o ∈ os, o = c.sendCcm) : ∀ m ∈ x.fromClient os, m = x.ccm := by
  intro m hm
  rw [fromClient, mem_map] at hm
  obtain ⟨o, ho, rfl⟩ := hm
  rw [hos o (mem_of_mem_filter ho)]
  rfl

theorem fromServer_sendTo (data : List UInt8) :
    x.fromServer [.sendTo data x.client] = [x.answer data] := by
  simp [fromServer, FSOutbound.sendTo, answer]

/-- A server whose volume stays reports its status and no more. -/
theorem update_sends {s : FileServer} (h : s.volumeState = .present ∨ s.volumeState = .inUse)
    (elapsedMs : ℕ) : ∀ m ∈ x.fromServer (s.update elapsedMs).2, IsStatus m := by
  have hmachine : (FileServer.updateVolumeStateMachine
      { s with currentTimeMs := satAdd32 s.currentTimeMs elapsedMs } elapsedMs).2 = [] := by
    rcases h with h | h <;> simp only [FileServer.updateVolumeStateMachine, h]
  intro m hm
  rw [fromServer, mem_map] at hm
  obtain ⟨o, ho, rfl⟩ := hm
  have ho := mem_of_mem_filter ho
  rw [FileServer.update] at ho
  split at ho
  · rw [hmachine, nil_append, mem_singleton] at ho
    rw [ho]
    rfl
  · rw [hmachine] at ho
    cases ho

/-- A maintenance message is not answered. -/
theorem handleClientMessage_ccm (hx : x.Valid) (s : FileServer) :
    s.handleClientMessage x.ccm = ((s.ensureClient x.client).handleCcm x.client, []) := by
  have hsource : x.ccm.hasUsableSource = true := by
    have := hx.client
    simpa [hasUsableSource, ccm, request, withAddressing] using this
  have hdest : x.ccm.hasValidDestinationForPgn = true := by
    have := hx.server.1
    simpa [hasValidDestinationForPgn, ccm, request, withAddressing,
      pgnFileClientToServer] using this
  have henvelope : ¬(x.ccm.pgn ≠ pgnFileClientToServer ∨ ¬x.ccm.hasUsableSource = true ∨
      ¬x.ccm.hasValidDestinationForPgn = true ∨ x.ccm.data.length < 2) := by
    rw [hsource, hdest]
    change ¬(_ ≠ _ ∨ _ ∨ _ ∨ (8 : ℕ) < 2)
    simp [ccm, request, withAddressing]
  rw [FileServer.handleClientMessage]
  rw [if_neg henvelope]
  rfl

/-- What the server sends to the client is not turned away. -/
theorem addressed_answer (hx : x.Valid) (data : List UInt8) :
    (x.answer data).hasUsableSource = true ∧ (x.answer data).hasValidDestinationForPgn = true := by
  have hserver := hx.server
  have hclient := hx.client.1
  constructor
  · simpa [hasUsableSource, answer, withAddressing] using hserver
  · · simpa [hasValidDestinationForPgn, answer, withAddressing, pgnFileServerToClient] using hclient

theorem accepted_request (hx : x.Valid) (hlen : 2 ≤ data.length)
    (hfunction : u8At data 0 ≠ ccmFunctionCode) (htan : u8At data 1 ≠ invalidTan) :
    FileServer.Accepted (x.request data) where
  pgn := rfl
  source := by
    have := hx.client
    simpa [hasUsableSource, request, withAddressing] using this
  destination := by
    have := hx.server.1
    simpa [hasValidDestinationForPgn, request, withAddressing, pgnFileClientToServer] using this
  length := hlen
  function := hfunction
  tan := htan

/-! ## Where a conversation stands -/

variable (x)

/-- The connection is kept alive by a step. -/
def KeepsAlive (l : State) : Act → Prop
  | .left (.update elapsedMs) => l.left.client.Bears elapsedMs
  | .right elapsedMs => x.Keeps l.right elapsedMs
  | _ => True

instance (l : State) (a : Act) : Decidable (x.KeepsAlive l a) := by
  unfold KeepsAlive
  split <;> infer_instance

/-- A step in which the application uses the client. -/
def asks : Act → Bool
  | .left (.update _) | .deliverLeft | .deliverRight | .right _ => false
  | _ => true

/-- **Where a conversation stands**: what the client is but for its clocks
and has heard, what holds of the server, and what is under way in either
direction besides maintenance and reports. -/
structure Stands (c : FileClient) (heard : List ClientEvent) (P : FileServer → Prop)
    (asked answers : List Message) (l : State) : Prop where
  client : c.Calm l.left.client
  heard : l.left.heard = heard
  server : P l.right
  toRight : l.toRight.filter (fun m => decide (m ≠ x.ccm)) = asked
  toLeft : l.toLeft.filter (fun m => decide (¬IsStatus m)) = answers

/-- What a quiet step does to a conversation: nothing, or the server meets
the first request under way, or the client the first answer. -/
inductive Passes (c : FileClient) (heard : List ClientEvent) (P : FileServer → Prop) (l : State) :
    List Message → List Message → Act → Prop
  | calm {asked answers a} (h : x.Stands c heard P asked answers (x.step l a)) :
      Passes c heard P l asked answers a
  | served {m asked answers} (hhead : l.toRight.head? = some m)
      (h : ∀ Q : FileServer → Prop, Q (l.right.handleClientMessage m).1 →
        x.Stands c heard Q asked (answers ++ (x.fromServer (l.right.handleClientMessage m).2).filter
          (fun m => decide (¬IsStatus m))) (x.step l .deliverRight)) :
      Passes c heard P l (m :: asked) answers .deliverRight
  | heard {m asked answers} (h : x.Stands (l.left.client.handleServerResponse m).1
        (heard ++ (l.left.client.handleServerResponse m).2) P asked answers
        (x.step l .deliverLeft)) :
      Passes c heard P l asked (m :: answers) .deliverLeft

namespace Stands

variable {x} {c : FileClient} {heard : List ClientEvent} {P : FileServer → Prop}
  {asked answers : List Message} {l : State} {a : Act}

section

variable (h : x.Stands c heard P asked answers l)
include h

theorem update_left (halive : l.left.client.Bears elapsedMs) :
    x.Stands c heard P asked answers (x.step l (.left (.update elapsedMs))) := by
  obtain ⟨hcalm, hevents, hsent⟩ := FileClient.update_calm halive
  have hnoise : (x.fromClient (l.left.client.update elapsedMs).2.1).filter
      (fun m => decide (m ≠ x.ccm)) = [] := by
    refine filter_eq_nil_iff.mpr fun m hm => ?_
    simpa using fromClient_ccm hsent m hm
  refine ⟨h.client.trans hcalm, ?_, h.server, ?_, h.toLeft⟩
  · change l.left.heard ++ (l.left.client.update elapsedMs).2.2 = heard
    rw [hevents, append_nil, h.heard]
  · change (l.toRight ++ x.fromClient (l.left.client.update elapsedMs).2.1).filter _ = asked
    rw [filter_append, hnoise, append_nil, h.toRight]

theorem update_right (hP : x.Steady P) (halive : x.Keeps l.right elapsedMs) :
    x.Stands c heard P asked answers (x.step l (.right elapsedMs)) := by
  have hnoise : (x.fromServer (l.right.update elapsedMs).2).filter
      (fun m => decide (¬IsStatus m)) = [] := by
    refine filter_eq_nil_iff.mpr fun m hm => ?_
    simpa using update_sends (hP.volume _ h.server) elapsedMs m hm
  refine ⟨h.client, h.heard, hP.idles _ _ (.time halive) h.server, h.toRight, ?_⟩
  change (l.toLeft ++ x.fromServer (l.right.update elapsedMs).2).filter _ = answers
  rw [filter_append, hnoise, append_nil, h.toLeft]

/-- Delivering to the server: maintenance changes nothing, otherwise it is
the request. -/
theorem deliverRight (hx : x.Valid) (hP : x.Steady P) :
    x.Passes c heard P l asked answers .deliverRight := by
  have hqueue := h.toRight
  cases hm : l.toRight with
  | nil => exact .calm (by rw [step, Link.step_deliverRight_nil hm]; exact h)
  | cons m ms =>
    rw [hm] at hqueue
    have hstep := @Link.step_deliverRight _ _ _ _ _ x.parties l _ m ms _ hm rfl
    by_cases hccm : m = x.ccm
    · rw [filter_cons_of_neg (by simpa using hccm)] at hqueue
      refine .calm ?_
      rw [step, hstep]
      subst hccm
      simp only [handleClientMessage_ccm hx]
      have hserver := hP.idles _ _ .ensured h.server
      refine ⟨h.client, h.heard, hP.idles _ _ (.modified fun _ => rfl) hserver, hqueue, ?_⟩
      simpa [fromServer] using h.toLeft
    · rw [filter_cons_of_pos (by simpa using hccm)] at hqueue
      subst hqueue
      refine .served (by rw [hm, head?_cons]) fun Q hQ => ?_
      rw [step, hstep]
      refine ⟨h.client, h.heard, hQ, rfl, ?_⟩
      rw [filter_append, h.toLeft]

/-- Delivering to the client: a report changes nothing, otherwise it is the
answer. -/
theorem deliverLeft : x.Passes c heard P l asked answers .deliverLeft := by
  have hqueue := h.toLeft
  cases hm : l.toLeft with
  | nil => exact .calm (by rw [step, Link.step_deliverLeft_nil hm]; exact h)
  | cons m ms =>
    rw [hm] at hqueue
    have hstep := @Link.step_deliverLeft _ _ _ _ _ x.parties l _ m ms _ hm rfl
    have hright : (l.toRight ++ []).filter (fun m => decide (m ≠ x.ccm)) = asked := by
      rw [append_nil, h.toRight]
    by_cases hstatus : IsStatus m
    · rw [filter_cons_of_neg (by simpa using hstatus)] at hqueue
      obtain ⟨hcalm, hevents⟩ := @FileClient.handleServerResponse_status l.left.client m hstatus
      refine .calm ?_
      rw [step, hstep]
      refine ⟨h.client.trans hcalm, ?_, h.server, hright, hqueue⟩
      change l.left.heard ++ (l.left.client.handleServerResponse m).2 = heard
      rw [hevents, append_nil, h.heard]
    · rw [filter_cons_of_pos (by simpa using hstatus)] at hqueue
      subst hqueue
      refine .heard ?_
      rw [step, hstep]
      refine ⟨.refl _, ?_, h.server, hright, rfl⟩
      change l.left.heard ++ (l.left.client.handleServerResponse m).2 = _
      rw [h.heard]

/-- **A quiet step.** Time changes nothing, and neither do the messages of
the upkeep. -/
theorem quiet (hx : x.Valid) (hP : x.Steady P) (hquiet : asks a = false)
    (halive : x.KeepsAlive l a) : x.Passes c heard P l asked answers a := by
  match a, hquiet, halive with
  | .left (.update elapsedMs), _, halive => exact .calm (h.update_left halive)
  | .right elapsedMs, _, halive => exact .calm (h.update_right hP halive)
  | .deliverRight, _, _ => exact h.deliverRight hx hP
  | .deliverLeft, _, _ => exact h.deliverLeft
  | .left (.connect _), hquiet, _ | .left (.disconnect _), hquiet, _
  | .left (.ask _), hquiet, _ => cases hquiet

/-- The client asks. -/
theorem ask {r : ClientRequest} {d : FileClient}
    (hr : l.left.client.ask r = .ok (d, .new data x.server))
    (hdata : u8At data 0 ≠ ccmFunctionCode) :
    x.Stands d heard P (asked ++ [x.request data]) answers (x.step l (.left (.ask r))) := by
  have hact : x.parties.actLeft l.left (.ask r) =
      ({ l.left with client := d }, [x.request data]) := by
    simp [parties, Station.act, Station.called, hr, fromClient, FSClientOutbound.new, request]
  have hother : x.request data ≠ x.ccm := by
    intro he
    exact hdata (congrArg (fun m => u8At m.data 0) he)
  rw [step, Link.step_left hact]
  refine ⟨.refl d, h.heard, h.server, ?_, h.toLeft⟩
  rw [filter_append, h.toRight, filter_cons_of_pos (by simpa using hother), filter_nil]

end

end Stands

/-! ## A request and its answer -/

/-- No request is delivered that the server has an answer to already. -/
def NotReplayed (l : State) : Act → Prop
  | .deliverRight => ∀ m ∈ l.toRight.head?, m ≠ x.ccm →
      l.right.cachedResponse x.client (u8At m.data 1) m.data = none
  | _ => True

instance (l : State) (a : Act) : Decidable (x.NotReplayed l a) := by
  unfold NotReplayed
  split <;> infer_instance

/-- **A request or its answer is under way.** Before the request is met the
server is as `P` says, after it as `Q` says. -/
inductive Waits (c : FileClient) (heard : List ClientEvent) (P : FileServer → Prop)
    (data : List UInt8) (Q : List UInt8 → FileServer → Prop) (l : State) : Prop
  | asked (h : x.Stands c heard P [x.request data] [] l)
  | answered (response : List UInt8) (h : x.Stands c heard (Q response) [] [x.answer response] l)

/-- What a server does with a request, if it has no answer to it yet. -/
def Serves (P : FileServer → Prop) (data : List UInt8) (Q : List UInt8 → FileServer → Prop) :
    Prop :=
  ∀ s, P s → s.cachedResponse x.client (u8At data 1) data = none →
    ∃ response t, s.handleClientMessage (x.request data) = (t, [.sendTo response x.client]) ∧
      Q response t ∧ u8At response 0 = u8At data 0

variable {x}

section Waits

variable {c : FileClient} {events : List ClientEvent} {P : FileServer → Prop} {data : List UInt8}
  {Q : List UInt8 → FileServer → Prop} {l : State} {a : Act}

section

variable (h : x.Waits c events P data Q l)
include h

theorem Waits.client : c.Calm l.left.client := by
  cases h with
  | asked h | answered response h => exact h.client

theorem Waits.heard : l.left.heard = events := by
  cases h with
  | asked h | answered response h => exact h.heard

theorem Waits.step (hx : x.Valid) (hP : x.Steady P)
    (hQ : ∀ response, x.Steady (Q response)) (hserves : x.Serves P data Q)
    (hdata : u8At data 0 ≠ ccmFunctionCode) (hquiet : asks a = false) (halive : x.KeepsAlive l a)
    (hnew : x.NotReplayed l a) :
    x.Waits c events P data Q (x.step l a) ∨ ∃ response d, c.Calm d ∧
        x.Stands (d.handleServerResponse (x.answer response)).1
          (events ++ (d.handleServerResponse (x.answer response)).2) (Q response) [] []
          (x.step l a) := by
  cases h with
  | asked h =>
    left
    cases h.quiet hx hP hquiet halive with
    | calm h => exact .asked h
    | served hhead hmet =>
      have hother : x.request data ≠ x.ccm := fun he =>
        hdata (congrArg (fun m => u8At m.data 0) he)
      obtain ⟨response, t, hhandle, hQt, hfunction⟩ :=
        hserves l.right h.server (hnew _ hhead hother)
      refine .answered response ?_
      have hmet := hmet (Q response) (by rw [hhandle]; exact hQt)
      rw [hhandle] at hmet
      have hanswer : ¬IsStatus (x.answer response) := by
        change u8At response 0 ≠ _
        rw [hfunction]
        exact hdata
      rw [fromServer_sendTo, filter_cons_of_pos (by simpa using hanswer)] at hmet
      exact hmet
  | answered response h =>
    cases h.quiet hx (hQ response) hquiet halive with
    | calm h => exact .inl (.answered response h)
    | heard h' => exact .inr ⟨response, l.left.client, h.client, h'⟩

end

/-- While nothing is asked nothing happens. -/
theorem Stands.idle (h : x.Stands c events P [] [] l) (hx : x.Valid) (hP : x.Steady P)
    (hquiet : asks a = false) (halive : x.KeepsAlive l a) : x.Stands c events P [] []
    (x.step l a) := by
  cases h.quiet hx hP hquiet halive with
  | calm h => exact h

end Waits

end Exchange

end Machbus.Fs
