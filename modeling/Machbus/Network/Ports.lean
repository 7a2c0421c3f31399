import Machbus.Network.Helpers.Update
import Machbus.Tp.Helpers.Frames
import Machbus.Etp.Helpers.Frames
/-!
# The port a session's frames leave on

A session knows the port it runs on. The frames an update sends for it do
not leave by that port: they are handed out without their session, and the
network layer looks for the first control function, on any port, that
stores the frame's source address. `ports_kept_iff` says exactly when that
is the session's own port for every frame.
-/

namespace Machbus

open List TransportSession TransportProtocol

/-- The local address of a session. -/
def TransportSession.localEnd (s : TransportSession) : Address :=
  match s.direction with
  | .transmit => s.sourceAddress
  | .receive => s.destinationAddress

/-! ## The frames of one session -/

@[simp] theorem TransportSession.isBroadcast_timerMs (s : TransportSession) (ms : ℕ) :
    isBroadcast { s with timerMs := ms } = s.isBroadcast := rfl

namespace Tp

variable {elapsedMs : ℕ} {s : TransportSession}

/-- The frames an update sends for a session. -/
def updateFrames (elapsedMs : ℕ) (s : TransportSession) : List Frame :=
  TransportProtocol.tickFrames (tick elapsedMs s).2 ++
    (tick elapsedMs s).1.toList.flatMap fun s => (drain s).2

/-- **The sessions an update sends frames for.** A broadcast whose next
packet is due, a connection that has waited too long, and a connection that
has packets granted. -/
def Speaks (elapsedMs : ℕ) (s : TransportSession) : Prop :=
  if s.isBroadcast = true then
    s.state = .sendingData ∧ s.direction = .transmit ∧
      tpBamInterPacketMs ≤ satAdd32 s.timerMs elapsedMs ∧ s.bytesTransferred < s.totalBytes
  else
    (∃ d, deadline s.state = some d ∧ d ≤ satAdd32 s.timerMs elapsedMs) ∨
      s.state = .sendingData ∧ s.direction = .transmit ∧ s.packetsToSend ≠ 0 ∧
        s.bytesTransferred < s.totalBytes

section

variable (s : TransportSession)

theorem source_generateDataFrames (count : ℕ) :
    ∀ f ∈ (generateDataFrames s count).2, f.source = s.sourceAddress := by
  induction count generalizing s with
  | zero => exact nofun
  | succ count ih =>
    intro f hf
    rw [generateDataFrames] at hf
    split at hf
    · cases hf
    rcases mem_cons.mp hf with rfl | hf
    · exact makeDt_source
    · have hrest := ih _ f hf
      exact hrest

theorem generateDataFrames_ne_nil_iff (count : ℕ) :
    (generateDataFrames s count).2 ≠ [] ↔ count ≠ 0 ∧ s.bytesTransferred < s.totalBytes := by
  cases count with
  | zero => simp [generateDataFrames]
  | succ count =>
    rw [generateDataFrames]
    split
    · exact iff_of_false (by simp) (by omega)
    · exact iff_of_true (by simp) (by omega)

theorem source_makeSessionAbort (reason : TransportAbortReason) :
    (makeSessionAbort s reason).source = s.localEnd := by
  unfold makeSessionAbort localEnd
  cases s.direction <;> exact makeCm_source

end

/-- A drain sends from the session's own end. -/
theorem source_drain {f : Frame} (hf : f ∈ (drain s).2) : f.source = s.localEnd := by
  unfold drain at hf
  split at hf
  next hsending =>
    have hend : s.localEnd = s.sourceAddress := by
      rw [localEnd, hsending.2.1]
    rw [hend]
    simp only at hf
    split at hf <;> exact source_generateDataFrames _ _ f hf
  · cases hf

theorem drain_ne_nil_iff (s : TransportSession) :
    (drain s).2 ≠ [] ↔ s.isBroadcast = false ∧ s.state = .sendingData ∧ s.direction = .transmit ∧
      s.packetsToSend ≠ 0 ∧ s.bytesTransferred < s.totalBytes := by
  unfold drain
  split
  next hsending =>
    obtain ⟨hstate, hdir, hb⟩ := hsending
    simp only
    split <;> simp [generateDataFrames_ne_nil_iff, hstate, hdir, hb]
  next hsending =>
    simp only [ne_eq, not_true_eq_false, false_iff]
    rintro ⟨hb, hstate, hdir, -⟩
    exact hsending ⟨hstate, hdir, hb⟩

/-- What an update sends for a session, case by case. A session that sent
a packet of its broadcast has nothing to drain. -/
theorem updateFrames_eq (elapsedMs : ℕ) (s : TransportSession) : updateFrames elapsedMs s =
      if s.isBroadcast = true ∧ s.state = .sendingData ∧ s.direction = .transmit ∧
          tpBamInterPacketMs ≤ satAdd32 s.timerMs elapsedMs then
        (generateDataFrames { s with timerMs := 0 } 1).2
      else if timedOut { s with timerMs := satAdd32 s.timerMs elapsedMs } = true then
        if s.isBroadcast = false then [makeSessionAbort s .timeout] else []
      else (drain { s with timerMs := satAdd32 s.timerMs elapsedMs }).2 := by
  unfold updateFrames tick
  simp only [isBroadcast_timerMs]
  split
  next hdue =>
    split
    · simp [tickFrames]
    have hb : ((generateDataFrames { s with timerMs := 0 } 1).1).isBroadcast = true := by
      have hdest := congrArg (fun p : Path => p.2.2.1)
        (generateDataFrames_path (s := { s with timerMs := 0 }) 1)
      dsimp only [path] at hdest
      rw [isBroadcast, hdest]
      exact hdue.1
    have hdrain : (drain (generateDataFrames { s with timerMs := 0 } 1).1).2 = [] := by
      unfold drain
      rw [if_neg (by simp [hb])]
    simp [tickFrames, hdrain]
  · split
    · simp only [Option.toList_none, flatMap_nil, append_nil]
      rfl
    · simp [tickFrames]

/-- **Every frame of a session comes from its own end.** -/
theorem source_updateFrames {f : Frame} (hf : f ∈ updateFrames elapsedMs s) :
    f.source = s.localEnd := by
  rw [updateFrames_eq] at hf
  split at hf
  next hdue =>
    rw [localEnd, hdue.2.2.1]
    have hsource := source_generateDataFrames _ _ f hf
    exact hsource
  · split at hf
    · split at hf
      · rw [mem_singleton.mp hf]
        exact source_makeSessionAbort s .timeout
      · cases hf
    · have hsource := source_drain hf
      exact hsource

theorem timedOut_iff (elapsedMs : ℕ) (s : TransportSession) :
    timedOut { s with timerMs := satAdd32 s.timerMs elapsedMs } = true ↔
      ∃ d, deadline s.state = some d ∧ d ≤ satAdd32 s.timerMs elapsedMs := by
  unfold timedOut
  rcases deadline s.state with _ | d <;> simp

theorem updateFrames_ne_nil_iff (elapsedMs : ℕ) (s : TransportSession) :
    updateFrames elapsedMs s ≠ [] ↔ Speaks elapsedMs s := by
  rw [updateFrames_eq, Speaks]
  by_cases hb : s.isBroadcast = true
  · split
    next hdue =>
      rw [generateDataFrames_ne_nil_iff]
      simp [hdue.2.1, hdue.2.2.1, hdue.2.2.2]
    rename_i hdue
    have hquiet : ¬(s.state = .sendingData ∧ s.direction = .transmit ∧
        tpBamInterPacketMs ≤ satAdd32 s.timerMs elapsedMs ∧ s.bytesTransferred < s.totalBytes) :=
      fun h => hdue ⟨hb, h.1, h.2.1, h.2.2.1⟩
    refine iff_of_false ?_ hquiet
    split
    · simp [hb]
    simp [drain_ne_nil_iff, hb]
  · have hb' : s.isBroadcast = false := by simpa using hb
    rw [if_neg hb, if_neg fun h => hb h.1]
    by_cases ht : timedOut { s with timerMs := satAdd32 s.timerMs elapsedMs } = true
    · rw [if_pos ht, if_pos hb']
      exact iff_of_true (by simp) (Or.inl ((timedOut_iff elapsedMs s).mp ht))
    rw [if_neg ht, drain_ne_nil_iff]
    have hlate := (timedOut_iff elapsedMs s).not.mp ht
    constructor
    · rintro ⟨-, h⟩
      exact Or.inr h
    · rintro (h | h)
      · exact absurd h hlate
      · exact ⟨hb', h⟩

end Tp

namespace Etp

variable {elapsedMs : ℕ} {s : TransportSession}

/-- The frames an update sends for a session. -/
def updateFrames (elapsedMs : ℕ) (s : TransportSession) : List Frame :=
  ((tick elapsedMs s).2.map (makeSessionAbort · .timeout)).toList ++
    (tick elapsedMs s).1.toList.flatMap fun s => (drain s).2

/-- **The sessions an update sends frames for.** One that has waited too
long, and one that has packets granted. -/
def Speaks (elapsedMs : ℕ) (s : TransportSession) : Prop :=
  deadlineMs s.state ≤ satAdd32 s.timerMs elapsedMs ∨
    s.state = .sendingData ∧ s.direction = .transmit

theorem source_generateFrom (s : TransportSession) (i count : ℕ) :
    ∀ f ∈ (generateFrom s i count).2, f.source = s.sourceAddress := by
  induction count generalizing s i with
  | zero => exact nofun
  | succ count ih =>
    intro f hf
    rw [generateFrom] at hf
    split at hf
    · cases hf
    rcases mem_cons.mp hf with rfl | hf
    · exact makeDt_source
    · have hrest := ih _ _ f hf
      exact hrest

theorem source_makeSessionAbort (s : TransportSession) (reason : TransportAbortReason) :
    (makeSessionAbort s reason).source = s.localEnd := by
  unfold makeSessionAbort localEnd
  cases s.direction <;> exact makeCm_source

/-- A drain sends from the session's own end. -/
theorem source_drain {f : Frame} (hf : f ∈ (drain s).2) : f.source = s.localEnd := by
  unfold drain at hf
  split at hf
  next hsending =>
    rw [localEnd, hsending.2]
    simp only at hf
    split at hf
    all_goals
      rcases mem_cons.mp hf with rfl | hf
      · exact makeCm_source
      · exact source_generateFrom _ _ _ f hf
  · cases hf

theorem drain_ne_nil_iff (s : TransportSession) :
    (drain s).2 ≠ [] ↔ s.state = .sendingData ∧ s.direction = .transmit := by
  unfold drain
  split
  next hsending =>
    simp only
    split <;> simp [hsending]
  next hsending =>
    simp [hsending]

theorem updateFrames_eq (elapsedMs : ℕ) (s : TransportSession) : updateFrames elapsedMs s =
      if deadlineMs s.state ≤ satAdd32 s.timerMs elapsedMs then [makeSessionAbort s .timeout]
      else (drain { s with timerMs := satAdd32 s.timerMs elapsedMs }).2 := by
  unfold updateFrames tick
  simp only
  split
  · rfl
  · simp

theorem source_updateFrames {f : Frame} (hf : f ∈ updateFrames elapsedMs s) :
    f.source = s.localEnd := by
  rw [updateFrames_eq] at hf
  split at hf
  · rw [mem_singleton.mp hf]
    exact source_makeSessionAbort s .timeout
  · have hsource := source_drain hf
    exact hsource

theorem updateFrames_ne_nil_iff (elapsedMs : ℕ) (s : TransportSession) :
    updateFrames elapsedMs s ≠ [] ↔ Speaks elapsedMs s := by
  rw [updateFrames_eq, Speaks]
  split
  next hlate => simp [hlate]
  rename_i hintime
  rw [drain_ne_nil_iff]
  simp [hintime]

end Etp

/-! ## The frames of all sessions -/

namespace IsoNet

variable {L : Type} [CanEndpoint L] {net : IsoNet L} (net : IsoNet L)

/-- **What an update sends for its sessions**: the session, the port and the
frame. -/
def sessionSends (elapsedMs : ℕ) : List (TransportSession × UInt8 × Frame) :=
  (net.tp.sessions.flatMap fun s =>
      (Tp.updateFrames elapsedMs s).map fun f => (s, net.portForAddress f.source, f)) ++
    net.etp.sessions.flatMap fun s =>
      (Etp.updateFrames elapsedMs s).map fun f => (s, net.portForAddress f.source, f)

/-- What is made of the elements that are left. -/
theorem flatMap_perm_of_filterMap {α β γ : Type} {f : α → Option β} {l : List α} {l' : List β}
    (h : l'.Perm (l.filterMap f)) (g : β → List γ) :
    (l'.flatMap g).Perm (l.flatMap fun x => (f x).toList.flatMap g) := by
  rw [← flatMap_assoc, ← filterMap_eq_flatMap_toList]
  exact h.flatMap_right g

/-- The sweep visits the sessions in an order of its own. -/
theorem tp_frames_perm (t : TransportProtocol) (elapsedMs : ℕ) :
    ((t.update elapsedMs).2 ++ (t.update elapsedMs).1.getPendingDataFrames.2).Perm
      (t.sessions.flatMap (Tp.updateFrames elapsedMs)) := by
  have hreports : (t.update elapsedMs).2.Perm
      (t.sessions.flatMap fun s => tickFrames (Tp.tick elapsedMs s).2) := by
    rw [← flatMap_map]
    exact (sweep_perm t.sessions).2.flatMap_right _
  exact (hreports.append (flatMap_perm_of_filterMap (t.update_sessions_perm elapsedMs) _)).trans
    (flatMap_append_perm _ _ _)

theorem etp_frames_perm (t : ExtendedTransportProtocol) (elapsedMs : ℕ) :
    ((t.update elapsedMs).2 ++ (t.update elapsedMs).1.getPendingDataFrames.2).Perm
      (t.sessions.flatMap (Etp.updateFrames elapsedMs)) := by
  have hreports : (t.update elapsedMs).2.Perm (t.sessions.flatMap fun s =>
        ((Etp.tick elapsedMs s).2.map (Etp.makeSessionAbort · .timeout)).toList) := by
    have hsweep : (sweep (Etp.tick elapsedMs) t.sessions).2.Perm
        (t.sessions.map fun s => (Etp.tick elapsedMs s).2) := (sweep_perm t.sessions).2
    have hframes := hsweep.filterMap fun k => k.map (Etp.makeSessionAbort · .timeout)
    rw [filterMap_map] at hframes
    rw [← filterMap_eq_flatMap_toList]
    exact hframes
  exact (hreports.append (flatMap_perm_of_filterMap (t.update_sessions_perm elapsedMs) _)).trans
    (flatMap_append_perm _ _ _)

/-- **They are what the second phase sends**, up to order. -/
theorem exists_sends (elapsedMs : ℕ) :
    ∃ sends : List (TransportSession × UInt8 × Frame), sends.Perm (net.sessionSends elapsedMs) ∧
      net.driveTransports elapsedMs = (net.driven elapsedMs).sendEmitted (sends.map Prod.snd) := by
  have hperm : (net.routed (net.drivenFrames elapsedMs)).Perm
      ((net.sessionSends elapsedMs).map Prod.snd) := by
    have hframes := ((tp_frames_perm net.tp elapsedMs).append
      (etp_frames_perm net.etp elapsedMs)).map fun f => (net.portForAddress f.source, f)
    refine List.Perm.trans hframes (List.Perm.of_eq ?_)
    simp only [sessionSends, map_append, map_flatMap, map_map]
    rfl
  obtain ⟨sends, hsends, hmap⟩ := exists_map_eq_of_perm hperm
  exact ⟨sends, hsends, by rw [driveTransports_eq, hmap]⟩

/-! ## Which port that is -/

/-- **The address leads home.** The first control function that stores the
session's local address is on the session's port; or none stores it, and
the session is on port `0`. -/
def LeadsHome (s : TransportSession) : Prop :=
  (∃ pre n post, net.locals = pre ++ n :: post ∧ (∀ m ∈ pre, m.cf.address ≠ s.localEnd) ∧
      n.cf.address = s.localEnd ∧ n.cf.canPort = s.canPort) ∨
    (∀ n ∈ net.locals, n.cf.address ≠ s.localEnd) ∧ s.canPort = 0

omit [CanEndpoint L] in
theorem portForAddress_eq_iff (s : TransportSession) :
    net.portForAddress s.localEnd = s.canPort ↔ net.LeadsHome s := by
  have hfirst : (∃ pre n post, net.locals = pre ++ n :: post ∧
      (∀ m ∈ pre, m.cf.address ≠ s.localEnd) ∧ n.cf.address = s.localEnd ∧
        n.cf.canPort = s.canPort) ↔
      ∃ n, net.locals.find? (·.cf.address == s.localEnd) = some n ∧ n.cf.canPort = s.canPort := by
    simp only [find?_eq_some_iff_append, beq_iff_eq, Bool.not_eq_true', beq_eq_false_iff_ne]
    constructor
    · rintro ⟨pre, n, post, hl, hpre, haddr, hport⟩
      exact ⟨n, ⟨haddr, pre, post, hl, hpre⟩, hport⟩
    · rintro ⟨n, ⟨haddr, pre, post, hl, hpre⟩, hport⟩
      exact ⟨pre, n, post, hl, hpre, haddr, hport⟩
  have hnone : (∀ n ∈ net.locals, n.cf.address ≠ s.localEnd) ↔
      net.locals.find? (·.cf.address == s.localEnd) = none := by
    simp [find?_eq_none]
  rw [LeadsHome, hfirst, hnone, portForAddress]
  cases net.locals.find? (·.cf.address == s.localEnd) <;> simp [eq_comm]

omit [CanEndpoint L] in
/-- The frames of one table of sessions. -/
theorem forall_sends_iff (l : List TransportSession)
    {frames : TransportSession → List Frame} {P : TransportSession → Prop}
    (hsource : ∀ s, ∀ f ∈ frames s, f.source = s.localEnd) (hne : ∀ s, frames s ≠ [] ↔ P s) :
    (∀ x ∈ l.flatMap fun s => (frames s).map fun f => (s, net.portForAddress f.source, f),
        x.2.1 = x.1.canPort) ↔ ∀ s ∈ l, P s → net.LeadsHome s := by
  constructor
  · intro h s hs hp
    obtain ⟨f, hf⟩ := exists_mem_of_ne_nil _ ((hne s).mpr hp)
    have hport := h (s, net.portForAddress f.source, f)
      (mem_flatMap.mpr ⟨s, hs, mem_map.mpr ⟨f, hf, rfl⟩⟩)
    rw [← portForAddress_eq_iff, ← hsource s f hf]
    exact hport
  · intro h x hx
    obtain ⟨s, hs, hxs⟩ := mem_flatMap.mp hx
    obtain ⟨f, hf, rfl⟩ := mem_map.mp hxs
    have hhome := h s hs ((hne s).mp (ne_nil_of_mem hf))
    rw [← portForAddress_eq_iff, ← hsource s f hf] at hhome
    exact hhome

/-- **When the frames of all sessions leave on their ports.** For every
state of the network layer and every update: with the state it has reached
when it drives the transports, the frames it sends for its sessions all
leave on the session's own port exactly if, for every session that has
something to send, the address of its local end leads to that port. -/
theorem ports_kept_iff (net : IsoNet L) (elapsedMs : ℕ) :
    let mid := net.received elapsedMs
    ∃ sends : List (TransportSession × UInt8 × Frame),
      sends.Perm (mid.sessionSends elapsedMs) ∧
      net.update elapsedMs = ((mid.driven elapsedMs).sendEmitted
        (sends.map Prod.snd)).drainTransportCompletions.startReadyPendingTransport.driveClaimers
          elapsedMs ∧
      ((∀ x ∈ sends, x.2.1 = x.1.canPort) ↔
        (∀ s ∈ mid.tp.sessions, Tp.Speaks elapsedMs s → mid.LeadsHome s) ∧
          ∀ s ∈ mid.etp.sessions, Etp.Speaks elapsedMs s → mid.LeadsHome s) := by
  intro mid
  obtain ⟨sends, hperm, hdrive⟩ := mid.exists_sends elapsedMs
  refine ⟨sends, hperm, ?_, ?_⟩
  · rw [update_eq, ← hdrive]
  · have htp := mid.forall_sends_iff mid.tp.sessions
      (fun s f => Tp.source_updateFrames) (Tp.updateFrames_ne_nil_iff elapsedMs)
    have hetp := mid.forall_sends_iff mid.etp.sessions
      (fun s f => Etp.source_updateFrames) (Etp.updateFrames_ne_nil_iff elapsedMs)
    rw [← htp, ← hetp, ← forall_mem_append]
    exact forall_congr' fun x => by rw [hperm.mem_iff]; rfl

/-- Two control functions have claimed `0x20`, one on port `0` and one on
port `1`; the one on port `1` starts a broadcast. -/
def broadcastOnSecondPort : IsoNet Unit :=
  run step (new {})
    [.createInternal (Name.fromRaw 1) 0 0x20, .createInternal (Name.fromRaw 2) 1 0x20,
      .setCaptureOutbound true, .startAddressClaiming, .update 500, .update 500,
      .send 0xFECA [1, 2, 3, 4, 5, 6, 7, 8, 9] 1 broadcastAddress .default]

/-- **The broadcast changes buses.** It is announced on port `1` and runs
there, and its first packet is sent on port `0`. -/
theorem broadcast_data_leaves_on_other_port :
    broadcastOnSecondPort.tp.sessions.map TransportSession.canPort = [1] ∧
      broadcastOnSecondPort.outbound.getLast? =
        some (1, Tp.makeCm 0x20 broadcastAddress TpCm.bam 9 0 2 0xFF 0xFECA) ∧
      (broadcastOnSecondPort.update 50).outbound =
        broadcastOnSecondPort.outbound ++
          [(0, Tp.makeDt 0x20 broadcastAddress 1 [1, 2, 3, 4, 5, 6, 7])] := by
  decide +kernel

end IsoNet

end Machbus
