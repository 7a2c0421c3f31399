import Machbus.Etp.Helpers.Steps
/-!
# ETP — the sessions a frame deals with

As for TP, a frame is looked up among the sessions it `mayFind`, and while
there is a free slot the engine does with the whole table what it would do
with these sessions alone.
-/

namespace Machbus.ExtendedTransportProtocol

open TransportSession List Etp SessionEngine EtpCm Bool

variable {t u t' : ExtendedTransportProtocol} {f : Frame} {port : UInt8}
  {R : TransportSession → Bool}

/-- **The sessions a frame can find.** -/
def mayFind (f : Frame) (port : UInt8) (s : TransportSession) : Bool :=
  if f.pgn = pgnEtpDt then s.path == rxPath f port
  -- an RTS only asks whether its path is taken
  else if f.data.b0 = EtpCm.rts then s.path == rxPath f port
  else if f.data.b0 = EtpCm.dpo then s.path == rxPath f port && s.pgn == pgnFromCmBytes f.data
  else if f.data.b0 = EtpCm.cts ∨ f.data.b0 = EtpCm.eoma then
    s.path == (.transmit, f.destination, f.source, port) && s.pgn == pgnFromCmBytes f.data
  -- an abort may come from either end
  else
    s.canPort == port && s.pgn == pgnFromCmBytes f.data &&
      ((s.sourceAddress == f.destination && s.destinationAddress == f.source) ||
        (s.sourceAddress == f.source && s.destinationAddress == f.destination))

theorem canPort_of_mayFind {s : TransportSession} (h : mayFind f port s = true) :
    s.canPort = port := by
  unfold mayFind rxPath at h
  repeat' split at h
  all_goals simp only [path, and_eq_true, beq_iff_eq, Prod.mk.injEq] at h
  · exact h.2.2.2
  · exact h.2.2.2
  · exact h.1.2.2.2
  · exact h.1.2.2.2
  · exact h.1.1

instance : SessionEngine ExtendedTransportProtocol where
  sessions := sessions
  onComplete := onComplete
  fresh t l := { t with sessions := l, stats := {}, onComplete := [], onAbort := [] }
  sessions_fresh _ _ := rfl
  onComplete_fresh _ _ := rfl
  fresh_fresh _ _ _ := rfl

theorem sessions_only : (only t R).sessions = t.sessions.filter R := rfl

/-! ## The handlers -/

/-- What only moves counters. -/
theorem beside_stats (stats stats' : TransportStats) :
    Beside (t.sessions.filter fun s => !R s) t.onComplete { t with stats := stats }
      { only t R with stats := stats' } :=
  (beside_only t R).congr rfl rfl rfl rfl

section

variable (hf : f.pgn = pgnEtpCm)
include hf

theorem mayFind_rts (hb : f.data.b0 = rts) (s : TransportSession) :
    mayFind f port s = (s.path == rxPath f port) := by
  rw [mayFind, hf, if_neg (by decide), if_pos hb]

theorem mayFind_acknowledgement (hb : f.data.b0 = cts ∨ f.data.b0 = eoma) (s : TransportSession) :
    mayFind f port s = (s.path == (.transmit, f.destination, f.source, port) &&
      s.pgn == pgnFromCmBytes f.data) := by
  rw [mayFind, hf, if_neg (by decide), if_neg, if_neg, if_pos hb]
  all_goals rcases hb with hb | hb <;> rw [hb] <;> decide

theorem receiveDtPathIsActive_only (hb : f.data.b0 = rts) :
    (only t (mayFind f port)).receiveDtPathIsActive f.source f.destination port =
      t.receiveDtPathIsActive f.source f.destination port := by
  simp only [receiveDtPathIsActive, sessions_only, any_filter]
  congr 1
  funext s
  rw [mayFind_rts hf hb, Bool.eq_iff_iff]
  simp only [path, rxPath, Bool.and_eq_true, beq_iff_eq, Prod.mk.injEq]
  tauto

theorem handleRts_beside (hb : f.data.b0 = rts) (hroom : t.sessions.length < t.maxSessions) :
    StaysWithin t (mayFind f port) fun t => (t.handleRts f port).1 := by
  have hprofile : (only t (mayFind f port)).receiveProfileForAdvertisedSize =
      t.receiveProfileForAdvertisedSize := rfl
  have hcap : (only t (mayFind f port)).maxReceiveBytes = t.maxReceiveBytes := rfl
  simp only [StaysWithin, handleRts, receiveDtPathIsActive_only hf hb, hprofile, hcap]
  rcases t.receiveProfileForAdvertisedSize (sizeFromCmBytes f.data) with reason | profile
  · exact beside_stats _ _
  dsimp only
  split
  · exact beside_stats _ _
  split
  · exact beside_stats _ _
  have hroom' : (only t (mayFind f port)).sessions.length < (only t (mayFind f port)).maxSessions :=
    (beside_only t _).length_lt hroom
  rw [if_neg (Nat.not_le.mpr hroom), if_neg (Nat.not_le.mpr hroom')]
  rcases rxBuffer (sizeFromCmBytes f.data) t.maxReceiveBytes with reason | data
  · exact beside_stats _ _
  · exact (beside_only t _).push rfl rfl rfl rfl

theorem handleCts_beside (hb : f.data.b0 = cts) :
    StaysWithin t (mayFind f port) fun t => (t.handleCts f port).1 := by
  simp only [StaysWithin, handleCts, sessionPosition, sessions_only]
  split
  next h =>
    simp only [findIdx?_filter_none h]
    exact beside_stats _ _
  rename_i i h
  obtain ⟨j, s, h', hat, hat', -, hremove, hset⟩ :=
    search_part (R := mayFind f port) h (fun s hs => by
      rw [mayFind_acknowledgement hf (.inl hb)]
      simp only [and_eq_true, beq_iff_eq] at hs
      simp [path, hs])
  simp only [h', sessionAt, sessions_only, hat, hat']
  rcases acceptCts s f.data.b1.toNat (packetFromCmBytes f.data) with reason | s'
  · exact ⟨hremove, (append_nil _).symm⟩
  · exact ⟨hset s', (append_nil _).symm⟩

theorem handleDpo_beside (hb : f.data.b0 = dpo) :
    StaysWithin t (mayFind f port) fun t => (t.handleDpo f port).1 := by
  simp only [StaysWithin, handleDpo, sessionPosition, sessions_only]
  split
  next h =>
    simp only [findIdx?_filter_none h]
    exact beside_stats _ _
  rename_i i h
  obtain ⟨j, s, h', hat, hat', -, hremove, hset⟩ :=
    search_part (R := mayFind f port) h (fun s hs => by
      rw [mayFind, hf, if_neg (by decide), hb, if_neg (by decide), if_pos rfl]
      simp only [and_eq_true, beq_iff_eq] at hs
      simp [path, rxPath, hs])
  simp only [h', sessionAt, sessions_only, hat, hat']
  split
  · exact ⟨hset _, (append_nil _).symm⟩
  · exact ⟨hremove, (append_nil _).symm⟩

theorem handleEoma_beside (hb : f.data.b0 = eoma) :
    StaysWithin t (mayFind f port) fun t => (t.handleEoma f port).1 := by
  simp only [StaysWithin, handleEoma, sessionPosition, sessions_only]
  split
  next h =>
    simp only [findIdx?_filter_none h]
    exact beside_stats _ _
  rename_i i h
  obtain ⟨j, s, h', hat, hat', -, hremove, -⟩ :=
    search_part (R := mayFind f port) h (fun s hs => by
      rw [mayFind_acknowledgement hf (.inr hb)]
      simp only [and_eq_true, beq_iff_eq] at hs
      simp [path, hs])
  simp only [h', sessionAt, sessions_only, hat, hat']
  split
  · exact beside_stats _ _
  · exact ⟨hremove, rfl⟩

theorem handleAbort_beside (hb : f.data.b0 = abort) :
    StaysWithin t (mayFind f port) fun t => t.handleAbort f port := by
  simp only [StaysWithin, handleAbort, sessionPosition, sessions_only]
  split
  next h =>
    simp only [findIdx?_filter_none h]
    exact beside_stats _ _
  rename_i i h
  obtain ⟨j, s, h', -, -, -, hremove, -⟩ :=
    search_part (R := mayFind f port) h (fun s hs => by
      rw [mayFind, hf, if_neg (by decide), hb, if_neg (by decide), if_neg (by decide),
        if_neg (by decide), and_comm (s.canPort == port)]
      exact hs)
  simp only [h']
  exact ⟨hremove, (append_nil _).symm⟩

theorem handleCm_beside (hroom : t.sessions.length < t.maxSessions) :
    StaysWithin t (mayFind f port) fun t => (t.handleCm f port).1 := by
  simp only [handleCm]
  split
  · exact beside_stats _ _
  split
  next hb => exact handleRts_beside hf hb hroom
  split
  next hb => exact handleCts_beside hf hb
  split
  next hb => exact handleDpo_beside hf hb
  split
  next hb => exact handleEoma_beside hf hb
  split
  next hb => exact handleAbort_beside hf hb
  · exact beside_stats _ _

end

theorem handleDt_beside (hf : f.pgn = pgnEtpDt) :
    StaysWithin t (mayFind f port) fun t => (t.handleDt f port).1 := by
  simp only [StaysWithin, handleDt, sessionPosition, sessions_only]
  split
  next h =>
    simp only [findIdx?_filter_none h]
    exact beside_stats _ _
  rename_i i h
  obtain ⟨j, s, h', hat, hat', -, hremove, hset⟩ :=
    search_part (R := mayFind f port) h (fun s hs => by
      rw [mayFind, if_pos hf]
      simp only [and_eq_true, beq_iff_eq] at hs
      simp [path, rxPath, hs])
  have habort : ∀ reason, Beside (t.sessions.filter fun s => !mayFind f port s) t.onComplete
      (t.abortSession i reason).1 ((only t (mayFind f port)).abortSession j reason).1 :=
    fun _ => ⟨hremove, (append_nil _).symm⟩
  simp only [h', sessionAt, sessions_only, hat, hat']
  split
  · exact habort _
  split
  · exact habort _
  simp only [acceptDt, sessionAt, sessions_only, hat, hat']
  split
  · exact ⟨hremove, rfl⟩
  · exact ⟨hset _, (append_nil _).symm⟩

/-- **A frame deals with the sessions it may find.** -/
theorem processFrame_beside (f : Frame) (port : UInt8) (hroom : t.sessions.length < t.maxSessions) :
    StaysWithin t (mayFind f port) fun t => (t.processFrame f port).1 := by
  unfold StaysWithin processFrame
  split
  · exact beside_stats _ _
  split
  · exact beside_stats _ _
  split
  next hcm => exact handleCm_beside hcm hroom
  split
  next hdt => exact handleDt_beside hdt
  · exact beside_only t _

/-! ## What a port sees -/

variable {p : UInt8}

/-- The engine moves nothing of its configuration. -/
theorem FrameStep.fresh_eq {rs : List Frame} (h : FrameStep t f port t' rs) :
    fresh t' [] = fresh t [] := by
  cases h <;> rfl

theorem receive_of_mayFind {x : TransportSession} (h : f.pgn = pgnEtpCm ∧ f.data.b0 = rts)
    (hx : mayFind f port x = true) : x.direction = .receive := by
  rw [mayFind_rts h.1 h.2, beq_iff_eq] at hx
  exact congrArg Prod.fst hx

theorem FrameStep.tableStep {rs : List Frame} (h : FrameStep t f port t' rs) :
    TableStep (f.pgn = pgnEtpCm ∧ f.data.b0 = rts) port t.sessions t.onComplete t'.sessions
      t'.onComplete := by
  cases h with
  | ignored => exact .keeps
  | openedRts hf => exact .opens ⟨hf.pgn, hf.control⟩ (fun _ h => h) rfl
  | granted _ hl _ hcts => exact .rewrites hl (acceptCts_path hcts)
  | grouped _ hl => exact .rewrites hl (startGroup_path _ _)
  | aborted _ _ _ _ hl => exact .removes hl
  | acknowledged _ hl hpath | delivered _ _ hl hpath => exact .completes hl hpath rfl
  | advanced _ hl => exact .rewrites hl (by rw [advanceWindow_path, ingest_path])

/-- The engine keeps to the sessions a frame may find while a slot is
free. -/
instance : FrameEngine ExtendedTransportProtocol where
  processFrame t f port := (t.processFrame f port).1
  mayFind := mayFind
  Announces f := f.pgn = pgnEtpCm ∧ f.data.b0 = EtpCm.rts
  Room t := t.sessions.length < t.maxSessions
  fresh_processFrame t f port := (t.processFrame_step f port).fresh_eq
  tableStep t f port := (t.processFrame_step f port).tableStep
  staysWithin _ f port := processFrame_beside f port
  canPort_of_mayFind _ _ _ := canPort_of_mayFind
  receive_of_mayFind _ _ _ := receive_of_mayFind

/-! ### Other calls -/

/-- What a port sends is not what it hears. -/
theorem heardOn_send (pgn : ℕ) (data : List UInt8) (source dest : Address) (port : UInt8)
    (priority : Priority) :
    heardOn p (t.send pgn data source dest port priority).1 = heardOn p t := by
  rcases t.send_cases pgn data source dest port priority with
    ⟨stats, err, -, h⟩ | ⟨-, s, frames, hpath, h⟩
  · rw [h]
    rfl
  · rw [h]
    exact heardOn_push hpath rfl rfl

theorem fresh_update (t : ExtendedTransportProtocol) (elapsedMs : ℕ) :
    fresh (t.update elapsedMs).1 [] = fresh t [] := by
  obtain ⟨stats, aborts, h⟩ := foldl_applyTick { t with sessions := _ } _
  rw [update, h]
  rfl

/-- The timers of what a port hears run by themselves. -/
theorem heardOn_update (h : heardOn p t = heardOn p u) (elapsedMs : ℕ) :
    heardOn p (t.update elapsedMs).1 = heardOn p (u.update elapsedMs).1 :=
  heardOn_passes (fun _ _ => tick_path) h (t.fresh_update elapsedMs) (u.fresh_update elapsedMs)
    (t.update_sessions_perm elapsedMs) (u.update_sessions_perm elapsedMs)

/-- The drain is for transmit sessions. -/
theorem heardOn_getPendingDataFrames : heardOn p t.getPendingDataFrames.1 = heardOn p t :=
  heardOn_congr rfl (TransportSession.filter_map_heardOn (fun _ => drain_path)
    fun s hs => by rw [drain_of_receive hs])

end Machbus.ExtendedTransportProtocol
