import Machbus.Etp.Model.Engine
import Machbus.Transport.Helpers.Engine
/-!
# ETP — what a call can do to the table

As for TP, whatever rewrites a session leaves its path alone, `FrameStep`
lists everything an incoming frame can do and `processFrame_step` says
that nothing else happens.
-/

namespace Machbus

namespace Etp

variable {s s' : TransportSession}

/-! ## Rewrites -/

theorem acceptCts_path {n k : ℕ} (h : acceptCts s n k = .ok s') : s'.path = s.path := by
  unfold acceptCts at h
  split at h
  · split at h
    · cases h; rfl
    · cases h
  split at h
  · cases h; rfl
  split at h
  · cases h
  · cases h; rfl

@[simp] theorem startGroup_path (n k : ℕ) : (startGroup s n k).path = s.path := rfl

@[simp] theorem ingest_path (seq : ℕ) (block : List UInt8) :
    (ingest s seq block).path = s.path := rfl

/-- Once a group is used up the next window is open and no group is; the
data is left alone either way. -/
theorem advanceWindow_cases (s : TransportSession) (seq : ℕ) : (advanceWindow s seq).1 = s ∨
      ∃ size, (advanceWindow s seq).1 = { s with ctsWindowSize := size, packetsToSend := 0 } := by
  unfold advanceWindow
  split
  · exact Or.inr ⟨_, rfl⟩
  · exact Or.inl rfl

@[simp] theorem advanceWindow_path (seq : ℕ) : (advanceWindow s seq).1.path = s.path := by
  rcases advanceWindow_cases s seq with h | ⟨size, h⟩ <;> rw [h]
  rfl

/-- Cutting frames moves the byte counter and nothing else. -/
theorem generateFrom_eq (s : TransportSession) (i count : ℕ) :
    ∃ bytes, (generateFrom s i count).1 = { s with bytesTransferred := bytes } := by
  induction count generalizing s i with
  | zero => exact ⟨s.bytesTransferred, rfl⟩
  | succ count ih =>
    rw [generateFrom]
    split
    · exact ⟨s.bytesTransferred, rfl⟩
    obtain ⟨bytes, h⟩ := ih
      { s with bytesTransferred := min (s.bytesTransferred + tpBytesPerFrame) s.totalBytes }
      (i + 1)
    exact ⟨bytes, h⟩

theorem generateDataFrames_path (count : ℕ) : (generateDataFrames s count).1.path = s.path := by
  obtain ⟨bytes, h⟩ := generateFrom_eq s 0 count
  rw [generateDataFrames, h]
  rfl

@[simp] theorem drain_path : (drain s).1.path = s.path := by
  unfold drain
  split
  · dsimp only
    split <;> exact generateDataFrames_path _
  · rfl

/-- The drain is for transmit sessions. -/
theorem drain_of_receive (h : s.direction = .receive) : drain s = (s, []) := by
  unfold drain
  rw [if_neg (by simp [h])]

/-- A session that survives the sweep has only grown older. -/
theorem tick_eq_some {elapsedMs : ℕ} (h : (tick elapsedMs s).1 = some s') :
    s' = { s with timerMs := satAdd32 s.timerMs elapsedMs } := by
  unfold tick at h
  dsimp only at h
  split at h
  · cases h
  · exact (Option.some.inj h).symm

theorem tick_path {elapsedMs : ℕ} (h : (tick elapsedMs s).1 = some s') : s'.path = s.path := by
  rw [tick_eq_some h]
  rfl

end Etp

namespace ExtendedTransportProtocol

open Etp

section

variable (t : ExtendedTransportProtocol)

/-- What the timers do beside the sweep is count and report. -/
theorem foldl_applyTick (ticks : List (Option TransportSession)) :
    ∃ stats aborts, ticks.foldl applyTick t = { t with stats := stats, onAbort := aborts } := by
  induction ticks generalizing t with
  | nil => exact ⟨t.stats, t.onAbort, rfl⟩
  | cons k ticks ih =>
    obtain ⟨stats, aborts, h⟩ := ih (applyTick t k)
    rw [List.foldl_cons, h]
    cases k <;> exact ⟨stats, aborts, rfl⟩

/-- The table after the timer sweep, up to order. -/
theorem update_sessions_perm (elapsedMs : ℕ) : (t.update elapsedMs).1.sessions.Perm
      (t.sessions.filterMap fun s => (tick elapsedMs s).1) := by
  obtain ⟨stats, aborts, h⟩ := foldl_applyTick { t with sessions := _ } _
  rw [update, h]
  exact (sweep_perm t.sessions).1

/-- The timer sweep completes nothing. -/
theorem update_onComplete (elapsedMs : ℕ) : (t.update elapsedMs).1.onComplete = t.onComplete := by
  obtain ⟨stats, aborts, h⟩ := foldl_applyTick { t with sessions := _ } _
  rw [update, h]

/-- What a call to `send` does to the table. It is put off for a blocked
path only. -/
theorem send_cases (pgn : ℕ) (data : List UInt8)
    (source dest : Address) (port : UInt8) (priority : Priority) :
    (∃ stats err, (err.code = .sessionExists ∨ err.code = .noResources →
        PathBlocked t.maxSessions t.sessions (.transmit, source, dest, port)) ∧
      t.send pgn data source dest port priority = ({ t with stats := stats }, .error err)) ∨
    (¬PathBlocked t.maxSessions t.sessions (.transmit, source, dest, port) ∧
      ∃ s frames, s.path = (.transmit, source, dest, port) ∧
        t.send pgn data source dest port priority =
          ({ t with sessions := t.sessions ++ [s] }, .ok frames)) := by
  have hbusy : t.transmitDtPathIsActive source dest port = true ↔
      ∃ s ∈ t.sessions, s.path = (.transmit, source, dest, port) := by
    rw [transmitDtPathIsActive, List.any_eq_true]
    simp only [Bool.and_eq_true, beq_iff_eq, TransportSession.path, Prod.mk.injEq]
    tauto
  generalize h : t.send pgn data source dest port priority = r
  unfold send at h
  iterate 5
    split at h
    · subst h
      refine .inl ⟨_, _, ?_, rfl⟩
      exact fun hwait => hwait.elim nofun nofun
  split at h
  · exact .inl ⟨t.stats, _, fun _ => .inl (hbusy.mp ‹_›), h.symm⟩
  split at h
  · exact .inl ⟨_, _, fun _ => .inr ‹_›, h.symm⟩
  rename_i hidle hroom
  refine .inr ⟨fun h => h.elim (fun h => hidle (hbusy.mpr h)) hroom, ?_⟩
  subst h
  refine ⟨_, _, ?_, rfl⟩
  rfl

end

/-- **What the calls other than a frame do.** They complete no receive
session. -/
theorem step_calls {t : ExtendedTransportProtocol} {op : Op} (hop : ∀ f port, op ≠ .frame f port) :
    CallStep t.sessions (t.step op).sessions ∧
      ∃ done, (t.step op).onComplete = t.onComplete ++ done ∧
        ∀ s ∈ done, s.direction = .transmit := by
  have hnone : ∃ done, t.onComplete = t.onComplete ++ done ∧ ∀ s ∈ done, s.direction = .transmit :=
    ⟨[], (List.append_nil _).symm, nofun⟩
  cases op with
  | frame f port => exact absurd rfl (hop f port)
  | send pgn data source dest port priority =>
    rcases send_cases t pgn data source dest port priority with
      ⟨stats, err, -, h⟩ | ⟨hfree, s, frames, hpath, h⟩
    · rw [step, h]
      exact ⟨.keeps, hnone⟩
    · rw [step, h]
      exact ⟨.opens hpath fun x hx hx' => hfree (.inl ⟨x, hx, hx'.trans hpath⟩), hnone⟩
  | update elapsedMs =>
    refine ⟨.passes (fun _ _ => tick_path) (fun s s' h _ => ⟨_, tick_eq_some h⟩)
      (update_sessions_perm t elapsedMs), ?_⟩
    rw [step, update_onComplete]
    exact hnone
  | pending => exact ⟨.of_map (fun _ => drain_path) fun _ hd => by rw [drain_of_receive hd], hnone⟩
  | abortFor port address => exact ⟨.of_filter _, hnone⟩

open TransportSession EtpCm

variable {t : ExtendedTransportProtocol} {f : Frame} {port control : UInt8} {rs : List Frame}
  {p : TransportSession → Bool}

/-! ## Searches -/

/-- A search that succeeds splits the table around what it found, and the
index it returns reads, rewrites and vacates that slot. -/
theorem sessionPosition_some {idx : ℕ} (h : t.sessionPosition p = some idx) :
    ∃ l₁ s l₂, t.sessions = l₁ ++ s :: l₂ ∧ p s = true ∧ t.sessionAt idx = s ∧
      t.removeSession idx = { t with sessions := l₁ ++ lastFirst l₂ } ∧
      ∀ s', t.setSession idx s' = { t with sessions := l₁ ++ s' :: l₂ } := by
  obtain ⟨l₁, s, l₂, hl, rfl, hp, -⟩ := exists_split_of_findIdx? h
  refine ⟨l₁, s, l₂, hl, hp, ?_, ?_, fun s' => ?_⟩
  · rw [sessionAt, hl, getD_append_cons]
  · rw [removeSession, hl, swapRemove_append_cons]
  · rw [setSession, hl, set_append_cons]

theorem sessionPosition_none (h : t.sessionPosition p = none) : ∀ s ∈ t.sessions, p s = false :=
  List.findIdx?_eq_none_iff.mp h

/-! ## Frames -/

/-- A frame the engine looks into: eight bytes between two claimable
addresses. -/
@[mk_iff] structure WellFormed (f : Frame) : Prop where
  length : canDataLength ≤ f.length
  source : validEtpSource f.source = true
  destination : validEtpDestination f.destination = true

/-- A well-formed control frame with a given control byte. -/
@[mk_iff] structure IsCm (control : UInt8) (f : Frame) : Prop extends WellFormed f where
  pgn : f.pgn = pgnEtpCm
  control : f.data.b0 = control
  target : pgnIsValid (pgnFromCmBytes f.data) = true

/-- A well-formed data frame. -/
@[mk_iff] structure IsDt (f : Frame) : Prop extends WellFormed f where
  pgn : f.pgn = pgnEtpDt

instance (f : Frame) : Decidable (WellFormed f) := decidable_of_iff' _ (wellFormed_iff f)

instance (control : UInt8) (f : Frame) : Decidable (IsCm control f) :=
  decidable_of_iff' _ (isCm_iff control f)

instance (f : Frame) : Decidable (IsDt f) := decidable_of_iff' _ (isDt_iff f)

/-- The receive path a frame travels on. -/
def rxPath (f : Frame) (port : UInt8) : Path := (.receive, f.source, f.destination, port)

/-- The frame speaks to a receive session: it is a data frame on the
session's path, or a DPO for its path and PGN. -/
def Concerns (f : Frame) (port : UInt8) (p : Path) (pgn : ℕ) : Prop :=
  IsDt f ∧ p = rxPath f port ∨ IsCm EtpCm.dpo f ∧ p = rxPath f port ∧ pgn = pgnFromCmBytes f.data

theorem Concerns.path {p : Path} {pgn : ℕ} (h : Concerns f port p pgn) : p = rxPath f port := by
  rcases h with ⟨-, h⟩ | ⟨-, h, -⟩
  · exact h
  · exact h

/-- **What an incoming frame can do.** -/
inductive FrameStep (t : ExtendedTransportProtocol) (f : Frame) (port : UInt8) :
    ExtendedTransportProtocol → List Frame → Prop
  /-- The frame is dropped or refused; only counters move. No waiting
  session is concerned. -/
  | ignored (stats : TransportStats) (rs : List Frame) (hrs : ∀ r ∈ rs, r.data.b0 ≠ EtpCm.cts)
      (hby : ∀ x ∈ t.sessions, x.state = .waitingForData → ¬Concerns f port x.path x.pgn) :
      FrameStep t f port { t with stats := stats } rs
  /-- An RTS opens a session on a free path and is answered with the first
  window. -/
  | openedRts (hf : IsCm EtpCm.rts f) (hsize : tpMaxDataLength < sizeFromCmBytes f.data)
      (hcap : sizeFromCmBytes f.data ≤ t.maxReceiveBytes)
      (hfree : ∀ x ∈ t.sessions, x.path ≠ rxPath f port) :
      FrameStep t f port
        { t with
          sessions := t.sessions ++
            [rtsSession f port (List.replicate (sizeFromCmBytes f.data) 0xFF)] }
        [makeCts f.destination f.source tpMaxPacketsPerCts 1 (pgnFromCmBytes f.data)]
  /-- A CTS is accepted by the transmit session it matches. -/
  | granted {l₁ l₂ : List TransportSession} {s s' : TransportSession} (hf : IsCm EtpCm.cts f)
      (hl : t.sessions = l₁ ++ s :: l₂)
      (hpath : s.path = (.transmit, f.destination, f.source, port))
      (hcts : acceptCts s f.data.b1.toNat (packetFromCmBytes f.data) = .ok s') :
      FrameStep t f port { t with sessions := l₁ ++ s' :: l₂ } []
  /-- A DPO starts a group. -/
  | grouped {l₁ l₂ : List TransportSession} {s : TransportSession} (hf : IsCm EtpCm.dpo f)
      (hl : t.sessions = l₁ ++ s :: l₂) (hpath : s.path = rxPath f port)
      (hpgn : s.pgn = pgnFromCmBytes f.data)
      (hfits : DpoFits s f.data.b1.toNat (packetFromCmBytes f.data)) :
      FrameStep t f port
        { t with
          sessions := l₁ ++ startGroup s f.data.b1.toNat (packetFromCmBytes f.data) :: l₂ } []
  /-- A session is aborted, by its peer or for what its peer sent. -/
  | aborted {l₁ l₂ : List TransportSession} {s : TransportSession} (reason : TransportAbortReason)
      (stats : TransportStats) (rs : List Frame) (hrs : ∀ r ∈ rs, r.data.b0 ≠ EtpCm.cts)
      (hl : t.sessions = l₁ ++ s :: l₂)
      (hby : ∀ p pgn, Concerns f port p pgn → s.path = p) :
      FrameStep t f port
        { t with
          sessions := l₁ ++ lastFirst l₂
          onAbort := t.onAbort ++ [.fromSession s reason]
          stats := stats } rs
  /-- An EOMA completes a transmit session. -/
  | acknowledged {l₁ l₂ : List TransportSession} {s : TransportSession} (hf : IsCm EtpCm.eoma f)
      (hl : t.sessions = l₁ ++ s :: l₂)
      (hpath : s.path = (.transmit, f.destination, f.source, port)) : FrameStep t f port
        { t with
          sessions := l₁ ++ lastFirst l₂
          onComplete := t.onComplete ++ [{ s with state := .complete }] } []
  /-- A data frame is taken in and more are to come. -/
  | advanced {l₁ l₂ : List TransportSession} {s : TransportSession} (hf : IsDt f)
      (hl : t.sessions = l₁ ++ s :: l₂) (hpath : s.path = rxPath f port)
      (hgroup : s.packetsToSend ≠ 0) (hseq : f.data.b0.toNat = s.lastSequence + 1)
      (hmore : (s.dpoPacketOffset + s.lastSequence + 1) * 7 < s.totalBytes) :
      FrameStep t f port
        { t with
          sessions :=
            l₁ ++ (advanceWindow (ingest s f.data.b0.toNat f.data.tail) f.data.b0.toNat).1 :: l₂ }
        (advanceWindow (ingest s f.data.b0.toNat f.data.tail) f.data.b0.toNat).2
  /-- The last data frame is taken in. -/
  | delivered {l₁ l₂ : List TransportSession} {s : TransportSession} (rs : List Frame) (hf : IsDt f)
      (hl : t.sessions = l₁ ++ s :: l₂) (hpath : s.path = rxPath f port)
      (hgroup : s.packetsToSend ≠ 0) (hseq : f.data.b0.toNat = s.lastSequence + 1)
      (hlast : s.totalBytes ≤ (s.dpoPacketOffset + s.lastSequence + 1) * 7) :
      FrameStep t f port
        { t with
          sessions := l₁ ++ lastFirst l₂
          onComplete := t.onComplete ++
            [{ ingest s f.data.b0.toNat f.data.tail with state := .complete }] } rs

/-! ## Every branch is one of these -/

theorem not_isDt_of_cm (hpgn : f.pgn = pgnEtpCm) : ¬IsDt f := by
  intro h
  have := hpgn.symm.trans h.pgn
  revert this
  decide

/-- A control frame other than a DPO concerns no receive session. -/
theorem not_concerns_of_cm (hf : IsCm control f) (hc : control ≠ dpo)
    (p : Path) (pgn : ℕ) : ¬Concerns f port p pgn := by
  rintro (⟨hdt, -⟩ | ⟨hdpo, -⟩)
  · exact not_isDt_of_cm hf.pgn hdt
  · exact hc (hf.control.symm.trans hdpo.control)

/-- A frame that is not well formed concerns nobody. -/
theorem not_concerns_of_not_wellFormed (hf : ¬WellFormed f) (p : Path) (pgn : ℕ) :
    ¬Concerns f port p pgn := by
  rintro (⟨hdt, -⟩ | ⟨hdpo, -⟩)
  · exact hf hdt.toWellFormed
  · exact hf hdpo.toWellFormed

/-- A control frame other than a DPO that only moves counters. -/
theorem FrameStep.ignored_cm (stats : TransportStats) (hf : IsCm control f)
    (hc : control ≠ dpo) (hrs : ∀ r ∈ rs, r.data.b0 ≠ cts) :
    FrameStep t f port { t with stats := stats } rs :=
  .ignored stats rs hrs fun _ _ _ => not_concerns_of_cm hf hc _ _

/-- One that is dropped. -/
theorem dropped_cm_step (hf : IsCm control f) (hc : control ≠ dpo) :
    FrameStep t f port t.noteDroppedFrame [] :=
  .ignored_cm _ hf hc nofun

theorem makeAbort_not_cts (src dst : Address) (pgn : ℕ) (reason : TransportAbortReason) :
    ∀ r ∈ [makeAbort src dst pgn reason], r.data.b0 ≠ cts := by
  intro r hr
  rw [List.mem_singleton.mp hr]
  exact (by decide : abort ≠ cts)

theorem makeSessionAbort_not_cts (s : TransportSession) (reason : TransportAbortReason) :
    ∀ r ∈ [makeSessionAbort s reason], r.data.b0 ≠ cts := by
  unfold makeSessionAbort
  split <;> exact makeAbort_not_cts _ _ _ _

theorem receiveDtPathIsActive_false {src dst : Address}
    (h : ¬t.receiveDtPathIsActive src dst port = true) :
    ∀ x ∈ t.sessions, x.path ≠ (.receive, src, dst, port) := by
  intro x hx hpath
  rw [receiveDtPathIsActive, List.any_eq_true] at h
  simp only [path, Prod.mk.injEq] at hpath
  exact h ⟨x, hx, by simp [hpath]⟩

theorem handleRts_step (hf : IsCm rts f) :
    FrameStep t f port (t.handleRts f port).1 (t.handleRts f port).2 := by
  have hrefuse : ∀ reason, FrameStep t f port
      (t.refuseRts f.source f.destination (pgnFromCmBytes f.data) reason).1
      (t.refuseRts f.source f.destination (pgnFromCmBytes f.data) reason).2 :=
    fun reason => .ignored_cm _ hf (by decide) (makeAbort_not_cts _ _ _ _)
  simp only [handleRts]
  split
  · exact hrefuse _
  rename_i profile hprofile
  split
  · exact hrefuse _
  split
  · exact hrefuse _
  rename_i hidle
  split
  · exact hrefuse _
  split
  · exact hrefuse _
  rename_i data hdata
  -- the size passed the profile check and the buffer is blank
  unfold receiveProfileForAdvertisedSize at hprofile
  split at hprofile
  · cases hprofile
  unfold rxBuffer at hdata
  split at hdata
  · cases hdata
  cases hdata
  exact .openedRts hf (by omega) (by omega) (receiveDtPathIsActive_false hidle)

/-- Closing the session a search has found. -/
theorem abortSession_step {idx : ℕ} (h : t.sessionPosition p = some idx)
    (hby : ∀ q pgn, Concerns f port q pgn → (t.sessionAt idx).path = q)
    (reason : TransportAbortReason) :
    FrameStep t f port (t.abortSession idx reason).1 (t.abortSession idx reason).2 := by
  obtain ⟨l₁, s, l₂, hl, -, hat, hrm, -⟩ := sessionPosition_some h
  rw [hat] at hby
  simp only [abortSession, hat, hrm]
  exact .aborted _ _ _ (makeSessionAbort_not_cts _ _) hl hby

theorem handleCts_step (hf : IsCm cts f) :
    FrameStep t f port (t.handleCts f port).1 (t.handleCts f port).2 := by
  simp only [handleCts]
  split
  · exact dropped_cm_step hf (by decide)
  rename_i idx hidx
  obtain ⟨l₁, s, l₂, hl, hp, hat, -, hset⟩ := sessionPosition_some hidx
  simp only [Bool.and_eq_true, beq_iff_eq] at hp
  have hpath : s.path = (.transmit, f.destination, f.source, port) := by
    rw [path, hp.1.1.1.1.1, hp.1.1.1.1.2, hp.1.1.1.2, hp.2]
  split
  next s' hcts =>
    rw [hset]
    rw [hat] at hcts
    exact .granted hf hl hpath hcts
  · exact abortSession_step hidx
      (fun q pgn h => absurd h (not_concerns_of_cm hf (by decide) q pgn)) _

theorem handleDpo_step (hf : IsCm dpo f) :
    FrameStep t f port (t.handleDpo f port).1 (t.handleDpo f port).2 := by
  simp only [handleDpo]
  split
  next hnone =>
    refine .ignored _ _ (by simp) ?_
    intro x hx _ hcon
    have := sessionPosition_none hnone x hx
    rcases hcon with ⟨hdt, -⟩ | ⟨-, hpath, hpgn⟩
    · exact not_isDt_of_cm hf.pgn hdt
    · simp only [path, rxPath, Prod.mk.injEq] at hpath
      simp [hpath, hpgn] at this
  next idx hidx =>
    obtain ⟨l₁, s, l₂, hl, hp, hat, -, hset⟩ := sessionPosition_some hidx
    simp only [Bool.and_eq_true, beq_iff_eq] at hp
    have hpath : s.path = rxPath f port := by
      rw [path, hp.1.1.1.1, hp.1.1.1.2, hp.1.1.2, hp.2, rxPath]
    split
    next hfits =>
      rw [hset]
      rw [hat] at hfits ⊢
      exact .grouped hf hl hpath hp.1.2 hfits
    · refine abortSession_step hidx (fun q pgn h => ?_) _
      rw [hat, hpath, h.path]

theorem handleEoma_step (hf : IsCm eoma f) :
    FrameStep t f port (t.handleEoma f port).1 (t.handleEoma f port).2 := by
  simp only [handleEoma]
  split
  · exact dropped_cm_step hf (by decide)
  rename_i idx hidx
  obtain ⟨l₁, s, l₂, hl, hp, hat, hrm, -⟩ := sessionPosition_some hidx
  simp only [Bool.and_eq_true, beq_iff_eq] at hp
  have hpath : s.path = (.transmit, f.destination, f.source, port) := by
    rw [path, hp.1.1.1.1, hp.1.1.1.2, hp.1.1.2, hp.2]
  simp only [hat, hrm]
  split
  · exact dropped_cm_step hf (by decide)
  · exact .acknowledged hf hl hpath

theorem handleAbort_step (hf : IsCm abort f) : FrameStep t f port (t.handleAbort f port) [] := by
  simp only [handleAbort]
  split
  · exact dropped_cm_step hf (by decide)
  rename_i idx hidx
  obtain ⟨l₁, s, l₂, hl, -, hat, hrm, -⟩ := sessionPosition_some hidx
  simp only [hat, hrm]
  exact .aborted _ _ _ (by simp) hl
    fun q pgn h => absurd h (not_concerns_of_cm hf (by decide) q pgn)

theorem handleCm_step (hw : WellFormed f) (hpgn : f.pgn = pgnEtpCm) :
    FrameStep t f port (t.handleCm f port).1 (t.handleCm f port).2 := by
  simp only [handleCm]
  by_cases htarget : pgnIsValid (pgnFromCmBytes f.data) = false
  · rw [if_pos htarget]
    refine .ignored _ _ (by simp) ?_
    intro x _ _ hcon
    rcases hcon with ⟨hdt, -⟩ | ⟨hdpo, -⟩
    · exact not_isDt_of_cm hpgn hdt
    · rw [hdpo.target] at htarget
      cases htarget
  have hcm : IsCm f.data.b0 f :=
    { toWellFormed := hw
      pgn := hpgn
      control := rfl
      target := by simpa using htarget }
  rw [if_neg htarget]
  split
  next h => exact handleRts_step (h ▸ hcm)
  split
  next h => exact handleCts_step (h ▸ hcm)
  split
  next h => exact handleDpo_step (h ▸ hcm)
  split
  next h => exact handleEoma_step (h ▸ hcm)
  split
  next h => exact handleAbort_step (h ▸ hcm)
  next hdpo _ _ =>
    exact dropped_cm_step hcm hdpo

theorem handleDt_step (hw : WellFormed f) (hpgn : f.pgn = pgnEtpDt) :
    FrameStep t f port (t.handleDt f port).1 (t.handleDt f port).2 := by
  have hf : IsDt f := { toWellFormed := hw, pgn := hpgn }
  simp only [handleDt]
  split
  next hnone =>
    refine .ignored _ _ (by simp) ?_
    intro x hx hstate hcon
    have := sessionPosition_none hnone x hx
    have hpath := hcon.path
    simp only [path, rxPath, Prod.mk.injEq] at hpath
    simp [hpath, hstate] at this
  next idx hidx =>
    obtain ⟨l₁, s, l₂, hl, hp, hat, hrm, hset⟩ := sessionPosition_some hidx
    simp only [Bool.and_eq_true, beq_iff_eq] at hp
    have hpath : s.path = rxPath f port := by
      rw [path, hp.1.1.1.1, hp.1.1.1.2, hp.1.1.2, hp.1.2, rxPath]
    have habort : ∀ reason,
        FrameStep t f port (t.abortSession idx reason).1 (t.abortSession idx reason).2 :=
      abortSession_step hidx fun q pgn h => by rw [hat, hpath, h.path]
    simp only [hat]
    split
    · exact habort _
    rename_i hgroup
    split
    · exact habort _
    have hseq' : f.data.b0.toNat = s.lastSequence + 1 := by omega
    simp only [acceptDt, hat, hrm, hset]
    split
    next hdone =>
      exact .delivered _ hf hl hpath hgroup hseq' (by simp only [ingest] at hdone; omega)
    next hopen => exact .advanced hf hl hpath hgroup hseq' (by simp only [ingest] at hopen; omega)

/-- **Nothing else happens.** -/
theorem processFrame_step (t : ExtendedTransportProtocol) (f : Frame) (port : UInt8) :
    FrameStep t f port (t.processFrame f port).1 (t.processFrame f port).2 := by
  unfold processFrame
  split
  · refine .ignored _ _ (by simp) fun x _ _ => not_concerns_of_not_wellFormed (fun hw => ?_) _ _
    have := hw.length
    omega
  split
  next h =>
    refine .ignored _ _ (by simp) fun x _ _ => not_concerns_of_not_wellFormed (fun hw => ?_) _ _
    rcases h.2 with h | h
    · rw [hw.source] at h; cases h
    · rw [hw.destination] at h; cases h
  next hlen hends =>
    have hwell : f.pgn = pgnEtpCm ∨ f.pgn = pgnEtpDt → WellFormed f := by
      intro hpgn
      have hvalid : ¬(validEtpSource f.source = false ∨
          validEtpDestination f.destination = false) := fun h => hends ⟨hpgn, h⟩
      push Not at hvalid
      exact ⟨Nat.le_of_not_lt fun h => hlen ⟨hpgn, h⟩, by simpa using hvalid.1,
        by simpa using hvalid.2⟩
    split
    next hcm => exact handleCm_step (hwell (Or.inl hcm)) hcm
    split
    next hdt => exact handleDt_step (hwell (Or.inr hdt)) hdt
    rename_i hcm hdt
    refine .ignored t.stats [] (by simp) ?_
    intro x _ _ hcon
    rcases hcon with ⟨h, -⟩ | ⟨h, -⟩
    · exact hdt h.pgn
    · exact hcm h.pgn

end ExtendedTransportProtocol

end Machbus
