import Machbus.Tp.Model.Engine
import Machbus.Transport.Helpers.Engine
/-!
# TP — what a call can do to the table

Whatever rewrites a session in its slot leaves its path alone, and the
timers never touch what a receive session has collected. `FrameStep`
lists, once, everything an incoming frame can do: the search of the table,
the guards that were passed and the table, events and answers that result.
`processFrame_step` says it is exhaustive. The results about whole runs
are read off it and never unfold the engine.
-/

namespace Machbus

open List

namespace Tp

variable {s s' : TransportSession} {elapsedMs : ℕ}

/-! ## Rewrites -/

theorem acceptCts_path {m n k : ℕ} (h : acceptCts m s n k = .ok s') : s'.path = s.path := by
  unfold acceptCts at h
  dsimp only at h
  split at h
  · split at h
    · cases h; rfl
    · cases h
  split at h
  · cases h; rfl
  split at h
  · cases h
  split at h
  · split at h
    · cases h
    · cases h; rfl
  · cases h; rfl

@[simp] theorem ingest_path (seq : ℕ) (block : List UInt8) :
    (ingest s seq block).path = s.path := rfl

/-- The next window is all an accepted packet changes besides the data. -/
theorem advanceWindow_eq (s : TransportSession) (seq : ℕ) : ∃ start size,
      (advanceWindow s seq).1 = { s with ctsWindowStart := start, ctsWindowSize := size } := by
  unfold advanceWindow
  dsimp only
  split
  · exact ⟨_, _, rfl⟩
  · exact ⟨s.ctsWindowStart, s.ctsWindowSize, rfl⟩

@[simp] theorem advanceWindow_path (seq : ℕ) : (advanceWindow s seq).1.path = s.path := by
  obtain ⟨start, size, h⟩ := advanceWindow_eq s seq
  rw [h]
  rfl

/-- Cutting frames moves the two counters and nothing else. -/
theorem generateDataFrames_eq (s : TransportSession) (count : ℕ) :
    ∃ seq bytes, (generateDataFrames s count).1 =
      { s with lastSequence := seq, bytesTransferred := bytes } := by
  induction count generalizing s with
  | zero => exact ⟨s.lastSequence, s.bytesTransferred, rfl⟩
  | succ count ih =>
    rw [generateDataFrames]
    split
    · exact ⟨s.lastSequence, s.bytesTransferred, rfl⟩
    obtain ⟨seq, bytes, h⟩ := ih
      { s with
        lastSequence := (s.lastSequence + 1) % 256
        bytesTransferred := min (s.bytesTransferred + tpBytesPerFrame) s.totalBytes }
    exact ⟨seq, bytes, h⟩

@[simp] theorem generateDataFrames_path (count : ℕ) :
    (generateDataFrames s count).1.path = s.path := by
  obtain ⟨seq, bytes, h⟩ := generateDataFrames_eq s count
  rw [h]
  rfl

@[simp] theorem drain_path : (drain s).1.path = s.path := by
  unfold drain
  split
  · dsimp only
    split <;> exact generateDataFrames_path _
  · rfl

/-- The drain is for transmit sessions. -/
theorem drain_of_receive (h : s.direction = .receive) : drain s = (s, []) := by
  unfold drain
  rw [if_neg (by simp [h])]

/-! ## The timer sweep -/

/-- **A turn of the sweep.** A broadcast whose interval has passed sends a
packet, a session past its deadline goes, and any other only grows
older. -/
theorem tick_cases (elapsedMs : ℕ) (s : TransportSession) :
    (s.direction = .transmit ∧ ∃ s' frames, s'.path = s.path ∧
      tick elapsedMs s = (some s', .sent frames)) ∨
    (s.direction = .transmit ∧ ∃ s' frames, s'.path = s.path ∧
      tick elapsedMs s = (none, .completed s' frames)) ∨
    (∃ s', tick elapsedMs s = (none, .timedOut s')) ∨
    tick elapsedMs s = (some { s with timerMs := satAdd32 s.timerMs elapsedMs }, .quiet) := by
  unfold tick
  dsimp only
  split
  next hbam =>
    split
    · refine Or.inr (Or.inl ⟨hbam.2.2.1, _, _, ?_, rfl⟩)
      exact generateDataFrames_path 1
    · refine Or.inl ⟨hbam.2.2.1, _, _, ?_, rfl⟩
      exact generateDataFrames_path 1
  split
  · exact Or.inr (Or.inr (Or.inl ⟨_, rfl⟩))
  · exact Or.inr (Or.inr (Or.inr rfl))

theorem tick_path (h : (tick elapsedMs s).1 = some s') : s'.path = s.path := by
  rcases tick_cases elapsedMs s with ⟨-, x, fr, hx, ht⟩ | ⟨-, x, fr, hx, ht⟩ | ⟨x, ht⟩ | ht <;>
    rw [ht] at h <;> cases h
  · exact hx
  · rfl

/-- A receive session that survives the sweep has only grown older. -/
theorem tick_of_receive (hdir : s.direction = .receive) (h : (tick elapsedMs s).1 = some s') :
    s' = { s with timerMs := satAdd32 s.timerMs elapsedMs } := by
  rcases tick_cases elapsedMs s with ⟨hd, -⟩ | ⟨hd, -⟩ | ⟨x, ht⟩ | ht
  · rw [hdir] at hd; cases hd
  · rw [hdir] at hd; cases hd
  · rw [ht] at h; cases h
  · rw [ht] at h
    exact (Option.some.inj h).symm

/-- The sessions a turn of the sweep completes. -/
def tickCompleted : Tick → List TransportSession
  | .completed s _ => [s]
  | _ => []

theorem direction_of_mem_tickCompleted
    (h : s' ∈ tickCompleted (tick elapsedMs s).2) : s'.direction = .transmit := by
  rcases tick_cases elapsedMs s with ⟨-, x, fr, -, ht⟩ | ⟨hd, x, fr, hx, ht⟩ | ⟨x, ht⟩ | ht <;>
    rw [ht] at h <;> simp only [tickCompleted, mem_singleton, not_mem_nil] at h
  rw [h]
  exact (congrArg Prod.fst hx).trans hd

end Tp

namespace TransportProtocol

open Tp

/-- What the timers do beside the sweep is count and report. -/
theorem foldl_applyTick (ticks : List Tick) (t : TransportProtocol) :
    ∃ stats aborts, ticks.foldl applyTick t =
      { t with
        stats := stats
        onAbort := aborts
        onComplete := t.onComplete ++ ticks.flatMap tickCompleted } := by
  induction ticks generalizing t with
  | nil => exact ⟨t.stats, t.onAbort, by simp⟩
  | cons k ticks ih =>
    obtain ⟨stats, aborts, h⟩ := ih (applyTick t k)
    rw [foldl_cons, h]
    cases k <;> exact ⟨stats, aborts, by simp [applyTick, tickCompleted]⟩

variable (t : TransportProtocol)

/-- The table after the timer sweep, up to order. -/
theorem update_sessions_perm (elapsedMs : ℕ) : (t.update elapsedMs).1.sessions.Perm
      (t.sessions.filterMap fun s => (tick elapsedMs s).1) := by
  obtain ⟨stats, aborts, h⟩ := foldl_applyTick _ { t with sessions := _ }
  rw [update, h]
  exact (sweep_perm t.sessions).1

/-- The timer sweep completes broadcasts it has sent and nothing else. -/
theorem update_onComplete (elapsedMs : ℕ) :
    ∃ done, (t.update elapsedMs).1.onComplete = t.onComplete ++ done ∧
      ∀ s ∈ done, s.direction = .transmit := by
  refine ⟨(sweep (tick elapsedMs) t.sessions).2.flatMap tickCompleted, ?_, ?_⟩
  · obtain ⟨stats, aborts, h⟩ := foldl_applyTick _ { t with sessions := _ }
    rw [update, h]
  · intro s hs
    obtain ⟨k, hk, hsk⟩ := mem_flatMap.mp hs
    obtain ⟨x, -, rfl⟩ := mem_map.mp ((sweep_perm t.sessions).2.mem_iff.mp hk)
    exact direction_of_mem_tickCompleted hsk

/-- What a call to `send` does to the table. It is put off for a blocked
path only. -/
theorem send_cases (pgn : ℕ) (data : List UInt8) (source dest : Address)
    (port : UInt8) (priority : Priority) :
    (∃ stats err, (err.code = .sessionExists ∨ err.code = .noResources →
        PathBlocked t.maxSessions t.sessions (.transmit, source, dest, port)) ∧
      t.send pgn data source dest port priority = ({ t with stats := stats }, .error err)) ∨
    (¬PathBlocked t.maxSessions t.sessions (.transmit, source, dest, port) ∧
      ∃ s frames, s.path = (.transmit, source, dest, port) ∧
        t.send pgn data source dest port priority =
          ({ t with sessions := t.sessions ++ [s] }, .ok frames)) := by
  have hbusy : (t.sessions.any fun s => s.sourceAddress == source && s.destinationAddress == dest &&
      s.direction == .transmit && s.canPort == port) = true ↔
      ∃ s ∈ t.sessions, s.path = (.transmit, source, dest, port) := by
    rw [any_eq_true]
    refine exists_congr fun s => and_congr_right fun _ => ?_
    simp only [Bool.and_eq_true, beq_iff_eq, TransportSession.path, Prod.mk.injEq]
    tauto
  generalize h : t.send pgn data source dest port priority = r
  unfold send at h
  iterate 5
    split at h
    · subst h
      refine .inl ⟨_, _, ?_, rfl⟩
      exact fun hwait => hwait.elim nofun nofun
  split at h
  · exact .inl ⟨t.stats, _, fun _ => .inl (hbusy.mp ‹_›), h.symm⟩
  split at h
  · exact .inl ⟨_, _, fun _ => .inr ‹_›, h.symm⟩
  rename_i hidle hroom
  refine .inr ⟨fun h => h.elim (fun h => hidle (hbusy.mpr h)) hroom, ?_⟩
  split at h <;> subst h
  all_goals
    refine ⟨_, _, ?_, rfl⟩
    rfl

/-- **What the calls other than a frame do.** They complete no receive
session. -/
theorem step_calls {t : TransportProtocol} {op : Op} (hop : ∀ f port, op ≠ .frame f port) :
    CallStep t.sessions (t.step op).sessions ∧
      ∃ done, (t.step op).onComplete = t.onComplete ++ done ∧
        ∀ s ∈ done, s.direction = .transmit := by
  have hnone : ∃ done, t.onComplete = t.onComplete ++ done ∧ ∀ s ∈ done, s.direction = .transmit :=
    ⟨[], (append_nil _).symm, nofun⟩
  cases op with
  | frame f port => exact absurd rfl (hop f port)
  | send pgn data source dest port priority =>
    rcases send_cases t pgn data source dest port priority with
      ⟨stats, err, -, h⟩ | ⟨hfree, s, frames, hpath, h⟩
    · rw [step, h]
      exact ⟨.keeps, hnone⟩
    · rw [step, h]
      exact ⟨.opens hpath fun x hx hx' => hfree (.inl ⟨x, hx, hx'.trans hpath⟩), hnone⟩
  | update elapsedMs =>
    exact ⟨.passes (fun _ _ => tick_path) (fun s s' h hd => ⟨_, tick_of_receive hd h⟩)
      (update_sessions_perm t elapsedMs), update_onComplete t elapsedMs⟩
  | pending => exact ⟨.of_map (fun _ => drain_path) fun _ hd => by rw [drain_of_receive hd], hnone⟩
  | abortFor port address => exact ⟨.of_filter _, hnone⟩

open TransportSession TpCm

variable {t : TransportProtocol} {f : Frame} {port : UInt8} {rs : List Frame}
  {p : TransportSession → Bool} {src dst : Address}

/-! ## Searches -/

/-- A search that succeeds splits the table around what it found, and the
index it returns reads, rewrites and vacates that slot. -/
theorem sessionPosition_some {idx : ℕ} (h : t.sessionPosition p = some idx) :
    ∃ l₁ s l₂, t.sessions = l₁ ++ s :: l₂ ∧ p s = true ∧ t.sessionAt idx = s ∧
      t.removeSession idx = { t with sessions := l₁ ++ lastFirst l₂ } ∧
      ∀ s', t.setSession idx s' = { t with sessions := l₁ ++ s' :: l₂ } := by
  obtain ⟨l₁, s, l₂, hl, rfl, hp, -⟩ := exists_split_of_findIdx? h
  refine ⟨l₁, s, l₂, hl, hp, ?_, ?_, fun s' => ?_⟩
  · rw [sessionAt, hl, getD_append_cons]
  · rw [removeSession, hl, swapRemove_append_cons]
  · rw [setSession, hl, set_append_cons]

theorem sessionPosition_none (h : t.sessionPosition p = none) : ∀ s ∈ t.sessions, p s = false :=
  findIdx?_eq_none_iff.mp h

/-! ## Frames -/

/-- A frame the engine looks into: eight bytes between addresses that can
stand at the ends of a transfer. -/
@[mk_iff] structure WellFormed (f : Frame) : Prop where
  length : canDataLength ≤ f.length
  source : validTpSource f.source = true
  destination : validTpDestination f.destination = true

/-- A well-formed control frame with a given control byte. -/
structure IsCm (control : UInt8) (f : Frame) : Prop extends WellFormed f where
  pgn : f.pgn = pgnTpCm
  control : f.data.b0 = control
  target : pgnIsValid (pgnFromCmBytes f.data) = true
  directed : f.data.b0 ≠ TpCm.bam → f.destination ≠ broadcastAddress

/-- A well-formed data frame. -/
@[mk_iff] structure IsDt (f : Frame) : Prop extends WellFormed f where
  pgn : f.pgn = pgnTpDt

instance (f : Frame) : Decidable (WellFormed f) := decidable_of_iff' _ (wellFormed_iff f)

instance (f : Frame) : Decidable (IsDt f) := decidable_of_iff' _ (isDt_iff f)

/-- `base` is the table without the transfer an announcement of `s`
repeats: nothing is repeated, or one session of the same path and PGN has
been taken out. -/
inductive Cleared (l : List TransportSession) (s : TransportSession) :
    List TransportSession → Prop
  | fresh (h : ∀ x ∈ l, ¬(x.path = s.path ∧ x.pgn = s.pgn)) : Cleared l s l
  | repeated {l₁ l₂ : List TransportSession} {old : TransportSession} (hl : l = l₁ ++ old :: l₂)
      (hpath : old.path = s.path) (hpgn : old.pgn = s.pgn) : Cleared l s (l₁ ++ lastFirst l₂)

/-- What is left after the clearing was there before. -/
theorem Cleared.mem {l base : List TransportSession} {s x : TransportSession}
    (h : Cleared l s base) (hx : x ∈ base) : x ∈ l := by
  cases h with
  | fresh => exact hx
  | repeated hl => rw [hl]; exact mem_of_mem_remove hx

/-- A BAM that opens a session: it is well formed, within the cap, and a
slot is free once the transfer it repeats is gone. -/
structure BamOpens (t : TransportProtocol) (f : Frame) (port : UInt8) : Prop where
  cm : IsCm TpCm.bam f
  global : f.isBroadcast = true
  shape : validTpPayloadShape (sizeFromCmBytes f.data) f.data.b3.toNat = true
  cap : sizeFromCmBytes f.data ≤ t.maxReceiveBytes
  room : t.sessions.length < t.maxSessions +
    (if (t.receiveSessionFor f.source broadcastAddress port (pgnFromCmBytes f.data)).isSome
      then 1 else 0)

/-- **What an incoming frame can do.** -/
inductive FrameStep (t : TransportProtocol) (f : Frame) (port : UInt8) :
    TransportProtocol → List Frame → Prop
  /-- The frame is dropped or refused; only counters move. A data frame is
  dropped for want of a session that waits on its path. -/
  | ignored (stats : TransportStats) (rs : List Frame) (hrs : ∀ r ∈ rs, r.data.b0 ≠ TpCm.cts)
      (hdt : IsDt f → ∀ x ∈ t.sessions, x.path = (.receive, f.source, f.destination, port) →
        x.state ≠ .waitingForData) :
      FrameStep t f port { t with stats := stats } rs
  /-- A repeated announcement ends the transfer it repeats and is then
  dropped or refused itself. -/
  | abandoned {l₁ l₂ : List TransportSession} {old : TransportSession} (stats : TransportStats)
      (rs : List Frame) (hf : f.pgn = pgnTpCm) (hrs : ∀ r ∈ rs, r.data.b0 ≠ TpCm.cts)
      (hl : t.sessions = l₁ ++ old :: l₂) (hdir : old.direction = .receive) :
      FrameStep t f port { t with sessions := l₁ ++ lastFirst l₂, stats := stats } rs
  /-- An RTS opens a session and is answered with the first window. -/
  | openedRts {base : List TransportSession} (hf : IsCm TpCm.rts f)
      (hshape : validTpPayloadShape (sizeFromCmBytes f.data) f.data.b3.toNat = true)
      (hwindow : f.data.b4 ≠ 0) (hcap : sizeFromCmBytes f.data ≤ t.maxReceiveBytes)
      (hbase : Cleared t.sessions
        (rtsSession f port (List.replicate (sizeFromCmBytes f.data) 0xFF)) base)
      (hfree : (∀ x ∈ t.sessions, ¬(x.path = (.receive, f.source, f.destination, port) ∧
          x.pgn = pgnFromCmBytes f.data)) →
        ∀ x ∈ t.sessions, x.path ≠ (.receive, f.source, f.destination, port)) :
      FrameStep t f port
        { t with
          sessions := base ++ [rtsSession f port (List.replicate (sizeFromCmBytes f.data) 0xFF)] }
        [makeCts f.destination f.source
          (min f.data.b3.toNat (min f.data.b4.toNat tpMaxPacketsPerCts)) 1 (pgnFromCmBytes f.data)]
  /-- A BAM opens a session. -/
  | openedBam {base : List TransportSession} (hopen : BamOpens t f port)
      (hbase : Cleared t.sessions
        (bamSession f port (List.replicate (sizeFromCmBytes f.data) 0xFF)) base) :
      FrameStep t f port
        { t with
          sessions := base ++ [bamSession f port (List.replicate (sizeFromCmBytes f.data) 0xFF)] }
        []
  /-- A CTS is accepted by the transmit session it matches. -/
  | granted {l₁ l₂ : List TransportSession} {s s' : TransportSession} (hf : IsCm TpCm.cts f)
      (hl : t.sessions = l₁ ++ s :: l₂)
      (hpath : s.path = (.transmit, f.destination, f.source, port))
      (hcts : acceptCts t.maxRetransmits s f.data.b1.toNat f.data.b2.toNat = .ok s') :
      FrameStep t f port { t with sessions := l₁ ++ s' :: l₂ } []
  /-- A session is aborted, by its peer or for what its peer sent. -/
  | aborted {l₁ l₂ : List TransportSession} {s : TransportSession} (reason : TransportAbortReason)
      (stats : TransportStats) (rs : List Frame) (hrs : ∀ r ∈ rs, r.data.b0 ≠ TpCm.cts)
      (hl : t.sessions = l₁ ++ s :: l₂)
      (hdt : IsDt f → s.path = (.receive, f.source, f.destination, port)) :
      FrameStep t f port
        { t with
          sessions := l₁ ++ lastFirst l₂
          onAbort := t.onAbort ++ [.fromSession s reason]
          stats := stats } rs
  /-- An EOMA completes a transmit session. -/
  | acknowledged {l₁ l₂ : List TransportSession} {s : TransportSession} (hf : IsCm TpCm.eoma f)
      (hl : t.sessions = l₁ ++ s :: l₂)
      (hpath : s.path = (.transmit, f.destination, f.source, port)) : FrameStep t f port
        { t with
          sessions := l₁ ++ lastFirst l₂
          onComplete := t.onComplete ++ [{ s with state := .complete }] } []
  /-- A data frame is taken in and more are to come. -/
  | advanced {l₁ l₂ : List TransportSession} {s : TransportSession} (hf : IsDt f)
      (hl : t.sessions = l₁ ++ s :: l₂)
      (hpath : s.path = (.receive, f.source, f.destination, port))
      (hseq : f.data.b0.toNat = s.lastSequence + 1)
      (hmore : (s.lastSequence + 1) * 7 < s.totalBytes) :
      FrameStep t f port
        { t with
          sessions :=
            l₁ ++ (advanceWindow (ingest s f.data.b0.toNat f.data.tail) f.data.b0.toNat).1 :: l₂ }
        (advanceWindow (ingest s f.data.b0.toNat f.data.tail) f.data.b0.toNat).2
  /-- The last data frame is taken in. -/
  | delivered {l₁ l₂ : List TransportSession} {s : TransportSession} (rs : List Frame) (hf : IsDt f)
      (hl : t.sessions = l₁ ++ s :: l₂)
      (hpath : s.path = (.receive, f.source, f.destination, port))
      (hseq : f.data.b0.toNat = s.lastSequence + 1)
      (hlast : s.totalBytes ≤ (s.lastSequence + 1) * 7) :
      FrameStep t f port
        { t with
          sessions := l₁ ++ lastFirst l₂
          onComplete := t.onComplete ++
            [{ ingest s f.data.b0.toNat f.data.tail with state := .complete }] } rs

/-! ## Every branch is one of these -/

theorem not_isDt_of_cm (hpgn : f.pgn = pgnTpCm) : ¬IsDt f := by
  intro h
  have := hpgn.symm.trans h.pgn
  revert this
  decide

/-- A control frame that only moves counters. -/
theorem FrameStep.ignored_cm (stats : TransportStats) (hpgn : f.pgn = pgnTpCm)
    (hrs : ∀ r ∈ rs, r.data.b0 ≠ cts) : FrameStep t f port { t with stats := stats } rs :=
  .ignored stats rs hrs fun h => absurd h (not_isDt_of_cm hpgn)

/-- A dropped control frame. -/
theorem dropped_cm_step (hpgn : f.pgn = pgnTpCm) : FrameStep t f port t.noteDroppedFrame [] :=
  .ignored_cm _ hpgn nofun

theorem makeAbort_not_cts (src dst : Address) (pgn : ℕ) (reason : TransportAbortReason) :
    ∀ r ∈ [makeAbort src dst pgn reason], r.data.b0 ≠ cts := by
  intro r hr
  rw [mem_singleton.mp hr]
  exact (by decide : abort ≠ cts)

theorem makeSessionAbort_not_cts (s : TransportSession) (reason : TransportAbortReason) :
    ∀ r ∈ [makeSessionAbort s reason], r.data.b0 ≠ cts := by
  unfold makeSessionAbort
  split <;> exact makeAbort_not_cts _ _ _ _

/-- Opening a session after an announcement, over a table already
cleared of the transfer it repeats. -/
theorem openRts_cases (t : TransportProtocol) (f : Frame) (port : UInt8) :
    (∃ stats rs, (∀ r ∈ rs, r.data.b0 ≠ cts) ∧ t.openRts f port = ({ t with stats := stats }, rs)) ∨
      sizeFromCmBytes f.data ≤ t.maxReceiveBytes ∧ t.openRts f port = ({ t with
              sessions := t.sessions ++
                [rtsSession f port (replicate (sizeFromCmBytes f.data) 0xFF)] },
            [makeCts f.destination f.source
              (min f.data.b3.toNat (min f.data.b4.toNat tpMaxPacketsPerCts)) 1
              (pgnFromCmBytes f.data)]) := by
  unfold openRts
  by_cases hroom : t.maxSessions ≤ t.sessions.length
  · rw [if_pos hroom]
    exact Or.inl ⟨_, _, makeAbort_not_cts _ _ _ _, rfl⟩
  rw [if_neg hroom, rxBuffer]
  by_cases hcap : t.maxReceiveBytes < sizeFromCmBytes f.data
  · rw [if_pos hcap]
    exact Or.inl ⟨_, _, makeAbort_not_cts _ _ _ _, rfl⟩
  · rw [if_neg hcap]
    exact Or.inr ⟨by omega, rfl⟩

theorem openBam_cases (t : TransportProtocol) (f : Frame) (port : UInt8) :
    (∃ stats, t.openBam f port = { t with stats := stats }) ∨ f.isBroadcast = true ∧
        validTpPayloadShape (sizeFromCmBytes f.data) f.data.b3.toNat = true ∧
        sizeFromCmBytes f.data ≤ t.maxReceiveBytes ∧ t.sessions.length < t.maxSessions ∧
        t.openBam f port =
          { t with
            sessions := t.sessions ++
              [bamSession f port (replicate (sizeFromCmBytes f.data) 0xFF)] } := by
  unfold openBam
  by_cases hbad : f.isBroadcast = false ∨
      validTpPayloadShape (sizeFromCmBytes f.data) f.data.b3.toNat = false ∨
      t.maxReceiveBytes < sizeFromCmBytes f.data
  · simp only [if_pos hbad]
    split <;> exact Or.inl ⟨_, rfl⟩
  simp only [if_neg hbad]
  push Not at hbad
  obtain ⟨hbc, hshape, hcap⟩ := hbad
  by_cases hroom : t.maxSessions ≤ t.sessions.length
  · rw [if_pos hroom]
    exact Or.inl ⟨_, rfl⟩
  · rw [if_neg hroom, rxBuffer, if_neg (by omega)]
    exact Or.inr ⟨by simpa using hbc, by simpa using hshape, hcap, by omega, rfl⟩

/-- The session a repeated announcement is looked for. -/
theorem receiveSessionFor_some {pgn idx : ℕ} (h : t.receiveSessionFor src dst port pgn = some idx) :
    ∃ l₁ s l₂, t.sessions = l₁ ++ s :: l₂ ∧ s.path = (.receive, src, dst, port) ∧ s.pgn = pgn ∧
      t.removeSession idx = { t with sessions := l₁ ++ lastFirst l₂ } := by
  obtain ⟨l₁, s, l₂, hl, hp, -, hrm, -⟩ := sessionPosition_some h
  simp only [Bool.and_eq_true, beq_iff_eq] at hp
  obtain ⟨⟨⟨⟨hd, hs⟩, hc⟩, hdst⟩, hpgn⟩ := hp
  refine ⟨l₁, s, l₂, hl, ?_, hpgn, hrm⟩
  rw [path, hd, hs, hdst, hc]

theorem receiveSessionFor_none {pgn : ℕ} (h : t.receiveSessionFor src dst port pgn = none) :
    ∀ x ∈ t.sessions, ¬(x.path = (.receive, src, dst, port) ∧ x.pgn = pgn) := by
  rintro x hx ⟨hpath, hpgn⟩
  have := sessionPosition_none h x hx
  simp only [path, Prod.mk.injEq] at hpath
  simp [hpath, hpgn] at this

theorem receivePathIsActive_false (h : t.receivePathIsActive src dst port = false) :
    ∀ x ∈ t.sessions, x.path ≠ (.receive, src, dst, port) := by
  intro x hx hpath
  rw [receivePathIsActive, any_eq_false] at h
  simp only [path, Prod.mk.injEq] at hpath
  exact h x hx (by simp [hpath])

theorem handleRts_step (hf : IsCm rts f) :
    FrameStep t f port (t.handleRts f port).1 (t.handleRts f port).2 := by
  simp only [handleRts]
  split
  · exact .ignored_cm _ hf.pgn (makeAbort_not_cts _ _ _ _)
  rename_i hgood
  push Not at hgood
  obtain ⟨hshape, hwindow⟩ := hgood
  have hshape' : validTpPayloadShape (sizeFromCmBytes f.data) f.data.b3.toNat = true := by
    simpa using hshape
  split
  · -- the announcement repeats a transfer, which is abandoned first
    rename_i existing hex
    obtain ⟨l₁, old, l₂, hl, hpath, hpgn, hrm⟩ := receiveSessionFor_some hex
    rw [hrm]
    rcases openRts_cases { t with sessions := l₁ ++ lastFirst l₂ } f port
      with ⟨stats, rs, hrs, h⟩ | ⟨hcap, h⟩
    · rw [h]
      exact .abandoned stats rs hf.pgn hrs hl (congrArg Prod.fst hpath)
    · rw [h]
      refine .openedRts hf hshape' hwindow hcap (.repeated hl hpath hpgn) ?_
      intro hnone
      exact absurd ⟨hpath, hpgn⟩ (hnone old (by simp [hl]))
  next hex =>
    have hnone := receiveSessionFor_none hex
    split
    · exact .ignored_cm _ hf.pgn (makeAbort_not_cts _ _ _ _)
    rename_i hidle
    rcases openRts_cases t f port with ⟨stats, rs, hrs, h⟩ | ⟨hcap, h⟩
    · rw [h]
      exact .ignored_cm stats hf.pgn hrs
    · rw [h]
      exact .openedRts hf hshape' hwindow hcap (.fresh hnone)
        fun _ => receivePathIsActive_false (by simpa using hidle)

theorem handleBam_step (hf : IsCm bam f) : FrameStep t f port (t.handleBam f port) [] := by
  unfold handleBam
  split
  next existing hex =>
    obtain ⟨l₁, old, l₂, hl, hpath, hpgn, hrm⟩ := receiveSessionFor_some hex
    rw [hrm]
    rcases openBam_cases { t with sessions := l₁ ++ lastFirst l₂ } f port
      with ⟨stats, h⟩ | ⟨hbc, hshape, hcap, hroom, h⟩
    · rw [h]
      exact .abandoned stats [] hf.pgn (by simp) hl (congrArg Prod.fst hpath)
    · rw [h]
      refine .openedBam ⟨hf, hbc, hshape, hcap, ?_⟩ (.repeated hl hpath hpgn)
      rw [hex, hl]
      simp at hroom ⊢
      omega
  next hex =>
    rcases openBam_cases t f port with ⟨stats, h⟩ | ⟨hbc, hshape, hcap, hroom, h⟩
    · rw [h]
      exact .ignored_cm stats hf.pgn (by simp)
    · rw [h]
      exact .openedBam ⟨hf, hbc, hshape, hcap, by rw [hex]; simpa using hroom⟩
        (.fresh (receiveSessionFor_none hex))

theorem handleCts_step (hf : IsCm cts f) :
    FrameStep t f port (t.handleCts f port).1 (t.handleCts f port).2 := by
  simp only [handleCts]
  split
  · exact dropped_cm_step hf.pgn
  rename_i idx hidx
  obtain ⟨l₁, s, l₂, hl, hp, hat, hrm, hset⟩ := sessionPosition_some hidx
  simp only [Bool.and_eq_true, beq_iff_eq] at hp
  have hpath : s.path = (.transmit, f.destination, f.source, port) := by
    rw [path, hp.1.1.1.1.1, hp.1.1.1.1.2, hp.1.1.1.2, hp.2]
  simp only [hat, hrm, hset]
  split
  next s' hcts => exact .granted hf hl hpath hcts
  · exact .aborted _ _ _ (makeSessionAbort_not_cts _ _) hl fun h => absurd h (not_isDt_of_cm hf.pgn)

theorem handleEoma_step (hf : IsCm eoma f) :
    FrameStep t f port (t.handleEoma f port).1 (t.handleEoma f port).2 := by
  simp only [handleEoma]
  split
  · exact dropped_cm_step hf.pgn
  rename_i idx hidx
  obtain ⟨l₁, s, l₂, hl, hp, hat, hrm, -⟩ := sessionPosition_some hidx
  simp only [Bool.and_eq_true, beq_iff_eq] at hp
  have hpath : s.path = (.transmit, f.destination, f.source, port) := by
    rw [path, hp.1.1.1.1, hp.1.1.1.2, hp.1.1.2, hp.2]
  simp only [hat, hrm]
  split
  · exact dropped_cm_step hf.pgn
  · exact .acknowledged hf hl hpath

theorem handleAbort_step (hpgn : f.pgn = pgnTpCm) :
    FrameStep t f port (t.handleAbort f port) [] := by
  simp only [handleAbort]
  split
  · exact dropped_cm_step hpgn
  rename_i idx hidx
  obtain ⟨l₁, s, l₂, hl, -, hat, hrm, -⟩ := sessionPosition_some hidx
  simp only [hat, hrm]
  exact .aborted _ _ _ (by simp) hl fun h => absurd h (not_isDt_of_cm hpgn)

theorem handleCm_step (hw : WellFormed f) (hpgn : f.pgn = pgnTpCm) :
    FrameStep t f port (t.handleCm f port).1 (t.handleCm f port).2 := by
  simp only [handleCm]
  by_cases htarget : pgnIsValid (pgnFromCmBytes f.data) = false
  · rw [if_pos htarget]
    exact dropped_cm_step hpgn
  by_cases hglobal : f.data.b0 ≠ bam ∧ f.destination = broadcastAddress
  · rw [if_neg htarget, if_pos hglobal]
    exact dropped_cm_step hpgn
  have hcm : IsCm f.data.b0 f :=
    { toWellFormed := hw
      pgn := hpgn
      control := rfl
      target := by simpa using htarget
      directed := fun hb hd => hglobal ⟨hb, hd⟩ }
  simp only [if_neg htarget, if_neg hglobal]
  split
  next h => exact handleRts_step (h ▸ hcm)
  split
  next h => exact handleCts_step (h ▸ hcm)
  split
  next h => exact handleEoma_step (h ▸ hcm)
  split
  next h => exact handleBam_step (h ▸ hcm)
  split
  · exact handleAbort_step hpgn
  · exact dropped_cm_step hpgn

/-- A bad sequence number closes the session it was meant for. -/
theorem abortReceive_step {idx : ℕ} (h : t.sessionPosition p = some idx)
    (hpath : (t.sessionAt idx).path = (.receive, f.source, f.destination, port))
    (reason : TransportAbortReason) :
    FrameStep t f port (t.abortReceive idx reason).1 (t.abortReceive idx reason).2 := by
  obtain ⟨l₁, s, l₂, hl, -, hat, hrm, -⟩ := sessionPosition_some h
  rw [hat] at hpath
  simp only [abortReceive, hat, hrm]
  refine .aborted _ _ _ ?_ hl fun _ => hpath
  split
  · exact makeSessionAbort_not_cts _ _
  · simp

theorem handleDt_step (hw : WellFormed f) (hpgn : f.pgn = pgnTpDt) :
    FrameStep t f port (t.handleDt f port).1 (t.handleDt f port).2 := by
  have hf : IsDt f := { toWellFormed := hw, pgn := hpgn }
  simp only [handleDt]
  split
  next hnone =>
    refine .ignored _ _ (by simp) ?_
    intro _ x hx hpath hstate
    have := sessionPosition_none hnone x hx
    simp only [path, Prod.mk.injEq] at hpath
    simp [hpath, hstate] at this
  next idx hidx =>
    obtain ⟨l₁, s, l₂, hl, hp, hat, hrm, hset⟩ := sessionPosition_some hidx
    simp only [Bool.and_eq_true, beq_iff_eq] at hp
    have hpath : s.path = (.receive, f.source, f.destination, port) := by
      rw [path, hp.1.1.1.1, hp.1.1.1.2, hp.2, hp.1.1.2]
    have habort : ∀ reason,
        FrameStep t f port (t.abortReceive idx reason).1 (t.abortReceive idx reason).2 :=
      abortReceive_step hidx (by rw [hat]; exact hpath)
    simp only [hat]
    iterate 3
      split
      · exact habort _
    -- only the expected number is left
    have hseq : f.data.b0.toNat = s.lastSequence + 1 := by omega
    simp only [acceptDt, hat, hrm, hset]
    split
    next hdone =>
      exact .delivered _ hf hl hpath hseq (by simp only [ingest, tpBytesPerFrame] at hdone; omega)
    next hopen =>
      exact .advanced hf hl hpath hseq (by simp only [ingest, tpBytesPerFrame] at hopen; omega)

/-- **Nothing else happens.** -/
theorem processFrame_step (t : TransportProtocol) (f : Frame) (port : UInt8) :
    FrameStep t f port (t.processFrame f port).1 (t.processFrame f port).2 := by
  have hshort : ∀ h : f.length < canDataLength, ¬IsDt f := fun h hf => by
    have := hf.length
    omega
  unfold processFrame
  split
  next h => exact .ignored _ _ (by simp) fun hf => absurd hf (hshort h.2)
  split
  next h =>
    refine .ignored _ _ (by simp) ?_
    intro hf
    rcases h.2 with h | h
    · rw [hf.source] at h; cases h
    · rw [hf.destination] at h; cases h
  next hlen hends =>
    have hwell : f.pgn = pgnTpCm ∨ f.pgn = pgnTpDt → WellFormed f := by
      intro hpgn
      have hvalid : ¬(validTpSource f.source = false ∨ validTpDestination f.destination = false) :=
        fun h => hends ⟨hpgn, h⟩
      push Not at hvalid
      exact ⟨Nat.le_of_not_lt fun h => hlen ⟨hpgn, h⟩, by simpa using hvalid.1,
        by simpa using hvalid.2⟩
    split
    next hcm => exact handleCm_step (hwell (Or.inl hcm)) hcm
    split
    next hdt => exact handleDt_step (hwell (Or.inr hdt)) hdt
    next hdt => exact .ignored t.stats [] (by simp) fun hf => absurd hf.pgn hdt

end TransportProtocol

end Machbus
