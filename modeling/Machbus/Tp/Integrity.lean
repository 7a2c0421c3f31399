import Machbus.Tp.Helpers.Frames
/-!
# TP — data paths, and what a receiver delivers

A data frame names no PGN, so an open session is known by its path. Both
`send` and an RTS look at the whole path before they open a session; a
BAM looks for its own PGN only. `step_keyNodup` carries the uniqueness
of any class of paths through a call, under what the BAM leaves out.

The bus is arbitrary: restarts, other PGNs, broadcasts, duplicates, gaps,
aborts and timeouts interleave as they please. A connection-mode receive
session nevertheless holds, at every moment, exactly the data frames that
came in on its path since the last RTS accepted for it, in the order of
their numbers. `Collected` is that invariant, and `history_reassembling`
carries it through a run with the run's history.
-/

namespace Machbus.TransportProtocol

open TransportSession Tp List

variable {t t' : TransportProtocol} {f : Frame} {port : UInt8} {rs : List Frame}
  {g : Path → Bool}

/-- An announcement that finds its path idle, or clears it, opens the
only session there. -/
theorem Cleared.keyNodup_push {l base : List TransportSession} {s : TransportSession}
    (hb : Cleared l s base) (hn : KeyNodup g path l)
    (hfree : (∀ x ∈ l, ¬(x.path = s.path ∧ x.pgn = s.pgn)) → g s.path = true →
      ∀ x ∈ l, x.path ≠ s.path) : KeyNodup g path (base ++ [s]) := by
  cases hb with
  | fresh h => exact hn.push (hfree h)
  | @repeated l₁ l₂ old hl hpath hpgn =>
    subst hl
    refine hn.remove.push ?_
    intro hg x hx
    rw [← hpath] at hg ⊢
    exact hn.ne_of_mem_remove hg x hx

/-- A BAM for which another PGN already holds the broadcast path of its
sender. -/
def Contended (t : TransportProtocol) (f : Frame) (port : UInt8) : Prop :=
  ∃ x ∈ t.sessions, x.path = (.receive, f.source, broadcastAddress, port) ∧
    x.pgn ≠ pgnFromCmBytes f.data

/-- **An incoming frame.** Distinct paths stay distinct, unless a BAM
opens a session beside another PGN. -/
theorem FrameStep.keyNodup (h : FrameStep t f port t' rs) (hn : KeyNodup g path t.sessions)
    (hbam : BamOpens t f port → g (.receive, f.source, broadcastAddress, port) = true →
      ¬Contended t f port) : KeyNodup g path t'.sessions := by
  cases h with
  | ignored => exact hn
  | abandoned _ _ hf hrs hl | aborted _ _ _ hrs hl | acknowledged hf hl hpath
  | delivered _ hf hl hpath hseq hlast => rw [hl] at hn; exact hn.remove
  | openedRts hf hshape hwindow hcap hbase hfree =>
    exact hbase.keyNodup_push hn fun hnone _ => hfree hnone
  | openedBam hopen hbase =>
    refine hbase.keyNodup_push hn ?_
    intro hnone hg x hx hpath
    exact hbam hopen hg ⟨x, hx, hpath, fun hpgn => hnone x hx ⟨hpath, hpgn⟩⟩
  | granted hf hl hpath hcts => rw [hl] at hn; exact hn.replace (acceptCts_path hcts)
  | advanced hf hl hpath hseq hmore =>
    rw [hl] at hn
    exact hn.replace (by rw [advanceWindow_path, ingest_path])

/-- **A call.** Everything but a BAM keeps distinct paths distinct. -/
theorem step_keyNodup {op : Op} (hn : KeyNodup g path t.sessions)
    (hbam : ∀ f port, op = .frame f port → BamOpens t f port →
      g (.receive, f.source, broadcastAddress, port) = true → ¬Contended t f port) :
    KeyNodup g path (t.step op).sessions := by
  cases op with
  | frame f port => exact (processFrame_step t f port).keyNodup hn (hbam f port rfl)
  | _ => exact (step_calls (by nofun)).1.keyNodup hn

/-! ## Where two broadcasts meet -/

/-- **The call that breaks the paths.** A BAM opens a session while its
sender's broadcast path carries another PGN. -/
def BamClash (t : TransportProtocol) : Op → Prop
  | .frame f port => BamOpens t f port ∧ Contended t f port
  | _ => False

/-- A BAM that opens a session leaves the other PGNs of its path open. -/
theorem not_keyNodup_of_bamClash {op : Op} (h : BamClash t op)
    (hg : ∀ src port, g (.receive, src, broadcastAddress, port) = true) :
    ¬KeyNodup g path (t.step op).sessions := by
  cases op with
  | frame f port =>
    obtain ⟨hb, x, hx, hpath, hpgn⟩ := h
    rw [step, processFrame_bam hb.cm, handleBam]
    have hroom := hb.room
    split
    next existing hex =>
      obtain ⟨l₁, old, l₂, hl, hopath, hopgn, hrm⟩ := receiveSessionFor_some hex
      rw [hex, hl] at hroom
      have hslot : (l₁ ++ lastFirst l₂).length < t.maxSessions := by simp at hroom ⊢; omega
      rw [hrm, openBam_of_room (t := { t with sessions := l₁ ++ lastFirst l₂ }) hb.global hb.shape
        hb.cap hslot]
      -- the session taken out is the one of the same PGN
      have hx' : x ∈ l₁ ++ lastFirst l₂ := by
        rw [hl] at hx
        rcases mem_append.mp hx with h₁ | h₂
        · exact mem_append_left _ h₁
        · rcases mem_cons.mp h₂ with rfl | h₂
          · exact absurd hopgn hpgn
          · exact mem_append_right _ (mem_lastFirst.mpr h₂)
      exact not_keyNodup_push (hg _ _) hx' hpath
    next hex =>
      rw [hex] at hroom
      rw [openBam_of_room hb.global hb.shape hb.cap (by simpa using hroom)]
      exact not_keyNodup_push (hg _ _) hx hpath
  | send | update | pending | abortFor => exact h.elim

/-- A call keeps the paths distinct just when it is not such a BAM. -/
theorem keyNodup_step_iff (t : TransportProtocol) (op : Op)
    (hn : KeyNodup (fun _ => true) path t.sessions) :
    KeyNodup (fun _ => true) path (t.step op).sessions ↔ ¬BamClash t op := by
  refine ⟨fun h hclash => not_keyNodup_of_bamClash hclash (fun _ _ => rfl) h, fun h => ?_⟩
  refine step_keyNodup hn ?_
  rintro f port rfl hopen - hcon
  exact h ⟨hopen, hcon⟩

theorem keyNodup_iff_nodup {l : List TransportSession} :
    KeyNodup (fun _ => true) path l ↔ (l.map path).Nodup := by
  rw [KeyNodup, filter_true]

/-- **Data-path uniqueness.** From an empty table, no two sessions of one
direction ever share source, destination and port, exactly in the runs
in which no BAM opens a session beside another PGN of its sender's
broadcast path. -/
theorem paths_unique_iff_no_bamClash {t₀ : TransportProtocol} (h₀ : t₀.sessions = [])
    (ops : List Op) :
    (∀ pre, pre <+: ops → ((run step t₀ pre).sessions.map TransportSession.path).Nodup) ↔
      Along step (fun t op => ¬BamClash t op) t₀ ops := by
  simp only [← keyNodup_iff_nodup]
  exact always_iff_along (by rw [h₀]; exact keyNodup_nil) keyNodup_step_iff ops

/-- Two BAMs of 20 bytes from node `0x20`, for different PGNs. -/
def bamPair : List Op :=
  [.frame (makeCm 0x20 broadcastAddress TpCm.bam 20 0 3 0xFF 0xFECA) 0,
    .frame (makeCm 0x20 broadcastAddress TpCm.bam 20 0 3 0xFF 0xFEDA) 0]

theorem paths_unique_fails_on_bamPair :
    ¬((run step new bamPair).sessions.map TransportSession.path).Nodup := by
  decide

theorem paths_unique_iff_on_bamPair :
    (∀ pre, pre <+: bamPair.take 1 →
        ((run step new pre).sessions.map TransportSession.path).Nodup) ∧
      ¬Along step (fun t op => ¬BamClash t op) new bamPair := by
  refine ⟨(paths_unique_iff_no_bamClash rfl _).mpr ⟨?_, trivial⟩, fun h => ?_⟩
  · rintro ⟨-, x, hx, -⟩
    exact not_mem_nil hx
  · have hnodup := (paths_unique_iff_no_bamClash rfl bamPair).mpr h bamPair prefix_rfl
    revert hnodup
    decide

/-! ## What a receiver delivers -/

open Prod

variable {t₀ : TransportProtocol} {s : TransportSession} {history : List Op}

/-! ## What the history says -/

variable (p : Path)

/-- The call accepts an RTS for a path and a PGN: the frame is an RTS
between those addresses, and it is answered with a CTS. -/
def AcceptsRts (pgn : ℕ) (t : TransportProtocol) : Op → Prop
  | .frame f port =>
    f.pgn = pgnTpCm ∧ f.data.b0 = TpCm.rts ∧
      (∃ r ∈ (t.processFrame f port).2, r.data.b0 = TpCm.cts) ∧
      p = (.receive, f.source, f.destination, port) ∧ pgnFromCmBytes f.data = pgn
  | _ => False

theorem not_acceptsRts_of_isDt (hf : IsDt f) (p : Path) (pgn : ℕ) :
    ¬AcceptsRts p pgn t (.frame f port) :=
  fun hacc => not_isDt_of_cm hacc.1 hf

theorem not_acceptsRts_of_isCm {c : UInt8} (hf : IsCm c f) (hc : c ≠ TpCm.rts) (p : Path)
    (pgn : ℕ) : ¬AcceptsRts p pgn t (.frame f port) :=
  fun hacc => hc (hf.control.symm.trans hacc.2.1)

/-- The data frames on a path: sequence number and payload. -/
def dataOn : Op → Option (ℕ × List UInt8)
  | .frame f port =>
    if IsDt f ∧ p = (.receive, f.source, f.destination, port) then
      some (f.data.b0.toNat, f.data.tail)
    else none
  | _ => none

/-- The size an RTS announces. -/
def announced : Op → ℕ
  | .frame f _ => sizeFromCmBytes f.data
  | _ => 0

/-- The data frames on a path in a stretch of the run. -/
def dataIn (ops : List Op) : List (ℕ × List UInt8) := ops.filterMap (dataOn p)

/-- **What a session has collected.** The frames on its path since its
RTS are numbered from one on, and their payloads fill the buffer up to
the last of them. -/
abbrev Collected (s : TransportSession) (since : List Op) : Prop :=
  Assembled 7 s.totalBytes s.lastSequence s.data (dataIn s.path since)

/-- **The reassembly invariant** of a connection-mode receive session. -/
structure Reassembling (t₀ : TransportProtocol) (history : List Op) (s : TransportSession) :
    Prop where
  waiting : s.state = .waitingForData
  unfinished : s.lastSequence * 7 < s.totalBytes
  since : ∃ rts post, SinceLast step (AcceptsRts s.path s.pgn) t₀ history rts post ∧
    announced rts = s.totalBytes ∧ Collected s post

/-- The sessions the invariant is about. -/
def Directed (s : TransportSession) : Prop :=
  s.direction = .receive ∧ s.destinationAddress ≠ broadcastAddress

/-- The paths of those sessions. -/
def directedPath : Bool := p.1 == .receive && p.2.2.1 != broadcastAddress

theorem Directed.path (h : Directed s) : directedPath s.path = true := by
  simp [directedPath, TransportSession.path, h.1, h.2]

theorem Directed.of_path {x : TransportSession} (hp : x.path = s.path) (h : Directed x) :
    Directed s := by
  simp only [TransportSession.path, Prod.mk.injEq] at hp
  exact ⟨hp.1 ▸ h.1, hp.2.2.1 ▸ h.2⟩

/-- Connection-mode receive sessions never share a path: a BAM opens no
such session. -/
theorem keyNodup_directed (h₀ : t₀.sessions = []) (ops : List Op) :
    KeyNodup directedPath path (run step t₀ ops).sessions := by
  apply run_induction (I := fun t : TransportProtocol => KeyNodup directedPath path t.sessions)
  · rw [h₀]
    exact keyNodup_nil
  · intro t op hn
    refine step_keyNodup hn ?_
    intro f port _ _ hg
    simp [directedPath] at hg

/-! ## Frames that pass a session by -/

/-- A data frame on another path is not counted. -/
theorem dataOn_of_ne {p : Path} (h : IsDt f → p ≠ (.receive, f.source, f.destination, port)) :
    dataOn p (.frame f port) = none := by
  rw [dataOn, if_neg]
  rintro ⟨hf, hp⟩
  exact h hf hp

/-- **A bystander.** A call that is no data frame on the session's path
and accepts no RTS for it leaves the session's books in order. -/
theorem Reassembling.bystander {op : Op} (h : Reassembling t₀ history s)
    (hdata : dataOn s.path op = none) (hrts : ¬AcceptsRts s.path s.pgn (run step t₀ history) op) :
    Reassembling t₀ (history ++ [op]) s := by
  obtain ⟨rts, post, hsince, hann, hcol⟩ := h.since
  have hin : dataIn s.path (post ++ [op]) = dataIn s.path post := by
    rw [dataIn, filterMap_append, filterMap_cons_none hdata, filterMap_nil, append_nil, dataIn]
  refine ⟨h.waiting, h.unfinished, rts, post ++ [op], hsince.extend hrts, hann, ?_⟩
  rw [Collected, hin]
  exact hcol

/-- Growing older changes nothing the books speak of. -/
theorem Reassembling.older (h : Reassembling t₀ history s) (timerMs : ℕ) :
    Reassembling t₀ history { s with timerMs := timerMs } := by
  obtain ⟨rts, post, hsince, hann, hcol⟩ := h.since
  exact { h with since := ⟨rts, post, hsince, hann, hcol⟩ }

/-! ## Frames that concern it -/

/-- The session an RTS opens starts its books. -/
theorem reassembling_rtsSession (hf : IsCm TpCm.rts f)
    (hshape : validTpPayloadShape (sizeFromCmBytes f.data) f.data.b3.toNat = true)
    (hcts : ∃ r ∈ ((run step t₀ history).processFrame f port).2, r.data.b0 = TpCm.cts) :
    Reassembling t₀ (history ++ [.frame f port])
      (rtsSession f port (.replicate (sizeFromCmBytes f.data) 0xFF)) := by
  have hpos : 0 < sizeFromCmBytes f.data := by
    simp only [validTpPayloadShape, Bool.and_eq_true, decide_eq_true_eq] at hshape
    omega
  refine ⟨rfl, ?_, .frame f port, [], .start ?_, rfl, rfl, ?_, ?_, rfl⟩
  · simpa [rtsSession] using hpos
  · exact ⟨hf.pgn, hf.control, hcts, rfl, rfl⟩
  · simp [rtsSession]
  · simp [rtsSession, dataIn]

/-- **The next packet.** The frame a session waits for continues the
numbers and extends the part of the buffer that is filled. -/
theorem Collected.ingest {since : List Op} (h : Collected s since) (hf : IsDt f)
    (hpath : s.path = (.receive, f.source, f.destination, port))
    (hseq : f.data.b0.toNat = s.lastSequence + 1) (hopen : s.lastSequence * 7 < s.totalBytes) :
    Collected (Tp.ingest s f.data.b0.toNat f.data.tail) (since ++ [.frame f port]) := by
  have hin : dataIn s.path (since ++ [.frame f port]) =
      dataIn s.path since ++ [(s.lastSequence + 1, f.data.tail)] := by
    have hon : dataOn s.path (.frame f port) = some (f.data.b0.toNat, f.data.tail) :=
      if_pos ⟨hf, hpath⟩
    rw [dataIn, filterMap_append, filterMap_cons_some hon, filterMap_nil, hseq, dataIn]
  have hnext := h.next (show f.data.tail.length = 7 from rfl) hopen
  rw [Collected, ingest_path, hin]
  rw [hseq]
  exact hnext

/-- The session goes on waiting, in the next window if need be. -/
theorem Reassembling.advance (h : Reassembling t₀ history s) (hf : IsDt f)
    (hpath : s.path = (.receive, f.source, f.destination, port))
    (hseq : f.data.b0.toNat = s.lastSequence + 1)
    (hmore : (s.lastSequence + 1) * 7 < s.totalBytes) :
    Reassembling t₀ (history ++ [.frame f port])
      (advanceWindow (Tp.ingest s f.data.b0.toNat f.data.tail) f.data.b0.toNat).1 := by
  obtain ⟨rts, post, hsince, hann, hcol⟩ := h.since
  have hcol' := hcol.ingest hf hpath hseq h.unfinished
  have hlast : f.data.b0.toNat * 7 < s.totalBytes := by rw [hseq]; exact hmore
  have hrts := @not_acceptsRts_of_isDt (run step t₀ history) f port hf s.path s.pgn
  obtain ⟨start, size, hwin⟩ := advanceWindow_eq (Tp.ingest s f.data.b0.toNat f.data.tail)
    f.data.b0.toNat
  rw [hwin]
  exact ⟨h.waiting, hlast, rts, post ++ [Op.frame f port], hsince.extend hrts, hann, { hcol' with }⟩

/-! ## Runs -/

/-- **An incoming frame.** Every connection-mode receive session of the
table after the frame has its books in order. -/
theorem FrameStep.reassembling (ht : run step t₀ history = t)
    (hp : t.processFrame f port = (t', rs)) (h : FrameStep t f port t' rs)
    (hn : KeyNodup directedPath path t.sessions)
    (hI : ∀ x ∈ t.sessions, Directed x → Reassembling t₀ history x) :
    ∀ x ∈ t'.sessions, Directed x → Reassembling t₀ (history ++ [.frame f port]) x := by
  -- a session that was there before and that the frame does not concern
  have hby : ∀ x ∈ t.sessions, Directed x →
      (IsDt f → x.path ≠ (.receive, f.source, f.destination, port)) →
      ¬AcceptsRts x.path x.pgn t (.frame f port) →
      Reassembling t₀ (history ++ [.frame f port]) x := fun x hx hd hpath hrts =>
    (hI x hx hd).bystander (dataOn_of_ne hpath) (by rw [ht]; exact hrts)
  have hquiet : (∀ r ∈ rs, r.data.b0 ≠ TpCm.cts) → ∀ p pgn,
      ¬AcceptsRts p pgn t (.frame f port) := by
    rintro hrs p pgn ⟨-, -, ⟨r, hr, hcts⟩, -⟩
    rw [hp] at hr
    exact hrs r hr hcts
  -- once a session is gone from its slot, the others are on other paths
  have hgone : ∀ l₁ s l₂ x, t.sessions = l₁ ++ s :: l₂ → x ∈ l₁ ++ lastFirst l₂ → Directed x →
      x.path ≠ s.path := by
    intro l₁ s l₂ x hl hx hd heq
    rw [hl] at hn
    exact hn.ne_of_mem_remove (heq ▸ hd.path) x hx heq
  intro x hx hd
  cases h with
  | ignored _ _ hrs hdt =>
    refine hby x hx hd (fun hf hpath => ?_) (hquiet hrs _ _)
    exact hdt hf x hx hpath (hI x hx hd).waiting
  | abandoned _ _ hf hrs hl =>
    exact hby x (hl ▸ mem_of_mem_remove hx) hd (fun h => absurd h (not_isDt_of_cm hf))
      (hquiet hrs _ _)
  | openedRts hf hshape hwindow hcap hbase hfree =>
    rcases mem_append.mp hx with hx | hx
    · refine hby x (hbase.mem hx) hd (fun h => absurd h (not_isDt_of_cm hf.pgn)) ?_
      -- the RTS was for another session than this older one
      rintro ⟨-, -, -, hxp, hpgn⟩
      cases hbase with
      | fresh hnone => exact hnone x hx ⟨hxp, hpgn.symm⟩
      | repeated hl hpath => exact hgone _ _ _ x hl hx hd (hxp.trans hpath.symm)
    · rw [mem_singleton.mp hx]
      refine reassembling_rtsSession hf hshape ?_
      rw [ht, hp]
      exact ⟨_, mem_singleton_self _, rfl⟩
  | openedBam hopen hbase =>
    rcases mem_append.mp hx with hx | hx
    · exact hby x (hbase.mem hx) hd (fun h => absurd h (not_isDt_of_cm hopen.cm.pgn))
        (not_acceptsRts_of_isCm hopen.cm (by decide) _ _)
    · exact absurd (by rw [mem_singleton.mp hx]; rfl) hd.2
  | @granted l₁ l₂ s s' hf hl hpath hcts =>
    rcases mem_replace hx with hx | rfl
    · exact hby x (hl ▸ mem_of_mem_remove hx) hd (fun h => absurd h (not_isDt_of_cm hf.pgn))
        (not_acceptsRts_of_isCm hf (by decide) _ _)
    · -- the rewritten session is a transmit session
      have hdir : x.direction = .transmit := congrArg fst ((acceptCts_path hcts).trans hpath)
      rw [hd.1] at hdir
      cases hdir
  | aborted _ _ _ hrs hl hdt =>
    refine hby x (hl ▸ mem_of_mem_remove hx) hd (fun hf hpath => ?_) (hquiet hrs _ _)
    exact hgone _ _ _ x hl hx hd (hpath.trans (hdt hf).symm)
  | acknowledged hf hl hpath =>
    exact hby x (hl ▸ mem_of_mem_remove hx) hd (fun h => absurd h (not_isDt_of_cm hf.pgn))
      (not_acceptsRts_of_isCm hf (by decide) _ _)
  | @advanced l₁ l₂ s hf hl hpath hseq hmore =>
    rcases mem_replace hx with hx | rfl
    · refine hby x (hl ▸ mem_of_mem_remove hx) hd (fun _ hxp => ?_) (not_acceptsRts_of_isDt hf _ _)
      exact hgone _ _ _ x hl hx hd (hxp.trans hpath.symm)
    · have hsd : Directed s := .of_path (by rw [advanceWindow_path, ingest_path]) hd
      exact (hI s (by rw [hl]; simp) hsd).advance hf hpath hseq hmore
  | delivered _ hf hl hpath hseq hlast =>
    refine hby x (hl ▸ mem_of_mem_remove hx) hd (fun _ hxp => ?_) (not_acceptsRts_of_isDt hf _ _)
    exact hgone _ _ _ x hl hx hd (hxp.trans hpath.symm)

/-- **A call.** The same for every call on the engine. -/
theorem step_reassembling (op : Op) (hn : KeyNodup directedPath path (run step t₀ history).sessions)
    (hI : ∀ x ∈ (run step t₀ history).sessions, Directed x → Reassembling t₀ history x) :
    ∀ x ∈ ((run step t₀ history).step op).sessions, Directed x →
      Reassembling t₀ (history ++ [op]) x := by
  intro x hx hd
  cases op with
  | frame f port => exact FrameStep.reassembling rfl rfl (processFrame_step _ f port) hn hI x hx hd
  | send | update | pending | abortFor =>
    obtain ⟨y, hy, ms, rfl⟩ := (step_calls (by nofun)).1.receive hx hd.1
    exact .older ((hI y hy hd).bystander rfl id) ms

/-- **Every run.** Whatever came in, each connection-mode receive session
holds what its path has carried since its RTS. -/
theorem history_reassembling (h₀ : t₀.sessions = []) (history : List Op) :
    ∀ s ∈ (run step t₀ history).sessions, Directed s → Reassembling t₀ history s := by
  apply run_induction_history (I := fun h (t : TransportProtocol) =>
    ∀ s ∈ t.sessions, Directed s → Reassembling t₀ h s)
  · rw [h₀]
    simp
  · intro h op hI
    exact step_reassembling op (keyNodup_directed h₀ h) hI

/-! ## Completion -/

/-- What `on_complete` is called with during a call. -/
def fired (t : TransportProtocol) (op : Op) : List TransportSession :=
  (t.step op).onComplete.drop t.onComplete.length

/-- A receive session is completed by the data frame that fills it. -/
theorem FrameStep.fired_receive (h : FrameStep t f port t' rs)
    (hs : s ∈ t'.onComplete.drop t.onComplete.length) (hdir : s.direction = .receive) :
    ∃ x ∈ t.sessions, IsDt f ∧ x.path = (.receive, f.source, f.destination, port) ∧
      f.data.b0.toNat = x.lastSequence + 1 ∧ x.totalBytes ≤ (x.lastSequence + 1) * 7 ∧
      s = { ingest x f.data.b0.toNat f.data.tail with state := .complete } := by
  cases h with
  | ignored | abandoned | openedRts | openedBam | granted | aborted | advanced => simp at hs
  | acknowledged hf hl hpath =>
    simp only [drop_left, mem_singleton] at hs
    have htx : s.direction = .transmit := by
      rw [hs]
      exact congrArg fst hpath
    rw [hdir] at htx
    cases htx
  | @delivered l₁ l₂ x _ hf hl hpath hseq hlast =>
    simp only [drop_left, mem_singleton] at hs
    exact ⟨x, by rw [hl]; simp, hf, hpath, hseq, hlast, hs⟩

/-- Only an incoming frame completes a receive session. -/
theorem fired_receive {op : Op} (hs : s ∈ fired t op) (hdir : s.direction = .receive) :
    ∃ f port, op = .frame f port := by
  by_contra hno
  obtain ⟨done, hdone, htx⟩ := (step_calls fun f port h => hno ⟨f, port, h⟩).2
  rw [fired, hdone, drop_left] at hs
  exact absurd ((htx s hs).symm.trans hdir) nofun

/-- **Receive integrity.** Whatever frames and calls an engine with an
empty table has seen, a connection-mode receive session it completes has
the announced number of bytes, and they are the payloads of the data
frames that came in on its path since the last RTS accepted for its path
and PGN. Those are numbered `1..n` in order and cover the whole size. -/
theorem receive_integrity (h₀ : t₀.sessions = []) (history : List Op) (op : Op)
    (hs : s ∈ fired (run step t₀ history) op) (hdir : s.direction = .receive)
    (hdst : s.destinationAddress ≠ broadcastAddress) :
    ∃ rts post n, SinceLast step (AcceptsRts s.path s.pgn) t₀ history rts post ∧
      s.data.length = announced rts ∧
      (dataIn s.path (post ++ [op])).map Prod.fst = List.range' 1 n ∧
      s.data = ((dataIn s.path (post ++ [op])).flatMap Prod.snd).take (announced rts) ∧
      announced rts ≤ ((dataIn s.path (post ++ [op])).flatMap Prod.snd).length := by
  obtain ⟨f, port, rfl⟩ := fired_receive hs hdir
  obtain ⟨x, hx, hf, hpath, hseq, hlast, rfl⟩ := (processFrame_step _ f port).fired_receive hs hdir
  have hr := history_reassembling h₀ history x hx ⟨hdir, hdst⟩
  obtain ⟨rts, post, hsince, hann, hcol⟩ := hr.since
  have hcol' := hcol.ingest hf hpath hseq hr.unfinished
  have hwhole : x.totalBytes ≤ f.data.b0.toNat * 7 := by rw [hseq]; exact hlast
  refine ⟨rts, post, f.data.b0.toNat, hsince, hcol'.length.trans hann.symm, hcol'.numbered, ?_, ?_⟩
  · rw [hann]
    refine .trans ?_ hcol'.filled
    exact (take_of_length_le (by rw [hcol'.length]; exact hwhole)).symm
  · rw [hann]
    exact hwhole.trans hcol'.blocks.ge

/-- Nine bytes from `0x10` to `0x20`: the RTS and the first packet, with a
packet for somebody else in between. -/
def nineBytes : List Op :=
  [.frame (makeCm 0x10 0x20 TpCm.rts 9 0 2 16 0xFECA) 0,
    .frame (makeDt 0x10 0x21 5 [0, 0, 0, 0, 0, 0, 0]) 0,
    .frame (makeDt 0x10 0x20 1 [1, 2, 3, 4, 5, 6, 7]) 0]

/-- The session the second packet completes. -/
def nineBytesSession : TransportSession :=
  (fired (run step new nineBytes) (.frame (makeDt 0x10 0x20 2 [8, 9]) 0)).headD default

theorem receive_integrity_nineBytes :
    nineBytesSession.data = [1, 2, 3, 4, 5, 6, 7, 8, 9] ∧
      ∃ rts post n,
        SinceLast step (AcceptsRts nineBytesSession.path nineBytesSession.pgn)
          new nineBytes rts post ∧
        nineBytesSession.data.length = announced rts ∧
        (dataIn nineBytesSession.path (post ++ [.frame (makeDt 0x10 0x20 2 [8, 9]) 0])).map
          Prod.fst = List.range' 1 n ∧
        nineBytesSession.data =
          ((dataIn nineBytesSession.path
            (post ++ [.frame (makeDt 0x10 0x20 2 [8, 9]) 0])).flatMap Prod.snd).take
              (announced rts) ∧
        announced rts ≤ ((dataIn nineBytesSession.path
          (post ++ [.frame (makeDt 0x10 0x20 2 [8, 9]) 0])).flatMap Prod.snd).length :=
  ⟨by decide, receive_integrity rfl _ _ (by decide) (by decide) (by decide)⟩

end Machbus.TransportProtocol
