import Machbus.Etp.Helpers.Steps
/-!
# ETP — what a receiver delivers

A data frame only carries its number within a group, and a peer may start
groups as it likes, several of them inside one window. Whatever arrives, a
receive session holds exactly the data frames that came in on its path
since its RTS, and each of them stands where the offset of the last DPO
and its own number put it. `Reassembling` is that invariant.
-/

namespace Machbus.ExtendedTransportProtocol

open Etp List Prod

variable {t t' t₀ : ExtendedTransportProtocol} {f : Frame} {port : UInt8} {rs : List Frame}
  {s : TransportSession} {n pgn : ℕ} {history : List Op} {p : Path}

/-! ## Paths are not shared -/

/-- No two sessions share a path. -/
abbrev PathsDistinct (t : ExtendedTransportProtocol) : Prop :=
  KeyNodup (fun _ => true) TransportSession.path t.sessions

theorem FrameStep.pathsDistinct (h : FrameStep t f port t' rs) (hn : PathsDistinct t) :
    PathsDistinct t' := by
  cases h with
  | ignored => exact hn
  | openedRts hf hsize hcap hfree => exact hn.push fun _ => hfree
  | granted hf hl hpath hcts =>
    rw [PathsDistinct, hl] at hn
    exact hn.replace (acceptCts_path hcts)
  | grouped hf hl hpath hpgn hfits =>
    rw [PathsDistinct, hl] at hn
    exact hn.replace (startGroup_path _ _)
  | aborted _ _ _ hrs hl hby | acknowledged hf hl hpath | delivered _ hf hl =>
    rw [PathsDistinct, hl] at hn
    exact hn.remove
  | advanced hf hl =>
    rw [PathsDistinct, hl] at hn
    refine hn.replace ?_
    rw [advanceWindow_path, ingest_path]

/-- **A call keeps the paths distinct.** Every way of opening a session
looks for its path first. -/
theorem step_pathsDistinct (op : Op) (hn : PathsDistinct t) : PathsDistinct (t.step op) := by
  cases op with
  | frame f port => exact (processFrame_step t f port).pathsDistinct hn
  | _ => exact (step_calls (by nofun)).1.keyNodup hn

theorem run_pathsDistinct (h₀ : t₀.sessions = []) (ops : List Op) :
    PathsDistinct (run step t₀ ops) := by
  apply run_induction (I := fun t : ExtendedTransportProtocol => PathsDistinct t)
  · rw [PathsDistinct, h₀]
    exact keyNodup_nil
  · intro t op hn
    exact step_pathsDistinct op hn

/-! ## What the history says -/

/-- The call accepts an RTS for a path and a PGN: the frame is an RTS
between those addresses, and it is answered with a CTS. -/
def AcceptsRts (p : Path) (pgn : ℕ) (t : ExtendedTransportProtocol) : Op → Prop
  | .frame f port =>
    f.pgn = pgnEtpCm ∧ f.data.b0 = EtpCm.rts ∧
      (∃ r ∈ (t.processFrame f port).2, r.data.b0 = EtpCm.cts) ∧
      p = rxPath f port ∧ pgnFromCmBytes f.data = pgn
  | _ => False

theorem not_acceptsRts_of_isDt (hf : IsDt f) (p : Path) (pgn : ℕ) :
    ¬AcceptsRts p pgn t (.frame f port) :=
  fun hacc => not_isDt_of_cm hacc.1 hf

theorem not_acceptsRts_of_isCm {c : UInt8} (hf : IsCm c f) (hc : c ≠ EtpCm.rts) (p : Path)
    (pgn : ℕ) : ¬AcceptsRts p pgn t (.frame f port) :=
  fun hacc => hc (hf.control.symm.trans hacc.2.1)

/-- The size an RTS announces. -/
def announced : Op → ℕ
  | .frame f _ => sizeFromCmBytes f.data
  | _ => 0

/-- Where the data frames of a path stand: the offset of the last DPO, and
each data frame's absolute number with its payload. -/
structure Placing where
  offset : ℕ := 0
  blocks : List (ℕ × List UInt8) := []
  deriving DecidableEq, Repr

/-- One call's part: a DPO for the path and the PGN moves the offset, and
a data frame on the path is placed by the offset and its own number. -/
def place (p : Path) (pgn : ℕ) (w : Placing) : Op → Placing
  | .frame f port =>
    if IsCm EtpCm.dpo f ∧ p = rxPath f port ∧ pgn = pgnFromCmBytes f.data then
      { w with offset := packetFromCmBytes f.data }
    else if IsDt f ∧ p = rxPath f port then
      { w with blocks := w.blocks ++ [(w.offset + f.data.b0.toNat, f.data.tail)] }
    else w
  | _ => w

/-- The data frames on a path in a stretch of the run, placed. -/
def placed (p : Path) (pgn : ℕ) (ops : List Op) : Placing := ops.foldl (place p pgn) {}

theorem placed_concat (p : Path) (pgn : ℕ) (ops : List Op) (op : Op) :
    placed p pgn (ops ++ [op]) = place p pgn (placed p pgn ops) op := by
  rw [placed, foldl_append]
  rfl

theorem place_dt (hf : IsDt f) (hp : p = rxPath f port) (w : Placing) :
    place p pgn w (.frame f port) =
      { w with blocks := w.blocks ++ [(w.offset + f.data.b0.toNat, f.data.tail)] } := by
  rw [place, if_neg fun h => not_isDt_of_cm h.1.pgn hf, if_pos ⟨hf, hp⟩]

/-! ## The invariant -/

/-- **What a session has collected** after `n` packets. The frames placed
on its path since its RTS stand at `1..n`, and their payloads fill the
buffer up to the last of them. -/
structure Collected (w : Placing) (s : TransportSession) (n : ℕ) : Prop
    extends Assembled 7 s.totalBytes n s.data w.blocks where
  offset : w.offset = s.dpoPacketOffset

/-- **The reassembly invariant** of a receive session with `n` packets.
While a group is open, its offset and the last number in it add up to
`n`. -/
structure Reassembling (t₀ : ExtendedTransportProtocol) (history : List Op) (s : TransportSession)
    (n : ℕ) : Prop where
  waiting : s.state = .waitingForData
  bytes : s.bytesTransferred = n * 7
  unfinished : n * 7 < s.totalBytes
  group : s.packetsToSend ≠ 0 → s.dpoPacketOffset + s.lastSequence = n
  since : ∃ rts post, SinceLast step (AcceptsRts s.path s.pgn) t₀ history rts post ∧
    announced rts = s.totalBytes ∧ Collected (placed s.path s.pgn post) s n

/-- **A bystander.** A call that places nothing for the session and
accepts no RTS for it leaves the session's books in order. -/
theorem Reassembling.bystander {op : Op} (h : Reassembling t₀ history s n)
    (hplace : ∀ w, place s.path s.pgn w op = w)
    (hrts : ¬AcceptsRts s.path s.pgn (run step t₀ history) op) :
    Reassembling t₀ (history ++ [op]) s n := by
  obtain ⟨rts, post, hsince, hann, hcol⟩ := h.since
  refine { h with since := ⟨rts, post ++ [op], hsince.extend hrts, hann, ?_⟩ }
  rw [placed_concat, hplace]
  exact hcol

/-- Growing older changes nothing the books speak of. -/
theorem Reassembling.older (h : Reassembling t₀ history s n) (timerMs : ℕ) :
    Reassembling t₀ history { s with timerMs := timerMs } n := by
  obtain ⟨rts, post, hsince, hann, hcol⟩ := h.since
  exact { h with since := ⟨rts, post, hsince, hann, { hcol with }⟩ }

/-- The session an RTS opens starts its books. -/
theorem reassembling_rtsSession (hf : IsCm EtpCm.rts f)
    (hsize : tpMaxDataLength < sizeFromCmBytes f.data)
    (hcts : ∃ r ∈ ((run step t₀ history).processFrame f port).2, r.data.b0 = EtpCm.cts) :
    Reassembling t₀ (history ++ [.frame f port])
      (rtsSession f port (.replicate (sizeFromCmBytes f.data) 0xFF)) 0 := by
  have hpos : 0 * 7 < sizeFromCmBytes f.data := by omega
  refine ⟨rfl, rfl, hpos, fun _ => rfl, .frame f port, [], .start ?_, rfl, ?_, rfl⟩
  · exact ⟨hf.pgn, hf.control, hcts, rfl, rfl⟩
  · exact .start length_replicate

/-- A DPO that fits starts a group right behind what has been
collected. -/
theorem Reassembling.startGroup (h : Reassembling t₀ history s n)
    (hf : IsCm EtpCm.dpo f) (hpath : s.path = rxPath f port) (hpgn : s.pgn = pgnFromCmBytes f.data)
    (hfits : DpoFits s f.data.b1.toNat (packetFromCmBytes f.data)) :
    Reassembling t₀ (history ++ [.frame f port])
      (Etp.startGroup s f.data.b1.toNat (packetFromCmBytes f.data)) n := by
  obtain ⟨rts, post, hsince, hann, hcol⟩ := h.since
  have hoff : packetFromCmBytes f.data = n := by
    rw [hfits.2.2.2, h.bytes]
    exact Nat.mul_div_cancel n (by decide)
  have hrts := @not_acceptsRts_of_isCm (run step t₀ history) f port _ hf (by decide) s.path s.pgn
  have hcol' : Collected (placed s.path s.pgn (post ++ [.frame f port]))
      (Etp.startGroup s f.data.b1.toNat (packetFromCmBytes f.data)) n := by
    rw [placed_concat, place, if_pos ⟨hf, hpath, hpgn⟩]
    exact { hcol with offset := rfl }
  exact ⟨h.waiting, h.bytes, h.unfinished, fun _ => hoff, rts, post ++ [Op.frame f port],
    hsince.extend hrts, hann, hcol'⟩

/-- **The next packet.** The frame a session waits for stands right behind
the others and extends the part of the buffer that is filled. -/
theorem Collected.ingest {w : Placing} (h : Collected w s n)
    (hpos : s.dpoPacketOffset + f.data.b0.toNat = n + 1) (hopen : n * 7 < s.totalBytes) :
    Collected { w with blocks := w.blocks ++ [(w.offset + f.data.b0.toNat, f.data.tail)] }
      (Etp.ingest s f.data.b0.toNat f.data.tail) (n + 1) := by
  have hnext := h.next (show f.data.tail.length = 7 from rfl) hopen
  refine ⟨?_, h.offset⟩
  simp only [Etp.ingest]
  rw [h.offset, hpos]
  exact hnext

/-- Where the frame a session waits for stands. -/
theorem Reassembling.next (h : Reassembling t₀ history s n)
    (hgroup : s.packetsToSend ≠ 0) (hseq : f.data.b0.toNat = s.lastSequence + 1) :
    s.dpoPacketOffset + f.data.b0.toNat = n + 1 := by
  have := h.group hgroup
  omega

/-- The session goes on waiting, and if the group is used up it waits for
the next one. -/
theorem Reassembling.advance (h : Reassembling t₀ history s n) (hf : IsDt f)
    (hpath : s.path = rxPath f port) (hgroup : s.packetsToSend ≠ 0)
    (hseq : f.data.b0.toNat = s.lastSequence + 1)
    (hmore : (s.dpoPacketOffset + s.lastSequence + 1) * 7 < s.totalBytes) :
    Reassembling t₀ (history ++ [.frame f port])
      (advanceWindow (Etp.ingest s f.data.b0.toNat f.data.tail) f.data.b0.toNat).1 (n + 1) := by
  obtain ⟨rts, post, hsince, hann, hcol⟩ := h.since
  have hpos := h.next hgroup hseq
  have hcol' := hcol.ingest hpos h.unfinished
  rw [← place_dt hf hpath, ← placed_concat] at hcol'
  have hrts := @not_acceptsRts_of_isDt (run step t₀ history) f port hf s.path s.pgn
  have hbytes : min ((s.dpoPacketOffset + f.data.b0.toNat - 1) * 7 + 7) s.totalBytes =
      (n + 1) * 7 := by omega
  have hlast : (n + 1) * 7 < s.totalBytes := by omega
  rcases advanceWindow_cases (Etp.ingest s f.data.b0.toNat f.data.tail) f.data.b0.toNat with
    hwin | ⟨size, hwin⟩
  · rw [hwin]
    exact ⟨h.waiting, hbytes, hlast, fun _ => hpos, rts, post ++ [Op.frame f port],
      hsince.extend hrts, hann, hcol'⟩
  · rw [hwin]
    exact ⟨h.waiting, hbytes, hlast, fun hno => absurd rfl hno, rts, post ++ [Op.frame f port],
      hsince.extend hrts, hann, { hcol' with }⟩

/-! ## Runs -/

/-- **An incoming frame.** Every receive session of the table after the
frame has its books in order. -/
theorem FrameStep.reassembling (ht : run step t₀ history = t)
    (hp : t.processFrame f port = (t', rs)) (h : FrameStep t f port t' rs) (hn : PathsDistinct t)
    (hI : ∀ x ∈ t.sessions, x.direction = .receive → ∃ n, Reassembling t₀ history x n) :
    ∀ x ∈ t'.sessions, x.direction = .receive →
      ∃ n, Reassembling t₀ (history ++ [.frame f port]) x n := by
  -- a session that was there before and that the frame does not concern
  have hby : ∀ x ∈ t.sessions, x.direction = .receive → ¬Concerns f port x.path x.pgn →
      ¬AcceptsRts x.path x.pgn t (.frame f port) →
      ∃ n, Reassembling t₀ (history ++ [.frame f port]) x n := by
    intro x hx hd hcon hrts
    obtain ⟨n, hr⟩ := hI x hx hd
    refine ⟨n, hr.bystander (fun w => ?_) (by rw [ht]; exact hrts)⟩
    rw [place, if_neg fun hdpo => hcon (Or.inr hdpo), if_neg fun hdt => hcon (Or.inl hdt)]
  have hquiet : (∀ r ∈ rs, r.data.b0 ≠ EtpCm.cts) →
      ∀ p pgn, ¬AcceptsRts p pgn t (.frame f port) := by
    rintro hrs p pgn ⟨-, -, ⟨r, hr, hcts⟩, -⟩
    rw [hp] at hr
    exact hrs r hr hcts
  -- once a session is gone from its slot, the others are on other paths
  have hgone : ∀ l₁ s l₂ x, t.sessions = l₁ ++ s :: l₂ → x ∈ l₁ ++ lastFirst l₂ →
      x.path ≠ s.path := by
    intro l₁ s l₂ x hl hx
    rw [PathsDistinct, hl] at hn
    exact hn.ne_of_mem_remove rfl x hx
  intro x hx hd
  cases h with
  | ignored _ _ hrs hno =>
    obtain ⟨n, hr⟩ := hI x hx hd
    exact hby x hx hd (hno x hx hr.waiting) (hquiet hrs _ _)
  | openedRts hf hsize hcap hfree =>
    rcases mem_append.mp hx with hx | hx
    · exact hby x hx hd (not_concerns_of_cm hf (by decide) _ _) fun hacc => hfree x hx hacc.2.2.2.1
    · rw [mem_singleton.mp hx]
      refine ⟨0, reassembling_rtsSession hf hsize ?_⟩
      rw [ht, hp]
      exact ⟨_, mem_singleton_self _, rfl⟩
  | @granted l₁ l₂ s s' hf hl hpath hcts =>
    rcases mem_replace hx with hx | rfl
    · exact hby x (hl ▸ mem_of_mem_remove hx) hd (not_concerns_of_cm hf (by decide) _ _)
        (not_acceptsRts_of_isCm hf (by decide) _ _)
    · -- the rewritten session is a transmit session
      have hdir : x.direction = .transmit := congrArg fst ((acceptCts_path hcts).trans hpath)
      rw [hd] at hdir
      cases hdir
  | @grouped l₁ l₂ s hf hl hpath hpgn hfits =>
    rcases mem_replace hx with hx | rfl
    · exact hby x (hl ▸ mem_of_mem_remove hx) hd
        (fun hcon => hgone _ _ _ x hl hx (hcon.path.trans hpath.symm))
        (not_acceptsRts_of_isCm hf (by decide) _ _)
    · obtain ⟨n, hr⟩ := hI s (by rw [hl]; simp) hd
      exact ⟨n, hr.startGroup hf hpath hpgn hfits⟩
  | aborted _ _ _ hrs hl hcon =>
    refine hby x (hl ▸ mem_of_mem_remove hx) hd (fun h => ?_) (hquiet hrs _ _)
    exact hgone _ _ _ x hl hx (hcon _ _ h).symm
  | acknowledged hf hl hpath =>
    exact hby x (hl ▸ mem_of_mem_remove hx) hd (not_concerns_of_cm hf (by decide) _ _)
      (not_acceptsRts_of_isCm hf (by decide) _ _)
  | @advanced l₁ l₂ s hf hl hpath hgroup hseq hmore =>
    rcases mem_replace hx with hx | rfl
    · exact hby x (hl ▸ mem_of_mem_remove hx) hd
        (fun hcon => hgone _ _ _ x hl hx (hcon.path.trans hpath.symm))
        (not_acceptsRts_of_isDt hf _ _)
    · obtain ⟨n, hr⟩ := hI s (by rw [hl]; simp) (congrArg fst hpath)
      exact ⟨n + 1, hr.advance hf hpath hgroup hseq hmore⟩
  | delivered _ hf hl hpath hgroup hseq hlast =>
    exact hby x (hl ▸ mem_of_mem_remove hx) hd
      (fun hcon => hgone _ _ _ x hl hx (hcon.path.trans hpath.symm)) (not_acceptsRts_of_isDt hf _ _)

/-- **A call.** The same for every call on the engine. -/
theorem step_reassembling (op : Op) (hn : PathsDistinct (run step t₀ history))
    (hI : ∀ x ∈ (run step t₀ history).sessions, x.direction = .receive →
      ∃ n, Reassembling t₀ history x n) :
    ∀ x ∈ ((run step t₀ history).step op).sessions, x.direction = .receive →
      ∃ n, Reassembling t₀ (history ++ [op]) x n := by
  intro x hx hd
  cases op with
  | frame f port => exact FrameStep.reassembling rfl rfl (processFrame_step _ f port) hn hI x hx hd
  | send | update | pending | abortFor =>
    obtain ⟨y, hy, ms, rfl⟩ := (step_calls (by nofun)).1.receive hx hd
    obtain ⟨n, hr⟩ := hI y hy hd
    exact ⟨n, .older (hr.bystander (fun _ => rfl) id) ms⟩

/-- **Every run.** Whatever came in, each receive session holds what its
path has carried since its RTS. -/
theorem history_reassembling (h₀ : t₀.sessions = []) (history : List Op) :
    ∀ s ∈ (run step t₀ history).sessions, s.direction = .receive →
      ∃ n, Reassembling t₀ history s n := by
  apply run_induction_history (I := fun h (t : ExtendedTransportProtocol) =>
    ∀ s ∈ t.sessions, s.direction = .receive → ∃ n, Reassembling t₀ h s n)
  · rw [h₀]
    simp
  · intro h op hI
    exact step_reassembling op (run_pathsDistinct h₀ h) hI

/-! ## Completion -/

/-- What `on_complete` is called with during a call. -/
def fired (t : ExtendedTransportProtocol) (op : Op) : List TransportSession :=
  (t.step op).onComplete.drop t.onComplete.length

/-- A receive session is completed by the data frame that fills it. -/
theorem FrameStep.fired_receive (h : FrameStep t f port t' rs)
    (hs : s ∈ t'.onComplete.drop t.onComplete.length) (hdir : s.direction = .receive) :
    ∃ x ∈ t.sessions, IsDt f ∧ x.path = rxPath f port ∧ x.packetsToSend ≠ 0 ∧
      f.data.b0.toNat = x.lastSequence + 1 ∧
      x.totalBytes ≤ (x.dpoPacketOffset + x.lastSequence + 1) * 7 ∧
      s = { ingest x f.data.b0.toNat f.data.tail with state := .complete } := by
  cases h with
  | ignored | openedRts | granted | grouped | aborted | advanced => simp at hs
  | acknowledged hf hl hpath =>
    simp only [drop_left, mem_singleton] at hs
    have htx : s.direction = .transmit := by
      rw [hs]
      exact congrArg fst hpath
    rw [hdir] at htx
    cases htx
  | @delivered l₁ l₂ x _ hf hl hpath hgroup hseq hlast =>
    simp only [drop_left, mem_singleton] at hs
    exact ⟨x, by rw [hl]; simp, hf, hpath, hgroup, hseq, hlast, hs⟩

/-- Only an incoming frame completes a receive session. -/
theorem fired_receive {op : Op} (hs : s ∈ fired t op) (hdir : s.direction = .receive) :
    ∃ f port, op = .frame f port := by
  by_contra hno
  obtain ⟨done, hdone, htx⟩ := (step_calls fun f port h => hno ⟨f, port, h⟩).2
  rw [fired, hdone, drop_left] at hs
  exact absurd ((htx s hs).symm.trans hdir) nofun

/-- **Receive integrity.** Whatever frames and calls an engine with an
empty table has seen, a receive session it completes has the size its RTS
announced. The data frames that came in on its path since that RTS, each
placed by the offset of the DPO before it and its own number, stand at
`1..n` in the order they came in, so that none is skipped and none is
written twice; they are just the packets the size needs, and block `k` of
the data is what the one at `k + 1` carried. -/
theorem receive_blocks_in_order (h₀ : t₀.sessions = []) (history : List Op) (op : Op)
    (hs : s ∈ fired (run step t₀ history) op) (hdir : s.direction = .receive) :
    ∃ rts post n, SinceLast step (AcceptsRts s.path s.pgn) t₀ history rts post ∧
      s.data.length = announced rts ∧ n = divCeil (announced rts) 7 ∧
      (placed s.path s.pgn (post ++ [op])).blocks.map Prod.fst = List.range' 1 n ∧
      ((placed s.path s.pgn (post ++ [op])).blocks.flatMap Prod.snd).length = n * 7 ∧
      s.data = ((placed s.path s.pgn (post ++ [op])).blocks.flatMap Prod.snd).take
        (announced rts) := by
  obtain ⟨f, port, rfl⟩ := fired_receive hs hdir
  obtain ⟨x, hx, hf, hpath, hgroup, hseq, hlast, rfl⟩ :=
    (processFrame_step _ f port).fired_receive hs hdir
  obtain ⟨n, hr⟩ := history_reassembling h₀ history x hx hdir
  obtain ⟨rts, post, hsince, hann, hcol⟩ := hr.since
  have hpos := hr.next hgroup hseq
  have hcol' := hcol.ingest hpos hr.unfinished
  rw [← place_dt hf hpath, ← placed_concat] at hcol'
  have hopen := hr.unfinished
  have hwhole : x.totalBytes ≤ (n + 1) * 7 := by omega
  refine ⟨rts, post, n + 1, hsince, hcol'.length.trans hann.symm, ?_, hcol'.numbered, hcol'.blocks,
    ?_⟩
  · simp only [divCeil]
    omega
  · rw [hann]
    refine .trans ?_ hcol'.filled
    exact (take_of_length_le (by rw [hcol'.length]; exact hwhole)).symm

/-- The first `sent` packets of a group of `size` at `offset`. -/
def groupRun (offset size sent : ℕ) : List Op :=
  .frame (makeDpoFields 0xEF00 0x20 0x30 size offset) 0 ::
    (List.range sent).map fun i => .frame (makeDt 0x20 0x30 (i + 1) [1, 2, 3, 4, 5, 6, 7]) 0

/-- The smallest message, up to its last packet. The first group is cut
short by the DPO of the second, inside the same window. -/
def smallestRun : List Op :=
  .frame (makeRtsFields 0xEF00 1786 0x20 0x30) 0 :: groupRun 0 16 3 ++
    (List.range 15).flatMap (fun g => groupRun (3 + 16 * g) 16 16) ++ groupRun 243 13 12

def smallestLast : Op := .frame (makeDt 0x20 0x30 13 [1, 2, 3, 4, 5, 6, 7]) 0

theorem receive_blocks_in_order_smallestRun :
    ∃ s ∈ fired (run step new smallestRun) smallestLast, s.direction = .receive ∧
      ∃ rts post n, SinceLast step (AcceptsRts s.path s.pgn) new smallestRun rts post ∧
        s.data.length = announced rts ∧ n = divCeil (announced rts) 7 ∧
        (placed s.path s.pgn (post ++ [smallestLast])).blocks.map Prod.fst = List.range' 1 n ∧
        ((placed s.path s.pgn (post ++ [smallestLast])).blocks.flatMap Prod.snd).length = n * 7 ∧
        s.data = ((placed s.path s.pgn (post ++ [smallestLast])).blocks.flatMap Prod.snd).take
          (announced rts) := by
  have hany : (fired (run step new smallestRun) smallestLast).any
      (fun s => s.direction == .receive) = true := by
    decide +kernel
  obtain ⟨s, hs, hd⟩ := any_eq_true.mp hany
  have hdir : s.direction = .receive := by simpa using hd
  exact ⟨s, hs, hdir, receive_blocks_in_order rfl _ _ hs hdir⟩

end Machbus.ExtendedTransportProtocol
