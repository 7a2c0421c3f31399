import Machbus.Niu.Impersonation
/-!
# What becomes of every frame is counted

The base unit counts each frame once, as forwarded or as blocked, and
announces the forwarded ones. The router asks the base unit first and then
refuses some of what that has already counted and announced: such a frame
is counted on both sides and announced without being sent. `accounting`
says that this is all that ever goes wrong.
-/

namespace Machbus

/-- Below its ceiling a counter counts. -/
theorem satAdd32_one {a : ℕ} (h : a < u32Max) : satAdd32 a 1 = a + 1 := by
  unfold satAdd32
  omega

namespace Niu

variable {n : Niu} {frame : Frame} {origin : Side} {nowMs : ℕ}

/-- The counters of a unit and what it has announced. -/
structure Tally where
  forwarded : ℕ
  blocked : ℕ
  announced : List (Frame × Side)
  deriving DecidableEq

def tally (n : Niu) : Tally := ⟨n.forwardedCount, n.blockedCount, n.onForwarded⟩

namespace Tally

variable {t t' : Tally} {e : Frame × Side}

/-- A frame is counted as forwarded and announced. -/
def forward (t : Tally) (e : Frame × Side) : Tally :=
  { t with forwarded := satAdd32 t.forwarded 1, announced := t.announced ++ [e] }

/-- A frame is counted as blocked. -/
def block (t : Tally) : Tally := { t with blocked := satAdd32 t.blocked 1 }

/-- Neither counter is at its end. -/
def Unsaturated (t : Tally) : Prop := t.forwarded < u32Max ∧ t.blocked < u32Max

/-- **A frame is accounted for.** One counter goes up by one; the one for
forwarded frames just when a frame is sent, and just then the frame is
announced. -/
structure Accounted (t t' : Tally) (sent : Bool) : Prop where
  one : t'.forwarded = t.forwarded + 1 ∧ t'.blocked = t.blocked ∨
    t'.forwarded = t.forwarded ∧ t'.blocked = t.blocked + 1
  forwarded : t'.forwarded = t.forwarded + 1 ↔ sent = true
  announced : t.announced.length < t'.announced.length ↔ sent = true

/-- A forwarded frame is counted once. -/
theorem accounted_forward (h : t.Unsaturated) : Accounted t (t.forward e) true := by
  have hup : satAdd32 t.forwarded 1 = t.forwarded + 1 := satAdd32_one h.1
  refine ⟨.inl ⟨hup, rfl⟩, iff_of_true hup rfl, iff_of_true ?_ rfl⟩
  simp [forward]

/-- So is a blocked one. -/
theorem accounted_block (h : t.Unsaturated) : Accounted t t.block false := by
  have hup : satAdd32 t.blocked 1 = t.blocked + 1 := satAdd32_one h.2
  refine ⟨.inr ⟨rfl, hup⟩, iff_of_false ?_ nofun, iff_of_false ?_ nofun⟩
  · simp [block]
  · simp [block]

/-- A frame that is counted on both sides is not accounted for. -/
theorem not_accounted_forward_block (h : t.Unsaturated) {sent : Bool} :
    ¬Accounted t (t.forward e).block sent := by
  rintro ⟨hone, -, -⟩
  have hf : (t.forward e).block.forwarded = t.forwarded + 1 := satAdd32_one h.1
  have hb : (t.forward e).block.blocked = t.blocked + 1 := satAdd32_one h.2
  omega

/-- All frames counted. -/
def total (t : Tally) : ℕ := t.forwarded + t.blocked

/-- Either way the total grows by one. -/
theorem Accounted.total_eq {sent : Bool} (h : Accounted t t' sent) : t'.total = t.total + 1 := by
  unfold total
  rcases h.one with ⟨hf, hb⟩ | ⟨hf, hb⟩
  · omega
  · omega

end Tally

/-! ## What leaves the counters alone -/

/-- The search for an echo counts nothing. -/
@[simp] theorem tally_isLoopEcho : (n.isLoopEcho frame origin nowMs).1.tally = n.tally := by
  unfold isLoopEcho
  split
  · rfl
  · rfl

/-- Nor does observing a claim. -/
@[simp] theorem tally_observeAddressClaim :
    (n.observeAddressClaim frame origin).tally = n.tally := by
  unfold observeAddressClaim
  split
  · rfl
  split
  · rfl
  · rfl

/-- Nor does finding the policy. -/
@[simp] theorem tally_resolvePolicy : (n.resolvePolicy frame origin nowMs).1.tally = n.tally := by
  unfold resolvePolicy
  dsimp only
  split
  · rfl
  split
  · rfl
  · rfl

/-- Nor does remembering a frame. -/
@[simp] theorem tally_rememberForwardedFrame :
    (n.rememberForwardedFrame frame origin nowMs).tally = n.tally := by
  unfold rememberForwardedFrame
  dsimp only
  split
  · rfl
  split
  · rfl
  · rfl

/-- Nor does a command to the unit. -/
theorem tally_obeyNiuMessage {niuMsg told : NiuNetworkMsg} {n' : Niu}
    (h : n.obeyNiuMessage niuMsg = some (n', told)) : n'.tally = n.tally := by
  unfold obeyNiuMessage at h
  split at h
  · split at h
    · cases h
    · cases h
      rfl
  all_goals
    cases h
    rfl

/-- Nor does a message to the unit. -/
theorem tally_handleNiuMessage (msg : Message) : (n.handleNiuMessage msg).1.tally = n.tally := by
  unfold handleNiuMessage
  split
  · rfl
  split
  · rfl
  split
  · rfl
  rename_i n' told hobey
  obtain ⟨niuMsg, -, hobey⟩ := Option.bind_eq_some_iff.mp hobey
  exact tally_obeyNiuMessage hobey

/-- **Configuring a unit counts nothing.** -/
theorem tally_call (c : Call) : (n.call c).tally = n.tally := by
  cases c with
  | handleNiuMessage msg => exact tally_handleNiuMessage msg
  | _ => rfl

/-! ## A frame -/

/-- **The base unit counts a frame once.** -/
theorem tally_processFrameInner (hactive : n.state = .active) (remember : Bool) :
    (n.processFrameInner frame origin nowMs remember).1.tally =
      if (n.processFrameInner frame origin nowMs remember).2.isSome then
        n.tally.forward (frame, origin)
      else n.tally.block := by
  have hecho : (n.isLoopEcho frame origin nowMs).1.tally = n.tally := tally_isLoopEcho
  unfold processFrameInner
  rw [if_neg (not_not_intro hactive)]
  split
  · rfl
  generalize n.isLoopEcho frame origin nowMs = r at hecho ⊢
  obtain ⟨n₁, echo⟩ := r
  have hpolicy : ((n₁.observeAddressClaim frame origin).resolvePolicy frame origin nowMs).1.tally =
      n.tally := by
    rw [tally_resolvePolicy, tally_observeAddressClaim]
    exact hecho
  dsimp only
  split
  · exact congrArg Tally.block hecho
  generalize (n₁.observeAddressClaim frame origin).resolvePolicy frame origin nowMs = r at hpolicy ⊢
  obtain ⟨n₂, policy, limited⟩ := r
  split
  · exact congrArg Tally.block hpolicy
  have hforward : (n₂.noteForwarded frame origin).tally = n.tally.forward (frame, origin) :=
    congrArg (Tally.forward · (frame, origin)) hpolicy
  cases policy with
  | allow | monitor =>
    dsimp only
    split
    · exact tally_rememberForwardedFrame.trans hforward
    · exact hforward
  | block => exact congrArg Tally.block hpolicy

/-- The unit is active and its counters are below their ends. -/
def Counting (n : Niu) : Op → Prop
  | .processFrame _ _ _ => n.state = .active ∧ n.tally.Unsaturated
  | .call _ => True

/-- The call accounts for its frame, if it has one. -/
def Accounts (n : Niu) : Op → Prop
  | .processFrame frame origin nowMs =>
    n.tally.Accounted (n.step (.processFrame frame origin nowMs)).tally
      (n.processFrame frame origin nowMs).2.isSome
  | .call _ => True

def Op.isFrame : Op → Bool
  | .processFrame _ _ _ => true
  | .call _ => false

/-- Below the ceilings every frame is accounted for. -/
theorem accounts_of_counting {op : Op} (h : n.Counting op) : n.Accounts op := by
  cases op with
  | call c => trivial
  | processFrame frame origin nowMs =>
    obtain ⟨hactive, hroom⟩ := h
    show n.tally.Accounted (n.processFrameInner frame origin nowMs true).1.tally
      (n.processFrameInner frame origin nowMs true).2.isSome
    rw [tally_processFrameInner hactive]
    cases (n.processFrameInner frame origin nowMs true).2.isSome with
    | true => exact Tally.accounted_forward hroom
    | false => exact Tally.accounted_block hroom

/-- A frame is counted once, a call not at all. -/
theorem total_step {op : Op} (h : n.Accounts op) :
    (n.step op).tally.total = n.tally.total + if op.isFrame then 1 else 0 := by
  cases op with
  | call c => exact congrArg Tally.total (tally_call c)
  | processFrame frame origin nowMs => exact h.total_eq

end Niu

namespace Router

variable {r : Router} {frame : Frame} {origin : Side} {nowMs : ℕ}

/-- **The frames the router refuses**: a claim that may not cross, and a
frame for a single node the table does not know. -/
def Refuses (r : Router) (frame : Frame) (origin : Side) : Prop :=
  r.translateSource frame origin = none ∨
    frame.isBroadcast = false ∧ r.db.translate frame.destination origin = none

/-- What the call returns and counts, in three cases. -/
theorem processFrame_cases (r : Router) (frame : Frame) (origin : Side) (nowMs : ℕ) :
    let inner := r.niu.processFrameInner frame origin nowMs false
    let after := r.processFrame frame origin nowMs
    (inner.2 = none ∧ after.2 = none ∧ after.1.niu.tally = inner.1.tally) ∨
    (inner.2 = some frame ∧ r.Refuses frame origin ∧ after.2 = none ∧
      after.1.niu.tally = inner.1.tally.block) ∨
    (inner.2 = some frame ∧ ¬r.Refuses frame origin ∧ after.2.isSome = true ∧
      after.1.niu.tally = inner.1.tally) := by
  have hsame := r.niu.processFrameInner_eq_some frame origin nowMs false
  unfold processFrame Refuses
  generalize r.niu.processFrameInner frame origin nowMs false = inner at hsame ⊢
  obtain ⟨niu, _ | out⟩ := inner
  · exact .inl ⟨rfl, rfl, rfl⟩
  obtain rfl : out = frame := ((hsame out).mp rfl).2
  right
  dsimp only
  rcases r.translateSource out origin with _ | translated
  · exact .inl ⟨rfl, .inl rfl, rfl, rfl⟩
  cases hcast : out.isBroadcast with
  | true =>
    refine .inr ⟨rfl, ?_, rfl, Niu.tally_rememberForwardedFrame⟩
    rintro (hsource | ⟨hnot, -⟩)
    · cases hsource
    · cases hnot
  | false =>
    rcases hdest : r.db.translate out.destination origin with _ | dest
    · exact .inl ⟨rfl, .inr ⟨rfl, rfl⟩, rfl, rfl⟩
    · refine .inr ⟨rfl, ?_, rfl, Niu.tally_rememberForwardedFrame⟩
      rintro (hsource | ⟨-, hnone⟩)
      · cases hsource
      · cases hnone

/-- The unit inside is active and its counters are below their ends. -/
def Counting (r : Router) : Op → Prop
  | .processFrame _ _ _ => r.niu.state = .active ∧ r.niu.tally.Unsaturated
  | _ => True

def Accounts (r : Router) : Op → Prop
  | .processFrame frame origin nowMs =>
    r.niu.tally.Accounted (r.step (.processFrame frame origin nowMs)).niu.tally
      (r.processFrame frame origin nowMs).2.isSome
  | _ => True

/-- **The frames that are counted once**: not those the filter lets through
and the router refuses. -/
def CountsOnce (r : Router) : Op → Prop
  | .processFrame frame origin nowMs => ¬(r.niu.Admits frame origin nowMs ∧ r.Refuses frame origin)
  | _ => True

def Op.isFrame : Op → Bool
  | .processFrame _ _ _ => true
  | _ => false

/-- **A router accounts for a frame** just when it counts it once. -/
theorem accounts_iff {op : Op} (h : r.Counting op) : r.Accounts op ↔ r.CountsOnce op := by
  cases op with
  | processFrame frame origin nowMs =>
    obtain ⟨hactive, hroom⟩ := h
    have htally : (r.niu.processFrameInner frame origin nowMs false).1.tally = _ :=
      Niu.tally_processFrameInner hactive false
    have hadmits := r.niu.processFrameInner_eq_some frame origin nowMs false frame
    show r.niu.tally.Accounted (r.processFrame frame origin nowMs).1.niu.tally _ ↔ ¬(_ ∧ _)
    rcases r.processFrame_cases frame origin nowMs with
      ⟨hinner, hout, hafter⟩ | ⟨hinner, hrefuses, hout, hafter⟩ | ⟨hinner, hpasses, hout, hafter⟩
    · rw [hafter, htally, hinner, hout]
      refine iff_of_true (Niu.Tally.accounted_block hroom) fun hboth => ?_
      rw [hadmits.mpr ⟨hboth.1, rfl⟩] at hinner
      cases hinner
    · rw [hafter, htally, hinner]
      exact iff_of_false (Niu.Tally.not_accounted_forward_block hroom)
        (not_not_intro ⟨(hadmits.mp hinner).1, hrefuses⟩)
    · rw [hafter, htally, hinner, hout]
      exact iff_of_true (Niu.Tally.accounted_forward hroom) fun hboth => hpasses hboth.2
  | _ => exact .rfl

theorem total_step {op : Op} (h : r.Accounts op) :
    (r.step op).niu.tally.total = r.niu.tally.total + if op.isFrame then 1 else 0 := by
  cases op with
  | processFrame frame origin nowMs => exact h.total_eq
  | niu c => exact congrArg Niu.Tally.total (Niu.tally_call c)
  | _ => rfl

end Router

/-! ## Runs -/

/-- What every step adds, a run adds up. -/
theorem total_run {S A : Type} {step : S → A → S} (total : S → ℕ) (isFrame : A → Bool)
    {C : S → A → Prop}
    (hstep : ∀ s a, C s a → total (step s a) = total s + if isFrame a then 1 else 0) {s : S}
    {as : List A} (h : Along step C s as) :
    total (run step s as) = total s + as.countP isFrame := by
  induction as generalizing s with
  | nil => rfl
  | cons a as ih =>
    rw [run_cons, ih h.2, hstep s a h.1, List.countP_cons]
    omega

/-- **Every frame is counted once**, by a unit in every run, and by a router
just in those runs in which it refuses no frame its filter lets through.
Then the two counters add up to the frames of the run. -/
theorem accounting (n : Niu) (nops : List Niu.Op) (r : Router) (ops : List Router.Op) :
    (Along Niu.step Niu.Counting n nops →
      Along Niu.step Niu.Accounts n nops ∧
        (run Niu.step n nops).tally.total = n.tally.total + nops.countP Niu.Op.isFrame) ∧
    (Along Router.step Router.Counting r ops →
      ((Along Router.step Router.Accounts r ops ∧
          (run Router.step r ops).niu.tally.total =
            r.niu.tally.total + ops.countP Router.Op.isFrame) ↔
        Along Router.step Router.CountsOnce r ops)) := by
  refine ⟨fun h => ?_, fun h => ?_⟩
  · have haccounts := h.mono fun _ _ => Niu.accounts_of_counting
    exact ⟨haccounts, total_run (·.tally.total) _ (fun _ _ => Niu.total_step) haccounts⟩
  · have hiff := along_congr_of h fun _ _ => Router.accounts_iff
    refine ⟨fun hboth => hiff.mp hboth.1, fun honce => ?_⟩
    have haccounts := hiff.mpr honce
    exact ⟨haccounts, total_run (·.niu.tally.total) _ (fun _ _ => Router.total_step) haccounts⟩

/-- A started router with the default filter and no translations. -/
def plainRouter : Router := { Router.new {} with niu := (Niu.new {}).start }

/-- A frame everybody on the far side is meant to hear. -/
def globalFrame : Frame :=
  Frame.new (Identifier.encode .default 0xFF01 0x26 broadcastAddress) ⟨1, 2, 3, 4, 5, 6, 7, 8⟩

theorem accounting_global :
    (run Router.step plainRouter [.processFrame globalFrame .tractor 0]).niu.tally.total = 1 ∧
      Along Router.step Router.Accounts plainRouter [.processFrame globalFrame .tractor 0] := by
  have honce : Along .step Router.CountsOnce plainRouter
      [.processFrame globalFrame .tractor 0] := by
    refine ⟨?_, trivial⟩
    rintro ⟨-, hsource | ⟨hcast, -⟩⟩
    · exact absurd hsource (by decide)
    · exact absurd hcast (by decide)
  have hcount : Along .step Router.Counting plainRouter
      [.processFrame globalFrame .tractor 0] := ⟨⟨rfl, by decide, by decide⟩, trivial⟩
  have hboth := ((accounting (.new {}) [] plainRouter _).2 hcount).mpr honce
  exact ⟨hboth.2, hboth.1⟩

/-- A frame for one node, whose address the router cannot translate. -/
def strayFrame : Frame :=
  Frame.new (Identifier.encode .default 0xEF00 0x26 0x80) ⟨1, 2, 3, 4, 5, 6, 7, 8⟩

/-- **Counted twice.** The frame is not sent, and yet it is announced and
counted as forwarded, and as blocked besides. -/
theorem stray_frame_counted_twice :
    plainRouter.Counting (.processFrame strayFrame .tractor 0) ∧
      (plainRouter.processFrame strayFrame .tractor 0).2 = none ∧
      (plainRouter.processFrame strayFrame .tractor 0).1.niu.tally =
        ⟨1, 1, [(strayFrame, .tractor)]⟩ ∧
      ¬plainRouter.Accounts (.processFrame strayFrame .tractor 0) := by
  have hcount : plainRouter.Counting (.processFrame strayFrame .tractor 0) :=
    ⟨rfl, by decide, by decide⟩
  refine ⟨hcount, by decide, by decide, ?_⟩
  rw [Router.accounts_iff hcount]
  exact not_not_intro ⟨⟨rfl, by decide, by decide, by decide, by decide⟩,
    .inr ⟨by decide, by decide⟩⟩

end Machbus
