import Machbus.Network.Helpers.Moves
/-!
# Local addresses

The control functions of one network layer do not hear each other: a
claimer is shown the claims that come from the bus, and none of those the
layer sends itself. A commanded address is checked against the other
control functions before it is taken; the end of a contest is not. So two
control functions of a port share an address exactly when a contest ends
on an address that another one of the port keeps, or wins at the same
time.
-/

namespace Machbus

open AddressClaimer List

variable {l : List LocalCf}

namespace LocalCf

/-- The control function has claimed its address and is online. -/
def Settled (n : LocalCf) : Prop := n.cf.claimState = .claimed ∧ n.cf.isOnline = true
  deriving Decidable

/-- Two control functions are settled at one address of one port. -/
def Clash (m n : LocalCf) : Prop :=
  m.cf.canPort = n.cf.canPort ∧ m.cf.address = n.cf.address ∧ m.Settled ∧ n.Settled
  deriving Decidable

/-- A call that settles nobody: it may move a control function off its
address, never onto one. -/
structure Yields (n m : LocalCf) : Prop where
  identity : m.identity = n.identity
  settled : m.Settled → n.Settled ∧ m.cf.address = n.cf.address

theorem Yields.refl (n : LocalCf) : Yields n n := ⟨rfl, fun h => ⟨h, rfl⟩⟩

theorem Yields.trans {n m k : LocalCf} (h : Yields n m) (h' : Yields m k) : Yields n k := by
  refine ⟨h'.identity.trans h.identity, fun hk => ?_⟩
  obtain ⟨hm, haddr⟩ := h'.settled hk
  obtain ⟨hn, haddr'⟩ := h.settled hm
  exact ⟨hn, haddr.trans haddr'⟩

/-- Who clashes after such calls clashed before. -/
theorem Yields.clash {m n m' n' : LocalCf} (hm : Yields m m') (hn : Yields n n')
    (h : Clash m' n') : Clash m n := by
  obtain ⟨hport, haddr, hm', hn'⟩ := h
  obtain ⟨hsm, hma⟩ := hm.settled hm'
  obtain ⟨hsn, hna⟩ := hn.settled hn'
  have hmp : m'.cf.canPort = m.cf.canPort := congrArg Identity.canPort hm.identity
  have hnp : n'.cf.canPort = n.cf.canPort := congrArg Identity.canPort hn.identity
  exact ⟨by rw [← hmp, hport, hnp], by rw [← hma, haddr, hna], hsm, hsn⟩

/-- A call other than the two that may put a control function on an
address. -/
def Op.isPassive : Op → Bool
  | .update _ => false
  | .commanded _ => false
  | _ => true

variable {n : LocalCf} {op : Op} {s : Situation} {out : List Frame}

theorem settled_of_effect (he : Effect n op s out) (hop : op.isPassive = true)
    (hs : s.claimState = .claimed) (hon : s.state = .online) :
    n.cf.claimState = .claimed ∧ n.cf.state = .online ∧ s.address = n.cf.address := by
  cases he with
  | quiet | ignored | noted | defended | answered | refused => exact ⟨hs, hon, rfl⟩
  | requested | unclaimable | unseated | relocated | duplicated => cases hs
  | joined | shutOut | waited | reclaimed | gaveUp | claimed | commanded => cases hop
  | queued => cases hon

theorem yields_step (n : LocalCf) {op : Op} (hop : op.isPassive = true) : Yields n (n.step op) := by
  refine ⟨n.identity_call op, fun h => ?_⟩
  obtain ⟨hs, hon, haddr⟩ := settled_of_effect (n.call_effect op) hop h.1 (isOnline_iff.mp h.2)
  exact ⟨⟨hs, isOnline_iff.mpr hon⟩, haddr⟩

/-! ## The claimer's timers -/

/-- The contest for the address ends with these milliseconds. -/
structure ContestEnds (elapsedMs : ℕ) (n : LocalCf) : Prop where
  heard : n.claimer.listenPending = false
  kept : n.claimer.reclaimPending = false
  contested : n.cf.claimState = .waitForContest
  elapsed : n.claimer.timeoutMs ≤ satAdd32 n.claimer.claimGuardTimerMs elapsedMs

/-- The address won then. -/
def contestAddress (n : LocalCf) : Address :=
  if n.cf.address = nullAddress then n.cf.preferredAddress else n.cf.address

/-- No listen window and no delay of a re-claim runs out with these
milliseconds. -/
structure Undisturbed (elapsedMs : ℕ) (n : LocalCf) : Prop where
  listening : n.claimer.listenPending = true →
    satAdd32 n.claimer.listenTimerMs elapsedMs < n.claimer.timeoutMs
  reclaiming : n.claimer.listenPending = false → n.claimer.reclaimPending = true →
    satAdd32 n.claimer.reclaimDelayTimerMs elapsedMs < n.claimer.rtxdMs

/-- The control function wins or keeps the address `a` with these
milliseconds. -/
def Takes (elapsedMs : ℕ) (n : LocalCf) (a : Address) : Prop :=
  n.ContestEnds elapsedMs ∧ n.contestAddress = a ∨
    (n.Settled ∧ n.Undisturbed elapsedMs) ∧ n.cf.address = a

section

variable (c : AddressClaimer) (cf : InternalCf)

/-- What the listen window ends in is not settled. -/
theorem not_settled_finishListen : ¬(c.finishListen cf).1.Settled := by
  rintro ⟨hs, -⟩
  simp only [finishListen] at hs
  split at hs
  · cases hs
  · cases hs

theorem settled_tickReclaim_iff (elapsedMs : ℕ) (a : Address) :
    (c.tickReclaim cf elapsedMs).1.Settled ∧ (c.tickReclaim cf elapsedMs).1.cf.address = a ↔
      ((⟨c, cf⟩ : LocalCf).Settled ∧ cf.address = a) ∧
        satAdd32 c.reclaimDelayTimerMs elapsedMs < c.rtxdMs := by
  simp only [tickReclaim]
  split
  next hdue =>
    constructor
    · rintro ⟨⟨hs, -⟩, -⟩
      split at hs
      · cases hs
      · cases hs
    · rintro ⟨-, hlt⟩
      exact absurd hlt (Nat.not_lt.mpr hdue)
  next hdue =>
    exact ⟨fun h => ⟨h, Nat.not_le.mp hdue⟩, And.left⟩

theorem settled_tickContest_iff (elapsedMs : ℕ) (a : Address) :
    (c.tickContest cf elapsedMs).Settled ∧ (c.tickContest cf elapsedMs).cf.address = a ↔
      (cf.claimState = .waitForContest ∧ c.timeoutMs ≤ satAdd32 c.claimGuardTimerMs elapsedMs) ∧
        (⟨c, cf⟩ : LocalCf).contestAddress = a ∨
      (⟨c, cf⟩ : LocalCf).Settled ∧ cf.address = a := by
  simp only [tickContest]
  split
  next hcontest =>
    -- a contested address is not settled
    have hnot : ¬(⟨c, cf⟩ : LocalCf).Settled := by
      rintro ⟨hs, -⟩
      rw [show cf.claimState = .waitForContest from hcontest] at hs
      cases hs
    split
    next hover =>
      constructor
      · rintro ⟨-, haddr⟩
        exact .inl ⟨⟨hcontest, hover⟩, haddr⟩
      · rintro (⟨-, haddr⟩ | ⟨hs, -⟩)
        · exact ⟨⟨rfl, rfl⟩, haddr⟩
        · exact absurd hs hnot
    next hover =>
      constructor
      · rintro ⟨⟨hs, -⟩, -⟩
        rw [show cf.claimState = .claimed from hs] at hcontest
        cases hcontest
      · rintro (⟨⟨-, h⟩, -⟩ | ⟨hs, -⟩)
        · exact absurd h hover
        · exact absurd hs hnot
  next hcontest =>
    constructor
    · exact .inr
    · rintro (⟨⟨h, -⟩, -⟩ | h)
      · exact absurd h hcontest
      · exact h

end

/-- **Who is settled after an update of its claimer**, and where. -/
theorem settled_step_update_iff (n : LocalCf) (elapsedMs : ℕ) (a : Address) :
    (n.step (.update elapsedMs)).Settled ∧ (n.step (.update elapsedMs)).cf.address = a ↔
      n.Takes elapsedMs a := by
  simp only [step, call, update]
  cases hlisten : n.claimer.listenPending with
  | true =>
    -- the contest has not begun, so nothing ends in it
    have htakes : n.Takes elapsedMs a ↔ (n.Settled ∧ n.cf.address = a) ∧
        satAdd32 n.claimer.listenTimerMs elapsedMs < n.claimer.timeoutMs := by
      constructor
      · rintro (⟨h, -⟩ | ⟨⟨hs, h⟩, haddr⟩)
        · exact absurd (hlisten.symm.trans h.heard) (by decide)
        · exact ⟨⟨hs, haddr⟩, h.listening hlisten⟩
      · rintro ⟨⟨hs, haddr⟩, hlt⟩
        refine .inr ⟨⟨hs, fun _ => hlt, fun h => ?_⟩, haddr⟩
        exact absurd (hlisten.symm.trans h) (by decide)
    rw [htakes, if_pos rfl]
    split
    next hdue =>
      constructor
      · rintro ⟨hs, -⟩
        exact absurd hs (not_settled_finishListen _ _)
      · rintro ⟨-, hlt⟩
        exact absurd hlt (Nat.not_lt.mpr hdue)
    next hdue => exact ⟨fun h => ⟨h, Nat.not_le.mp hdue⟩, And.left⟩
  | false =>
    obtain ⟨⟨pending, timer, hc⟩, -⟩ := tickCannotClaim_cases n.claimer n.cf elapsedMs
    rw [hc]
    cases hreclaim : n.claimer.reclaimPending with
    | true =>
      refine (settled_tickReclaim_iff _ _ _ _).trans ?_
      constructor
      · rintro ⟨⟨hs, haddr⟩, hlt⟩
        refine .inr ⟨⟨hs, fun h => ?_, fun _ _ => hlt⟩, haddr⟩
        exact absurd (hlisten.symm.trans h) (by decide)
      · rintro (⟨h, -⟩ | ⟨⟨hs, h⟩, haddr⟩)
        · exact absurd (hreclaim.symm.trans h.kept) (by decide)
        · exact ⟨⟨hs, haddr⟩, h.reclaiming hlisten hreclaim⟩
    | false =>
      refine (settled_tickContest_iff _ _ _ _).trans (or_congr ?_ ?_)
      · constructor
        · rintro ⟨⟨hcontest, hover⟩, haddr⟩
          exact ⟨⟨hlisten, hreclaim, hcontest, hover⟩, haddr⟩
        · rintro ⟨h, haddr⟩
          exact ⟨⟨h.contested, h.elapsed⟩, haddr⟩
      · constructor
        · rintro ⟨hs, haddr⟩
          refine ⟨⟨hs, fun h => ?_, fun _ h => ?_⟩, haddr⟩
          · exact absurd (hlisten.symm.trans h) (by decide)
          · exact absurd (hreclaim.symm.trans h) (by decide)
        · rintro ⟨⟨hs, -⟩, haddr⟩
          exact ⟨hs, haddr⟩

end LocalCf

/-! ## What frames do -/

namespace Tables

open LocalCf IsoNet

theorem yields_afterClaim (name : Name) (addr : Address) (port : UInt8) (n : LocalCf) :
    Yields n (afterClaim name addr port n) := by
  have hdup : Yields n (afterDuplicate name addr port n) := by
    unfold afterDuplicate
    split
    · exact n.yields_step rfl
    · exact .refl n
  unfold afterClaim
  dsimp only
  split
  · exact hdup.trans (LocalCf.yields_step _ rfl)
  · exact hdup

/-- No frame changes a NAME. -/
theorem Moves.names_eq {t t' : Tables} (h : Moves t t') : names t'.locals = names t.locals := by
  induction h with
  | refl => rfl
  | trans _ _ ih₁ ih₂ => exact ih₂.trans ih₁
  | tp => rfl
  | etp => rfl
  | @claim _ name addr port =>
    rw [locals_discontinueAll]
    exact names_map
      (fun n => congrArg Identity.name (yields_afterClaim name addr port n).identity) _
  | request asked =>
    refine names_map (fun n => ?_) _
    split
    · exact n.name_step _
    · rfl
  | command =>
    rw [locals_discontinueAll]
    exact names_map (name_obeyCommand _ _ _ _) _

/-- **A commanded address** is one that nobody else has. -/
theorem unique_command (hnames : (names l).Nodup)
    (h : l.Pairwise fun m n => ¬Clash m n) {targetName : Name}
    {newAddress : Address} {port : UInt8} {occupied : Bool}
    (hocc : taken l targetName newAddress port = true → occupied = true) :
    (l.map fun n => (obeyCommand targetName newAddress port occupied n).1).Pairwise
      fun m n => ¬Clash m n := by
  have hcases := obeyCommand_cases targetName newAddress port occupied
  -- who obeys clashes with nobody else that stays as it was
  have hobeys : ∀ m n : LocalCf, n ∈ l → n.cf.name ≠ m.cf.name →
      m.cf.canPort = port ∧ m.cf.name = targetName ∧ occupied = false →
      n.cf.canPort = port → n.cf.address = newAddress → ¬n.Settled := by
    rintro m n hn hne ⟨-, htarget, hfree⟩ hport haddr hs
    have hname : n.cf.name ≠ targetName := htarget ▸ hne
    have := hocc (any_eq_true.mpr ⟨n, hn, by simp [hname, hport, haddr, hs.1]⟩)
    exact absurd (hfree.symm.trans this) (by decide)
  rw [pairwise_map]
  refine ((pairwise_map.mp hnames).and h).imp_of_mem ?_
  rintro m n hm hn ⟨hne, hnot⟩ hclash
  rcases hcases m with hmeq | ⟨hmt, -, hmeq⟩
  · rcases hcases n with hneq | ⟨hnt, -, hneq⟩
    · rw [hmeq, hneq] at hclash
      exact hnot hclash
    · rw [hmeq, hneq] at hclash
      obtain ⟨hport, haddr, hs, -⟩ := hclash
      exact hobeys n m hm hne hnt (hport.trans hnt.1) haddr hs
  · rcases hcases n with hneq | ⟨hnt, -, hneq⟩
    · rw [hmeq, hneq] at hclash
      obtain ⟨hport, haddr, -, hs⟩ := hclash
      exact hobeys m n hn (Ne.symm hne) hmt (hport.symm.trans hmt.1) haddr.symm hs
    · exact hne (hmt.2.1.trans hnt.2.1.symm)

theorem unique_map (h : l.Pairwise fun m n => ¬Clash m n)
    {g : LocalCf → LocalCf} (hg : ∀ n, Yields n (g n)) :
    (l.map g).Pairwise fun m n => ¬Clash m n := by
  rw [pairwise_map]
  exact h.imp fun hmn hclash => hmn ((hg _).clash (hg _) hclash)

/-- **What frames do** makes no two control functions clash. -/
theorem Moves.unique {t t' : Tables} (h : Moves t t') (hnames : (names t.locals).Nodup)
    (ht : t.locals.Pairwise fun m n => ¬Clash m n) : t'.locals.Pairwise fun m n => ¬Clash m n := by
  induction h with
  | refl => exact ht
  | trans h₁ _ ih₁ ih₂ => exact ih₂ (h₁.names_eq ▸ hnames) (ih₁ hnames ht)
  | tp => exact ht
  | etp => exact ht
  | @claim _ name addr port =>
    rw [locals_discontinueAll]
    exact unique_map ht (yields_afterClaim name addr port)
  | request asked =>
    refine unique_map ht fun n => ?_
    split
    · exact n.yields_step rfl
    · exact .refl n
  | command _ _ _ hocc =>
    rw [locals_discontinueAll]
    exact unique_command hnames ht hocc

end Tables

/-! ## The round and the timers -/

namespace IsoNet

open LocalCf Tables

variable {L : Type} [CanEndpoint L] {net : IsoNet L}

section

variable (net : IsoNet L) (elapsedMs : ℕ)

/-- Up to the claimers' timers an update does what frames do. -/
theorem exists_moves_beforeClaimers :
    ∃ t, Moves net.tables t ∧ (net.beforeClaimers elapsedMs).locals = t.locals := by
  refine ⟨_, net.moves_beforeRound elapsedMs, ?_⟩
  unfold beforeClaimers startReadyPendingTransport
  generalize net.beforeRound elapsedMs = mid
  exact (Sends.startReady _ fun _ _ => trivial : Sends (fun _ => True) mid _).locals_eq

theorem locals_driveClaimers :
    (net.driveClaimers elapsedMs).locals = net.locals.map (·.step (.update elapsedMs)) :=
  (congrArg Tables.locals (net.tables_driveClaimers elapsedMs)).trans (locals_foldl_discontinue _)

theorem locals_update : (net.step (.update elapsedMs)).locals =
      (net.beforeClaimers elapsedMs).locals.map (·.step (.update elapsedMs)) :=
  locals_driveClaimers _ elapsedMs

end

/-! ## Uniqueness -/

/-- No two control functions are settled at one address of one port. -/
def AddressesUnique (net : IsoNet L) : Prop := net.locals.Pairwise fun m n => ¬Clash m n
  deriving Decidable

/-- Two control functions of a port contend for an address as their
claimers are driven: one wins it and the other wins or keeps it. -/
def Contend (elapsedMs : ℕ) (m n : LocalCf) : Prop :=
  m.cf.canPort = n.cf.canPort ∧ (m.ContestEnds elapsedMs ∨ n.ContestEnds elapsedMs) ∧
    ∃ a, m.Takes elapsedMs a ∧ n.Takes elapsedMs a

/-- Without a contest that ends there is nothing new to clash over. -/
theorem clash_step_update_iff {m n : LocalCf} (elapsedMs : ℕ) (h : ¬Clash m n) :
    Clash (m.step (.update elapsedMs)) (n.step (.update elapsedMs)) ↔ Contend elapsedMs m n := by
  have hm := m.settled_step_update_iff elapsedMs
  have hn := n.settled_step_update_iff elapsedMs
  constructor
  · rintro ⟨hport, haddr, hsm, hsn⟩
    rw [canPort_step, canPort_step] at hport
    have htm := (hm _).mp ⟨hsm, rfl⟩
    have htn := (hn _).mp ⟨hsn, haddr.symm⟩
    refine ⟨hport, ?_, _, htm, htn⟩
    rcases htm with ⟨hends, -⟩ | ⟨⟨hsm', -⟩, ham⟩
    · exact .inl hends
    · rcases htn with ⟨hends, -⟩ | ⟨⟨hsn', -⟩, han⟩
      · exact .inr hends
      · exact absurd ⟨hport, ham.trans han.symm, hsm', hsn'⟩ h
  · rintro ⟨hport, -, a, htm, htn⟩
    obtain ⟨hsm, ham⟩ := (hm a).mpr htm
    obtain ⟨hsn, han⟩ := (hn a).mpr htn
    exact ⟨by rw [canPort_step, canPort_step, hport], ham.trans han.symm, hsm, hsn⟩

/-- The claimers are driven. -/
theorem unique_update_iff (elapsedMs : ℕ) (h : l.Pairwise fun m n => ¬Clash m n) :
    (l.map (·.step (.update elapsedMs))).Pairwise (fun m n => ¬Clash m n) ↔
      l.Pairwise fun m n => ¬Contend elapsedMs m n := by
  rw [pairwise_map]
  constructor
  · intro hnot
    exact (h.and hnot).imp fun ⟨hmn, hn⟩ hc => hn ((clash_step_update_iff elapsedMs hmn).mpr hc)
  · intro hnot
    exact (h.and hnot).imp fun ⟨hmn, hn⟩ hc => hn ((clash_step_update_iff elapsedMs hmn).mp hc)

/-! ## Runs -/

section

variable (net : IsoNet L)

/-- **The condition.** In an update, when the claimers are driven, no
contest ends on an address that another control function of the port wins
or keeps. -/
def Uncontended : Op L → Prop
  | .update elapsedMs =>
    (net.beforeClaimers elapsedMs).locals.Pairwise fun m n => ¬Contend elapsedMs m n
  | _ => True

theorem locals_start : net.startAddressClaiming.1.locals = net.locals.map (·.step .start) := by
  unfold startAddressClaiming
  split
  next hempty =>
    rw [isEmpty_iff.mp hempty]
    rfl
  · exact congrArg Tables.locals (tables_sendEmitted _ _)

end

/-- **What a call does to the control functions** when no time passes. A
new one has a new NAME and no address yet. -/
inductive Untimed (net : IsoNet L) : List LocalCf → Prop
  | same : Untimed net net.locals
  | created {name port preferred claimer} (hfresh : ∀ n ∈ net.locals, n.cf.name ≠ name) :
      Untimed net (net.locals ++ [.new name port preferred claimer])
  | mapped {g : LocalCf → LocalCf} (hg : ∀ n, Yields n (g n)) : Untimed net (net.locals.map g)
  | moved {t : Tables} (h : Moves net.tables t) : Untimed net t.locals

theorem untimed_step {op : Op L} (h : ∀ elapsedMs, op ≠ .update elapsedMs) :
    net.Untimed (net.step op).locals := by
  cases op with
  | createInternal name port preferred =>
    simp only [step, createInternal]
    split
    · exact .same
    next hfresh => exact .created (by simpa using hfresh)
  | createPartner | setEndpoint | setCaptureOutbound => exact .same
  | registerFastPacketPgn pgn =>
    simp only [step, registerFastPacketPgn]
    split <;> exact .same
  | startAddressClaiming =>
    simp only [step, locals_start]
    exact .mapped fun n => n.yields_step rfl
  | send pgn data src dst priority =>
    simp only [step, (Sends.send net pgn data src dst priority).locals_eq]
    exact .same
  | feed frame port => exact .moved (net.moves_processFrame frame port)
  | update elapsedMs => exact absurd rfl (h elapsedMs)

omit [CanEndpoint L] in
theorem Untimed.nodup (hl : net.Untimed l) (h : (names net.locals).Nodup) : (names l).Nodup := by
  cases hl with
  | same => exact h
  | created hfresh =>
    rw [names, map_append, map_singleton, ← concat_eq_append]
    refine h.concat fun hmem => ?_
    obtain ⟨n, hn, hname⟩ := mem_map.mp hmem
    exact hfresh n hn hname
  | mapped hg =>
    rw [names_map fun n => congrArg Identity.name (hg n).identity]
    exact h
  | moved hmoves => exact hmoves.names_eq ▸ h

omit [CanEndpoint L] in
theorem Untimed.unique (hl : net.Untimed l) (hnames : (names net.locals).Nodup)
    (h : net.AddressesUnique) : l.Pairwise fun m n => ¬Clash m n := by
  cases hl with
  | same => exact h
  | created =>
    refine pairwise_append.mpr ⟨h, pairwise_singleton _ _, ?_⟩
    rintro m - n hn ⟨-, -, -, hs, -⟩
    rw [mem_singleton.mp hn] at hs
    cases hs
  | mapped hg => exact unique_map h hg
  | moved hmoves => exact hmoves.unique hnames h

/-- The NAMEs stay distinct, whatever is called. -/
theorem names_step (h : (names net.locals).Nodup) (op : Op L) :
    (names (net.step op).locals).Nodup := by
  cases op with
  | update elapsedMs =>
    obtain ⟨t, hmoves, hlocals⟩ := net.exists_moves_beforeClaimers elapsedMs
    rw [locals_update, names_map fun n => n.name_step _, hlocals, hmoves.names_eq]
    exact h
  | _ => exact (untimed_step (by simp)).nodup h

/-- **One call** keeps the addresses distinct just under the condition. -/
theorem unique_step_iff (hnames : (names net.locals).Nodup) (h : net.AddressesUnique)
    (op : Op L) : (net.step op).AddressesUnique ↔ net.Uncontended op := by
  cases op with
  | update elapsedMs =>
    obtain ⟨t, hmoves, hlocals⟩ := net.exists_moves_beforeClaimers elapsedMs
    have hmid := hmoves.unique hnames h
    rw [← hlocals] at hmid
    unfold AddressesUnique
    rw [locals_update]
    exact unique_update_iff elapsedMs hmid
  | _ => exact iff_of_true ((untimed_step (by simp)).unique hnames h) trivial

/-- **When local addresses are unique.** Whatever the calls, no two
control functions are settled at one address of one port in any state of
the run exactly if in no update a contest ends on an address that another
control function of the port wins or keeps. -/
theorem local_addresses_unique_iff (config : NetworkConfig) (ops : List (Op L)) :
    (∀ pre, pre <+: ops → (run step (new config) pre : IsoNet L).AddressesUnique) ↔
      Along step Uncontended (new config) ops := by
  have hstart : (names (new config : IsoNet L).locals).Nodup ∧
      (new config : IsoNet L).AddressesUnique := ⟨nodup_nil, List.Pairwise.nil⟩
  have hnames : ∀ pre, (names (run step (new config : IsoNet L) pre).locals).Nodup :=
    run_induction (I := fun net : IsoNet L => (names net.locals).Nodup) hstart.1
      fun _ op h => names_step h op
  have hiff := always_iff_along
    (I := fun net : IsoNet L => (names net.locals).Nodup ∧ net.AddressesUnique) hstart
    (fun net op h => (and_iff_right (names_step h.1 op)).trans (unique_step_iff h.1 h.2 op)) ops
  rw [← hiff]
  exact forall_congr' fun pre => imp_congr_right fun _ => (and_iff_right (hnames pre)).symm

/-- Two control functions of one port that prefer the same address. -/
def samePreference : List (Op Unit) :=
  [.createInternal (Name.fromRaw 1) 0 0x20, .createInternal (Name.fromRaw 2) 0 0x20,
    .startAddressClaiming, .update 500, .update 500]

/-- **Both get it.** Neither hears the other's claim. -/
theorem same_preference_clashes :
    ¬(run step (new {} : IsoNet Unit) samePreference).AddressesUnique := by
  decide +kernel

end IsoNet

end Machbus
