import Machbus.Network.Helpers.Moves
/-!
# No transport outlives its address

Every transmit session of the two engines and every waiting transmission
runs from the address of a local control function that is online. What
opens one has just checked this, and whatever moves a control function
off its address tears down what runs from it.
-/

namespace Machbus

open AddressClaimer List

namespace Tables

/-- A session in the list transmits from an address of a port. -/
def Transmits (l : List TransportSession) (port : UInt8) (a : Address) : Prop :=
  ∃ s ∈ l, s.direction = .transmit ∧ s.canPort = port ∧ s.sourceAddress = a

/-- Something runs, or waits to run, from an address of a port. -/
def Uses (t : Tables) (port : UInt8) (a : Address) : Prop :=
  Transmits t.tp port a ∨ Transmits t.etp port a ∨ ∃ tx ∈ t.pending, tx.port = port ∧ tx.source = a

/-- The address is a claimable one, held by a control function that is
online. -/
def Owned (locals : List LocalCf) (port : UInt8) (a : Address) : Prop :=
  a ≤ maxAddress ∧ ∃ n ∈ locals, n.cf.isOnline = true ∧ n.cf.canPort = port ∧ n.cf.address = a

/-- **The invariant.** What is used is owned. Along with it goes any
property `Q` of the control functions that their calls keep. -/
structure Backed (Q : LocalCf → Prop) (t : Tables) : Prop where
  owned : ∀ port a, t.Uses port a → Owned t.locals port a
  locals : ∀ n ∈ t.locals, Q n

variable {t t' : Tables} {Q : LocalCf → Prop} {port : UInt8} {a : Address}
  {l : List TransportSession}

theorem Transmits.of_inherits {l l' : List TransportSession} (h : Inherits l l')
    (hs : Transmits l' port a) : Transmits l port a := by
  obtain ⟨s, hs, hdir, hport, hsrc⟩ := hs
  obtain ⟨x, hx, hpath⟩ := h s hs hdir
  simp only [TransportSession.path, Prod.mk.injEq] at hpath
  exact ⟨x, hx, hpath.1.trans hdir, hpath.2.2.2.trans hport, hpath.2.1.trans hsrc⟩

/-- What is in use was before, or is owned. -/
theorem Backed.of_uses (h : Backed Q t) (hl : t'.locals = t.locals)
    (hu : ∀ port a, t'.Uses port a → t.Uses port a ∨ Owned t.locals port a) : Backed Q t' := by
  constructor
  · intro port a huse
    rw [hl]
    exact (hu port a huse).elim (h.owned port a) id
  · rw [hl]
    exact h.locals

theorem Backed.tp (h : Backed Q t)
    (hl : ∀ port a, Transmits l port a → Transmits t.tp port a ∨ Owned t.locals port a) :
    Backed Q { t with tp := l } := by
  refine h.of_uses rfl ?_
  rintro port a (hs | hs)
  · exact (hl port a hs).imp_left .inl
  · exact .inl (.inr hs)

theorem Backed.etp (h : Backed Q t)
    (hl : ∀ port a, Transmits l port a → Transmits t.etp port a ∨ Owned t.locals port a) :
    Backed Q { t with etp := l } := by
  refine h.of_uses rfl ?_
  rintro port a (hs | hs | hs)
  · exact .inl (.inl hs)
  · exact (hl port a hs).imp_left fun hs => .inr (.inl hs)
  · exact .inl (.inr (.inr hs))

theorem Backed.pending (h : Backed Q t) {l : List PendingTransportTx}
    (hl : ∀ tx ∈ l, tx ∈ t.pending ∨ Owned t.locals tx.port tx.source) :
    Backed Q { t with pending := l } := by
  refine h.of_uses rfl ?_
  rintro port a (hs | hs | ⟨tx, htx, rfl, rfl⟩)
  · exact .inl (.inl hs)
  · exact .inl (.inr (.inl hs))
  · exact (hl tx htx).imp_left fun htx => .inr (.inr ⟨tx, htx, rfl, rfl⟩)

theorem transmits_push {s : TransportSession} (h : Transmits (l ++ [s]) port a) :
    Transmits l port a ∨ s.canPort = port ∧ s.sourceAddress = a := by
  obtain ⟨x, hx, hdir, hat⟩ := h
  rcases mem_append.mp hx with hx | hx
  · exact .inl ⟨x, hx, hdir, hat⟩
  · rw [mem_singleton.mp hx] at hat
    exact .inr hat

/-- A new control function takes nothing away. -/
theorem Backed.add (h : Backed Q t) {n : LocalCf} (hn : Q n) :
    Backed Q { t with locals := t.locals ++ [n] } := by
  constructor
  · intro port a huse
    obtain ⟨hle, m, hm, hat⟩ := h.owned port a huse
    exact ⟨hle, m, mem_append_left _ hm, hat⟩
  · exact forall_mem_append.mpr ⟨h.locals, forall_mem_singleton.mpr hn⟩

/-! ## Giving up addresses -/

/-- What is torn down is no longer in use. -/
theorem uses_discontinue {q : UInt8} {b : Address} (h : (t.discontinue port a).Uses q b) :
    t.Uses q b ∧ (b ≤ maxAddress → ¬(q = port ∧ b = a)) := by
  unfold discontinue at h
  split at h
  next hnone =>
    refine ⟨h, ?_⟩
    rintro hle ⟨-, rfl⟩
    exact real_iff_not.mp (real_of_le hle) hnone
  · have hsession : ∀ l : List TransportSession, Transmits (l.filter fun s =>
          s.canPort != port || (s.sourceAddress != a && s.destinationAddress != a)) q b →
        Transmits l q b ∧ ¬(q = port ∧ b = a) := by
      rintro l ⟨s, hs, hdir, rfl, rfl⟩
      obtain ⟨hs, hkeep⟩ := mem_filter.mp hs
      refine ⟨⟨s, hs, hdir, rfl, rfl⟩, ?_⟩
      rintro ⟨rfl, rfl⟩
      simp at hkeep
    rcases h with h | h | ⟨tx, htx, rfl, rfl⟩
    · exact ⟨.inl (hsession _ h).1, fun _ => (hsession _ h).2⟩
    · exact ⟨.inr (.inl (hsession _ h).1), fun _ => (hsession _ h).2⟩
    · obtain ⟨htx, hkeep⟩ := mem_filter.mp htx
      refine ⟨.inr (.inr ⟨tx, htx, rfl, rfl⟩), fun _ => ?_⟩
      rintro ⟨rfl, rfl⟩
      simp at hkeep

/-- The same for a list of addresses with their ports. -/
theorem uses_foldl_discontinue {es : List (UInt8 × Address)} {q : UInt8} {b : Address}
    (h : (es.foldl (fun t e => t.discontinue e.1 e.2) t).Uses q b) :
    t.Uses q b ∧ (b ≤ maxAddress → (q, b) ∉ es) := by
  induction es generalizing t with
  | nil => exact ⟨h, fun _ => not_mem_nil⟩
  | cons e es ih =>
    obtain ⟨hrest, hnot⟩ := ih h
    obtain ⟨huse, hne⟩ := uses_discontinue hrest
    refine ⟨huse, fun hle hmem => ?_⟩
    rcases mem_cons.mp hmem with heq | hmem
    · exact hne hle ⟨congrArg Prod.fst heq, congrArg Prod.snd heq⟩
    · exact hnot hle hmem

/-- **Control functions move.** If every one of them keeps its address and
stays online, or what it leaves is torn down, what is used is still
owned. -/
theorem Backed.surrender (h : Backed Q t) {g : LocalCf → LocalCf} (es : List (UInt8 × Address))
    (hQ : ∀ n ∈ t.locals, Q (g n)) (hport : ∀ n, (g n).cf.canPort = n.cf.canPort)
    (hg : ∀ n ∈ t.locals, n.cf.isOnline = true → n.cf.address ≤ maxAddress →
      (g n).cf.isOnline = true ∧ (g n).cf.address = n.cf.address ∨
        (n.cf.canPort, n.cf.address) ∈ es) :
    Backed Q (es.foldl (fun t e => t.discontinue e.1 e.2) { t with locals := t.locals.map g }) := by
  constructor
  · intro q b huse
    obtain ⟨huse, hnot⟩ := uses_foldl_discontinue huse
    obtain ⟨hle, n, hn, hon, rfl, rfl⟩ := h.owned q b huse
    rw [locals_foldl_discontinue]
    rcases hg n hn hon hle with ⟨hon', haddr⟩ | hmem
    · exact ⟨hle, g n, mem_map_of_mem hn, hon', hport n, haddr⟩
    · exact absurd hmem (hnot hle)
  · rw [locals_foldl_discontinue]
    intro n hn
    obtain ⟨m, hm, rfl⟩ := mem_map.mp hn
    exact hQ m hm

end Tables

/-! ## Before the start -/

/-- The control function has never been started. -/
structure Situation.Unstarted (s : Situation) : Prop where
  attempted : s.attempted = false
  listening : s.listening = false
  reclaiming : s.reclaiming = false
  idle : s.claimState = .none
  offline : s.state = .offline

theorem Effect.unstarted {n : LocalCf} {op : LocalCf.Op} {s : Situation} {out : List Frame}
    (h : Effect n op s out) (hop : op ≠ .start) (hn : n.situation.Unstarted) : s.Unstarted := by
  obtain ⟨hatt, hlis, hrec, hidle, hoff⟩ := hn
  have hidle : n.cf.claimState = .none := hidle
  cases h with
  | quiet | waited | ignored | noted | answered | refused => exact ⟨hatt, hlis, hrec, hidle, hoff⟩
  | requested | unclaimable => exact absurd rfl hop
  | joined hl | shutOut hl => exact absurd hl (ne_true_of_eq_false hlis)
  | reclaimed _ hr | gaveUp _ hr => exact absurd hr (ne_true_of_eq_false hrec)
  | claimed _ _ h => exact absurd (hidle.symm.trans h) (by decide)
  | defended h | unseated h | queued h | relocated h =>
    exact absurd h.attempted (ne_true_of_eq_false hatt)
  | duplicated h => exact absurd h (ne_true_of_eq_false hatt)
  | commanded _ h =>
    rw [hidle] at h
    rcases h with h | ⟨h, -⟩
    all_goals exact absurd h (by decide)

/-! ## The calls of the network layer -/

namespace LocalCf

/-- A property that every call but the start keeps. -/
def Stable (Q : LocalCf → Prop) : Prop := ∀ n op, op ≠ .start → Q n → Q (n.step op)

/-- A request for the address leaves the control function as it is. -/
theorem cf_step_request (n : LocalCf) : (n.step .request).cf = n.cf := by
  simp only [step, call, handleRequestForClaim]
  split
  · rfl
  split
  · rfl
  split
  · rfl
  · rfl
  · split <;> rfl
  · rfl

end LocalCf

namespace Tables

open IsoNet

variable {t t' : Tables} {Q : LocalCf → Prop}

section

variable (hQ : LocalCf.Stable Q) (h : Backed Q t)
include hQ h

/-- Requests for the address move nobody. -/
theorem Backed.asked (asked : LocalCf → Bool) : Backed Q { t with
      locals := t.locals.map fun n => if asked n then n.step .request else n } := by
  have hcf : ∀ n : LocalCf, (if asked n then n.step .request else n).cf = n.cf := by
    intro n
    split
    · exact n.cf_step_request
    · rfl
  refine h.surrender [] ?_ ?_ ?_
  · intro n hn
    split
    · exact hQ n _ (by simp) (h.locals n hn)
    · exact h.locals n hn
  · intro n
    rw [hcf]
  · intro n _ hon _
    rw [hcf]
    exact .inl ⟨hon, rfl⟩

/-- **A received claim.** -/
theorem Backed.claim (name : Name) (addr : Address) (port : UInt8) :
    Backed Q (discontinueAll { t with locals := t.locals.map (afterClaim name addr port) } port
      (givenUp t.locals name addr port)) := by
  rw [discontinueAll_eq_foldl]
  refine h.surrender _ ?_ (canPort_afterClaim name addr port) ?_
  · intro n hn
    have hdup : Q (afterDuplicate name addr port n) := by
      unfold afterDuplicate
      split
      · exact hQ n _ (by simp) (h.locals n hn)
      · exact h.locals n hn
    unfold afterClaim
    dsimp only
    split
    · exact hQ _ _ (by simp) hdup
    · exact hdup
  · intro n hn hon hle
    by_cases hport : n.cf.canPort = port
    · by_cases hkept : (afterClaim name addr port n).cf.isOnline = true ∧
          (afterClaim name addr port n).cf.address = n.cf.address
      · exact .inl hkept
      · refine .inr (mem_map.mpr ⟨n.cf.address, ?_, by rw [hport]⟩)
        exact (mem_givenUp_iff (real_of_le hle)).mpr ⟨n, hn, hport, rfl, hkept⟩
    · rw [afterClaim_of_ne hport]
      exact .inl ⟨hon, rfl⟩

/-- **A commanded address.** -/
theorem Backed.command (targetName : Name)
    {newAddress : Address} (port : UInt8) (occupied : Bool) (hle : newAddress ≤ maxAddress) :
    Backed Q (discontinueAll
      { t with
        locals := t.locals.map fun n => (obeyCommand targetName newAddress port occupied n).1 } port
      (t.locals.flatMap fun n => (obeyCommand targetName newAddress port occupied n).2.2)) := by
  have hcases := obeyCommand_cases targetName newAddress port occupied
  rw [discontinueAll_eq_foldl]
  refine h.surrender _ ?_ ?_ ?_
  · intro n hn
    rcases hcases n with heq | ⟨-, hstate, heq⟩
    · rw [heq]
      exact h.locals n hn
    · have hcall : (n.applyCommanded newAddress).1 = n.step (.commanded newAddress) := by
        rw [LocalCf.step, LocalCf.call, if_pos ⟨hle, hstate⟩]
      rw [heq, hcall]
      exact hQ n _ (by simp) (h.locals n hn)
  · intro n
    rcases hcases n with heq | ⟨-, -, heq⟩
    · rw [heq]
    · rw [heq]
      rfl
  · intro n hn hon _
    rcases hcases n with heq | ⟨⟨hport, -⟩, -, heq⟩
    · rw [heq]
      exact .inl ⟨hon, rfl⟩
    · by_cases haddr : n.cf.address = newAddress
      · rw [heq]
        exact .inl ⟨rfl, haddr.symm⟩
      · refine .inr (mem_map.mpr ⟨n.cf.address, ?_, by rw [hport]⟩)
        refine mem_flatMap.mpr ⟨n, hn, ?_⟩
        rw [heq]
        exact (if_pos haddr).symm ▸ mem_singleton.mpr rfl

end

/-- **What frames do** leaves the tables backed. -/
theorem Moves.backed (hQ : LocalCf.Stable Q) (hmoves : Moves t t') (h : Backed Q t) :
    Backed Q t' := by
  induction hmoves with
  | refl => exact h
  | trans _ _ ih₁ ih₂ => exact ih₂ (ih₁ h)
  | tp hl => exact h.tp fun _ _ hs => .inl (hs.of_inherits hl)
  | etp hl => exact h.etp fun _ _ hs => .inl (hs.of_inherits hl)
  | claim name port => exact h.claim hQ name _ port
  | request asked => exact h.asked hQ asked
  | command targetName port hle => exact h.command hQ targetName port _ hle

end Tables

namespace IsoNet

open Tables

variable {L : Type} {Q : LocalCf → Prop} {net : IsoNet L}

/-! ### Sending -/

/-- What is handed to an engine from an owned address, whether it is
accepted or not, leaves the tables backed. -/
theorem backed_engage (h : Backed Q net.tables) {tx : PendingTransportTx}
    (ho : Owned net.locals tx.port tx.source) : Backed Q (net.engage tx).1.tables := by
  have hopened : ∀ {l : List TransportSession} {s : TransportSession},
      s.path = (.transmit, tx.source, tx.destination, tx.port) → ∀ port a,
      Transmits (l ++ [s]) port a → Transmits l port a ∨ Owned net.locals port a := by
    intro l s hpath port a hs
    simp only [TransportSession.path, Prod.mk.injEq] at hpath
    refine (transmits_push hs).imp_right ?_
    rintro ⟨rfl, rfl⟩
    rw [hpath.2.1, hpath.2.2.2]
    exact ho
  unfold engage
  split
  · rcases net.tp.send_cases tx.pgn tx.data tx.source tx.destination tx.port tx.priority with
      ⟨stats, err, -, heq⟩ | ⟨-, s, frames, hpath, heq⟩
    · rw [heq]
      exact h
    · rw [heq]
      exact h.tp (hopened hpath)
  · rcases net.etp.send_cases tx.pgn tx.data tx.source tx.destination tx.port tx.priority with
      ⟨stats, err, -, heq⟩ | ⟨-, s, frames, hpath, heq⟩
    · rw [heq]
      exact h
    · rw [heq]
      exact h.etp (hopened hpath)

/-- **Sending** from owned addresses. -/
theorem backed_sends {P : PendingTransportTx → Prop} {net' : IsoNet L} (hsends : Sends P net net')
    (ho : ∀ tx, P tx → Owned net.locals tx.port tx.source) (h : Backed Q net.tables) :
    Backed Q net'.tables := by
  induction hsends with
  | refl | wire | fast => exact h
  | trans hs _ ih ih' => exact ih' (fun tx htx => hs.locals_eq ▸ ho tx htx) (ih ho h)
  | engage _ htx => exact backed_engage h (ho _ htx)
  | pending _ htxs => exact h.pending fun tx htx => (htxs tx htx).imp_right (ho tx)

variable [CanEndpoint L]

theorem backed_send (h : Backed Q net.tables) (pgn : ℕ) (data : List UInt8) (src : ℕ)
    (dst : Address) (priority : Priority) :
    Backed Q (net.send pgn data src dst priority).1.tables := by
  refine backed_sends (.send net pgn data src dst priority) ?_ h
  rintro tx ⟨n, hn, hon, hvalid, hport, hsrc⟩
  rw [hport, hsrc]
  exact ⟨of_decide_eq_true hvalid, n, hn, hon, rfl, rfl⟩

theorem backed_startReady (attempts : ℕ) (h : Backed Q net.tables) :
    Backed Q (startReady attempts net).tables := by
  refine backed_sends (.startReady attempts fun tx htx => ?_) (fun _ ho => ho) h
  exact h.owned _ _ (.inr (.inr ⟨tx, htx, rfl, rfl⟩))

/-! ### Time -/

section

variable (hQ : LocalCf.Stable Q) (h : Backed Q net.tables) (elapsedMs : ℕ)
include hQ h

/-- **The claimers' timers.** -/
theorem backed_driveClaimers : Backed Q (net.driveClaimers elapsedMs).tables := by
  rw [tables_driveClaimers]
  refine h.surrender _ ?_ ?_ ?_
  · intro n hn
    exact hQ n _ (by simp) (h.locals n hn)
  · intro n
    exact n.canPort_step _
  · intro n hn hon hle
    by_cases hkept : (n.step (.update elapsedMs)).cf.isOnline = true ∧
        (n.step (.update elapsedMs)).cf.address = n.cf.address
    · exact .inl hkept
    refine .inr (mem_flatMap.mpr ⟨n, hn, ?_⟩)
    rw [vacatedBy, if_pos]
    · exact mem_singleton.mpr rfl
    · refine ⟨ne_nullAddress hle, ?_⟩
      rw [not_and_or, Bool.not_eq_true] at hkept
      exact hkept.elim (fun hoff => .inr ⟨hon, hoff⟩) .inl

theorem backed_update : Backed Q (net.update elapsedMs).tables := by
  have hround := (net.moves_beforeRound elapsedMs).backed hQ h
  exact backed_driveClaimers hQ (backed_startReady _ hround) elapsedMs

end

/-! ### Runs -/

def Op.isStart : Op L → Bool
  | .startAddressClaiming => true
  | _ => false

/-- Every call but the start keeps the tables backed. -/
theorem backed_step (hQ : LocalCf.Stable Q) (hnew : ∀ name port preferred timeoutMs rtxdMs,
      Q (.new name port preferred (.withTimeout timeoutMs rtxdMs)))
    {op : Op L} (hop : op.isStart = false) (h : Backed Q net.tables) :
    Backed Q (net.step op).tables := by
  cases op with
  | createInternal name port preferred =>
    simp only [step, createInternal]
    split
    · exact h
    · exact h.add (hnew name port preferred _ _)
  | createPartner port filters | setEndpoint port endpoint | setCaptureOutbound enabled => exact h
  | registerFastPacketPgn pgn =>
    simp only [step, registerFastPacketPgn]
    split <;> exact h
  | startAddressClaiming => cases hop
  | send pgn data src dst priority => exact backed_send h pgn data src dst priority
  | feed frame port => exact (net.moves_processFrame frame port).backed hQ h
  | update elapsedMs => exact backed_update hQ h elapsedMs

/-- **The start.** Nobody was online before it, so nothing was in use. -/
theorem backed_start (h : Backed (fun n => n.situation.Unstarted) net.tables) :
    Backed (fun _ => True) net.startAddressClaiming.1.tables := by
  have hnone : ∀ port a, ¬net.tables.Uses port a := by
    intro port a huse
    obtain ⟨-, n, hn, hon, -⟩ := h.owned port a huse
    have hoff : n.cf.state = .offline := (h.locals n hn).offline
    simp [ControlFunction.isOnline, hoff] at hon
  unfold startAddressClaiming
  split
  · exact ⟨h.owned, fun _ _ => trivial⟩
  rw [tables_sendEmitted]
  exact ⟨fun port a huse => absurd huse (hnone port a), fun _ _ => trivial⟩

theorem backed_run_of_started {ops : List (Op L)} (hops : ∀ op ∈ ops, op.isStart = false)
    (h : Backed (fun _ => True) net.tables) : Backed (fun _ => True) (run step net ops).tables := by
  induction ops generalizing net with
  | nil => exact h
  | cons op ops ih =>
    refine ih (fun op hop => hops op (mem_cons_of_mem _ hop)) ?_
    exact backed_step (fun _ _ _ _ => trivial) (fun _ _ _ _ _ => trivial) (hops op mem_cons_self) h

/-- The run up to the start and behind it. -/
theorem backed_run {ops : List (Op L)} (hsingle : (ops.filter Op.isStart).length ≤ 1)
    (h : Backed (fun n => n.situation.Unstarted) net.tables) :
    Backed (fun _ => True) (run step net ops).tables := by
  induction ops generalizing net with
  | nil => exact ⟨h.owned, fun _ _ => trivial⟩
  | cons op ops ih =>
    cases hop : op.isStart with
    | true =>
      have hrest : ∀ op ∈ ops, op.isStart = false := by
        rw [filter_cons_of_pos hop, length_cons] at hsingle
        have hnil : ops.filter Op.isStart = [] := length_eq_zero_iff.mp (by omega)
        intro op hmem
        simpa using filter_eq_nil_iff.mp hnil op hmem
      rw [run_cons]
      cases op with
      | startAddressClaiming => exact backed_run_of_started hrest (backed_start h)
      | createInternal | createPartner | setEndpoint | setCaptureOutbound
      | registerFastPacketPgn | send | feed | update => cases hop
    | false =>
      rw [filter_cons_of_neg (by simp [hop])] at hsingle
      refine ih hsingle (backed_step ?_ ?_ hop h)
      · intro n op hop hn
        exact (n.call_effect op).unstarted hop hn
      · intro name port preferred timeoutMs rtxdMs
        exact ⟨rfl, rfl, rfl, rfl, rfl⟩

/-- **No transport outlives its address.** After any calls with one start
among them, every transmit session and every waiting transmission runs
from the address of a control function that is online on its port. -/
theorem transports_owned (config : NetworkConfig) (ops : List (Op L))
    (hsingle : (ops.filter Op.isStart).length ≤ 1) :
    let net := run step (new config) ops
    (∀ s ∈ net.tp.sessions ++ net.etp.sessions, s.direction = .transmit →
      ∃ n ∈ net.locals, n.cf.isOnline = true ∧ n.cf.canPort = s.canPort ∧
        n.cf.address = s.sourceAddress) ∧
    ∀ tx ∈ net.pendingTransportTx,
      ∃ n ∈ net.locals, n.cf.isOnline = true ∧ n.cf.canPort = tx.port ∧
        n.cf.address = tx.source := by
  intro net
  have hfresh : Backed (fun n => n.situation.Unstarted) (new config : IsoNet L).tables := by
    refine ⟨fun port a huse => ?_, nofun⟩
    rcases huse with ⟨s, hs, -⟩ | ⟨s, hs, -⟩ | ⟨tx, hs, -⟩ <;> cases hs
  have h : Backed (fun _ => True) net.tables := backed_run hsingle hfresh
  constructor
  · intro s hs hdir
    rcases mem_append.mp hs with hs | hs
    · exact (h.owned _ _ (.inl ⟨s, hs, hdir, rfl, rfl⟩)).2
    · exact (h.owned _ _ (.inr (.inl ⟨s, hs, hdir, rfl, rfl⟩))).2
  · intro tx htx
    exact (h.owned _ _ (.inr (.inr ⟨tx, htx, rfl, rfl⟩))).2

/-- A control function claims its address and starts to transmit. -/
def claimAndSend : List (Op Unit) :=
  [.createInternal (Name.fromRaw 1) 0 0x20, .setCaptureOutbound true, .startAddressClaiming,
    .update 500, .update 500, .send 0xEF00 (List.replicate 20 0) 0 0x30 .default]

theorem transports_owned_claimAndSend :
    ∃ s ∈ (run step (new {}) claimAndSend).tp.sessions ++
        (run step (new {}) claimAndSend).etp.sessions, s.direction = .transmit ∧
      ∃ n ∈ (run step (new {}) claimAndSend).locals, n.cf.isOnline = true ∧
        n.cf.canPort = s.canPort ∧ n.cf.address = s.sourceAddress := by
  have hex : ∃ s ∈ (run step (new {}) claimAndSend).tp.sessions ++
      (run step (new {}) claimAndSend).etp.sessions, s.direction = .transmit := by decide +kernel
  obtain ⟨s, hs, hdir⟩ := hex
  exact ⟨s, hs, hdir, (transports_owned {} claimAndSend (by decide)).1 s hs hdir⟩

end IsoNet

end Machbus
