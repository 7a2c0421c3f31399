import Machbus.Network.Ownership
/-!
# What a received claim tears down

A claim from the bus should end the transports of a control function
that it takes off an address, and no others. The network layer tears
down the address stored in every control function of the port that is
off the bus after the claim, so the ones that were off it before count
as well: their stored address is one they have never held, or hold no
more, and a session with a remote control function of that address ends
with them.
-/

namespace Machbus

open List

/-- One of the two ends of a session. -/
def TransportSession.Endpoint (s : TransportSession) (a : Address) : Prop :=
  s.sourceAddress = a ∨ s.destinationAddress = a

/-- One of the two ends of a waiting transmission. -/
def PendingTransportTx.Endpoint (tx : PendingTransportTx) (a : Address) : Prop :=
  tx.source = a ∨ tx.destination = a

namespace IsoNet

open Tables

variable {L : Type} [CanEndpoint L] {net : IsoNet L} {frame : Frame} {port : UInt8} {a : Address}

variable (net : IsoNet L)

/-- A frame takes an online control function of the port off an address. -/
def Displaced (frame : Frame) (port : UInt8) (a : Address) : Prop :=
  ∃ e ∈ net.locals.zip (net.feed frame port).locals,
    e.1.cf.canPort = port ∧ e.1.cf.isOnline = true ∧ e.1.cf.address = a ∧
      ¬(e.2.cf.isOnline = true ∧ e.2.cf.address = a)

/-- **The contract.** What a frame removes had an end on an address that
it displaces; a frame that displaces nobody removes nothing. -/
structure Confined (net : IsoNet L) (frame : Frame) (port : UInt8) : Prop where
  tp : ∀ s ∈ net.tp.sessions, s ∉ (net.feed frame port).tp.sessions →
    ∃ a, s.Endpoint a ∧ Displaced net frame port a
  etp : ∀ s ∈ net.etp.sessions, s ∉ (net.feed frame port).etp.sessions →
    ∃ a, s.Endpoint a ∧ Displaced net frame port a
  pending : ∀ tx ∈ net.pendingTransportTx, tx ∉ (net.feed frame port).pendingTransportTx →
    ∃ a, tx.Endpoint a ∧ Displaced net frame port a
  untouched : (∀ a, ¬Displaced net frame port a) →
    (net.feed frame port).tp.sessions = net.tp.sessions ∧
      (net.feed frame port).etp.sessions = net.etp.sessions ∧
      (net.feed frame port).pendingTransportTx = net.pendingTransportTx

/-- A control function of the port that is off the bus stores the
address. -/
def StoredIdle (port : UInt8) (a : Address) : Prop :=
  Real a ∧ ∃ n ∈ net.locals, n.cf.canPort = port ∧ n.cf.isOnline = false ∧ n.cf.address = a

/-- A claim will take an online control function of the port off an
address: its NAME is used from another one, or it loses the contest. -/
def Ousts (name : Name) (addr : Address) (port : UInt8) (a : Address) : Prop :=
  ∃ n ∈ net.locals, n.cf.canPort = port ∧ n.cf.isOnline = true ∧ n.cf.address = a ∧
    (isDuplicated name addr port n = true ∨ n.Loses addr name)

/-- What has an end on a stored idle address of its port has one that the
claim ousts. -/
structure Spared (net : IsoNet L) (name : Name) (addr : Address) (port : UInt8) : Prop where
  sessions : ∀ s ∈ net.tp.sessions ++ net.etp.sessions, s.canPort = port →
    ∀ a, s.Endpoint a → StoredIdle net port a → ∃ b, s.Endpoint b ∧ Ousts net name addr port b
  pending : ∀ tx ∈ net.pendingTransportTx, tx.port = port → StoredIdle net port tx.source →
    ∃ b, tx.Endpoint b ∧ Ousts net name addr port b

end IsoNet

/-! ## Who is displaced -/

/-- An online control function keeps its address through a claim that it
does not lose to. -/
theorem Effect.keeps_iff {n : LocalCf} {claimed : Address} {other : Name} {s : Situation}
    {out : List Frame} (h : Effect n (.claim claimed other) s out) (hon : n.cf.state = .online)
    (hle : claimed ≤ maxAddress) :
    s.state = .online ∧ s.address = n.cf.address ↔ ¬n.Loses claimed other := by
  cases h with
  | quiet _ hclaim => exact absurd rfl (hclaim claimed other)
  | ignored hmax => exact absurd hle (UInt8.not_le.mpr hmax)
  | noted _ hnot => exact iff_of_true ⟨hon, rfl⟩ fun hlose => hnot hlose.contested
  | defended _ hwin => exact iff_of_true ⟨hon, rfl⟩ fun hlose => Nat.lt_asymm hlose.stronger hwin
  | unseated hcon hnot | queued hcon hnot | relocated hcon hnot =>
    refine iff_of_false nofun (not_not_intro ⟨hcon, lt_of_le_of_ne (Nat.not_lt.mp hnot) ?_⟩)
    intro heq
    refine hcon.rival ?_
    rw [Name.mk.injEq]
    exact heq

namespace IsoNet

open Tables

variable {L : Type} [CanEndpoint L] {net : IsoNet L} {frame : Frame} {port : UInt8}
  {a addr : Address} {name : Name}

omit [CanEndpoint L] in
/-- The same for the two halves of the claim handler. -/
theorem afterClaim_keeps_iff {n : LocalCf} (hport : n.cf.canPort = port)
    (hon : n.cf.isOnline = true) (hle : addr ≤ maxAddress) :
    (afterClaim name addr port n).cf.isOnline = true ∧
        (afterClaim name addr port n).cf.address = n.cf.address ↔
      ¬(isDuplicated name addr port n = true ∨ n.Loses addr name) := by
  cases hdup : isDuplicated name addr port n with
  | true =>
    rw [offline_afterClaim (.inl hdup)]
    exact iff_of_false (fun h => Bool.false_ne_true h.1) (not_not_intro (.inl rfl))
  | false =>
    rw [(afterClaim_of_not_isDuplicated hdup hport).2, LocalCf.isOnline_iff]
    refine ((n.call_effect (.claim addr name)).keeps_iff (LocalCf.isOnline_iff.mp hon) hle).trans ?_
    simp only [Bool.false_eq_true, false_or]

/-! ## The tables after the claim -/

/-- Apart from the claim, a claim frame is counted and dispatched. -/
theorem tables_feed_claim (hpgn : frame.pgn = pgnAddressClaimed) : (net.feed frame port).tables =
      (handleAddressClaim { net with
        stats := { net.stats with framesReceived := net.stats.framesReceived + 1 } }
        frame port).tables := by
  unfold feed processFrame
  rw [if_pos hpgn, tables_dispatchMessage]

variable (net port) in
theorem tables_feed_of_heeded (hpgn : frame.pgn = pgnAddressClaimed)
    (hname : Name.fromBytes frame.payload = some name) (hsrc : frame.source ≤ maxAddress) :
    (net.feed frame port).tables = Tables.discontinueAll
        { net.tables with locals := net.locals.map (afterClaim name frame.source port) } port
        (givenUp net.locals name frame.source port) := by
  rw [tables_feed_claim hpgn, tables_handleAddressClaim_of_heeded hname hsrc]
  exact tables_handleClaimed _ hsrc

/-- **The displaced addresses** are those that the claim ousts. -/
theorem displaced_iff_ousts (hpgn : frame.pgn = pgnAddressClaimed)
    (hname : Name.fromBytes frame.payload = some name) (hsrc : frame.source ≤ maxAddress) :
    Displaced net frame port a ↔ Ousts net name frame.source port a := by
  have hlocals : (net.feed frame port).locals =
      net.locals.map (afterClaim name frame.source port) := by
    refine (congrArg Tables.locals (net.tables_feed_of_heeded port hpgn hname hsrc)).trans ?_
    rw [locals_discontinueAll]
  have hzip : net.locals.zip (net.locals.map (afterClaim name frame.source port)) =
      net.locals.map fun n => (n, afterClaim name frame.source port n) := by
    simpa using zip_map' (f := id) (g := afterClaim name frame.source port) (l := net.locals)
  unfold Displaced
  rw [hlocals, hzip]
  constructor
  · rintro ⟨e, he, hport, hon, haddr, hnot⟩
    obtain ⟨n, hn, rfl⟩ := mem_map.mp he
    refine ⟨n, hn, hport, hon, haddr, not_not.mp fun hkeep => hnot ?_⟩
    rw [← haddr]
    exact (afterClaim_keeps_iff hport hon hsrc).mpr hkeep
  · rintro ⟨n, hn, hport, hon, rfl, hout⟩
    refine ⟨_, mem_map_of_mem hn, hport, hon, rfl, fun hkeep => ?_⟩
    exact (afterClaim_keeps_iff hport hon hsrc).mp hkeep hout

omit [CanEndpoint L] in
/-- **What is given up** is what is ousted and what is stored idle. -/
theorem mem_givenUp_iff_ousts (hle : addr ≤ maxAddress) (ha : Real a) :
    a ∈ givenUp net.locals name addr port ↔ Ousts net name addr port a ∨ StoredIdle net port a := by
  rw [mem_givenUp_iff ha]
  constructor
  · rintro ⟨n, hn, hport, rfl, hnot⟩
    cases hon : n.cf.isOnline with
    | true =>
      refine .inl ⟨n, hn, hport, hon, rfl, not_not.mp fun hkeep => hnot ?_⟩
      exact (afterClaim_keeps_iff hport hon hle).mpr hkeep
    | false => exact .inr ⟨ha, n, hn, hport, hon, rfl⟩
  · rintro (⟨n, hn, hport, hon, rfl, hout⟩ | ⟨-, n, hn, hport, hoff, rfl⟩)
    · exact ⟨n, hn, hport, rfl, fun hkeep => (afterClaim_keeps_iff hport hon hle).mp hkeep hout⟩
    · refine ⟨n, hn, hport, rfl, fun h => ?_⟩
      rw [offline_afterClaim (.inr hoff)] at h
      exact Bool.false_ne_true h.1

variable (net name) in
omit [CanEndpoint L] in
/-- A session is dropped for an end that is ousted, or stored idle. -/
theorem cut_givenUp_iff (hle : addr ≤ maxAddress) (s : TransportSession) :
    Cut port (givenUp net.locals name addr port) s ↔ s.canPort = port ∧
        ∃ a, s.Endpoint a ∧ Real a ∧ (Ousts net name addr port a ∨ StoredIdle net port a) := by
  refine and_congr_right fun _ => exists_congr fun a => ?_
  constructor
  · rintro ⟨hmem, ha, hend⟩
    exact ⟨hend, ha, (mem_givenUp_iff_ousts hle ha).mp hmem⟩
  · rintro ⟨hend, ha, hor⟩
    exact ⟨(mem_givenUp_iff_ousts hle ha).mpr hor, ha, hend⟩

variable (net name) in
omit [CanEndpoint L] in
/-- A waiting transmission is dropped for its source. -/
theorem cutPending_givenUp_iff (hle : addr ≤ maxAddress) (tx : PendingTransportTx) :
    CutPending port (givenUp net.locals name addr port) tx ↔ tx.port = port ∧ Real tx.source ∧
        (Ousts net name addr port tx.source ∨ StoredIdle net port tx.source) := by
  refine and_congr_right ?_
  intro _
  constructor
  · rintro ⟨a, hmem, ha, rfl⟩
    exact ⟨ha, (mem_givenUp_iff_ousts hle ha).mp hmem⟩
  · rintro ⟨ha, hor⟩
    exact ⟨_, (mem_givenUp_iff_ousts hle ha).mpr hor, ha, rfl⟩

/-! ## The contract -/

open Classical in
/-- What a filter has removed is what it was to remove. -/
theorem removed_iff {α : Type} {P : α → Prop} {l l' : List α} (hl : l' = l.filter fun x => ¬P x)
    {x : α} (hx : x ∈ l) : x ∉ l' ↔ P x := by
  simp [hl, hx]

open Classical in
theorem unchanged_of_none {α : Type} {P : α → Prop} {l l' : List α}
    (hl : l' = l.filter fun x => ¬P x) (h : ∀ x ∈ l, ¬P x) : l' = l := by
  rw [hl, filter_eq_self]
  intro x hx
  exact decide_eq_true (h x hx)

theorem confined_of_not_heeded (hpgn : frame.pgn = pgnAddressClaimed) (h : ¬Heeded frame) :
    Confined net frame port := by
  have htables : (net.feed frame port).tables = net.tables :=
    (tables_feed_claim hpgn).trans (tables_handleAddressClaim_of_not_heeded h)
  have htp : (net.feed frame port).tp.sessions = net.tp.sessions := congrArg Tables.tp htables
  have hetp : (net.feed frame port).etp.sessions = net.etp.sessions := congrArg Tables.etp htables
  have hpending : (net.feed frame port).pendingTransportTx = net.pendingTransportTx :=
    congrArg Tables.pending htables
  exact
    { tp := fun s hs hnot => absurd (htp ▸ hs) hnot
      etp := fun s hs hnot => absurd (hetp ▸ hs) hnot
      pending := fun tx htx hnot => absurd (hpending ▸ htx) hnot
      untouched := fun _ => ⟨htp, hetp, hpending⟩ }

omit [CanEndpoint L] in
/-- A spared session is only dropped for an ousted end. -/
theorem Spared.session (h : Spared net name addr port) (hle : addr ≤ maxAddress)
    (s : TransportSession) (hs : s ∈ net.tp.sessions ++ net.etp.sessions)
    (hcut : Cut port (givenUp net.locals name addr port) s) :
    ∃ a, s.Endpoint a ∧ Ousts net name addr port a := by
  obtain ⟨hport, a, hend, -, hout | hidle⟩ := (net.cut_givenUp_iff name hle s).mp hcut
  · exact ⟨a, hend, hout⟩
  · exact h.sessions s hs hport a hend hidle

omit [CanEndpoint L] in
theorem Spared.waiting (h : Spared net name addr port) (hle : addr ≤ maxAddress)
    (tx : PendingTransportTx) (htx : tx ∈ net.pendingTransportTx)
    (hcut : CutPending port (givenUp net.locals name addr port) tx) :
    ∃ a, tx.Endpoint a ∧ Ousts net name addr port a := by
  obtain ⟨hport, -, hout | hidle⟩ := (net.cutPending_givenUp_iff name hle tx).mp hcut
  · exact ⟨_, .inl rfl, hout⟩
  · exact h.pending tx htx hport hidle

theorem confined_iff_spared (hpgn : frame.pgn = pgnAddressClaimed)
    (hname : Name.fromBytes frame.payload = some name) (hsrc : frame.source ≤ maxAddress) :
    Confined net frame port ↔ Spared net name frame.source port := by
  have hdisp : ∀ a, Displaced net frame port a ↔ Ousts net name frame.source port a :=
    fun _ => displaced_iff_ousts hpgn hname hsrc
  have htables := (net.tables_feed_of_heeded port hpgn hname hsrc).trans discontinueAll_eq
  have htp := congrArg Tables.tp htables
  have hetp := congrArg Tables.etp htables
  have hpending := congrArg Tables.pending htables
  constructor
  · intro hc
    constructor
    · intro s hs hport a hend hidle
      have hcut := (net.cut_givenUp_iff name hsrc s).mpr ⟨hport, a, hend, hidle.1, .inr hidle⟩
      simp only [← hdisp]
      rcases mem_append.mp hs with hs | hs
      · exact hc.tp s hs ((removed_iff htp hs).mpr hcut)
      · exact hc.etp s hs ((removed_iff hetp hs).mpr hcut)
    · intro tx htx hport hidle
      have hcut := (net.cutPending_givenUp_iff name hsrc tx).mpr ⟨hport, hidle.1, .inr hidle⟩
      simp only [← hdisp]
      exact hc.pending tx htx ((removed_iff hpending htx).mpr hcut)
  · intro h
    have hsession := h.session hsrc
    have hwaiting := h.waiting hsrc
    simp only [← hdisp] at hsession hwaiting
    refine ⟨fun s hs hnot => ?_, fun s hs hnot => ?_, fun tx htx hnot => ?_, fun hnone => ?_⟩
    · exact hsession s (mem_append_left _ hs) ((removed_iff htp hs).mp hnot)
    · exact hsession s (mem_append_right _ hs) ((removed_iff hetp hs).mp hnot)
    · exact hwaiting tx htx ((removed_iff hpending htx).mp hnot)
    · -- whatever was dropped would have a displaced end
      have hno : ∀ {P : Address → Prop}, ¬∃ a, P a ∧ Displaced net frame port a :=
        fun ⟨a, _, hd⟩ => hnone a hd
      refine ⟨unchanged_of_none htp fun s hs hcut => ?_, unchanged_of_none hetp fun s hs hcut => ?_,
        unchanged_of_none hpending fun tx htx hcut => ?_⟩
      · exact hno (hsession s (mem_append_left _ hs) hcut)
      · exact hno (hsession s (mem_append_right _ hs) hcut)
      · exact hno (hwaiting tx htx hcut)

/-- **A claim ends only what it displaces**, exactly if it is not heeded
or every transport of its port with an end that an idle control function
of the port stores also has one that the claim ousts. -/
theorem claim_confined_iff (net : IsoNet L) (frame : Frame) (port : UInt8)
    (hpgn : frame.pgn = pgnAddressClaimed) :
    Confined net frame port ↔
      ∀ name, Name.fromBytes frame.payload = some name → frame.source ≤ maxAddress →
        Spared net name frame.source port := by
  constructor
  · intro hc name hname hsrc
    exact (confined_iff_spared hpgn hname hsrc).mp hc
  · intro hs
    by_cases h : Heeded frame
    · obtain ⟨name, hname⟩ := Option.isSome_iff_exists.mp h.1
      exact (confined_iff_spared hpgn hname h.2).mpr (hs name hname h.2)
    · exact confined_of_not_heeded hpgn h

/-- Another control function's claim of the sender's address. -/
def rivalClaim : Frame := Claim.makeClaimFrame (Name.fromRaw 0) 0x20

/-- The sender loses its address, and its session ends. -/
theorem claim_confined_iff_rival :
    (run step (new {}) claimAndSend).tp.sessions.length = 1 ∧
      ((run step (new {}) claimAndSend).feed rivalClaim 0).tp.sessions = [] ∧
      Confined (run step (new {}) claimAndSend) rivalClaim 0 := by
  refine ⟨by decide +kernel, by decide +kernel, (claim_confined_iff _ _ _ rfl).mpr fun _ _ _ => ?_⟩
  have honline : ∀ n ∈ (run step (new {}) claimAndSend).locals, n.cf.isOnline = true := by
    decide +kernel
  have hidle : ∀ a, ¬StoredIdle (run step (new {}) claimAndSend) 0 a := by
    rintro a ⟨-, n, hn, -, hoff, -⟩
    rw [honline n hn] at hoff
    exact Bool.noConfusion hoff
  exact ⟨fun _ _ _ a _ h => absurd h (hidle a), fun _ _ _ h => absurd h (hidle _)⟩

/-- A second control function is set up for the address of the session's
remote end, and not started. -/
def besideIdle : IsoNet Unit :=
  run step (new {}) (claimAndSend ++ [.createInternal (Name.fromRaw 2) 0 0x30])

/-- A claim of an address that concerns nobody here. -/
def strangerClaim : Frame := Claim.makeClaimFrame (Name.fromRaw 3) 0x55

/-- **The stranger's claim ends the session.** Nobody has been displaced:
the sender is online where it was. -/
theorem stranger_ends_session :
    besideIdle.tp.sessions.length = 1 ∧ (besideIdle.feed strangerClaim 0).tp.sessions = [] ∧
      (∀ a, ¬Displaced besideIdle strangerClaim 0 a) ∧ ¬Confined besideIdle strangerClaim 0 := by
  have hbefore : besideIdle.tp.sessions.length = 1 := by decide +kernel
  have hafter : (besideIdle.feed strangerClaim 0).tp.sessions = [] := by decide +kernel
  have hkept : ∀ e ∈ besideIdle.locals.zip (besideIdle.feed strangerClaim 0).locals,
      e.1.cf.isOnline = true →
        e.2.cf.isOnline = true ∧ e.2.cf.address = e.1.cf.address := by decide +kernel
  have hnone : ∀ a, ¬Displaced besideIdle strangerClaim 0 a := by
    rintro a ⟨e, he, -, hon, rfl, hnot⟩
    exact hnot (hkept e he hon)
  refine ⟨hbefore, hafter, hnone, fun hc => ?_⟩
  rw [← (hc.untouched hnone).1] at hbefore
  exact absurd hbefore (by decide)

end IsoNet

end Machbus
