import Machbus.Network.Helpers.Moves
/-!
# The order of transmissions

A multi-frame message is started at once, or waits in a queue shared by
all paths until an update finds its path free. The round over the queue
keeps the order of each path: what cannot start blocks those behind it,
and what goes back to the end of the queue goes back in order. A message
to send does not look at the queue, so it overtakes the ones that wait for
its path if the path has become free since the last round.
-/

namespace Machbus

open List

namespace IsoNet

variable {L : Type} {net : IsoNet L} [CanEndpoint L] {txs : List PendingTransportTx}
  {message : Option Transmission} {tx : PendingTransportTx} {k : Line}

/-! ## The round -/

/-- The transmissions that a round over the queue starts, in order. -/
def roundStarts : ℕ → IsoNet L → List PendingTransportTx
  | 0, _ => []
  | attempts + 1, net =>
    match net.pendingTransportTx with
    | [] => []
    | tx :: rest =>
      match tryStartPendingTransportTx { net with pendingTransportTx := rest } tx with
      | (net, .ok ()) => tx :: roundStarts attempts net
      | (net, .error e) =>
        if e.code = .sessionExists ∨ e.code = .noResources then
          roundStarts attempts
            { net with pendingTransportTx := net.pendingTransportTx ++ [tx] }
        else roundStarts attempts net

/-- The messages on a line. -/
def onLine (k : Line) (txs : List PendingTransportTx) : List Transmission :=
  (txs.map (·.transmission)).filter (·.line = k)

section

omit [CanEndpoint L]

theorem onLine_append (k : Line) (txs txs' : List PendingTransportTx) :
    onLine k (txs ++ txs') = onLine k txs ++ onLine k txs' := by
  simp only [onLine, map_append, filter_append]

theorem onLine_sublist (k : Line) {txs txs' : List PendingTransportTx} (h : txs.Sublist txs') :
    (onLine k txs).Sublist (onLine k txs') := (h.map _).filter _

theorem onLine_eq_nil (h : ∀ tx ∈ txs, tx.transmission.line ≠ k) : onLine k txs = [] := by
  refine filter_eq_nil_iff.mpr ?_
  intro m hm
  obtain ⟨tx, htx, rfl⟩ := mem_map.mp hm
  simpa using h tx htx

theorem onLine_cons_of_pos
    (h : tx.transmission.line = k) : onLine k (tx :: txs) = tx.transmission :: onLine k txs :=
  filter_cons_of_pos (by simpa using h)

theorem onLine_cons_of_neg (h : tx.transmission.line ≠ k) : onLine k (tx :: txs) = onLine k txs :=
  filter_cons_of_neg (by simpa using h)

end

/-- **The round keeps the order of a line.** With `todo` still to try and
`back` at the end of the queue again, nothing on the line starts once
something on it has gone back. -/
theorem round_sublist (k : Line) (todo back : List PendingTransportTx) (net : IsoNet L)
    (hpend : net.pendingTransportTx = todo ++ back)
    (hback : ∀ tx ∈ back, tx.transmission.line = k → net.Blocked tx) :
    (onLine k (roundStarts todo.length net) ++
        onLine k (startReady todo.length net).pendingTransportTx).Sublist
      (onLine k back ++ onLine k todo) := by
  induction todo generalizing net back with
  | nil =>
    show (onLine k [] ++ onLine k net.pendingTransportTx).Sublist _
    rw [hpend]
    exact (append_nil _).symm ▸ .refl _
  | cons tx todo ih =>
    have htried := tryStart_tried { net with pendingTransportTx := todo ++ back } tx
    simp only [length_cons, roundStarts, startReady, hpend, cons_append]
    generalize tryStartPendingTransportTx { net with pendingTransportTx := todo ++ back } tx = r
      at htried ⊢
    have hkeep : ∀ x, net.Blocked x → r.1.Blocked x := fun x hx => htried.keeps.blocked hx
    rcases r with ⟨net₁, e | u⟩
    · dsimp only
      split
      · -- it goes back, and what is behind it on the line is blocked as well
        rename_i hdefers
        have hrest := ih (back ++ [tx])
          { net₁ with pendingTransportTx := net₁.pendingTransportTx ++ [tx] } ?_ ?_
        · have hline : onLine k (tx :: todo) = onLine k [tx] ++ onLine k todo :=
            onLine_append k [tx] todo
          rw [onLine_append, append_assoc, ← hline] at hrest
          exact hrest
        · rw [htried.keeps.pending, append_assoc]
        · intro x hx hxk
          refine hkeep x ?_
          rcases mem_append.mp hx with hx | hx
          · exact hback x hx hxk
          · rw [mem_singleton.mp hx]
            exact htried.deferred e rfl hdefers
      · -- it is dropped
        have hrest := ih back net₁ htried.keeps.pending fun x hx hxk => hkeep x (hback x hx hxk)
        refine hrest.trans (.append_left ?_ _)
        exact onLine_sublist k (sublist_cons_self tx todo)
    · have hrest := ih back net₁ htried.keeps.pending fun x hx hxk => hkeep x (hback x hx hxk)
      by_cases hk : tx.transmission.line = k
      · -- it starts, so nothing before it on the line has gone back
        have hnil : onLine k back = [] := by
          refine onLine_eq_nil fun x hx hxk => ?_
          exact htried.started () rfl ((blocked_congr (hxk.trans hk.symm)).mp (hback x hx hxk))
        rw [hnil] at hrest ⊢
        rw [onLine_cons_of_pos hk, onLine_cons_of_pos hk]
        exact hrest.cons_cons _
      · rw [onLine_cons_of_neg hk, onLine_cons_of_neg hk]
        exact hrest

/-! ## Calls -/

section

variable (net : IsoNet L)

/-- What the size and the PGN of a message call for; `none` is a single
frame. -/
def carrierFor (pgn : ℕ) (data : List UInt8) : Option Carrier :=
  if data.length ≤ canDataLength then none
  else if net.isFastPacketPgn pgn = true ∧ data.length ≤ fastPacketMaxData then some .fastPacket
  else if data.length ≤ tpMaxDataLength then some .tp
  else some .etp

/-- The multi-frame message that a call of `send` is about. -/
def messageOf (pgn : ℕ) (data : List UInt8) (src : ℕ) (dst : Address)
    (priority : Priority) : Option Transmission :=
  match net.locals[src]?, net.carrierFor pgn data with
  | some n, some c => some ⟨c, pgn, data, n.cf.address, dst, n.cf.canPort, priority⟩
  | _, _ => none

/-- The multi-frame message that a call accepts. -/
def accepts : Op L → List Transmission
  | .send pgn data src dst priority =>
    if (net.send pgn data src dst priority).2.isOk = true then
      (net.messageOf pgn data src dst priority).toList
    else []
  | _ => []

/-- The multi-frame messages that a call starts on the bus, in order: the
one it accepts and does not queue, or those of the round. -/
def starts : Op L → List Transmission
  | .send pgn data src dst priority =>
    if (net.send pgn data src dst priority).1.pendingTransportTx = net.pendingTransportTx then
      net.accepts (.send pgn data src dst priority)
    else []
  | .update elapsedMs =>
    let net := net.beforeRound elapsedMs
    (roundStarts net.pendingTransportTx.length net).map (·.transmission)
  | _ => []

/-- **The condition.** What waits for the path of the message to send
waits behind a session that has it. -/
def InTurn : Op L → Prop
  | .send pgn data src dst _ =>
    ∀ n ∈ net.locals[src]?, ∀ tx ∈ net.pendingTransportTx,
      net.carrierFor pgn data = some tx.kind.carrier ∧ tx.source = n.cf.address ∧
        tx.destination = dst ∧ tx.port = n.cf.canPort → net.Taken tx
  | _ => True

end

instance (net : IsoNet L) (op : Op L) : Decidable (net.InTurn op) := by
  unfold InTurn
  split <;> infer_instance

/-- What becomes of a message for a path. -/
inductive Outcome (net : IsoNet L) (message : Option Transmission) (free : Prop) :
    IsoNet L × Except Error Unit → Prop
  | refused {after e} : after.pendingTransportTx = net.pendingTransportTx →
      Outcome net message free (after, .error e)
  | sent {after} : after.pendingTransportTx = net.pendingTransportTx → free →
      Outcome net message free (after, .ok ())
  | queued {after tx} : message = some tx.transmission →
      after.pendingTransportTx = net.pendingTransportTx ++ [tx] →
      Outcome net message free (after, .ok ())

omit [CanEndpoint L] in
theorem Outcome.unqueued {free : Prop} {r : IsoNet L × Except Error Unit}
    (hpend : r.1.pendingTransportTx = net.pendingTransportTx) (hfree : free) :
    Outcome net message free r := by
  rcases r with ⟨after, e | u⟩
  · exact .refused hpend
  · exact .sent hpend hfree

variable (net : IsoNet L)

/-- A message starts, waits at the end of the queue, or is refused. -/
theorem sendTransport_outcome {free : Prop}
    (tx : PendingTransportTx) (hm : message = some tx.transmission)
    (hfree : ¬net.Blocked tx → free) : Outcome net message free (net.sendTransport tx) := by
  rcases net.sendTransport_eq tx with heq | heq
  · have htried := net.tryStart_tried tx
    rw [heq]
    generalize net.tryStartPendingTransportTx tx = r at htried ⊢
    rcases r with ⟨after, e | u⟩
    · exact .refused htried.keeps.pending
    · exact .sent htried.keeps.pending (hfree (htried.started u rfl))
  · have hpending := (net.engage_spec tx).1.pending
    rw [heq, queueTransportTx]
    split
    · exact .queued hm (congrArg (· ++ [tx]) hpending)
    · exact .refused hpending

/-- Nothing transmits on the path of the message. -/
def PathFree (pgn : ℕ) (data : List UInt8) (src : ℕ) (dst : Address) : Prop :=
  ∀ n ∈ net.locals[src]?, ∀ tx : PendingTransportTx,
    net.carrierFor pgn data = some tx.kind.carrier ∧ tx.source = n.cf.address ∧
      tx.destination = dst ∧ tx.port = n.cf.canPort → ¬net.Taken tx

/-- **What `send` does.** -/
theorem send_outcome (pgn : ℕ) (data : List UInt8) (src : ℕ) (dst : Address) (priority : Priority) :
    Outcome net (net.messageOf pgn data src dst priority) (net.PathFree pgn data src dst)
      (net.send pgn data src dst priority) := by
  unfold send
  split
  · exact .refused rfl
  split
  · exact .refused rfl
  rename_i n hn
  split
  · exact .refused rfl
  split
  · exact .refused rfl
  -- a transmission handed to an engine stands for the message
  have htransport : ∀ kind : PendingTransportKind, net.carrierFor pgn data = some kind.carrier →
      Outcome net (net.messageOf pgn data src dst priority) (net.PathFree pgn data src dst)
        (net.sendTransport ⟨kind, pgn, data, n.cf.address, dst, n.cf.canPort, priority⟩) := by
    intro kind hkind
    refine net.sendTransport_outcome _ ?_ ?_
    · simp only [messageOf, hn, hkind]
      rfl
    · rintro hfree m hm tx ⟨htx, hsrc, hdst, hport⟩ htaken
      obtain rfl := Option.some.inj (hn.symm.trans hm)
      refine hfree ((blocked_congr ?_).mp (.inl htaken))
      rw [hkind] at htx
      simp only [Transmission.line, Line.mk.injEq]
      exact ⟨(Option.some.inj htx).symm, hsrc, hdst, hport⟩
  have hno : ∀ c, net.carrierFor pgn data = c → (∀ k : PendingTransportKind, c ≠ some k.carrier) →
      net.PathFree pgn data src dst := by
    rintro c hc hne m - tx ⟨htx, -⟩
    exact absurd (hc.symm.trans htx) (hne tx.kind)
  split
  next hsmall =>
    have hfree := hno none (if_pos hsmall) (by rintro _ ⟨⟩)
    exact .unqueued (congrArg Tables.pending (net.tables_sendFrame _ _)) hfree
  rename_i hsmall
  split
  next hfast =>
    have hfree := hno (some .fastPacket) (by rw [carrierFor, if_neg hsmall, if_pos hfast])
      (by intro k; cases k <;> decide)
    split
    · exact .unqueued (sendFrames_extends _ _ _).pending hfree
    · exact .refused rfl
  rename_i hfast
  split
  next htp =>
    exact htransport .tp (by rw [carrierFor, if_neg hsmall, if_neg hfast, if_pos htp]; rfl)
  rename_i htp
  split
  · exact .refused rfl
  · exact htransport .etp (by rw [carrierFor, if_neg hsmall, if_neg hfast, if_neg htp]; rfl)

end IsoNet

/-! ## Runs -/

namespace Tables

variable {t t' : Tables}

theorem pending_foldl_discontinue (es : List (UInt8 × Address)) :
    (es.foldl (fun t e => t.discontinue e.1 e.2) t).pending.Sublist t.pending := by
  induction es generalizing t with
  | nil => exact .refl _
  | cons e es ih =>
    refine ih.trans ?_
    show (t.discontinue e.1 e.2).pending.Sublist t.pending
    unfold discontinue
    split
    · exact .refl _
    · exact filter_sublist

/-- **What frames do** may drop what waits, and leaves the rest in
order. -/
theorem Moves.pending_sublist (h : Moves t t') : t'.pending.Sublist t.pending := by
  induction h with
  | refl => exact .refl _
  | trans _ _ ih₁ ih₂ => exact ih₂.trans ih₁
  | tp | etp | request => exact .refl _
  | claim | command =>
    rw [discontinueAll_eq_foldl]
    exact pending_foldl_discontinue _

end Tables

namespace IsoNet

open Tables

variable {L : Type} [CanEndpoint L] {net : IsoNet L} {priority : Priority} {data : List UInt8}
  {dst : Address} {pgn src : ℕ}

variable (k : Line)

/-- The messages on a line. -/
def ofLine (ms : List Transmission) : List Transmission := ms.filter (·.line = k)

omit [CanEndpoint L] in
theorem messageOf_eq_some {m : Transmission}
    (h : net.messageOf pgn data src dst priority = some m) :
    ∃ n ∈ net.locals[src]?, net.carrierFor pgn data = some m.carrier ∧
      m = ⟨m.carrier, pgn, data, n.cf.address, dst, n.cf.canPort, priority⟩ := by
  unfold messageOf at h
  split at h
  next n c hn hc =>
    obtain rfl := Option.some.inj h
    exact ⟨n, hn, hc, rfl⟩
  · cases h

omit [CanEndpoint L] in
/-- Nothing waits on the line of a message in its turn that finds its path
free. -/
theorem onLine_eq_nil_of_inTurn {m : Transmission}
    (hturn : net.InTurn (.send pgn data src dst priority)) (hfree : net.PathFree pgn data src dst)
    (hm : net.messageOf pgn data src dst priority = some m) :
    onLine m.line net.pendingTransportTx = [] := by
  obtain ⟨n, hn, hc, hmeq⟩ := messageOf_eq_some hm
  refine onLine_eq_nil fun tx htx hline => ?_
  rw [hmeq] at hline
  simp only [PendingTransportTx.transmission, Transmission.line, Line.mk.injEq] at hline
  obtain ⟨hkind, hsrc, hdst, hport⟩ := hline
  have hat : net.carrierFor pgn data = some tx.kind.carrier ∧ tx.source = n.cf.address ∧
      tx.destination = dst ∧ tx.port = n.cf.canPort := ⟨by rw [hc, hkind], hsrc, hdst, hport⟩
  exact hfree n hn tx hat (hturn n hn tx htx hat)

/-- **A message to send**: in its turn it starts with nothing before it on
its line. -/
theorem send_sublist (hturn : net.InTurn (.send pgn data src dst priority)) :
    (ofLine k (net.starts (.send pgn data src dst priority)) ++
        onLine k (net.send pgn data src dst priority).1.pendingTransportTx).Sublist
      (onLine k net.pendingTransportTx ++
        ofLine k (net.accepts (.send pgn data src dst priority))) := by
  have hout := net.send_outcome pgn data src dst priority
  have hok : (.ok () : Except Error Unit).isOk = true := rfl
  simp only [starts, accepts]
  generalize net.send pgn data src dst priority = r at hout ⊢
  cases hout with
  | refused hpend =>
    rw [if_pos hpend, hpend]
    exact (append_nil _).symm ▸ .refl _
  | sent hpend hfree =>
    rw [if_pos hpend, hpend, if_pos hok]
    rcases hm : net.messageOf pgn data src dst priority with _ | m
    · exact (append_nil _).symm ▸ .refl _
    · by_cases hk : m.line = k
      · rw [← hk, onLine_eq_nil_of_inTurn hturn hfree hm, append_nil, nil_append]
      · have hnil : ofLine k (some m).toList = [] := by simp [ofLine, hk]
        rw [hnil, append_nil, nil_append]
  | queued hm hpend =>
    rw [if_neg (by rw [hpend]; simp), hpend, hm, onLine_append]
    exact .refl _

theorem pending_driveClaimers (net : IsoNet L) (elapsedMs : ℕ) :
    (net.driveClaimers elapsedMs).pendingTransportTx.Sublist net.pendingTransportTx := by
  have hpend : (net.driveClaimers elapsedMs).pendingTransportTx = _ :=
    congrArg Tables.pending (net.tables_driveClaimers elapsedMs)
  rw [hpend]
  exact pending_foldl_discontinue _

/-- **One call** starts what waits before what it accepts, line by
line. -/
theorem step_sublist (op : Op L) (hturn : net.InTurn op) :
    (ofLine k (net.starts op) ++ onLine k (net.step op).pendingTransportTx).Sublist
      (onLine k net.pendingTransportTx ++ ofLine k (net.accepts op)) := by
  -- most calls start and accept nothing, and may at most drop what waits
  have hquiet : ∀ {txs : List PendingTransportTx}, txs.Sublist net.pendingTransportTx →
      (ofLine k [] ++ onLine k txs).Sublist (onLine k net.pendingTransportTx ++ ofLine k []) :=
    fun h => (append_nil _).symm ▸ onLine_sublist k h
  cases op with
  | createInternal | registerFastPacketPgn =>
    refine hquiet ?_
    simp only [step, createInternal, registerFastPacketPgn]
    split <;> exact .refl _
  | createPartner | setEndpoint | setCaptureOutbound => exact hquiet (.refl _)
  | startAddressClaiming =>
    refine hquiet ?_
    simp only [step, startAddressClaiming]
    split
    · exact .refl _
    have hsame : ((net.callAll .start).1.sendEmitted
        (net.callAll .start).2).pendingTransportTx = net.pendingTransportTx :=
      congrArg Tables.pending (tables_sendEmitted _ _)
    rw [hsame]
  | send pgn data src dst priority => exact send_sublist k hturn
  | feed frame port => exact hquiet (net.moves_processFrame frame port).pending_sublist
  | update elapsedMs =>
    have hmoves := (net.moves_beforeRound elapsedMs).pending_sublist
    show (ofLine k ((roundStarts (net.beforeRound elapsedMs).pendingTransportTx.length
        (net.beforeRound elapsedMs)).map (·.transmission)) ++
      onLine k ((net.beforeRound elapsedMs).startReadyPendingTransport.driveClaimers
        elapsedMs).pendingTransportTx).Sublist _
    generalize net.beforeRound elapsedMs = mid at hmoves ⊢
    have hround := round_sublist k mid.pendingTransportTx [] mid (append_nil _).symm nofun
    have hdrive := onLine_sublist k (pending_driveClaimers mid.startReadyPendingTransport elapsedMs)
    have hall := (hdrive.append_left _).trans (hround.trans (onLine_sublist k hmoves))
    exact (append_nil _).symm ▸ hall

/-- The multi-frame messages accepted in a run. -/
def accepted (net : IsoNet L) (ops : List (Op L)) : List Transmission :=
  emissions step accepts net ops

/-- The multi-frame messages started in a run. -/
def started (net : IsoNet L) (ops : List (Op L)) : List Transmission :=
  emissions step starts net ops

omit [CanEndpoint L] in
theorem ofLine_append (ms ms' : List Transmission) :
    ofLine k (ms ++ ms') = ofLine k ms ++ ofLine k ms' := filter_append _ _

/-- **A whole run**, with what has been started and accepted before it. -/
theorem run_sublist {ops : List (Op L)} (h : Along step InTurn net ops)
    {before acc : List Transmission}
    (hnow : (before ++ onLine k net.pendingTransportTx).Sublist acc) :
    (before ++ ofLine k (started net ops) ++ onLine k (run step net ops).pendingTransportTx).Sublist
      (acc ++ ofLine k (accepted net ops)) := by
  induction ops generalizing net before acc with
  | nil =>
    show (before ++ [] ++ onLine k net.pendingTransportTx).Sublist (acc ++ [])
    rw [append_nil, append_nil]
    exact hnow
  | cons op ops ih =>
    obtain ⟨hturn, hrest⟩ := h
    have hstep := step_sublist k op hturn
    -- what waits now stands between what was started and what is accepted
    have hnext : (before ++ ofLine k (net.starts op) ++
        onLine k (net.step op).pendingTransportTx).Sublist
        (acc ++ ofLine k (net.accepts op)) := by
      rw [append_assoc]
      refine (hstep.append_left before).trans ?_
      rw [← append_assoc]
      exact hnow.append_right _
    have htail := ih hrest hnext
    have hs : started net (op :: ops) = net.starts op ++ started (net.step op) ops := rfl
    have ha : accepted net (op :: ops) = net.accepts op ++ accepted (net.step op) ops := rfl
    rw [hs, ha, ofLine_append, ofLine_append, ← append_assoc, ← append_assoc]
    exact htail

/-- **Messages start in order.** In every run whose messages are sent in
their turn, those that were started on a line, followed by those that wait
for it, are a subsequence of those that were accepted for it. -/
theorem sends_start_in_order (config : NetworkConfig) (ops : List (Op L))
    (h : Along step InTurn (new config) ops) (k : Line) :
    (ofLine k (started (new config) ops) ++
        onLine k (run step (new config) ops).pendingTransportTx).Sublist
      (ofLine k (accepted (new config) ops)) := by
  have hnow : ([] ++ onLine k (new config : IsoNet L).pendingTransportTx).Sublist [] := .refl _
  exact run_sublist k h hnow

/-- Nine bytes for `0x30`, told apart by the first one. -/
def nineBytes (tag : UInt8) : Op Unit := .send 0xEF00 [tag, 0, 0, 0, 0, 0, 0, 0, 0] 0 0x30 .default

/-- The receiver ends the transfer. -/
def endTransfer : Op Unit := .feed (Tp.makeAbort 0x30 0x20 0xEF00 .timeout) 0

/-- The control function at `0x20` has claimed its address. -/
def claimedSender : List (Op Unit) :=
  [.createInternal (Name.fromRaw 1) 0 0x20, .setCaptureOutbound true, .startAddressClaiming,
    .update 500, .update 500]

/-- Three messages for one path; each transfer that ends is followed by an
update. -/
def threeInTurn : List (Op Unit) :=
  claimedSender ++ [nineBytes 1, nineBytes 2, endTransfer, .update 10, nineBytes 3, endTransfer,
    .update 10]

theorem sends_start_in_order_threeInTurn :
    (started (new {}) threeInTurn).map (·.data.head?) = [some 1, some 2, some 3] ∧
      (ofLine ⟨.tp, 0x20, 0x30, 0⟩ (started (new {}) threeInTurn) ++
        onLine ⟨.tp, 0x20, 0x30, 0⟩ (run step (new {}) threeInTurn).pendingTransportTx).Sublist
      (ofLine ⟨.tp, 0x20, 0x30, 0⟩ (accepted (new {}) threeInTurn)) :=
  ⟨by decide +kernel, sends_start_in_order {} threeInTurn (by decide +kernel) _⟩

/-- The third message is sent between the end of a transfer and the next
update. -/
def thirdOvertakes : List (Op Unit) :=
  claimedSender ++ [nineBytes 1, nineBytes 2, endTransfer, nineBytes 3, endTransfer, .update 10]

/-- **The third message overtakes the second.** -/
theorem third_message_overtakes :
    (accepted (new {}) thirdOvertakes).map (·.data.head?) = [some 1, some 2, some 3] ∧
      (started (new {}) thirdOvertakes).map (·.data.head?) = [some 1, some 3, some 2] ∧
      ¬(ofLine ⟨.tp, 0x20, 0x30, 0⟩ (started (new {}) thirdOvertakes)).Sublist
        (ofLine ⟨.tp, 0x20, 0x30, 0⟩ (accepted (new {}) thirdOvertakes)) := by
  decide +kernel

end IsoNet

end Machbus
