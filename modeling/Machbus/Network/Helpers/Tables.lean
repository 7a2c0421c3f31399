import Machbus.Claim.Helpers.Effect
import Machbus.Network.Helpers.Update
import Machbus.Tp.Helpers.Part
import Machbus.Etp.Helpers.Part
/-!
# Helpers — the tables of the network layer

What is said about addresses and transports reads four tables: the local
control functions, the sessions of the two engines and the waiting
transmissions. Here is what each function of the network layer does to
them; sending frames does nothing.
-/

namespace Machbus

open List

variable {port : UInt8} {a : Address}

/-! ## Transmit sessions -/

/-- The transmit sessions of `l'` travel on paths of `l`. -/
def Inherits (l l' : List TransportSession) : Prop :=
  ∀ s' ∈ l', s'.direction = .transmit → ∃ s ∈ l, s.path = s'.path

namespace Inherits

variable {l l' : List TransportSession}

theorem of_filterMap {f : TransportSession → Option TransportSession}
    (hf : ∀ s s', f s = some s' → s'.path = s.path) (hperm : l'.Perm (l.filterMap f)) :
    Inherits l l' := by
  intro x hx _
  obtain ⟨y, hy, heq⟩ := mem_filterMap.mp (hperm.mem_iff.mp hx)
  exact ⟨y, hy, (hf y x heq).symm⟩

theorem of_map {f : TransportSession → TransportSession} (hf : ∀ s, (f s).path = s.path) :
    Inherits l (l.map f) := by
  intro x hx _
  obtain ⟨y, hy, rfl⟩ := mem_map.mp hx
  exact ⟨y, hy, (hf y).symm⟩

end Inherits

theorem TableStep.inherits {opening : Prop} {l l' done done' : List TransportSession}
    (h : TableStep opening port l done l' done') : Inherits l l' :=
  (h.forall_path (P := fun p => p.1 = .transmit → ∃ s ∈ l, s.path = p)
    (fun _ _ _ hd => by cases hd) fun s hs _ => ⟨s, hs, rfl⟩).1

/-! ## The four tables -/

/-- What address ownership speaks of. -/
structure Tables where
  locals : List LocalCf
  tp : List TransportSession
  etp : List TransportSession
  pending : List PendingTransportTx

/-- An address that a teardown takes for one. -/
def Real (a : Address) : Prop := a ≠ nullAddress ∧ a ≠ broadcastAddress

theorem real_iff_not : Real a ↔ ¬(a = nullAddress ∨ a = broadcastAddress) :=
  not_or.symm

theorem real_of_le (h : a ≤ maxAddress) : Real a := by
  constructor
  · exact ne_nullAddress h
  · rintro rfl
    exact absurd h (by decide)

namespace Tables

/-- The tables without what runs on an address of a port. -/
def discontinue (t : Tables) (port : UInt8) (a : Address) : Tables :=
  if a = nullAddress ∨ a = broadcastAddress then t
  else
    { t with
      tp := t.tp.filter fun s =>
        s.canPort != port || (s.sourceAddress != a && s.destinationAddress != a)
      etp := t.etp.filter fun s =>
        s.canPort != port || (s.sourceAddress != a && s.destinationAddress != a)
      pending := t.pending.filter fun tx => tx.port != port || tx.source != a }

def discontinueAll (t : Tables) (port : UInt8) (as : List Address) : Tables :=
  as.foldl (·.discontinue port ·) t

/-- A session that a teardown of the addresses `as` on a port drops. -/
def Cut (port : UInt8) (as : List Address) (s : TransportSession) : Prop :=
  s.canPort = port ∧ ∃ a ∈ as, Real a ∧ (s.sourceAddress = a ∨ s.destinationAddress = a)

/-- A waiting transmission that it drops. -/
def CutPending (port : UInt8) (as : List Address) (tx : PendingTransportTx) : Prop :=
  tx.port = port ∧ ∃ a ∈ as, Real a ∧ tx.source = a

variable {t : Tables} {port : UInt8} {a : Address} {as : List Address} {tx : PendingTransportTx}
  {s : TransportSession}

@[simp] theorem locals_discontinue : (t.discontinue port a).locals = t.locals := by
  unfold discontinue
  split <;> rfl

@[simp] theorem locals_discontinueAll : (t.discontinueAll port as).locals = t.locals := by
  induction as generalizing t with
  | nil => rfl
  | cons a as ih => exact ih.trans locals_discontinue

theorem locals_foldl_discontinue (es : List (UInt8 × Address)) :
    (es.foldl (fun t e => t.discontinue e.1 e.2) t).locals = t.locals := by
  induction es generalizing t with
  | nil => rfl
  | cons e es ih => exact ih.trans locals_discontinue

theorem discontinueAll_eq_foldl (as : List Address) : t.discontinueAll port as =
      (as.map (Prod.mk port)).foldl (fun t e => t.discontinue e.1 e.2) t := by
  rw [foldl_map]
  rfl

theorem cut_cons : Cut port (a :: as) s ↔ Cut port [a] s ∨ Cut port as s := by
  simp only [Cut, mem_cons, not_mem_nil, or_false, exists_eq_or_imp, exists_eq_left]
  exact and_or_left

theorem cutPending_cons :
    CutPending port (a :: as) tx ↔ CutPending port [a] tx ∨ CutPending port as tx := by
  simp only [CutPending, mem_cons, not_mem_nil, or_false, exists_eq_or_imp, exists_eq_left]
  exact and_or_left

theorem not_cut_singleton_iff (ha : Real a) : ¬Cut port [a] s ↔
      (s.canPort != port || (s.sourceAddress != a && s.destinationAddress != a)) = true := by
  simp only [Cut, mem_singleton, exists_eq_left, Bool.or_eq_true, Bool.and_eq_true, bne_iff_ne]
  tauto

theorem not_cutPending_singleton_iff (ha : Real a) :
    ¬CutPending port [a] tx ↔ (tx.port != port || tx.source != a) = true := by
  simp only [CutPending, mem_singleton, exists_eq_left, Bool.or_eq_true, bne_iff_ne]
  tauto

open Classical in
/-- **What one teardown leaves**, in the order it was in. -/
theorem discontinue_eq : t.discontinue port a =
    { t with
      tp := t.tp.filter fun s => ¬Cut port [a] s
      etp := t.etp.filter fun s => ¬Cut port [a] s
      pending := t.pending.filter fun tx => ¬CutPending port [a] tx } := by
  by_cases ha : Real a
  · rw [discontinue, if_neg (real_iff_not.mp ha)]
    congr 1
    iterate 2
      · exact filter_congr fun s _ => by simp only [not_cut_singleton_iff ha, Bool.decide_eq_true]
    · exact filter_congr fun s _ => by
        simp only [not_cutPending_singleton_iff ha, Bool.decide_eq_true]
  · have hcut : ∀ s, ¬Cut port [a] s := by
      rintro s ⟨-, b, hb, hreal, -⟩
      exact ha (mem_singleton.mp hb ▸ hreal)
    have hcutp : ∀ tx, ¬CutPending port [a] tx := by
      rintro s ⟨-, b, hb, hreal, -⟩
      exact ha (mem_singleton.mp hb ▸ hreal)
    rw [discontinue, if_pos (by_contra fun h => ha (real_iff_not.mpr h))]
    simp [hcut, hcutp]

open Classical in
/-- Two filters in a row. -/
theorem filter_not_or {α : Type} {P Q R : α → Prop} (h : ∀ x, R x ↔ P x ∨ Q x) (l : List α) :
    ((l.filter fun x => ¬P x).filter fun x => ¬Q x) = l.filter fun x => ¬R x := by
  rw [filter_filter]
  refine filter_congr ?_
  intro x _
  by_cases hp : P x <;> by_cases hq : Q x <;> simp [h, hp, hq]

open Classical in
/-- **What a teardown leaves.** Everything that none of the addresses
touches, in the order it was in. -/
theorem discontinueAll_eq : t.discontinueAll port as =
    { t with
      tp := t.tp.filter fun s => ¬Cut port as s
      etp := t.etp.filter fun s => ¬Cut port as s
      pending := t.pending.filter fun tx => ¬CutPending port as tx } := by
  induction as generalizing t with
  | nil =>
    have hcut : ∀ s, ¬Cut port [] s := fun s ⟨_, b, hb, _⟩ => not_mem_nil hb
    have hcutp : ∀ tx, ¬CutPending port [] tx := fun tx ⟨_, b, hb, _⟩ => not_mem_nil hb
    simp [discontinueAll, hcut, hcutp]
  | cons a as ih =>
    have hstep : t.discontinueAll port (a :: as) =
        (t.discontinue port a).discontinueAll port as := rfl
    rw [hstep, ih, discontinue_eq]
    congr 1
    · exact filter_not_or (fun _ => cut_cons) _
    · exact filter_not_or (fun _ => cut_cons) _
    · exact filter_not_or (fun _ => cutPending_cons) _

/-- The NAMEs, in order. -/
def names (l : List LocalCf) : List Name := l.map (·.cf.name)

theorem names_map {g : LocalCf → LocalCf} (hg : ∀ n, (g n).cf.name = n.cf.name)
    (l : List LocalCf) : names (l.map g) = names l := by
  unfold names
  rw [map_map]
  exact map_congr_left fun n _ => hg n

end Tables

/-! ## What the functions do to them -/

namespace IsoNet

variable {L : Type} (net : IsoNet L)

def tables : Tables where
  locals := net.locals
  tp := net.tp.sessions
  etp := net.etp.sessions
  pending := net.pendingTransportTx

@[simp] theorem tables_dispatchMessage (msg : Message) :
    (net.dispatchMessage msg).tables = net.tables := rfl

@[simp] theorem tables_discontinueAddress (port : UInt8) (a : Address) :
    (net.discontinueAddress port a).1.tables = net.tables.discontinue port a := by
  unfold discontinueAddress Tables.discontinue
  split <;> rfl

@[simp] theorem tables_discontinueAll (port : UInt8) (as : List Address) :
    (net.discontinueAll port as).1.tables = net.tables.discontinueAll port as := by
  induction as generalizing net with
  | nil => rfl
  | cons a as ih =>
    refine (ih _).trans ?_
    rw [tables_discontinueAddress]
    rfl

variable [CanEndpoint L] {addr : Address} {name : Name} {n : LocalCf}

@[simp] theorem tables_sendFrame (frame : Frame) (port : UInt8) :
    (net.sendFrame frame port).1.tables = net.tables := by
  rw [sendFrame_eq]
  rfl

@[simp] theorem tables_sendFramesBestEffort (frames : List Frame) (port : UInt8) :
    (net.sendFramesBestEffort frames port).tables = net.tables := by
  obtain ⟨w, h⟩ := net.sendFramesBestEffort_eq frames port
  rw [h]
  rfl

@[simp] theorem tables_sendEmitted (emitted : List (UInt8 × Frame)) :
    (net.sendEmitted emitted).tables = net.tables := by
  rw [sendEmitted_eq]
  rfl

theorem tables_discontinueEach (es : List (UInt8 × Address)) :
    (net.discontinueEach es).tables = es.foldl (fun t e => t.discontinue e.1 e.2) net.tables := by
  unfold discontinueEach
  induction es generalizing net with
  | nil => rfl
  | cons e es ih =>
    rw [foldl_cons, ih, tables_sendFramesBestEffort, tables_discontinueAddress]
    rfl

/-! ## Transmissions -/

/-- A transmission is handed to its engine. -/
def engage (net : IsoNet L) (tx : PendingTransportTx) : IsoNet L × Except Error (List Frame) :=
  match tx.kind with
  | .tp =>
    let r := net.tp.send tx.pgn tx.data tx.source tx.destination tx.port tx.priority
    (net.setTp r.1, r.2)
  | .etp =>
    let r := net.etp.send tx.pgn tx.data tx.source tx.destination tx.port tx.priority
    (net.setEtp r.1, r.2)

/-- Starting a transmission: its engine is asked, then the first frames
are sent. -/
theorem tryStart_eq (tx : PendingTransportTx) : net.tryStartPendingTransportTx tx =
      match net.engage tx with
      | (net, .ok frames) => net.sendFrames tx.port frames
      | (net, .error e) => (net, .error e) := by
  unfold tryStartPendingTransportTx engage
  cases tx.kind with
  | tp =>
    rcases net.tp.send tx.pgn tx.data tx.source tx.destination tx.port tx.priority with
      ⟨tp, e | frames⟩ <;> rfl
  | etp =>
    rcases net.etp.send tx.pgn tx.data tx.source tx.destination tx.port tx.priority with
      ⟨etp, e | frames⟩ <;> rfl

/-- A message to send is started, or queued if its path is taken. -/
theorem sendTransport_eq (tx : PendingTransportTx) :
    net.sendTransport tx = net.tryStartPendingTransportTx tx ∨
      net.sendTransport tx = (net.engage tx).1.queueTransportTx tx := by
  unfold sendTransport tryStartPendingTransportTx engage
  cases tx.kind with
  | tp =>
    rcases net.tp.send tx.pgn tx.data tx.source tx.destination tx.port tx.priority with
      ⟨tp, e | frames⟩
    · exact (ite_eq_or_eq _ _ _).symm
    · exact .inl rfl
  | etp =>
    rcases net.etp.send tx.pgn tx.data tx.source tx.destination tx.port tx.priority with
      ⟨etp, e | frames⟩
    · exact (ite_eq_or_eq _ _ _).symm
    · exact .inl rfl

/-- **What sending comes to**, a piece at a time. `P` holds of the
transmissions that an engine is given or that are queued. -/
inductive Sends (P : PendingTransportTx → Prop) : IsoNet L → IsoNet L → Prop
  | refl (net : IsoNet L) : Sends P net net
  | trans {net net₁ net₂ : IsoNet L} : Sends P net net₁ → Sends P net₁ net₂ → Sends P net net₂
  | wire (net : IsoNet L) (w : Wire L) : Sends P net (net.setWire w)
  | fast (net : IsoNet L) (pgn : ℕ) (data : List UInt8) (source destination : Address)
      (priority : Priority) : Sends P net
        (net.setFastPacket (net.fastPacket.sendTo pgn data source destination priority).1)
  | engage (net : IsoNet L) {tx : PendingTransportTx} (htx : P tx) : Sends P net (net.engage tx).1
  | pending (net : IsoNet L) {txs : List PendingTransportTx}
      (htxs : ∀ tx ∈ txs, tx ∈ net.pendingTransportTx ∨ P tx) :
      Sends P net { net with pendingTransportTx := txs }

namespace Sends

variable {net} {net' : IsoNet L} {P : PendingTransportTx → Prop} {tx : PendingTransportTx}

omit [CanEndpoint L]

theorem locals_eq (h : Sends P net net') : net'.locals = net.locals := by
  induction h with
  | trans _ _ ih ih' => exact ih'.trans ih
  | engage =>
    unfold IsoNet.engage
    split <;> rfl
  | _ => rfl

theorem of_pending (h : Sends P net net') (hnet : ∀ tx ∈ net.pendingTransportTx, P tx) :
    ∀ tx ∈ net'.pendingTransportTx, P tx := by
  induction h with
  | trans _ _ ih ih' => exact ih' (ih hnet)
  | engage =>
    unfold IsoNet.engage
    split <;> exact hnet
  | pending _ htxs => exact fun tx htx => (htxs tx htx).elim (hnet tx) id
  | _ => exact hnet

theorem queue (net : IsoNet L) (htx : P tx) :
    Sends P net { net with pendingTransportTx := net.pendingTransportTx ++ [tx] } := by
  refine pending net fun x hx => (mem_append.mp hx).imp_right fun hx => ?_
  rw [mem_singleton.mp hx]
  exact htx

variable [CanEndpoint L]

section

variable (net : IsoNet L)

theorem frames (port : UInt8) (fs : List Frame) : Sends P net (net.sendFrames port fs).1 := by
  obtain ⟨w, h⟩ := net.exists_sendFrames_eq port fs
  rw [h]
  exact wire net w

theorem tryStart (htx : P tx) : Sends P net (net.tryStartPendingTransportTx tx).1 := by
  have hengage := engage net htx
  rw [tryStart_eq]
  generalize net.engage tx = r at hengage ⊢
  rcases r with ⟨net₁, e | fs⟩
  · exact hengage
  · exact hengage.trans (frames net₁ _ _)

theorem transport (htx : P tx) : Sends P net (net.sendTransport tx).1 := by
  rcases net.sendTransport_eq tx with h | h <;> rw [h]
  · exact tryStart net htx
  · unfold queueTransportTx
    split
    · exact (engage net htx).trans (queue _ htx)
    · exact engage net htx

/-- **A message to send.** Its sender has been found online on a valid
address. -/
theorem send (pgn : ℕ) (data : List UInt8) (src : ℕ) (dst : Address) (priority : Priority) :
    Sends (fun tx => ∃ n ∈ net.locals, n.cf.isOnline = true ∧ n.cf.addressValid = true ∧
        tx.port = n.cf.canPort ∧ tx.source = n.cf.address)
      net (net.send pgn data src dst priority).1 := by
  unfold IsoNet.send
  split
  · exact refl net
  split
  · exact refl net
  rename_i n hn
  split
  · exact refl net
  rename_i hclaimed
  split
  · exact refl net
  rename_i hvalid
  rw [not_or, Bool.not_eq_false] at hclaimed
  have hsender : ∃ m ∈ net.locals, m.cf.isOnline = true ∧ m.cf.addressValid = true ∧
      n.cf.canPort = m.cf.canPort ∧ n.cf.address = m.cf.address :=
    ⟨n, mem_of_getElem? hn, hclaimed.2, Bool.not_eq_false _ ▸ hvalid, rfl, rfl⟩
  split
  · rw [sendFrame_eq]
    exact wire net _
  split
  · split
    next fp fs heq =>
      obtain rfl : _ = fp := congrArg Prod.fst heq
      exact (fast net _ _ _ _ _).trans (frames _ _ _)
    next fp e heq =>
      obtain rfl : _ = fp := congrArg Prod.fst heq
      exact fast net _ _ _ _ _
  split
  · exact transport net hsender
  split
  · exact refl net
  · exact transport net hsender

end

/-- **The waiting transmissions**, tried again. -/
theorem startReady (attempts : ℕ) (hnet : ∀ tx ∈ net.pendingTransportTx, P tx) :
    Sends P net (startReady attempts net) := by
  induction attempts generalizing net with
  | zero => exact refl net
  | succ attempts ih =>
    rw [IsoNet.startReady]
    split
    · exact refl net
    rename_i tx rest hpend
    rw [hpend] at hnet
    have htx : P tx := hnet tx mem_cons_self
    have htry : Sends P net (tryStartPendingTransportTx
        { net with pendingTransportTx := rest } tx).1 :=
      (pending net fun x hx => .inr (hnet x (mem_cons_of_mem _ hx))).trans (tryStart _ htx)
    have hnext : ∀ {net'}, Sends P net net' →
        Sends P net (IsoNet.startReady attempts net') := fun h =>
      h.trans (ih (h.of_pending (hpend ▸ hnet)))
    split
    next net' heq =>
      rw [heq] at htry
      exact hnext htry
    rename_i net' e heq
    rw [heq] at htry
    split
    · exact hnext (htry.trans (queue _ htx))
    · exact hnext htry

end Sends

/-! ## A received claim -/

omit [CanEndpoint L] in
theorem mem_surrenderedBy {before after : LocalCf} : a ∈ surrenderedBy before after ↔
      a = before.cf.address ∧
        ¬(after.cf.isOnline = true ∧ after.cf.address = before.cf.address) := by
  unfold surrenderedBy
  split
  next h =>
    rw [mem_singleton, iff_self_and]
    rintro - ⟨hon, haddr⟩
    rcases h with h | h
    · exact h haddr
    · rw [h] at hon
      cases hon
  next h =>
    rw [not_or, not_not, Bool.not_eq_false] at h
    exact ⟨nofun, fun hboth => absurd ⟨h.2, h.1⟩ hboth.2⟩

/-- A local control function after the check for a duplicate NAME. -/
def afterDuplicate (name : Name) (addr : Address) (port : UInt8) (n : LocalCf) : LocalCf :=
  if isDuplicated name addr port n then n.step .duplicate else n

/-- A local control function after a claim on a port. -/
def afterClaim (name : Name) (addr : Address) (port : UInt8) (n : LocalCf) : LocalCf :=
  let m := afterDuplicate name addr port n
  if m.cf.canPort == port then m.step (.claim addr name) else m

/-- The addresses that a claim on a port makes the network layer tear
down. -/
def givenUp (locals : List LocalCf) (name : Name) (addr : Address) (port : UInt8) : List Address :=
  ((locals.filter (isDuplicated name addr port)).flatMap fun n =>
      surrenderedBy n (n.step .duplicate)) ++
    ((locals.map (afterDuplicate name addr port)).filter (·.cf.canPort == port)).flatMap fun n =>
      surrenderedBy n (n.step (.claim addr name))

theorem handleDuplicateInternalName_eq (name : Name) (addr : Address) (port : UInt8)
    (haddr : Real addr) :
    (net.handleDuplicateInternalName name addr port).1.tables =
        { net.tables with locals := net.locals.map (afterDuplicate name addr port) } ∧
      (net.handleDuplicateInternalName name addr port).2 =
        (net.locals.filter (isDuplicated name addr port)).flatMap fun n =>
          surrenderedBy n (n.step .duplicate) := by
  rw [handleDuplicateInternalName, if_neg (real_iff_not.mp haddr)]
  exact ⟨tables_sendFramesBestEffort _ _ _, rfl⟩

/-- **A claim of a claimable address** moves the control functions of its
port and tears down what they give up. -/
theorem tables_handleClaimed (haddr : addr ≤ maxAddress) :
    (net.handleClaimed name addr port).tables = Tables.discontinueAll
        { net.tables with locals := net.locals.map (afterClaim name addr port) } port
        (givenUp net.locals name addr port) := by
  obtain ⟨htab, hvac⟩ := net.handleDuplicateInternalName_eq name addr port (real_of_le haddr)
  rw [handleClaimed]
  generalize net.handleDuplicateInternalName name addr port = d at htab hvac
  have hlocals : d.1.locals = net.locals.map (afterDuplicate name addr port) :=
    congrArg Tables.locals htab
  have hmap : (d.1.locals.map fun n => if n.cf.canPort == port then n.step (.claim addr name)
      else n) = net.locals.map (afterClaim name addr port) := by
    rw [hlocals, map_map]
    rfl
  rw [tables_sendFramesBestEffort, tables_discontinueAll, hmap, hvac, hlocals]
  have heq : ({ d.1 with locals := net.locals.map (afterClaim name addr port) } : IsoNet L).tables =
      { net.tables with locals := net.locals.map (afterClaim name addr port) } :=
    congrArg (fun t : Tables =>
      { t with locals := net.locals.map (afterClaim name addr port) }) htab
  rw [heq]
  rfl

section

omit [CanEndpoint L]

/-- A duplicated control function is offline, without an address. -/
theorem step_duplicate_of_isDuplicated (h : isDuplicated name addr port n = true) :
    (n.step .duplicate).cf.isOnline = false ∧ (n.step .duplicate).cf.address = nullAddress := by
  simp only [isDuplicated, Bool.and_eq_true, bne_iff_ne, ne_eq] at h
  obtain ⟨⟨⟨-, hatt⟩, hfailed⟩, -⟩ := h
  simp only [LocalCf.step, LocalCf.call, AddressClaimer.handleDuplicateName]
  rw [if_neg (by simp [hatt, hfailed])]
  exact ⟨rfl, rfl⟩

theorem canPort_of_isDuplicated
    (h : isDuplicated name addr port n = true) : n.cf.canPort = port := by
  simp only [isDuplicated, Bool.and_eq_true, beq_iff_eq] at h
  exact h.1.1.1.1

theorem canPort_afterDuplicate (name : Name) (addr : Address) (port : UInt8) (n : LocalCf) :
    (afterDuplicate name addr port n).cf.canPort = n.cf.canPort := by
  unfold afterDuplicate
  split
  · exact n.canPort_step _
  · rfl

theorem canPort_afterClaim (name : Name) (addr : Address) (port : UInt8) (n : LocalCf) :
    (afterClaim name addr port n).cf.canPort = n.cf.canPort := by
  unfold afterClaim
  dsimp only
  split
  · rw [LocalCf.canPort_step, canPort_afterDuplicate]
  · exact canPort_afterDuplicate name addr port n

/-- The claim of another port changes nothing. -/
theorem afterClaim_of_ne (h : n.cf.canPort ≠ port) : afterClaim name addr port n = n := by
  have hdup : afterDuplicate name addr port n = n := by
    rw [afterDuplicate, if_neg fun hd => h (canPort_of_isDuplicated hd)]
  unfold afterClaim
  rw [hdup]
  exact if_neg (by simpa using h)

theorem afterClaim_of_not_isDuplicated
    (hdup : isDuplicated name addr port n = false) (hport : n.cf.canPort = port) :
    afterDuplicate name addr port n = n ∧
      afterClaim name addr port n = n.step (.claim addr name) := by
  have hsame : afterDuplicate name addr port n = n := if_neg (by simp [hdup])
  refine ⟨hsame, ?_⟩
  unfold afterClaim
  rw [hsame]
  exact if_pos (by simpa using hport)

/-- Who is off the bus, or taken off it for a duplicate NAME, is off it
after the claim. -/
theorem offline_afterClaim (h : isDuplicated name addr port n = true ∨ n.cf.isOnline = false) :
    (afterClaim name addr port n).cf.isOnline = false := by
  have hoff : (afterDuplicate name addr port n).cf.isOnline = false := by
    unfold afterDuplicate
    split
    next hd => exact (step_duplicate_of_isDuplicated hd).1
    next hd => exact h.resolve_left hd
  unfold afterClaim
  dsimp only
  split
  · exact LocalCf.offline_step_claim hoff _ _
  · exact hoff

/-- **What a claim tears down.** The addresses stored by the control
functions of its port that are not online there afterwards. -/
theorem mem_givenUp_iff {locals : List LocalCf} (ha : Real a) : a ∈ givenUp locals name addr port ↔
      ∃ n ∈ locals, n.cf.canPort = port ∧ n.cf.address = a ∧
        ¬((afterClaim name addr port n).cf.isOnline = true ∧
          (afterClaim name addr port n).cf.address = a) := by
  simp only [givenUp, mem_append, mem_flatMap, mem_filter, mem_map, mem_surrenderedBy, beq_iff_eq]
  constructor
  · rintro (⟨n, ⟨hn, hd⟩, rfl, -⟩ | ⟨m, ⟨⟨n, hn, rfl⟩, hport⟩, rfl, hoff⟩)
    · refine ⟨n, hn, canPort_of_isDuplicated hd, rfl, fun h => ?_⟩
      rw [offline_afterClaim (.inl hd)] at h
      exact absurd h.1 Bool.false_ne_true
    · rw [canPort_afterDuplicate] at hport
      by_cases hd : isDuplicated name addr port n = true
      · -- its address is gone already
        have hnull : (afterDuplicate name addr port n).cf.address = nullAddress := by
          rw [afterDuplicate, if_pos hd]
          exact (step_duplicate_of_isDuplicated hd).2
        exact absurd hnull ha.1
      · obtain ⟨hsame, hafter⟩ := afterClaim_of_not_isDuplicated (by simpa using hd) hport
        rw [hsame] at hoff ⊢
        exact ⟨n, hn, hport, rfl, by rw [hafter]; exact hoff⟩
  · rintro ⟨n, hn, hport, rfl, hoff⟩
    by_cases hd : isDuplicated name addr port n = true
    · refine .inl ⟨n, ⟨hn, hd⟩, rfl, fun h => ?_⟩
      rw [(step_duplicate_of_isDuplicated hd).1] at h
      exact absurd h.1 Bool.false_ne_true
    obtain ⟨hsame, hafter⟩ := afterClaim_of_not_isDuplicated (by simpa using hd) hport
    refine .inr ⟨n, ⟨⟨n, hn, hsame⟩, hport⟩, rfl, ?_⟩
    rw [← hafter]
    exact hoff

end

/-! ## A commanded address -/

omit [CanEndpoint L] in
/-- What a commanded address does to one control function is a call, or
nothing. Only the target obeys, and only if nobody else has the address. -/
theorem obeyCommand_cases (targetName : Name) (newAddress : Address) (port : UInt8)
    (occupied : Bool) (n : LocalCf) :
    (obeyCommand targetName newAddress port occupied n).1 = n ∨
      (n.cf.canPort = port ∧ n.cf.name = targetName ∧ occupied = false) ∧
        (n.cf.claimState = .failed ∨ n.cf.claimState = .claimed ∧ n.cf.isOnline = true) ∧
        obeyCommand targetName newAddress port occupied n =
          ((n.applyCommanded newAddress).1, (n.applyCommanded newAddress).2,
            if n.cf.address ≠ newAddress then [n.cf.address] else []) := by
  unfold obeyCommand
  split
  · exact .inl rfl
  rename_i htarget
  dsimp only
  split
  · exact .inl rfl
  rename_i hstate
  split
  · exact .inl rfl
  split
  · exact .inl rfl
  rename_i hfree
  rw [not_or, not_not, not_not] at htarget
  refine .inr ⟨⟨htarget.1, htarget.2, by simpa using hfree⟩, ?_, rfl⟩
  by_cases hfailed : n.cf.claimState = .failed
  · exact .inl hfailed
  refine .inr ?_
  rw [not_and_or, not_or, not_not] at hstate
  rcases hstate with h | h
  · simp [hfailed] at h
  · exact ⟨h.1, by simpa using h.2⟩

omit [CanEndpoint L] in
theorem name_obeyCommand (targetName : Name) (newAddress : Address) (port : UInt8)
    (occupied : Bool) (n : LocalCf) :
    (obeyCommand targetName newAddress port occupied n).1.cf.name = n.cf.name := by
  rcases obeyCommand_cases targetName newAddress port occupied n with heq | ⟨-, -, heq⟩
  · rw [heq]
  · rw [heq]
    rfl

/-! ## A claim frame -/

/-- The claim carries a NAME and comes from a claimable address. -/
def Heeded (frame : Frame) : Prop :=
  (Name.fromBytes frame.payload).isSome = true ∧ frame.source ≤ maxAddress

variable {net} {frame : Frame} {port : UInt8}

/-- A claim that is not heeded leaves the tables alone. -/
theorem tables_handleAddressClaim_of_not_heeded (h : ¬Heeded frame) :
    (net.handleAddressClaim frame port).tables = net.tables := by
  unfold handleAddressClaim
  split
  · rfl
  rename_i name hname
  have hsrc : ¬frame.source ≤ maxAddress := fun hle => h ⟨by rw [hname]; rfl, hle⟩
  dsimp only
  split <;> rfl

theorem tables_handleAddressClaim_of_heeded
    (hname : Name.fromBytes frame.payload = some name) (hsrc : frame.source ≤ maxAddress) :
    (net.handleAddressClaim frame port).tables =
      (net.handleClaimed name frame.source port).tables := by
  unfold handleAddressClaim
  rw [hname]
  dsimp only
  rw [if_neg (real_of_le hsrc).2, if_pos hsrc]
  rfl

end IsoNet

end Machbus
