import Machbus.Network.Helpers.Tables
import Machbus.Network.Helpers.FastHeard
/-!
# Helpers — what a port sees of the network layer

A port sees the control functions and partners on it, the violations
answered there and the messages being received on it. `Touches` lists what
the handlers of a port do to the state; none of it shows on another port,
and none of it dispatches anything.
-/

namespace Machbus

open FastPacket SessionEngine List Bool

/-- **What a port sees.** NAMEs and registered PGNs are shared by all
ports. -/
structure PortView where
  config : NetworkConfig
  names : List Name
  locals : List LocalCf
  partners : List PartnerCf
  violations : List RecentViolation
  fastPacketPgns : List ℕ
  tp : TransportProtocol × Multiset TransportSession
  etp : ExtendedTransportProtocol × Multiset TransportSession
  fast : ℕ × Multiset FastPacket.Session

/-- What has been dispatched, and what is complete and not dispatched. -/
structure Mail where
  onMessage : List Message
  tpCompletions : List TransportSession
  etpCompletions : List TransportSession

namespace IsoNet

variable {L : Type}

/-- The view of a port, given the ports the last frames of the fast packets
came from. -/
def view (origin : Key → UInt8) (p : UInt8) (net : IsoNet L) : PortView where
  config := net.config
  names := Tables.names net.locals
  locals := net.locals.filter (·.cf.canPort == p)
  partners := net.partnerCfs.filter (·.cf.canPort == p)
  violations := net.recentViolations.filter (·.port == p)
  fastPacketPgns := net.fastPacketPgns
  tp := heardOn p net.tp
  etp := heardOn p net.etp
  fast := net.fastPacket.heardOn origin p

def mail (net : IsoNet L) : Mail := ⟨net.onMessage, net.tpCompletions, net.etpCompletions⟩

variable {net net' : IsoNet L} {o o' : Key → UInt8} {p q : UInt8} {g : PartnerCf → PartnerCf}

theorem onMessage_of_mail (h : net'.mail = net.mail) : net'.onMessage = net.onMessage :=
  congrArg Mail.onMessage h

section

variable (h : net.view o p = net'.view o' p)
include h

theorem locals_of_view :
    net.locals.filter (·.cf.canPort == p) = net'.locals.filter (·.cf.canPort == p) :=
  congrArg PortView.locals h

theorem partners_of_view :
    net.partnerCfs.filter (·.cf.canPort == p) = net'.partnerCfs.filter (·.cf.canPort == p) :=
  congrArg PortView.partners h

theorem violations_of_view :
    net.recentViolations.filter (·.port == p) = net'.recentViolations.filter (·.port == p) :=
  congrArg PortView.violations h

end

/-! ## Maps over the tables -/

/-- A function on control functions that leaves NAME and port alone. -/
structure Keeps (g : LocalCf → LocalCf) : Prop where
  name : ∀ n, (g n).cf.name = n.cf.name
  canPort : ∀ n, (g n).cf.canPort = n.cf.canPort

theorem Keeps.step (op : LocalCf.Op) : Keeps (·.step op) :=
  ⟨fun n => n.name_step op, fun n => n.canPort_step op⟩

/-- A call that only some make. -/
theorem Keeps.ite_step (c : LocalCf → Bool) (op : LocalCf.Op) :
    Keeps fun n => if c n then n.step op else n := by
  constructor
  · intro n
    split
    · exact n.name_step op
    · rfl
  · intro n
    split
    · exact n.canPort_step op
    · rfl

/-- A filter by what a map leaves alone. -/
theorem filter_map_kept {α : Type} {g : α → α} {c : α → Bool} (hg : ∀ x, c (g x) = c x)
    (l : List α) : (l.map g).filter c = (l.filter c).map g := by
  rw [filter_map]
  have hcomp : c ∘ g = c := funext hg
  rw [hcomp]

theorem map_eq_self_of_filter {α : Type} {g : α → α} {c : α → Bool} {l : List α}
    (hg : ∀ x, c x = true → g x = x) : (l.filter c).map g = l.filter c :=
  (map_congr_left fun x hx => hg x (mem_filter.mp hx).2).trans (map_id _)

theorem view_mapLocals {g : LocalCf → LocalCf} (hg : Keeps g) :
    ({ net with locals := net.locals.map g } : IsoNet L).view o p =
      { net.view o p with locals := (net.view o p).locals.map g } := by
  have hnames : Tables.names (net.locals.map g) = Tables.names net.locals :=
    Tables.names_map hg.name _
  have hlocals : (net.locals.map g).filter (·.cf.canPort == p) =
      (net.locals.filter (·.cf.canPort == p)).map g :=
    filter_map_kept (fun n => by rw [hg.canPort]) _
  unfold view
  rw [hnames, hlocals]

/-- The same map over equal views. -/
theorem view_mapLocals_congr (h : net.view o p = net'.view o' p) {g : LocalCf → LocalCf}
    (hg : Keeps g) : ({ net with locals := net.locals.map g } : IsoNet L).view o p =
      ({ net' with locals := net'.locals.map g } : IsoNet L).view o' p := by
  rw [view_mapLocals hg, view_mapLocals hg, h]

theorem view_mapPartners (hg : ∀ x, (g x).cf.canPort = x.cf.canPort) :
    ({ net with partnerCfs := net.partnerCfs.map g } : IsoNet L).view o p =
      { net.view o p with partners := (net.view o p).partners.map g } := by
  have hpartners : (net.partnerCfs.map g).filter (·.cf.canPort == p) =
      (net.partnerCfs.filter (·.cf.canPort == p)).map g :=
    filter_map_kept (fun x => by rw [hg]) _
  unfold view
  rw [hpartners]

theorem view_mapPartners_congr (h : net.view o p = net'.view o' p)
    (hg : ∀ x, (g x).cf.canPort = x.cf.canPort) :
    ({ net with partnerCfs := net.partnerCfs.map g } : IsoNet L).view o p =
      ({ net' with partnerCfs := net'.partnerCfs.map g } : IsoNet L).view o' p := by
  rw [view_mapPartners hg, view_mapPartners hg, h]

variable (net) in
/-- A violation, on whichever port. -/
theorem view_addViolation (v : RecentViolation) (noted : List Address) : ({ net with
        recentViolations := net.recentViolations ++ [v]
        onAddressViolation := noted } : IsoNet L).view o p =
      { net.view o p with
        violations := (net.view o p).violations ++ [v].filter (·.port == p) } := by
  simp only [view, filter_append]

/-! ## Teardowns -/

/-- A teardown shows only where it is made. -/
theorem view_discontinueAddress_of_ne (hq : q ≠ p) (a : Address) :
    (net.discontinueAddress q a).1.view o p = net.view o p := by
  unfold discontinueAddress
  split
  · rfl
  have htp : heardOn p (net.tp.abortSessionsForAddress q a).1 = heardOn p net.tp :=
    heardOn_congr rfl (TransportSession.filter_teardown_heardOn hq _)
  have hetp : heardOn p (net.etp.abortSessionsForAddress q a).1 = heardOn p net.etp :=
    heardOn_congr rfl (TransportSession.filter_teardown_heardOn hq _)
  show ({ net.view o p with
    tp := heardOn p (net.tp.abortSessionsForAddress q a).1
    etp := heardOn p (net.etp.abortSessionsForAddress q a).1 } : PortView) = _
  rw [htp, hetp]
  rfl

/-- It does the same to equal views. -/
theorem view_discontinueAddress (h : net.view o p = net'.view o' p) (q : UInt8) (a : Address) :
    (net.discontinueAddress q a).1.view o p = (net'.discontinueAddress q a).1.view o' p := by
  unfold discontinueAddress
  split
  · exact h
  have htp : heardOn p (net.tp.abortSessionsForAddress q a).1 =
      heardOn p (net'.tp.abortSessionsForAddress q a).1 :=
    heardOn_filter (congrArg PortView.tp h) rfl rfl rfl rfl
  have hetp : heardOn p (net.etp.abortSessionsForAddress q a).1 =
      heardOn p (net'.etp.abortSessionsForAddress q a).1 :=
    heardOn_filter (congrArg PortView.etp h) rfl rfl rfl rfl
  show ({ net.view o p with
      tp := heardOn p (net.tp.abortSessionsForAddress q a).1
      etp := heardOn p (net.etp.abortSessionsForAddress q a).1 } : PortView) = _
  rw [h, htp, hetp]
  rfl

theorem view_discontinueAll (h : net.view o p = net'.view o' p) (q : UInt8) (as : List Address) :
    (net.discontinueAll q as).1.view o p = (net'.discontinueAll q as).1.view o' p := by
  induction as generalizing net net' with
  | nil => exact h
  | cons a as ih => exact ih (view_discontinueAddress h q a)

theorem mail_discontinueAddress (a : Address) : (net.discontinueAddress q a).1.mail = net.mail := by
  unfold discontinueAddress
  split
  · rfl
  · simp [mail, setTp, setEtp, TransportProtocol.abortSessionsForAddress,
      ExtendedTransportProtocol.abortSessionsForAddress]

/-! ## What the handlers of a port do -/

/-- **What the handlers of a port do.** -/
inductive Touches (q : UInt8) : IsoNet L → IsoNet L → Prop
  | refl (net : IsoNet L) : Touches q net net
  | trans {net net₁ net₂ : IsoNet L} : Touches q net net₁ → Touches q net₁ net₂ → Touches q net net₂
  | wire (net : IsoNet L) (w) : Touches q net (net.setWire w)
  | locals (net : IsoNet L) {g} : Keeps g → (∀ n, n.cf.canPort ≠ q → g n = n) →
      Touches q net { net with locals := net.locals.map g }
  | partners (net : IsoNet L) {g : PartnerCf → PartnerCf} : (∀ x, (g x).cf.canPort = x.cf.canPort) →
      (∀ x, x.cf.canPort ≠ q → g x = x) →
      Touches q net { net with partnerCfs := net.partnerCfs.map g }
  | violation (net : IsoNet L) (src) :
      Touches q net { net with recentViolations := net.recentViolations ++ [⟨q, src, 0⟩] }
  | discontinue (net : IsoNet L) (a) : Touches q net (net.discontinueAddress q a).1
  -- observers are told
  | noted (net : IsoNet L) (duplicates violations) :
      Touches q net { net with onDuplicateName := duplicates, onAddressViolation := violations }

namespace Touches

variable (h : Touches q net net')
include h

/-- **None of it shows on another port.** -/
theorem view_of_ne (hq : q ≠ p) : net'.view o p = net.view o p := by
  induction h with
  | refl => rfl
  | trans _ _ ih₁ ih₂ => exact ih₂.trans ih₁
  | wire => rfl
  | locals net hg hoff =>
    rw [view_mapLocals hg]
    have hsame : (net.view o p).locals.map _ = (net.view o p).locals :=
      map_eq_self_of_filter fun n hn => hoff n fun heq => hq (heq.symm.trans (beq_iff_eq.mp hn))
    rw [hsame]
  | partners net hg hoff =>
    rw [view_mapPartners hg]
    have hsame : (net.view o p).partners.map _ = (net.view o p).partners :=
      map_eq_self_of_filter fun n hn => hoff n fun heq => hq (heq.symm.trans (beq_iff_eq.mp hn))
    rw [hsame]
  | violation net src =>
    rw [view_addViolation]
    simp [hq]
  | discontinue net a => exact view_discontinueAddress_of_ne hq a
  | noted => rfl

/-- **None of it dispatches anything.** -/
theorem mail_eq : net'.mail = net.mail := by
  induction h with
  | trans _ _ ih₁ ih₂ => exact ih₂.trans ih₁
  | discontinue net a => exact mail_discontinueAddress a
  | _ => rfl

/-- Nor does it reach the reassembler of fast packets. -/
theorem fastPacket_eq : net'.fastPacket = net.fastPacket := by
  induction h with
  | trans _ _ ih₁ ih₂ => exact ih₂.trans ih₁
  | discontinue net a =>
    unfold discontinueAddress
    split <;> rfl
  | _ => rfl

end Touches

/-! ## The handlers -/

theorem Keeps.obey (targetName : Name) (newAddress : Address) (port : UInt8) (occupied : Bool) :
    Keeps fun n => (obeyCommand targetName newAddress port occupied n).1 := by
  refine ⟨name_obeyCommand targetName newAddress port occupied, fun n => ?_⟩
  rcases obeyCommand_cases targetName newAddress port occupied n with heq | ⟨-, -, heq⟩
  · rw [heq]
  · rw [heq]
    rfl

theorem obeyCommand_of_ne {targetName : Name} {newAddress : Address} {port : UInt8}
    {occupied : Bool} {n : LocalCf} (h : n.cf.canPort ≠ port) :
    obeyCommand targetName newAddress port occupied n = (n, [], []) := by
  rw [obeyCommand, if_pos (.inl h)]

variable [CanEndpoint L]

theorem touches_sendFramesBestEffort (net : IsoNet L) (frames : List Frame) (port : UInt8) :
    Touches q net (net.sendFramesBestEffort frames port) := by
  obtain ⟨w, h⟩ := net.sendFramesBestEffort_eq frames port
  rw [h]
  exact .wire net w

omit [CanEndpoint L] in
theorem touches_discontinueAll (net : IsoNet L) (as : List Address) :
    Touches q net (net.discontinueAll q as).1 := by
  induction as generalizing net with
  | nil => exact .refl net
  | cons a as ih => exact (Touches.discontinue net a).trans (ih _)

section

variable (net : IsoNet L) (name : Name) (addr : Address) (q : UInt8)

theorem touches_handleDuplicateInternalName : Touches q net
    (net.handleDuplicateInternalName name addr q).1 := by
  unfold handleDuplicateInternalName
  split
  · exact .refl net
  refine .trans ?_ (touches_sendFramesBestEffort _ _ _)
  refine .trans (.locals net (.ite_step (isDuplicated name addr q) .duplicate) ?_)
    (.noted _ _ net.onAddressViolation)
  intro n hn
  rw [if_neg fun hd => hn (canPort_of_isDuplicated hd)]

theorem touches_handleClaimed : Touches q net (net.handleClaimed name addr q) := by
  refine .trans (net.touches_handleDuplicateInternalName name addr q) ?_
  refine .trans ?_ (touches_sendFramesBestEffort _ _ _)
  refine .trans (.locals _ (.ite_step (·.cf.canPort == q) (.claim addr name)) ?_)
    (touches_discontinueAll _ _)
  intro n hn
  rw [if_neg (by simpa using hn)]

end

section

variable (net : IsoNet L) (frame : Frame) (q : UInt8)

theorem touches_handleAddressClaim : Touches q net (net.handleAddressClaim frame q) := by
  unfold handleAddressClaim
  split
  · exact .refl net
  dsimp only
  split
  · exact .refl net
  rename_i claimedName _ _
  have hclaimed : Touches q net (if frame.source ≤ maxAddress
      then net.handleClaimed claimedName frame.source q else net) := by
    split
    · exact net.touches_handleClaimed claimedName frame.source q
    · exact .refl net
  refine hclaimed.trans (.partners _ (fun x => ?_) fun x hx => ?_)
  · split
    · split <;> rfl
    · rfl
  · rw [if_neg (by simp [hx])]

theorem touches_handleRequest : Touches q net (net.handleRequestForAddressClaim frame q).1 := by
  unfold handleRequestForAddressClaim
  split
  · exact .refl net
  split
  · exact .refl net
  refine .trans ?_ (touches_sendFramesBestEffort _ _ _)
  refine .trans (.locals net (.ite_step _ .request) fun n hn => ?_)
    (.partners _ (fun x => ?_) fun x hx => ?_)
  · rw [if_neg (by simp [hn])]
  · split
    · unfold PartnerCf.beginClaimValidation
      split <;> rfl
    · rfl
  · rw [if_neg (by simp [hx])]

theorem touches_checkAddressViolation : Touches q net (net.checkAddressViolation frame q) := by
  unfold checkAddressViolation
  dsimp only
  split
  · exact .refl net
  split
  · exact .refl net
  split
  · refine .trans ?_ (touches_sendFramesBestEffort _ _ _)
    refine .trans (.locals net (.ite_step _ .request) fun n hn => ?_)
      (.trans (.violation _ frame.source) (.noted _ net.onDuplicateName _))
    rw [if_neg (by simp [hn])]
  · exact .refl net

end

theorem touches_handleCommanded (net : IsoNet L) (msg : Message) (q : UInt8) :
    Touches q net (net.handleCommandedAddressMessage msg q) := by
  unfold handleCommandedAddressMessage
  split
  · exact .refl net
  split
  · exact .refl net
  dsimp only
  split
  · exact .refl net
  refine .trans ?_ (touches_sendFramesBestEffort _ _ _)
  refine .trans (.locals net (.obey _ _ q _) fun n hn => ?_) (touches_discontinueAll _ _)
  rw [obeyCommand_of_ne hn]

/-!
## The handlers and the view of their port

A handler looks only at what is on its port, and at what all ports share.
Where a port sees the same, its handlers take the same branches and leave
it seeing the same.
-/

/-! ## What only looks at some -/

section

variable {α β : Type} {c d : α → Bool}

/-- A search for elements of one kind. -/
theorem any_eq_any_filter (h : ∀ x, c x = true → d x = true) (l : List α) :
    l.any c = (l.filter d).any c := by
  rw [any_filter]
  congr 1
  funext x
  cases hc : c x with
  | false => simp
  | true => simp [h x hc]

theorem filter_eq_filter_filter (h : ∀ x, c x = true → d x = true) (l : List α) :
    l.filter c = (l.filter d).filter c := by
  rw [filter_filter]
  refine filter_congr fun x _ => ?_
  cases hc : c x with
  | false => rfl
  | true => simp [h x hc]

theorem flatMap_eq_flatMap_filter {g : α → List β} (h : ∀ x, d x = false → g x = [])
    (l : List α) : l.flatMap g = (l.filter d).flatMap g := by
  induction l with
  | nil => rfl
  | cons x l ih =>
    rw [flatMap_cons, filter_cons, ih]
    cases hd : d x with
    | false => rw [h x hd]; rfl
    | true => simp

end

omit [CanEndpoint L] in
/-- A search for control functions of the port. -/
theorem any_locals_congr (h : net.view o p = net'.view o' p) {c : LocalCf → Bool}
    (hc : ∀ n, c n = true → (n.cf.canPort == p) = true) : net.locals.any c = net'.locals.any c := by
  rw [any_eq_any_filter hc, any_eq_any_filter hc net'.locals, locals_of_view h]

/-! ## The handlers on equal views -/

theorem view_sendFramesBestEffort (frames : List Frame) (port : UInt8) :
    (net.sendFramesBestEffort frames port).view o p = net.view o p := by
  obtain ⟨w, h⟩ := net.sendFramesBestEffort_eq frames port
  rw [h]
  rfl

section

variable (h : net.view o p = net'.view o' p)
include h

theorem view_handleDuplicateInternalName (name : Name) (addr : Address) :
    (net.handleDuplicateInternalName name addr p).1.view o p =
        (net'.handleDuplicateInternalName name addr p).1.view o' p ∧
      (net.handleDuplicateInternalName name addr p).2 =
        (net'.handleDuplicateInternalName name addr p).2 := by
  have hlocals : ∀ l : List LocalCf, l.filter (isDuplicated name addr p) =
      (l.filter (·.cf.canPort == p)).filter (isDuplicated name addr p) :=
    filter_eq_filter_filter fun n hn => by simpa using canPort_of_isDuplicated hn
  unfold handleDuplicateInternalName
  split
  · exact ⟨h, rfl⟩
  dsimp only
  rw [view_sendFramesBestEffort, view_sendFramesBestEffort, hlocals net.locals,
    hlocals net'.locals, locals_of_view h]
  exact ⟨view_mapLocals_congr h (.ite_step (isDuplicated name addr p) .duplicate), rfl⟩

theorem view_handleClaimed (name : Name) (addr : Address) :
    (net.handleClaimed name addr p).view o p = (net'.handleClaimed name addr p).view o' p := by
  obtain ⟨hdup, hgone⟩ := view_handleDuplicateInternalName h name addr
  unfold handleClaimed
  rw [view_sendFramesBestEffort, view_sendFramesBestEffort, hgone, locals_of_view hdup]
  refine view_discontinueAll ?_ p _
  exact view_mapLocals_congr hdup (.ite_step (·.cf.canPort == p) (.claim addr name))

variable (frame : Frame)

theorem view_handleAddressClaim :
    (net.handleAddressClaim frame p).view o p = (net'.handleAddressClaim frame p).view o' p := by
  unfold handleAddressClaim
  split
  · exact h
  dsimp only
  split
  · exact h
  rename_i claimedName _ _
  have hclaimed : (if frame.source ≤ maxAddress
        then net.handleClaimed claimedName frame.source p else net).view o p =
      (if frame.source ≤ maxAddress
        then net'.handleClaimed claimedName frame.source p else net').view o' p := by
    split
    · exact view_handleClaimed h claimedName frame.source
    · exact h
  refine view_mapPartners_congr hclaimed fun x => ?_
  split
  · split <;> rfl
  · rfl

theorem view_handleRequest : (net.handleRequestForAddressClaim frame p).1.view o p =
        (net'.handleRequestForAddressClaim frame p).1.view o' p ∧
      (net.handleRequestForAddressClaim frame p).2 =
        (net'.handleRequestForAddressClaim frame p).2 := by
  unfold handleRequestForAddressClaim
  split
  · exact ⟨h, rfl⟩
  split
  · exact ⟨h, rfl⟩
  rw [view_sendFramesBestEffort, view_sendFramesBestEffort]
  refine ⟨?_, rfl⟩
  have hasked := view_mapLocals_congr h (.ite_step (fun n => n.cf.canPort == p &&
    (frame.destination == broadcastAddress || n.cf.address == frame.destination)) .request)
  refine view_mapPartners_congr hasked fun x => ?_
  split
  · unfold PartnerCf.beginClaimValidation
    split <;> rfl
  · rfl

theorem view_checkAddressViolation : (net.checkAddressViolation frame p).view o p =
      (net'.checkAddressViolation frame p).view o' p := by
  have hrecent : (net.recentViolations.any fun v => v.port == p && v.source == frame.source) =
      net'.recentViolations.any fun v => v.port == p && v.source == frame.source := by
    have hpart := any_eq_any_filter
      (c := fun v : RecentViolation => v.port == p && v.source == frame.source)
      (d := fun v => v.port == p) fun v hv => (and_eq_true_iff.mp hv).1
    rw [hpart, hpart net'.recentViolations, violations_of_view h]
  have hviolated : (net.locals.any fun n =>
        n.cf.canPort == p && n.cf.claimState == .claimed && n.cf.address == frame.source) =
      net'.locals.any fun n =>
        n.cf.canPort == p && n.cf.claimState == .claimed && n.cf.address == frame.source :=
    any_locals_congr h fun n hn => (and_eq_true_iff.mp (and_eq_true_iff.mp hn).1).1
  unfold checkAddressViolation
  dsimp only
  rw [hrecent, hviolated]
  split
  · exact h
  split
  · exact h
  split
  · rw [view_sendFramesBestEffort, view_sendFramesBestEffort]
    have hasked := view_mapLocals_congr h (.ite_step (fun n => n.cf.canPort == p &&
      n.cf.claimState == .claimed && n.cf.address == frame.source) .request)
    exact (view_addViolation { net with locals := _ } _ _).trans
      (.trans (by rw [hasked]) (view_addViolation { net' with locals := _ } _ _).symm)
  · exact h

end

omit [CanEndpoint L] in
theorem isAddressedToUs_congr (h : net.view o p = net'.view o' p) (frame : Frame) :
    net.isAddressedToUs frame p = net'.isAddressedToUs frame p := by
  rw [isAddressedToUs, isAddressedToUs, any_locals_congr h fun n hn =>
    (and_eq_true_iff.mp (and_eq_true_iff.mp hn).1).1]

omit [CanEndpoint L] in
theorem occupiedByOther_congr (h : net.view o p = net'.view o' p) (targetName : Name)
    (newAddress : Address) :
    net.occupiedByOther targetName newAddress p = net'.occupiedByOther targetName newAddress p := by
  have hlocals := any_locals_congr h
    (c := fun n => n.cf.canPort == p && n.cf.address == newAddress &&
      n.cf.name != targetName && n.cf.claimState == .claimed) fun n hn => by
      simp only [and_eq_true] at hn
      exact hn.1.1.1
  have hpart := any_eq_any_filter
    (c := fun x : PartnerCf => x.cf.canPort == p && x.cf.address == newAddress &&
      x.cf.name != targetName && x.cf.isOnline)
    (d := fun x => x.cf.canPort == p) fun n hn => by
      simp only [and_eq_true] at hn
      exact hn.1.1.1
  rw [occupiedByOther, occupiedByOther, hlocals, hpart, hpart net'.partnerCfs, partners_of_view h]

theorem view_handleCommanded (h : net.view o p = net'.view o' p) (msg : Message) :
    (net.handleCommandedAddressMessage msg p).view o p =
      (net'.handleCommandedAddressMessage msg p).view o' p := by
  unfold handleCommandedAddressMessage
  split
  · exact h
  split
  · exact h
  rename_i targetName _
  dsimp only
  split
  · exact h
  rw [occupiedByOther_congr h targetName]
  generalize net'.occupiedByOther targetName (msg.data.getD 8 0) p = occupied
  have hgone : ∀ l : List LocalCf,
      (l.flatMap fun n => (obeyCommand targetName (msg.data.getD 8 0) p occupied n).2.2) =
        (l.filter (·.cf.canPort == p)).flatMap fun n =>
          (obeyCommand targetName (msg.data.getD 8 0) p occupied n).2.2 :=
    flatMap_eq_flatMap_filter fun n hn => by rw [obeyCommand_of_ne (by simpa using hn)]
  rw [view_sendFramesBestEffort, view_sendFramesBestEffort, hgone net.locals,
    hgone net'.locals, locals_of_view h]
  exact view_discontinueAll (view_mapLocals_congr h (.obey _ _ _ _)) p _

end IsoNet

end Machbus
