import Machbus.Net.Helpers.Wire
import Machbus.Niu.Translation
/-!
# Who a forwarded frame seems to come from

A frame whose source the table knows leaves under the address the table
assigns to that control function on the far side. A frame whose source the
table does not know leaves under the address it came with, and nothing
checks whether the table assigns that address, on the far side, to somebody
else. `never_impersonates_iff` says exactly which frames are passed on under
another control function's address.
-/

namespace Machbus

open List

/-! ## What the filter lets through -/

namespace Niu

/-- The filter's decision on a frame with a usable source that is no echo. -/
def decides (n : Niu) (frame : Frame) (origin : Side) (nowMs : ℕ) : ForwardPolicy × Bool :=
  (((n.isLoopEcho frame origin nowMs).1.observeAddressClaim frame origin).resolvePolicy
    frame origin nowMs).2

/-- **The frames the base filter lets through.** -/
def Admits (n : Niu) (frame : Frame) (origin : Side) (nowMs : ℕ) : Prop :=
  n.state = .active ∧ invalidSource frame = false ∧ (n.isLoopEcho frame origin nowMs).2 = false ∧
    (n.decides frame origin nowMs).2 = false ∧ (n.decides frame origin nowMs).1 ≠ .block

/-- The filter returns the frame it was given or nothing. -/
theorem processFrameInner_eq_some (n : Niu) (frame : Frame) (origin : Side) (nowMs : ℕ)
    (remember : Bool) (out : Frame) :
    (n.processFrameInner frame origin nowMs remember).2 = some out ↔
      n.Admits frame origin nowMs ∧ out = frame := by
  unfold Admits decides processFrameInner
  by_cases hstate : n.state = .active
  · by_cases hsource : invalidSource frame = true
    · simp [hstate, hsource]
    · rcases hecho : n.isLoopEcho frame origin nowMs with ⟨n₁, echo⟩
      cases echo
      · rcases hpol : (n₁.observeAddressClaim frame origin).resolvePolicy frame origin nowMs
          with ⟨n₂, policy, limited⟩
        cases limited <;> cases policy <;> simp [hstate, hsource, hpol, eq_comm]
      · simp [hstate, hsource]
  · simp [hstate]

end Niu

namespace Router

variable {r : Router} {frame out : Frame} {origin : Side} {nowMs : ℕ} {translated : Option Address}

/-! ## What crosses, and under which source -/

/-- **The claims that cross.** Claims are forwarded at all, and the claimant
has no address or the table has its NAME and its address together or
neither of them. -/
def ClaimAgrees (r : Router) (frame : Frame) (origin : Side) : Prop :=
  r.forwardAddressClaims = true ∧
    (frame.source = nullAddress ∨ ∃ claimedName, Name.fromBytes frame.payload = some claimedName ∧
      ∀ t ∈ r.db.entries, t.name = claimedName ↔ t.addressOn origin = frame.source)

/-- **The frames that cross.** The filter lets the frame through, a claim
among them only where claims cross and agree with the table, and one for a
single node has a destination the table knows. -/
def Crosses (r : Router) (frame : Frame) (origin : Side) (nowMs : ℕ) : Prop :=
  r.niu.Admits frame origin nowMs ∧ (frame.pgn = pgnAddressClaimed → r.ClaimAgrees frame origin) ∧
    (frame.isBroadcast = true ∨ r.db.translate frame.destination origin ≠ none)

theorem source_readdress (newSource newDest : Address) :
    (readdress frame newSource newDest).source = newSource := by
  unfold readdress
  split
  next h => exact h.1.symm
  · exact Identifier.source_encode

/-- The destination a frame crosses with. -/
def newDestination (r : Router) (frame : Frame) (origin : Side) : Address :=
  if frame.isBroadcast then frame.destination
  else (r.db.translate frame.destination origin).getD frame.destination

section

variable (hdb : r.db.WellFormed)
include hdb

/-- An address or a NAME the table does not have. -/
theorem find?_active_eq_none {p : AddressTranslation → Bool} :
    r.db.entries.find? (fun t => t.active && p t) = none ↔ ∀ t ∈ r.db.entries, p t = false := by
  rw [find?_eq_none]
  refine forall₂_congr fun t ht => ?_
  rw [hdb.active t ht, Bool.true_and, Bool.not_eq_true]

/-- A claim crosses under the source the table gives it. -/
theorem translateAddressClaimSource_eq_some (hforward : r.forwardAddressClaims = true) :
    r.translateAddressClaimSource frame origin = some translated ↔
      r.ClaimAgrees frame origin ∧ translated = r.db.translate frame.source origin := by
  unfold translateAddressClaimSource ClaimAgrees
  by_cases hnull : frame.source = nullAddress
  · -- nobody is assigned the null address
    have hnone : r.db.translate frame.source origin = none := by
      rw [hdb.translate_eq_none_iff]
      intro t ht haddr
      have hle := hdb.address_le t ht origin
      rw [haddr, hnull] at hle
      exact absurd hle (by decide)
    rw [hnone]
    simp [hforward, hnull, Eq.comm (a := translated)]
  rw [if_neg hnull]
  rcases Name.fromBytes frame.payload with _ | claimedName
  · simp [hnull]
  simp only [hforward, hnull, true_and, false_or, Option.some.injEq, exists_eq_left']
  rcases hentry : r.db.lookupByAddress frame.source origin with _ | entry
  · have hfree : ∀ t ∈ r.db.entries, t.addressOn origin ≠ frame.source := by
      intro t ht
      have := (find?_active_eq_none hdb).mp hentry t ht
      simpa using this
    rw [hdb.translate_eq_none_iff.mpr hfree]
    rcases hname : r.db.lookupByName claimedName with _ | entry
    · have hnew := (find?_active_eq_none hdb).mp hname
      simp only [beq_eq_false_iff_ne] at hnew
      rw [and_iff_right fun t ht => iff_of_false (hnew t ht) (hfree t ht)]
      simp [Eq.comm (a := translated)]
    · -- the NAME has another address than the one it claims
      have hfound := find?_some hname
      simp only [Bool.and_eq_true, beq_iff_eq] at hfound
      have hmem : entry ∈ r.db.entries := mem_of_find?_eq_some hname
      rw [and_comm, iff_false_right fun h => hfree entry hmem ((h.2 entry hmem).mp hfound.2)]
      simp
  · have hmem : entry ∈ r.db.entries := mem_of_find?_eq_some hentry
    have hfound := find?_some hentry
    simp only [Bool.and_eq_true, beq_iff_eq] at hfound
    have haddr : entry.addressOn origin = frame.source := hfound.2
    have htranslate : r.db.translate frame.source origin = entry.translate frame.source origin := by
      rw [← haddr, AddressTranslation.translate_addressOn, hdb.translate_eq_some_iff]
      exact ⟨entry, hmem, rfl, rfl⟩
    rw [htranslate]
    by_cases hname : entry.name = claimedName
    · have hagree : ∀ t ∈ r.db.entries,
          t.name = claimedName ↔ t.addressOn origin = frame.source := by
        intro t ht
        constructor
        · intro h
          rw [inj_on_of_nodup_map hdb.name_nodup ht hmem (h.trans hname.symm)]
          exact haddr
        · intro h
          rw [hdb.eq_of_addressOn_eq ht hmem (h.trans haddr.symm)]
          exact hname
      rw [and_iff_right hagree]
      simp [hname, Eq.comm (a := translated)]
    · rw [and_comm, iff_false_right fun h => hname ((h.2 entry hmem).mpr haddr)]
      simp [hname]

/-- **The source a frame crosses with**, claim or not, is what the table
translates its own to. -/
theorem translateSource_eq_some : r.translateSource frame origin = some translated ↔
      (frame.pgn = pgnAddressClaimed → r.ClaimAgrees frame origin) ∧
        translated = r.db.translate frame.source origin := by
  unfold translateSource
  by_cases hclaim : frame.pgn = pgnAddressClaimed
  · rcases hforward : r.forwardAddressClaims with _ | _
    · simp [hclaim, ClaimAgrees, hforward]
    · simp [hclaim, translateAddressClaimSource_eq_some hdb hforward]
  · simp [hclaim, Eq.comm (a := translated)]

/-- **What the router returns.** A frame that crosses does so under its
translated source, or under its own where there is no translation. -/
theorem processFrame_eq_some : (r.processFrame frame origin nowMs).2 = some out ↔
      r.Crosses frame origin nowMs ∧
        out = readdress frame ((r.db.translate frame.source origin).getD frame.source)
          (r.newDestination frame origin) := by
  have hin := Niu.processFrameInner_eq_some r.niu frame origin nowMs false
  unfold processFrame Crosses newDestination
  rcases hp : r.niu.processFrameInner frame origin nowMs false with ⟨niu, _ | passed⟩
  · -- the filter stops the frame
    have hno : ¬r.niu.Admits frame origin nowMs := by
      intro hadm
      have := (hin frame).mpr ⟨hadm, rfl⟩
      rw [hp] at this
      cases this
    simp [hno]
  · obtain ⟨hadm, rfl⟩ := (hin passed).mp (congrArg Prod.snd hp)
    rcases hsrc : r.translateSource passed origin with _ | translated
    · have hno : ¬(passed.pgn = pgnAddressClaimed → r.ClaimAgrees passed origin) := by
        intro hclaim
        have := (translateSource_eq_some hdb).mpr ⟨hclaim, rfl⟩
        rw [hsrc] at this
        cases this
      simp [hno, hsrc]
    · obtain ⟨hclaim, rfl⟩ := (translateSource_eq_some hdb).mp hsrc
      rcases hb : passed.isBroadcast with _ | _
      · rcases hd : r.db.translate passed.destination origin with _ | d
        · simp [hsrc, hb, hd]
        · simp only [hsrc, hb, hd, hadm, and_iff_right hclaim]
          simp [Eq.comm (a := out)]
      · simp only [hsrc, hb, hadm, and_iff_right hclaim]
        simp [Eq.comm (a := out)]

end

/-! ## Impersonation -/

/-- **The source nobody checks.** The table has no translation for the
frame's source, and assigns that very address to a control function on the
far side. -/
def Collides (r : Router) (frame : Frame) (origin : Side) : Prop :=
  r.db.translate frame.source origin = none ∧
    ∃ t ∈ r.db.entries, t.addressOn origin.other = frame.source

/-- A node of the tractor side at `0x20`, unknown to the router, is heard on
the implement side as the control function that owns `0x20` there. -/
theorem unknown_source_takes_assigned_address :
    let r : Router := ({ Router.new {} with niu := (Niu.new {}).start }.addTranslation
      (Name.fromRaw 0x100) 0x10 0x20).1
    let frame := Frame.new (Identifier.encode .default 0xFECA 0x20 broadcastAddress)
      (Bytes8.padded [])
    ∃ out, (r.processFrame frame .tractor 0).2 = some out ∧
      ∃ t ∈ r.db.entries, t.addressOn .implement = out.source ∧
        t.addressOn .tractor ≠ frame.source := by
  decide

/-- **Under whose address a frame is passed on.** For every router whose
table was built by its calls, and every frame: the source it leaves under
belongs, wherever the table assigns it on the far side, to the control
function that sent it, exactly if no frame with a colliding source
crosses. -/
theorem never_impersonates_iff (niu : Niu) (forwardAddressClaims : Bool)
    (ops : List AddressTranslationDb.Op) (frame : Frame) (origin : Side) (nowMs : ℕ) :
    let r : Router :=
      ⟨niu, run AddressTranslationDb.step AddressTranslationDb.new ops, forwardAddressClaims⟩
    (∀ out, (r.processFrame frame origin nowMs).2 = some out →
        ∀ t ∈ r.db.entries, t.addressOn origin.other = out.source →
          t.addressOn origin = frame.source) ↔
      ¬(r.Crosses frame origin nowMs ∧ r.Collides frame origin) := by
  intro r
  have hdb : r.db.WellFormed := AddressTranslationDb.wellFormed_run ops
  constructor
  · rintro h ⟨hcross, hnone, t, ht, haddr⟩
    have hout := (processFrame_eq_some hdb).mpr ⟨hcross, rfl⟩
    have horigin := h _ hout t ht (by rw [source_readdress, hnone, Option.getD_none, haddr])
    -- the entry would translate the source
    exact hdb.translate_eq_none_iff.mp hnone t ht horigin
  · intro h out hout t ht haddr
    obtain ⟨hcross, rfl⟩ := (processFrame_eq_some hdb).mp hout
    rw [source_readdress] at haddr
    rcases hsame : r.db.translate frame.source origin with _ | s
    · rw [hsame] at haddr
      exact absurd ⟨hcross, hsame, t, ht, haddr⟩ h
    · obtain ⟨t', ht', horigin, hother⟩ := hdb.translate_eq_some_iff.mp hsame
      rw [hsame] at haddr
      rw [hdb.eq_of_addressOn_eq ht ht' (haddr.trans hother.symm)]
      exact horigin

end Router

end Machbus
