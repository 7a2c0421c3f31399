import Machbus.Network.Model.IsoNet
/-!
# Helpers — the phases of an update

An update takes in what the endpoints have received, drives the transport
engines, dispatches and starts what is ready, and drives the claimers.
Sending a frame touches nothing that any of them reads, so a phase is the
change it makes to the tables, followed by the frames it sends.
-/

namespace Machbus

open List

namespace IsoNet

variable {L : Type}

/-- Partners and violations grow older. -/
def aged (net : IsoNet L) (elapsedMs : ℕ) : IsoNet L :=
  { net with
    partnerCfs := net.partnerCfs.map (·.updateClaimValidation elapsedMs)
    recentViolations :=
      (net.recentViolations.map fun v => { v with ageMs := satAdd32 v.ageMs elapsedMs }).filter
        fun v => v.ageMs < addressViolationResponseIntervalMs }

variable [CanEndpoint L] (net : IsoNet L)

/-- The first phase: partners and violations age, and the frames received
are processed. -/
def received (elapsedMs : ℕ) : IsoNet L :=
  let rx := (net.aged elapsedMs).receiveAll
  rx.2.foldl (fun net e => net.processFrame e.2 e.1) rx.1

theorem update_eq (elapsedMs : ℕ) : net.update elapsedMs = ((net.received elapsedMs).driveTransports
        elapsedMs).drainTransportCompletions.startReadyPendingTransport.driveClaimers elapsedMs :=
  rfl

end IsoNet

/-! ## Frames out -/

/-- The part of the state that sending a frame touches. -/
structure Wire (L : Type) where
  stats : NetworkStatistics
  endpoints : List (UInt8 × L)
  outbound : List (UInt8 × Frame)

variable {L : Type} [CanEndpoint L]

/-- One frame more on the wire, or in the buffer. -/
def Wire.send (w : Wire L) (capture : Bool) (f : Frame) (port : UInt8) : Wire L :=
  if capture = true then
    { w with
      outbound := w.outbound ++ [(port, f)]
      stats := { w.stats with framesSent := w.stats.framesSent + 1 } }
  else
    match w.endpoints.find? (·.1 == port) with
    | none => w
    | some e =>
      { w with
        endpoints := w.endpoints.map fun x =>
          if x.1 = port then (x.1, (CanEndpoint.sendCan e.2 f).1) else x
        stats :=
          match (CanEndpoint.sendCan e.2 f).2 with
          | some _ => w.stats
          | none => { w.stats with framesSent := w.stats.framesSent + 1 } }

namespace IsoNet

variable {net : IsoNet L}

section

variable (net : IsoNet L)

def wire : Wire L := ⟨net.stats, net.endpoints, net.outbound⟩

def setWire (w : Wire L) : IsoNet L :=
  { net with stats := w.stats, endpoints := w.endpoints, outbound := w.outbound }

/-- **Sending a frame is a change of the wire.** -/
theorem sendFrame_eq (f : Frame) (port : UInt8) :
    (net.sendFrame f port).1 = net.setWire (net.wire.send net.captureOutbound f port) := by
  unfold sendFrame Wire.send
  by_cases hcap : net.captureOutbound = true
  · rw [if_pos hcap, if_pos hcap]
    rfl
  rw [if_neg hcap, if_neg hcap]
  have hends : net.wire.endpoints = net.endpoints := rfl
  rw [hends]
  rcases hfind : net.endpoints.find? (·.1 == port) with _ | ⟨p, endpoint⟩
  · simp only [hfind]
    rfl
  · simp only [hfind]
    rcases (CanEndpoint.sendCan endpoint f).2 with _ | text <;> rfl

/-- So is sending several. -/
theorem sendEmitted_eq (es : List (UInt8 × Frame)) : net.sendEmitted es =
      net.setWire (es.foldl (fun w e => w.send net.captureOutbound e.2 e.1) net.wire) := by
  unfold sendEmitted
  induction es generalizing net with
  | nil => rfl
  | cons e es ih =>
    rw [foldl_cons, ih, sendFrame_eq]
    rfl

variable (frames : List Frame)

theorem sendFramesBestEffort_eq (port : UInt8) :
    ∃ w, net.sendFramesBestEffort frames port = net.setWire w := by
  have hsame : net.sendFramesBestEffort frames port =
      net.sendEmitted (frames.map (Prod.mk port)) := by
    rw [sendFramesBestEffort, sendEmitted, foldl_map]
  rw [hsame, sendEmitted_eq]
  exact ⟨_, rfl⟩

/-- Sending until one is refused touches no more. -/
theorem exists_sendFrames_eq (port : UInt8) (fs : List Frame) :
    ∃ w, (net.sendFrames port fs).1 = net.setWire w := by
  induction fs generalizing net with
  | nil => exact ⟨net.wire, rfl⟩
  | cons f fs ih =>
    have hsend := net.sendFrame_eq f port
    rw [sendFrames]
    split
    next net' heq =>
      rw [heq] at hsend
      obtain ⟨w, hw⟩ := ih net'
      refine ⟨w, hw.trans ?_⟩
      rw [show net' = _ from hsend]
      rfl
    next net' e heq =>
      rw [heq] at hsend
      exact ⟨_, hsend⟩

/-- The frames of an engine, with the ports they leave on. -/
def routed : List (UInt8 × Frame) :=
  frames.map fun f => (net.portForAddress f.source, f)

theorem sendRouted_eq : net.sendRouted frames = net.sendEmitted (net.routed frames) := by
  unfold sendRouted sendEmitted routed
  induction frames generalizing net with
  | nil => rfl
  | cons f fs ih =>
    rw [foldl_cons, ih]
    -- sending moves no control function, so the ports stay as they were
    have hport : ∀ a, ((net.sendFrame f (net.portForAddress f.source)).1).portForAddress a =
        net.portForAddress a := by
      intro a
      rw [sendFrame_eq]
      rfl
    simp [hport]

end

/-! ## The transport engines -/

/-- The engines driven for a time, without what they send. -/
def driven (net : IsoNet L) (elapsedMs : ℕ) : IsoNet L :=
  let tp := (net.tp.update elapsedMs).1
  let etp := (net.etp.update elapsedMs).1
  ((((net.setTp tp).setTp tp.getPendingDataFrames.1).setEtp etp).setEtp
    etp.getPendingDataFrames.1).setFastPacket (net.fastPacket.update elapsedMs)

/-- The frames they send, in order. -/
def drivenFrames (net : IsoNet L) (elapsedMs : ℕ) : List Frame :=
  (net.tp.update elapsedMs).2 ++ (net.tp.update elapsedMs).1.getPendingDataFrames.2 ++
    ((net.etp.update elapsedMs).2 ++ (net.etp.update elapsedMs).1.getPendingDataFrames.2)

section

variable (net : IsoNet L) (elapsedMs : ℕ)

theorem driveTp_eq : net.driveTp elapsedMs = ((net.setTp (net.tp.update elapsedMs).1).setTp
        (net.tp.update elapsedMs).1.getPendingDataFrames.1).sendEmitted
        (net.routed ((net.tp.update elapsedMs).2 ++
          (net.tp.update elapsedMs).1.getPendingDataFrames.2)) := by
  unfold driveTp
  -- sending changes the wire alone, and no engine reads that
  simp only [sendRouted_eq, sendEmitted_eq, routed, map_append, foldl_append]
  rfl

theorem driveEtp_eq : net.driveEtp elapsedMs = ((net.setEtp (net.etp.update elapsedMs).1).setEtp
        (net.etp.update elapsedMs).1.getPendingDataFrames.1).sendEmitted
        (net.routed ((net.etp.update elapsedMs).2 ++
          (net.etp.update elapsedMs).1.getPendingDataFrames.2)) := by
  unfold driveEtp
  simp only [sendRouted_eq, sendEmitted_eq, routed, map_append, foldl_append]
  rfl

/-- **The second phase**: the engines move, and each frame of theirs leaves
on the port its source is found on. -/
theorem driveTransports_eq : net.driveTransports elapsedMs =
      (net.driven elapsedMs).sendEmitted (net.routed (net.drivenFrames elapsedMs)) := by
  unfold driveTransports
  simp only [driveEtp_eq, driveTp_eq, drivenFrames, sendEmitted_eq, routed, map_append,
    foldl_append]
  rfl

end

end IsoNet

end Machbus
