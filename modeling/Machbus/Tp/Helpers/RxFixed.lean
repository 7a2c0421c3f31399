import Machbus.Tp.Helpers.Steps
import Machbus.Tp.Model.RxFixed
/-!
# TP — what a frame can do to the fixed receiver

`RxStep` lists everything an incoming frame can do: it is passed over, it
ends the transfer, it opens one, or it is the data frame the transfer waits
for. `processFrame_step` says it is exhaustive and that the call never
fails.
-/

namespace Machbus.TpRxFixed

open Tp
open TransportProtocol (IsDt)

variable {N : ℕ} {rx : TpRxFixed N} {f : Frame}

/-- The receiver behind a data frame it took in. -/
def ingested (rx : TpRxFixed N) (f : Frame) : TpRxFixed N :=
  { rx with
    data := rx.data.write rx.totalBytes ((f.data.b0.toNat - 1) * tpBytesPerFrame) f.data.tail
    lastSequence := f.data.b0.toNat }

/-- The destination of the transfer an announcement opens. -/
def announcedDestination (f : Frame) : Address :=
  if f.data.b0 = TpCm.bam then broadcastAddress else f.destination

/-- The transfer an announcement opens. -/
structure Opened (f : Frame) (rx : TpRxFixed N) : Prop where
  active : rx.active = true
  pgn : rx.pgn = pgnFromCmBytes f.data
  source : rx.source = f.source
  destination : rx.destination = announcedDestination f
  totalBytes : rx.totalBytes = sizeFromCmBytes f.data
  lastSequence : rx.lastSequence = 0
  broadcast : rx.broadcast = true ↔ f.data.b0 = TpCm.bam
  data : rx.data.bytes = List.replicate (sizeFromCmBytes f.data) 0xFF
  nonempty : 0 < sizeFromCmBytes f.data
  packets : divCeil rx.totalBytes tpBytesPerFrame ≤ 255

/-- **What an incoming frame can do.** -/
inductive RxStep (rx : TpRxFixed N) (f : Frame) : TpRxFixed N → TpRxFixedOutcome N → Prop
  /-- The frame changes nothing. A data frame is passed over if it is from
  somebody else, or if a connection is open and it is for somebody else. -/
  | ignored (response : Option Frame)
      (hdt : IsDt f → rx.active = true → f.source = rx.source →
        rx.broadcast = false ∧ f.destination ≠ rx.destination) :
      RxStep rx f rx { response := response }
  /-- The transfer ends undelivered. -/
  | dropped (response : Option Frame) : RxStep rx f new { response := response }
  /-- An RTS or a BAM opens a transfer. -/
  | opened {rx' : TpRxFixed N} (response : Option Frame) (hidle : rx.active = false)
      (hcm : f.pgn = pgnTpCm) (hcontrol : f.data.b0 = TpCm.rts ∨ f.data.b0 = TpCm.bam)
      (hopened : Opened f rx') : RxStep rx f rx' { response := response }
  /-- A data frame is taken in and more are to come. -/
  | advanced (start size : ℕ) (response : Option Frame) (hf : IsDt f) (hactive : rx.active = true)
      (hsource : f.source = rx.source)
      (hdest : rx.broadcast = false → f.destination = rx.destination)
      (hseq : f.data.b0.toNat = satAdd8 rx.lastSequence 1) (hpos : f.data.b0.toNat ≠ 0)
      (hmore : f.data.b0.toNat * 7 < rx.totalBytes) :
      RxStep rx f { rx.ingested f with ctsWindowStart := start, ctsWindowSize := size }
        { response := response }
  /-- The last data frame is taken in. -/
  | delivered (response : Option Frame) (hf : IsDt f) (hactive : rx.active = true)
      (hsource : f.source = rx.source)
      (hdest : rx.broadcast = false → f.destination = rx.destination)
      (hseq : f.data.b0.toNat = satAdd8 rx.lastSequence 1) (hpos : f.data.b0.toNat ≠ 0)
      (hlast : rx.totalBytes ≤ f.data.b0.toNat * 7) :
      RxStep rx f new
        { response := response
          message := some
            { pgn := rx.pgn
              data := (rx.ingested f).data
              source := rx.source
              destination := rx.destination
              priority := rx.priority
              timestampUs := f.timestampUs } }

/-- A call that does not fail and is one of the above. -/
def Steps (rx : TpRxFixed N) (f : Frame) (r : TpRxFixed N × Except Error (TpRxFixedOutcome N)) :
    Prop :=
  ∃ out, r.2 = .ok out ∧ RxStep rx f r.1 out

theorem steps_ignore (hdt : IsDt f → rx.active = true → f.source = rx.source →
    rx.broadcast = false ∧ f.destination ≠ rx.destination) : Steps rx f rx.ignore :=
  ⟨_, rfl, .ignored none hdt⟩

section

variable (hcm : f.pgn = pgnTpCm)
include hcm

theorem steps_ignore_cm : Steps rx f rx.ignore :=
  steps_ignore fun h => absurd h (TransportProtocol.not_isDt_of_cm hcm)

theorem steps_answer_cm (response : Frame) : Steps rx f (rx.answer response) :=
  ⟨_, rfl, .ignored (some response) fun h => absurd h (TransportProtocol.not_isDt_of_cm hcm)⟩

theorem steps_processRts (hcontrol : f.data.b0 = TpCm.rts) : Steps rx f (rx.processRts f) := by
  simp only [processRts]
  split
  · exact steps_answer_cm hcm _
  rename_i hgood
  push Not at hgood
  obtain ⟨hshape, -⟩ := hgood
  simp only [validTpPayloadShape, Bool.not_eq_false, Bool.and_eq_true, decide_eq_true_eq] at hshape
  obtain ⟨⟨⟨hmin, hmax⟩, -⟩, hpackets⟩ := hshape
  split
  · exact steps_answer_cm hcm _
  rename_i hidle
  split
  · exact steps_answer_cm hcm _
  rename_i hfits
  obtain ⟨buf, hbuf, hbytes⟩ := FixedBytes.resize_new (Nat.le_of_not_lt hfits) 0xFF
  rw [startReceive, hbuf]
  have hb : f.data.b0 ≠ TpCm.bam := by rw [hcontrol]; decide
  refine ⟨_, rfl, .opened _ (by simpa using hidle) hcm (Or.inl hcontrol) ?_⟩
  exact
    { active := rfl
      pgn := rfl
      source := rfl
      destination := by rw [announcedDestination, if_neg hb]; rfl
      totalBytes := rfl
      lastSequence := rfl
      broadcast := ⟨nofun, fun h => absurd h hb⟩
      data := hbytes
      nonempty := by omega
      packets := by
        show divCeil (sizeFromCmBytes f.data) tpBytesPerFrame ≤ 255
        rw [← hpackets]
        exact Nat.le_of_lt_succ f.data.b3.toNat_lt }

theorem steps_processBam (hcontrol : f.data.b0 = TpCm.bam) : Steps rx f (rx.processBam f) := by
  simp only [processBam]
  split
  · exact steps_ignore_cm hcm
  rename_i hgood
  push Not at hgood
  obtain ⟨hidle, -, hshape, hfits⟩ := hgood
  simp only [validTpPayloadShape, Bool.not_eq_false, Bool.and_eq_true, decide_eq_true_eq] at hshape
  obtain ⟨⟨⟨hmin, hmax⟩, -⟩, hpackets⟩ := hshape
  obtain ⟨buf, hbuf, hbytes⟩ := FixedBytes.resize_new hfits 0xFF
  rw [startReceive, hbuf]
  refine ⟨_, rfl, .opened _ (by simpa using hidle) hcm (Or.inr hcontrol) ?_⟩
  exact
    { active := rfl
      pgn := rfl
      source := rfl
      destination := by rw [announcedDestination, if_pos hcontrol]; rfl
      totalBytes := rfl
      lastSequence := rfl
      broadcast := ⟨fun _ => hcontrol, fun _ => rfl⟩
      data := hbytes
      nonempty := by omega
      packets := by
        show divCeil (sizeFromCmBytes f.data) tpBytesPerFrame ≤ 255
        rw [← hpackets]
        exact Nat.le_of_lt_succ f.data.b3.toNat_lt }

theorem steps_processCm : Steps rx f (rx.processCm f) := by
  simp only [processCm]
  split
  · exact steps_ignore_cm hcm
  split
  · exact steps_processRts hcm (by assumption)
  split
  · exact steps_processBam hcm (by assumption)
  split
  · unfold processAbort
    simp only
    split
    · exact ⟨_, rfl, .dropped none⟩
    · exact steps_ignore_cm hcm
  · exact steps_ignore_cm hcm

end

theorem steps_acceptDt (hf : IsDt f) (hactive : rx.active = true) (hsource : f.source = rx.source)
    (hdest : rx.broadcast = false → f.destination = rx.destination)
    (hseq : f.data.b0.toNat = satAdd8 rx.lastSequence 1) (hpos : f.data.b0.toNat ≠ 0) :
    Steps rx f (rx.acceptDt f) := by
  have hoff : (f.data.b0.toNat - 1) * tpBytesPerFrame + tpBytesPerFrame = f.data.b0.toNat * 7 := by
    rw [tpBytesPerFrame]
    omega
  simp only [acceptDt]
  split
  · exact ⟨_, rfl, .delivered _ hf hactive hsource hdest hseq hpos (by omega)⟩
  have hmore : f.data.b0.toNat * 7 < rx.totalBytes := by omega
  split
  · exact ⟨_, rfl, .advanced rx.ctsWindowStart rx.ctsWindowSize none hf hactive hsource hdest hseq
      hpos hmore⟩
  split
  · exact ⟨_, rfl, .advanced _ _ _ hf hactive hsource hdest hseq hpos hmore⟩
  · exact ⟨_, rfl, .advanced rx.ctsWindowStart rx.ctsWindowSize none hf hactive hsource hdest
      hseq hpos hmore⟩

theorem steps_processDt (hf : IsDt f) : Steps rx f (rx.processDt f) := by
  simp only [processDt]
  split
  next hpass =>
    refine steps_ignore fun _ hactive hsource => ?_
    rcases hpass with h | h | h
    · rw [hactive] at h
      cases h
    · exact absurd hsource h
    · exact h
  next hmatch =>
    push Not at hmatch
    obtain ⟨hactive, hsource, hdest⟩ := hmatch
    split
    · exact ⟨_, rfl, .dropped _⟩
    rename_i hgood
    push Not at hgood
    exact steps_acceptDt hf (by simpa using hactive) hsource hdest hgood.2 hgood.1

/-- **Every frame is one of these**, and the call never fails. -/
theorem processFrame_step (rx : TpRxFixed N) (f : Frame) : Steps rx f (rx.processFrame f) := by
  unfold processFrame
  split
  · refine steps_ignore fun hf => ?_
    have := hf.length
    omega
  next hlong =>
    split
    next hbad =>
      refine steps_ignore fun hf => ?_
      rcases hbad.2 with h | h
      · rw [hf.source] at h
        cases h
      · rw [hf.destination] at h
        cases h
    next hends =>
      split
      · rename_i hcm
        exact steps_processCm hcm
      split
      · rename_i hdt
        refine steps_processDt ⟨⟨?_, ?_, ?_⟩, hdt⟩
        · exact Nat.le_of_not_lt fun h => hlong ⟨Or.inr hdt, h⟩
        · by_contra h
          exact hends ⟨Or.inr hdt, Or.inl (by simpa using h)⟩
        · by_contra h
          exact hends ⟨Or.inr hdt, Or.inr (by simpa using h)⟩
      · rename_i hdt
        exact steps_ignore fun hf => absurd hf.pgn hdt

end Machbus.TpRxFixed
