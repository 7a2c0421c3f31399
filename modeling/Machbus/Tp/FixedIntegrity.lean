import Machbus.Tp.Helpers.Frames
import Machbus.Tp.Helpers.RxFixed
/-!
# TP — what the fixed receiver delivers

While a transfer is open the receiver holds the data frames of its source
that came in since the announcement, in the order of their numbers. For a
connection they are those addressed to the destination of the RTS. For a
broadcast the receiver does not look at the destination at all, so that a
data frame the source meant for a single node is taken for the broadcast's
own (`StrayData`). In every run without such a frame each delivered message
is what its announcement and its data frames say.
-/

namespace Machbus.TpRxFixed

open Tp List
open TransportProtocol (IsDt)

variable {N : ℕ} {rx rx' : TpRxFixed N} {f ann : Frame} {history post : List Frame}
  {out : TpRxFixedOutcome N}

/-! ## What the history says -/

/-- The frame is an announcement that opens a transfer. -/
def Announces (rx : TpRxFixed N) (f : Frame) : Prop :=
  f.pgn = pgnTpCm ∧ (f.data.b0 = TpCm.rts ∨ f.data.b0 = TpCm.bam) ∧
    rx.active = false ∧ (rx.step f).active = true

/-- A data frame between two addresses: sequence number and payload. -/
def dataOf (source dest : Address) (f : Frame) : Option (ℕ × List UInt8) :=
  if IsDt f ∧ f.source = source ∧ f.destination = dest then some (f.data.b0.toNat, f.data.tail)
  else none

/-- The data frames between two addresses in a stretch of the run. -/
def dataIn (source dest : Address) (fs : List Frame) : List (ℕ × List UInt8) :=
  fs.filterMap (dataOf source dest)

/-- **The frame that is taken for a broadcast's.** While a broadcast is
being received, its source sends a single node the data frame with the
number the broadcast is at. -/
def StrayData (rx : TpRxFixed N) (f : Frame) : Prop :=
  rx.active = true ∧ rx.broadcast = true ∧ IsDt f ∧ f.source = rx.source ∧
    f.destination ≠ broadcastAddress ∧ f.data.b0.toNat = satAdd8 rx.lastSequence 1
  deriving Decidable

/-- **The books of an open transfer.** Its announcement is the last one
that opened a transfer, and since then the data frames from its source to
exactly its destination have filled the buffer. -/
structure Receiving (history : List Frame) (rx : TpRxFixed N) (ann : Frame) (post : List Frame) :
    Prop where
  since : SinceLast step Announces (new : TpRxFixed N) history ann post
  pgn : rx.pgn = pgnFromCmBytes ann.data
  source : rx.source = ann.source
  destination : rx.destination = announcedDestination ann
  totalBytes : rx.totalBytes = sizeFromCmBytes ann.data
  broadcast : rx.broadcast = true → rx.destination = broadcastAddress
  packets : divCeil rx.totalBytes tpBytesPerFrame ≤ 255
  unfinished : rx.lastSequence * 7 < rx.totalBytes
  assembled : Assembled 7 rx.totalBytes rx.lastSequence rx.data.bytes
    (dataIn rx.source rx.destination post)

/-- The books are in order whenever a transfer is open. -/
def Booked (history : List Frame) (rx : TpRxFixed N) : Prop :=
  rx.active = true → ∃ ann post, Receiving history rx ann post

/-! ## One frame -/

/-- While a transfer is open nothing else is announced. -/
theorem not_announces (hactive : rx.active = true) : ¬Announces rx f := by
  rintro ⟨-, -, hidle, -⟩
  rw [hactive] at hidle
  cases hidle

section

variable (h : Receiving history rx ann post)
include h

/-- The number a transfer is at. -/
theorem Receiving.expected : satAdd8 rx.lastSequence 1 = rx.lastSequence + 1 := by
  have hpackets := h.packets
  have hopen := h.unfinished
  rw [divCeil, tpBytesPerFrame] at hpackets
  rw [satAdd8]
  omega

/-- A frame that is no data frame of the transfer leaves its books as they
are. -/
theorem Receiving.bystander (hrx : run step new history = rx)
    (hactive : rx.active = true) (hdata : dataOf rx.source rx.destination f = none) :
    Receiving (history ++ [f]) rx ann (post ++ [f]) := by
  have hin : dataIn rx.source rx.destination (post ++ [f]) =
      dataIn rx.source rx.destination post := by
    rw [dataIn, filterMap_append, filterMap_cons_none hdata, filterMap_nil, append_nil, dataIn]
  refine { h with since := h.since.extend ?_, assembled := ?_ }
  · rw [hrx]
    exact not_announces hactive
  · rw [hin]
    exact h.assembled

/-- **The next packet** continues the books. -/
theorem Receiving.ingest (hf : IsDt f)
    (hsource : f.source = rx.source) (hdest : f.destination = rx.destination)
    (hseq : f.data.b0.toNat = satAdd8 rx.lastSequence 1) :
    Assembled 7 rx.totalBytes f.data.b0.toNat (rx.ingested f).data.bytes
      (dataIn rx.source rx.destination (post ++ [f])) := by
  rw [h.expected] at hseq
  have hdata : dataOf rx.source rx.destination f = some (rx.lastSequence + 1, f.data.tail) := by
    rw [dataOf, if_pos ⟨hf, hsource, hdest⟩, hseq]
  have hin : dataIn rx.source rx.destination (post ++ [f]) =
      dataIn rx.source rx.destination post ++ [(rx.lastSequence + 1, f.data.tail)] := by
    rw [dataIn, filterMap_append, filterMap_cons_some hdata, filterMap_nil, dataIn]
  have hnext := h.assembled.next (show f.data.tail.length = 7 from rfl) h.unfinished
  rw [hin]
  simp only [ingested, FixedBytes.write]
  rw [hseq]
  exact hnext

/-- Without a stray frame, what a transfer takes in is addressed to it. -/
theorem Receiving.destination_eq (hstray : ¬StrayData rx f)
    (hactive : rx.active = true) (hf : IsDt f) (hsource : f.source = rx.source)
    (hdest : rx.broadcast = false → f.destination = rx.destination)
    (hseq : f.data.b0.toNat = satAdd8 rx.lastSequence 1) : f.destination = rx.destination := by
  rcases hb : rx.broadcast with _ | _
  · exact hdest hb
  · rw [h.broadcast hb]
    by_contra hne
    exact hstray ⟨hactive, hb, hf, hsource, hne, hseq⟩

end

/-- An announcement opens the books. -/
theorem receiving_opened (hrx : run step new history = rx) (hidle : rx.active = false)
    (hcm : f.pgn = pgnTpCm) (hcontrol : f.data.b0 = TpCm.rts ∨ f.data.b0 = TpCm.bam)
    (hopened : Opened f (rx.step f)) : Receiving (history ++ [f]) (rx.step f) f [] where
  since := by
    refine .start ?_
    rw [hrx]
    exact ⟨hcm, hcontrol, hidle, hopened.active⟩
  pgn := hopened.pgn
  source := hopened.source
  destination := hopened.destination
  totalBytes := hopened.totalBytes
  broadcast hb := by
    rw [hopened.destination, announcedDestination, if_pos (hopened.broadcast.mp hb)]
  packets := hopened.packets
  unfinished := by
    rw [hopened.lastSequence, hopened.totalBytes]
    have := hopened.nonempty
    omega
  assembled := by
    rw [hopened.lastSequence]
    refine .start ?_
    rw [hopened.data, hopened.totalBytes, length_replicate]

/-- **A frame keeps the books**, unless it is a stray one. -/
theorem booked_step (hrx : run step new history = rx) (h : Booked history rx)
    (hstray : ¬StrayData rx f) : Booked (history ++ [f]) (rx.step f) := by
  obtain ⟨out, -, hstep⟩ : Steps rx f (rx.processFrame f) := processFrame_step rx f
  change RxStep rx f (rx.step f) out at hstep
  generalize hnext : rx.step f = rx' at hstep
  intro hactive'
  cases hstep with
  | ignored response hdt =>
    obtain ⟨ann, post, hrec⟩ := h hactive'
    refine ⟨ann, post ++ [f], hrec.bystander hrx hactive' ?_⟩
    rw [dataOf, if_neg]
    rintro ⟨hf, hsource, hdest⟩
    exact (hdt hf hactive' hsource).2 hdest
  | dropped | delivered => cases hactive'
  | opened response hidle hcm hcontrol hopened =>
    subst hnext
    exact ⟨f, [], receiving_opened hrx hidle hcm hcontrol hopened⟩
  | advanced start size response hf hactive hsource hdest hseq hpos hmore =>
    obtain ⟨ann, post, hrec⟩ := h hactive
    have hto := hrec.destination_eq hstray hactive hf hsource hdest hseq
    have hsince := hrec.since.extend (b := f) (by rw [hrx]; exact not_announces hactive)
    exact ⟨ann, post ++ [f], { hrec with
      since := hsince, unfinished := hmore, assembled := hrec.ingest hf hsource hto hseq }⟩

/-- **Every run.** Without stray frames the books are in order
throughout. -/
theorem booked_run (history : List Frame)
    (h : Along step (fun rx f => ¬StrayData rx f) (new : TpRxFixed N) history) :
    Booked history (run step (new : TpRxFixed N) history) := by
  refine run_induction_history (I := fun history (rx : TpRxFixed N) =>
    Along step (fun rx f => ¬StrayData rx f) (new : TpRxFixed N) history → Booked history rx)
    ?_ ?_ history h
  · intro _ hactive
    cases hactive
  · intro history f ih halong
    obtain ⟨hbefore, hstray⟩ := (along_concat step).mp halong
    exact booked_step rfl (ih hbefore) hstray

/-! ## Delivery -/

/-- **What a message should be.** It answers the last announcement that
opened a transfer: it carries that PGN, source and destination, and its
bytes are the payloads of the data frames that came in since, from that
source to exactly that destination, numbered `1..n` in order and cut to
the announced size. -/
def Sound (history : List Frame) (f : Frame) (m : FixedMessage N) : Prop :=
  ∃ ann post n, SinceLast step Announces (new : TpRxFixed N) history ann post ∧
    m.pgn = pgnFromCmBytes ann.data ∧ m.source = ann.source ∧
    m.destination = announcedDestination ann ∧
    (dataIn m.source m.destination (post ++ [f])).map Prod.fst = List.range' 1 n ∧
    m.data.bytes = ((dataIn m.source m.destination (post ++ [f])).flatMap Prod.snd).take
      (sizeFromCmBytes ann.data) ∧
    m.data.bytes.length = sizeFromCmBytes ann.data

/-- **Delivery is sound.** In every run without a stray data frame, each
message the receiver returns is what its announcement and the data frames
behind it say. -/
theorem fixed_delivery_sound (history : List Frame) (f : Frame) (out : TpRxFixedOutcome N)
    (m : FixedMessage N)
    (hrun : Along step (fun rx f => ¬StrayData rx f) (new : TpRxFixed N) (history ++ [f]))
    (hout : ((run step (new : TpRxFixed N) history).processFrame f).2 = .ok out)
    (hm : out.message = some m) : Sound history f m := by
  obtain ⟨hbefore, hstray⟩ := (along_concat step).mp hrun
  have hbooked := booked_run history hbefore
  generalize run step (new : TpRxFixed N) history = rx at hout hstray hbooked
  obtain ⟨out', hout', hstep⟩ : Steps rx f (rx.processFrame f) := processFrame_step rx f
  have hsame : out' = out := by
    rw [hout'] at hout
    exact Except.ok.inj hout
  subst hsame
  generalize (rx.processFrame f).1 = rx' at hstep
  cases hstep with
  | ignored | dropped | opened | advanced => cases hm
  | delivered response hf hactive hsource hdest hseq hpos hlast =>
    obtain ⟨ann, post, hrec⟩ := hbooked hactive
    have hto := hrec.destination_eq hstray hactive hf hsource hdest hseq
    have hasm := hrec.ingest hf hsource hto hseq
    obtain rfl := Option.some.inj hm
    refine ⟨ann, post, f.data.b0.toNat, hrec.since, hrec.pgn, hrec.source, hrec.destination,
      hasm.numbered, ?_, ?_⟩
    · rw [← hrec.totalBytes]
      exact hasm.whole hlast
    · rw [← hrec.totalBytes]
      exact hasm.length

/-- A broadcast of nine bytes is announced and begun. -/
def broadcastBegun : List Frame :=
  [makeCm 0x10 broadcastAddress TpCm.bam 9 0 2 0xFF 0xFECA,
    makeDt 0x10 broadcastAddress 1 [1, 2, 3, 4, 5, 6, 7]]

/-- Nine bytes that are delivered. -/
def nineDelivered : FixedMessage 16 where
  pgn := 0xFECA
  data := ⟨[1, 2, 3, 4, 5, 6, 7, 8, 9], by decide⟩
  source := 0x10
  destination := broadcastAddress
  priority := .lowest
  timestampUs := 0

theorem fixed_delivery_sound_broadcast :
    ((run step (new : TpRxFixed 16) broadcastBegun).processFrame
        (makeDt 0x10 broadcastAddress 2 [8, 9])).2 = .ok { message := some nineDelivered } ∧
      Sound broadcastBegun (makeDt 0x10 broadcastAddress 2 [8, 9]) nineDelivered :=
  ⟨by decide, fixed_delivery_sound broadcastBegun _ { message := some nineDelivered } nineDelivered
    ⟨by decide, by decide, by decide, trivial⟩ (by decide) rfl⟩

/-- **Another node's data in a broadcast.** The second packet is one the
source addressed to node `0x20`; the broadcast is delivered with it, though
only seven bytes were ever broadcast. -/
theorem broadcast_takes_addressed_data :
    ((run step (new : TpRxFixed 16) broadcastBegun).processFrame
        (makeDt 0x10 0x20 2 [8, 9])).2 = .ok { message := some nineDelivered } ∧
      ¬Sound broadcastBegun (makeDt 0x10 0x20 2 [8, 9]) nineDelivered := by
  refine ⟨by decide, ?_⟩
  rintro ⟨ann, post, n, ⟨pre, hsplit, -⟩, -, -, -, -, hbytes, -⟩
  -- what is behind any announcement is a part of the whole history
  have hpart : (dataIn 0x10 broadcastAddress (post ++ [makeDt 0x10 0x20 2 [8, 9]])).Sublist
      (dataIn 0x10 broadcastAddress (broadcastBegun ++ [makeDt 0x10 0x20 2 [8, 9]])) := by
    refine .filterMap _ (.append_right ?_ _)
    rw [hsplit]
    exact (sublist_cons_self ann post).trans (sublist_append_right pre _)
  have hle : ((dataIn 0x10 broadcastAddress (post ++ [makeDt 0x10 0x20 2 [8, 9]])).flatMap
      Prod.snd).length ≤ 7 := by
    rcases sublist_singleton.mp hpart with h | h
    all_goals
      rw [h]
      decide
  have hlen : 9 = (((dataIn 0x10 broadcastAddress (post ++ [makeDt 0x10 0x20 2 [8, 9]])).flatMap
      Prod.snd).take (sizeFromCmBytes ann.data)).length := congrArg List.length hbytes
  rw [length_take] at hlen
  omega

end Machbus.TpRxFixed
