import Machbus.Tp.Helpers.Frames
/-!
# TP — the two ends of a transfer, packet by packet

The sender and the receiver are determined by how many packets have gone
out and how many have come in. `sender` and `receiver` are the engines at
those points, and there is one equation for each frame of the exchange,
one for each packet a broadcast sender's timer cuts, and what draining and
time do to the two ends when they send nothing.
-/

namespace Machbus.Tp.Transfer

open TransportProtocol Nat
variable (x : Transfer) {k j : ℕ}

/-! ## The points of a transfer -/

/-- The data frames of the whole message. -/
def packets : ℕ := divCeil x.data.length tpBytesPerFrame

/-- The window the sender advertises. -/
def advertised : ℕ := min (max x.window.toNat 1) tpMaxPacketsPerCts

/-- The window the receiver grants after `k` packets. -/
def grant (k : ℕ) : ℕ := min (x.packets - k) x.advertised

section

variable (state : SessionState)

/-- The transmit session with `k` packets sent. -/
def txSession (k packetsToSend timerMs : ℕ) : TransportSession :=
  { direction := .transmit
    state := state
    pgn := x.pgn
    data := x.data
    totalBytes := x.data.length
    bytesTransferred := min (k * 7) x.data.length
    sourceAddress := x.source
    destinationAddress := x.dest
    canPort := x.portA
    priority := x.priority
    lastSequence := k
    packetsToSend := packetsToSend
    advertisedPacketsPerCts := x.advertised
    timerMs := timerMs }

/-- The receive session with `j` packets received, in the window of
`size` packets from `start` on. -/
def rxSession (maxPackets j start size timerMs : ℕ) : TransportSession :=
  { direction := .receive
    state := state
    pgn := x.pgn
    data := bufferUpTo 0xFF x.data (j * 7)
    totalBytes := x.data.length
    bytesTransferred := min (j * 7) x.data.length
    sourceAddress := x.source
    destinationAddress := x.dest
    canPort := x.portB
    priority := .lowest
    lastSequence := j
    maxPacketsPerCts := maxPackets
    ctsWindowStart := start
    ctsWindowSize := size
    timerMs := timerMs }

/-- The sending engine with a table and what it has completed. -/
def sender (sessions done : List TransportSession) : TransportProtocol :=
  { withAdvertisedPacketsPerCts x.window with
    sessions := sessions
    onComplete := done }

/-- The receiving engine with a table and what it has completed. -/
def receiver (sessions done : List TransportSession) : TransportProtocol :=
  { withMaxReceiveBytes x.cap with sessions := sessions, onComplete := done }

/-- The data frame that carries packet `i`, counted from zero. -/
def packet (i : ℕ) : Frame :=
  makeDt x.source x.dest (i + 1) (readBlock 0xFF x.data.length x.data (i * 7) 7)

/-- The `n` data frames from packet `j` on. -/
def packetsFrom (j n : ℕ) : List Frame := (List.range' j n).map x.packet

/-! ## Sizes -/

/-- The packets cover the message, and all of them are needed. -/
theorem packets_spec :
    (x.packets - 1) * 7 < x.data.length ∧ x.data.length ≤ x.packets * 7 ∧ 2 ≤ x.packets ∧
      x.packets ≤ 255 := by
  have h₁ := x.length_gt
  have h₂ := x.length_le
  simp only [canDataLength, tpMaxDataLength] at h₁ h₂
  simp only [packets, divCeil, tpBytesPerFrame]
  omega

theorem lt_length (h : k < x.packets) : k * 7 < x.data.length := by
  have := x.packets_spec
  omega

theorem advertised_pos : 0 < x.advertised ∧ x.advertised ≤ 16 := by
  simp only [advertised, tpMaxPacketsPerCts]
  omega

theorem grant_pos (h : k < x.packets) :
    0 < x.grant k ∧ k + x.grant k ≤ x.packets ∧ x.grant k ≤ 16 := by
  have := x.advertised_pos
  simp only [grant]
  omega

theorem source_valid : validTpSource x.source = true := by
  have h := x.source_le
  simp only [validTpSource, Bool.and_eq_true, bne_iff_ne]
  constructor
  all_goals
    rintro h'
    rw [h'] at h
    exact absurd h (by decide)

theorem dest_valid : validTpDestination x.dest = true := by
  simpa [validTpDestination] using x.dest_ne

theorem shape_valid : validTpPayloadShape x.data.length x.packets = true := by
  have h₁ := x.length_gt
  have h₂ := x.length_le
  have h₃ := x.packets_spec
  simp only [validTpPayloadShape, Bool.and_eq_true, decide_eq_true_eq]
  exact ⟨⟨⟨h₁, h₂⟩, by omega⟩, rfl⟩

/-- All bytes are out with the last packet. -/
theorem txSession_done {state : SessionState} {k pts timerMs : ℕ} :
    (x.txSession state k pts timerMs).totalBytes ≤
      (x.txSession state k pts timerMs).bytesTransferred ↔ x.packets ≤ k := by
  have := x.packets_spec
  simp only [txSession]
  omega

/-- They are in with the last packet. -/
theorem rxSession_done {state : SessionState} {maxPackets j start size timerMs : ℕ} :
    (x.rxSession state maxPackets j start size timerMs).totalBytes ≤
      (x.rxSession state maxPackets j start size timerMs).bytesTransferred ↔ x.packets ≤ j := by
  have := x.packets_spec
  simp only [rxSession]
  omega

/-! ## Cutting the message -/

/-- **The sender's loop.** `c` packets from packet `k` on. -/
theorem generateDataFrames_txSession (pts timerMs : ℕ) {k c : ℕ} (h : k + c ≤ x.packets) :
    generateDataFrames (x.txSession state k pts timerMs) c =
      (x.txSession state (k + c) pts timerMs, x.packetsFrom k c) := by
  induction c generalizing k with
  | zero => rfl
  | succ c ih =>
    have hN := x.packets_spec
    -- neither counter wraps or runs past the end
    have hseq : (k + 1) % 256 = k + 1 := mod_eq_of_lt (by omega)
    have hoff : min (k * 7) x.data.length = k * 7 := min_eq_left (by omega)
    have hbytes : min (k * 7 + 7) x.data.length = min ((k + 1) * 7) x.data.length := by omega
    have hrest := ih (k := k + 1) (by omega)
    rw [generateDataFrames, if_neg (mt x.txSession_done.mp (by omega))]
    simp only [txSession, tpBytesPerFrame, hseq, hoff, hbytes] at hrest ⊢
    rw [hrest, packetsFrom, packetsFrom, List.range'_succ, List.map_cons, packet,
      add_right_comm k 1 c, add_assoc k c 1]

/-- **A packet arrives.** What the receiver has copied in after packet
`j` is the message up to packet `j + 1`. -/
theorem ingest_rxSession (maxPackets start size timerMs : ℕ) (h : j < x.packets) :
    ingest (x.rxSession state maxPackets j start size timerMs) (j + 1)
        (readBlock 0xFF x.data.length x.data (j * 7) 7) =
      x.rxSession state maxPackets (j + 1) start size 0 := by
  have hlt := x.lt_length h
  have hbuf : writeBlock x.data.length (bufferUpTo 0xFF x.data (j * 7)) (j * 7)
      (readBlock 0xFF x.data.length x.data (j * 7) 7) = bufferUpTo 0xFF x.data (j * 7 + 7) :=
    writeBlock_readBlock (le_of_lt hlt)
  simp only [ingest, rxSession, Nat.add_sub_cancel, tpBytesPerFrame]
  rw [hbuf]
  simp only [Nat.add_mul]

end

/-! ## The exchange in connection mode -/

/-- The RTS that announces the message. -/
def rts : Frame := makeRts (x.txSession .waitingForCTS 0 0 0)

/-- The CTS that grants the window after `k` packets. -/
def cts (k : ℕ) : Frame := makeCts x.dest x.source (x.grant k) (k + 1) x.pgn

/-- The acknowledgement of the whole message. -/
def eoma : Frame := makeEoma x.dest x.source x.data.length x.packets x.pgn

variable {x} {b0 b1 b2 b3 b4 : UInt8}

/-- The receiver can answer the sender. -/
theorem source_valid_dest : validTpDestination x.source = true ∧ x.source ≠ broadcastAddress := by
  have h := x.source_valid
  simp only [validTpSource, Bool.and_eq_true, bne_iff_ne] at h
  exact ⟨by simpa [validTpDestination] using h.1, h.2⟩

section

variable (hd : x.dest ≠ broadcastAddress)
include hd

/-- What the sender reads off a control frame of the receiver. -/
theorem read_backward {f : Frame} (hf : f = makeCm x.dest x.source b0 b1 b2 b3 b4 x.pgn) :
    IsCm b0 f ∧ f.source = x.dest ∧ f.destination = x.source ∧ pgnFromCmBytes f.data = x.pgn := by
  have hdest : validTpSource x.dest = true := by
    have := x.dest_ne
    simp_all [validTpSource]
  rw [hf]
  exact ⟨isCm_makeCm hdest source_valid_dest.1 x.pgn_valid fun _ => source_valid_dest.2,
    makeCm_source, makeCm_destination, pgnFromCmBytes_makeCm x.pgn_valid⟩

/-- **The call.** A directed message opens a session and goes out as an
RTS. -/
theorem sent_directed : x.sent = (x.sender [x.txSession .waitingForCTS 0 0 0] [], .ok [x.rts]) := by
  have h₁ := x.length_gt
  have h₂ := x.length_le
  rw [sent, send, if_neg (by simp [x.pgn_valid]), if_neg (by simp [x.source_valid]),
    if_neg (by simp [x.dest_valid]), if_neg (by omega), if_neg (by omega), if_neg hd]
  rfl

/-- **RTS received.** The receiver opens its session and grants the first
window. -/
theorem receive_rts : (x.receiver [] []).processFrame x.rts x.portB =
      (x.receiver [x.rxSession .waitingForData x.advertised 0 1 (x.grant 0) 0] [], [x.cts 0]) := by
  have hcap := x.cap_ge
  have hlen := x.length_le
  have hN := x.packets_spec
  have hW := x.advertised_pos
  -- what the receiver reads off the frame
  have hcm : IsCm TpCm.rts x.rts :=
    isCm_makeCm x.source_valid x.dest_valid x.pgn_valid fun _ => hd
  have hsrc : x.rts.source = x.source := makeCm_source
  have hdst : x.rts.destination = x.dest := makeCm_destination
  have hprio : x.rts.priority = .lowest := makeCm_priority
  have hpgn : pgnFromCmBytes x.rts.data = x.pgn := pgnFromCmBytes_makeCm x.pgn_valid
  have hsize : sizeFromCmBytes x.rts.data = x.data.length := sizeFromCmBytes_makeCm x.length_le
  have hpackets : x.rts.data.b3.toNat = x.packets := toNat_ofNat_of_le hN.2.2.2
  have hwindow : x.rts.data.b4.toNat = x.advertised :=
    toNat_ofNat_of_le (n := x.advertised) (by omega)
  have hgrants : x.rts.data.b4 ≠ 0 := by
    intro h
    rw [h] at hwindow
    exact absurd hwindow.symm hW.1.ne'
  have hfits : x.data.length ≤ (x.receiver [] []).maxReceiveBytes := Nat.le_min.mpr ⟨hcap, hlen⟩
  have hmin : min x.advertised tpMaxPacketsPerCts = x.advertised := min_eq_left hW.2
  rw [processFrame_cm hcm, if_pos rfl, handleRts_idle rfl
    (by decide : 0 < 32) (by rw [hsize, hpackets]; exact x.shape_valid) hgrants
    (by rw [hsize]; exact hfits)]
  simp only [rtsSession, hsrc, hdst, hprio, hpgn, hsize, hpackets, hwindow, hmin]
  rfl

/-- **CTS received.** The sender is cleared to send the granted window. -/
theorem receive_cts (hk : k < x.packets) (pts timerMs : ℕ) :
    (x.sender [x.txSession .waitingForCTS k pts timerMs] []).processFrame (x.cts k) x.portA =
      (x.sender [x.txSession .sendingData k (x.grant k) 0] [], []) := by
  have hN := x.packets_spec
  have hlt := x.lt_length hk
  obtain ⟨hpos, hfit, h16⟩ := x.grant_pos hk
  obtain ⟨hcm, hsrc, hdst, hpgn⟩ := read_backward hd (f := x.cts k) rfl
  have hnum : (x.cts k).data.b1.toNat = x.grant k := toNat_ofNat_of_le (by omega)
  have hnext : (x.cts k).data.b2.toNat = k + 1 := toNat_ofNat_of_le (by omega)
  have htotal : (x.txSession .waitingForCTS k pts timerMs).totalPackets = x.packets := rfl
  -- the window starts where the sender stopped, so nothing is sent again
  have hnew : ¬k + 1 - 1 < divCeil (min (k * 7) x.data.length) tpBytesPerFrame := by
    simp only [divCeil, tpBytesPerFrame]
    omega
  have hgranted : grantedPackets (x.txSession .waitingForCTS k pts timerMs) (x.grant k) (k + 1) =
      x.grant k := by
    have h16' : (x.txSession .waitingForCTS k pts timerMs).maxPacketsPerCts = 16 := rfl
    rw [grantedPackets]
    omega
  have haccept : acceptCts (withAdvertisedPacketsPerCts x.window).maxRetransmits
      (x.txSession .waitingForCTS k pts timerMs) (x.grant k) (k + 1) =
      .ok (x.txSession .sendingData k (x.grant k) 0) := by
    have hstate : (x.txSession .waitingForCTS k pts timerMs).state ≠ .sendingData := by
      simp [txSession]
    have hbytes : (x.txSession .waitingForCTS k pts timerMs).bytesTransferred =
        min (k * 7) x.data.length := rfl
    have hoff : (k + 1 - 1) * 7 = min (k * 7) x.data.length := by
      rw [Nat.min_eq_left (Nat.le_of_lt hlt), Nat.add_sub_cancel]
    simp only [acceptCts]
    rw [if_neg hstate, if_neg (by omega), if_neg (by omega), hbytes, if_neg hnew, hgranted, hoff]
    rfl
  rw [processFrame_cm hcm, if_neg (by decide), if_pos rfl, handleCts, hsrc, hdst, hpgn, hnum,
    hnext, sessionPosition_single rfl (by simp [txSession])]
  simp only [sender]
  rw [sessionAt_single rfl, haccept]
  rfl

end

/-- What the sender waits for after `k` packets. -/
def waitState (x : Transfer) (k : ℕ) : SessionState :=
  if k = x.packets then .waitingForEndOfMsg else .waitingForCTS

/-- **The window is drained.** -/
theorem pending_window (hd : x.dest ≠ broadcastAddress) (hk : k < x.packets) (timerMs : ℕ) :
    (x.sender [x.txSession .sendingData k (x.grant k) timerMs] []).getPendingDataFrames =
      (x.sender [x.txSession (x.waitState (k + x.grant k)) (k + x.grant k) (x.grant k) 0] [],
        x.packetsFrom k (x.grant k)) := by
  obtain ⟨hpos, hfit, h16⟩ := x.grant_pos hk
  have hopen : (x.txSession .sendingData k (x.grant k) timerMs).isBroadcast = false := by
    simpa [TransportSession.isBroadcast, txSession] using hd
  have hgen := x.generateDataFrames_txSession .sendingData (x.grant k) timerMs hfit
  have hdrain : drain (x.txSession .sendingData k (x.grant k) timerMs) =
      (x.txSession (x.waitState (k + x.grant k)) (k + x.grant k) (x.grant k) 0,
        x.packetsFrom k (x.grant k)) := by
    have hpts : (x.txSession .sendingData k (x.grant k) timerMs).packetsToSend = x.grant k := rfl
    rw [drain, if_pos ⟨rfl, rfl, hopen⟩, hpts, hgen]
    by_cases hlast : k + x.grant k = x.packets
    · -- the message is out
      simp only [if_pos (x.txSession_done.mpr hlast.ge), waitState, if_pos hlast]
      rfl
    have hmore : ¬x.packets ≤ k + x.grant k := by omega
    simp only [if_neg (mt x.txSession_done.mp hmore), waitState, if_neg hlast]
    rfl
  rw [getPendingDataFrames_single rfl, hdrain]
  rfl

/-! ## Packets at the receiver -/

variable (x) in
/-- The completed receive session. -/
def received (maxPackets start size : ℕ) (state : SessionState) : TransportSession :=
  { x.rxSession state maxPackets x.packets start size 0 with state := .complete }

section

variable {state : SessionState} (hstate : state = .waitingForData ∨ state = .receivingData)
  (maxPackets start size timerMs : ℕ)
include hstate

/-- What the engine does with packet `j` is decided by the session it
fills. -/
theorem receive_packet (hj : j < x.packets) :
    (x.receiver [x.rxSession state maxPackets j start size timerMs] []).processFrame (x.packet j)
        x.portB =
      (x.receiver [x.rxSession state maxPackets j start size timerMs] []).acceptDt 0 (j + 1)
        (readBlock 0xFF x.data.length x.data (j * 7) 7) := by
  have hN := x.packets_spec
  have hsrc : (x.packet j).source = x.source := makeDt_source
  have hdst : (x.packet j).destination = x.dest := makeDt_destination
  have hdt : IsDt (x.packet j) :=
    ⟨⟨Nat.le_refl _, hsrc ▸ x.source_valid, hdst ▸ x.dest_valid⟩, makeDt_pgn⟩
  have hseq : (x.packet j).data.b0.toNat = j + 1 := toNat_ofNat_of_le (by omega)
  have htail : (x.packet j).data.tail = readBlock 0xFF x.data.length x.data (j * 7) 7 :=
    Bytes8.tail_padded _ (length_readBlock _ _ _ _ _)
  rw [processFrame_dt hdt, handleDt_single rfl (by rw [hsrc, hdst]; rfl) hstate (by rw [hseq]; rfl),
    hseq, htail]

/-- **A packet with more to come.** -/
theorem receive_packet_more (hj : j + 1 < x.packets) :
    (x.receiver [x.rxSession state maxPackets j start size timerMs] []).processFrame (x.packet j)
        x.portB =
      (x.receiver [(advanceWindow (x.rxSession state maxPackets (j + 1) start size 0) (j + 1)).1]
        [], (advanceWindow (x.rxSession state maxPackets (j + 1) start size 0) (j + 1)).2) := by
  have hin := x.ingest_rxSession state maxPackets start size timerMs (j := j) (by omega)
  rw [receive_packet hstate maxPackets start size timerMs (by omega)]
  simp only [acceptDt]
  rw [sessionAt_single rfl, hin, if_neg (mt x.rxSession_done.mp (by omega))]
  rfl

/-- **The last packet.** The buffer is the message. -/
theorem receive_packet_last (hj : j + 1 = x.packets) :
    (x.receiver [x.rxSession state maxPackets j start size timerMs] []).processFrame (x.packet j)
        x.portB =
      (x.receiver [] [x.received maxPackets start size state],
        if x.dest = broadcastAddress then [] else [x.eoma]) := by
  have hN := x.packets_spec
  have hin := x.ingest_rxSession state maxPackets start size timerMs (j := j) (by omega)
  have hmod : x.packets % 256 = x.packets := mod_eq_of_lt (by omega)
  have htotal : (x.rxSession state maxPackets (j + 1) start size 0).totalPackets = x.packets := rfl
  have hbc : (x.rxSession state maxPackets (j + 1) start size 0).isBroadcast =
      (x.dest == broadcastAddress) := rfl
  rw [receive_packet hstate maxPackets start size timerMs (by omega)]
  simp only [acceptDt]
  rw [sessionAt_single rfl, hin, if_pos (x.rxSession_done.mpr hj.ge), htotal, hmod, hbc]
  by_cases hd : x.dest = broadcastAddress
  · rw [if_pos hd, if_neg (by simp [hd]), hj]
    rfl
  · rw [if_neg hd, if_pos (by simp [hd]), hj]
    rfl

end

/-- **Inside the window** the receiver says nothing. -/
theorem receive_in_window (timerMs : ℕ) {k j : ℕ} (hkj : k ≤ j)
    (hj : j + 1 < k + x.grant k) (hk : k < x.packets) :
    (x.receiver [x.rxSession .waitingForData x.advertised j (k + 1) (x.grant k) timerMs]
        []).processFrame (x.packet j) x.portB =
      (x.receiver [x.rxSession .waitingForData x.advertised (j + 1) (k + 1) (x.grant k) 0] [],
        []) := by
  obtain ⟨hpos, hfit, h16⟩ := x.grant_pos hk
  have hwin : advanceWindow (x.rxSession .waitingForData x.advertised (j + 1) (k + 1) (x.grant k) 0)
      (j + 1) =
      (x.rxSession .waitingForData x.advertised (j + 1) (k + 1) (x.grant k) 0, []) := by
    rw [advanceWindow, if_neg]
    rintro ⟨-, h⟩
    simp only [rxSession] at h
    omega
  rw [receive_packet_more (Or.inl rfl) _ _ _ _ (by omega), hwin]

/-- **At the end of the window** the receiver grants the next one. -/
theorem receive_end_of_window (hd : x.dest ≠ broadcastAddress) (timerMs : ℕ) {k j : ℕ} (hkj : k ≤ j)
    (hj : j + 1 = k + x.grant k) (hmore : j + 1 < x.packets) :
    (x.receiver [x.rxSession .waitingForData x.advertised j (k + 1) (x.grant k) timerMs]
        []).processFrame (x.packet j) x.portB =
      (x.receiver [x.rxSession .waitingForData x.advertised (j + 1) (j + 1 + 1) (x.grant (j + 1)) 0]
        [], [x.cts (j + 1)]) := by
  have hN := x.packets_spec
  have hwin : advanceWindow (x.rxSession .waitingForData x.advertised (j + 1) (k + 1) (x.grant k) 0)
      (j + 1) =
      (x.rxSession .waitingForData x.advertised (j + 1) (j + 1 + 1) (x.grant (j + 1)) 0,
        [x.cts (j + 1)]) := by
    have hopen : (x.rxSession .waitingForData x.advertised (j + 1) (k + 1) (x.grant k)
        0).isBroadcast = false := by
      simpa [TransportSession.isBroadcast, rxSession] using hd
    have htotal : (x.rxSession .waitingForData x.advertised (j + 1) (k + 1) (x.grant k)
        0).totalPackets = x.packets := rfl
    have hmod : (x.packets - (j + 1)) % 256 = x.packets - (j + 1) := mod_eq_of_lt (by omega)
    simp only [advanceWindow]
    rw [if_pos ⟨hopen, by simp only [rxSession]; omega⟩, htotal, hmod]
    rfl
  rw [receive_packet_more (Or.inl rfl) _ _ _ _ hmore, hwin]

/-- **EOMA received.** The sender is done. -/
theorem receive_eoma (hd : x.dest ≠ broadcastAddress) (pts timerMs : ℕ) :
    (x.sender [x.txSession .waitingForEndOfMsg x.packets pts timerMs] []).processFrame x.eoma
        x.portA =
      (x.sender [] [x.txSession .complete x.packets pts timerMs], []) := by
  have hN := x.packets_spec
  obtain ⟨hcm, hsrc, hdst, hpgn⟩ := read_backward hd (f := x.eoma) rfl
  have hsize : sizeFromCmBytes x.eoma.data = x.data.length := sizeFromCmBytes_makeCm x.length_le
  have hpackets : x.eoma.data.b3.toNat = x.packets := toNat_ofNat_of_le hN.2.2.2
  rw [processFrame_cm hcm, if_neg (by decide), if_neg (by decide), if_pos rfl,
    handleEoma_single rfl (by rw [hsrc, hdst]; rfl) (by rw [hpgn]; rfl) rfl (by rw [hsize]; rfl)
      (by rw [hpackets]; exact (mod_eq_of_lt (by omega)).symm)]
  rfl

open TransportSession
variable {done : List TransportSession} {timerMs elapsedMs : ℕ} {state : SessionState}

/-! ## Draining and time, when nothing is sent -/

theorem pump_idle {t : TransportProtocol} (hs : t.sessions = []) (p : Pump) : pump t p =
    (t, []) := by
  cases p with
  | pending =>
    rcases t with ⟨sessions⟩
    subst hs
    rfl
  | update elapsedMs => exact update_nil hs elapsedMs

/-- The receiver only grows older. -/
theorem pump_receiver {maxPackets j start size timerMs : ℕ} {p : Pump}
    (hin : InTime (x.receiver [x.rxSession state maxPackets j start size timerMs] done) p) :
    ∃ timerMs', pump (x.receiver [x.rxSession state maxPackets j start size timerMs] done) p =
      (x.receiver [x.rxSession state maxPackets j start size timerMs'] done, []) := by
  cases p with
  | pending =>
    refine ⟨timerMs, ?_⟩
    rw [pump, getPendingDataFrames_single rfl, drain_of_receive rfl]
    rfl
  | update elapsedMs =>
    refine ⟨satAdd32 timerMs elapsedMs, ?_⟩
    rw [pump, update_single_quiet rfl (hin _ (List.mem_singleton_self _)) fun _ => rfl]
    rfl

/-- In connection mode the sender only grows older, unless a granted
window is drained. -/
theorem pump_sender (hd : x.dest ≠ broadcastAddress) {k pts timerMs : ℕ} {p : Pump}
    (hin : InTime (x.sender [x.txSession state k pts timerMs] done) p)
    (hstate : p = .pending → state ≠ .sendingData) :
    ∃ timerMs', pump (x.sender [x.txSession state k pts timerMs] done) p =
      (x.sender [x.txSession state k pts timerMs'] done, []) := by
  cases p with
  | pending =>
    refine ⟨timerMs, ?_⟩
    have hdrain : drain (x.txSession state k pts timerMs) =
        (x.txSession state k pts timerMs, []) := by
      rw [drain, if_neg]
      rintro ⟨h, -⟩
      exact hstate rfl h
    rw [pump, getPendingDataFrames_single rfl, hdrain]
    rfl
  | update elapsedMs =>
    refine ⟨satAdd32 timerMs elapsedMs, ?_⟩
    have hquiet : (x.txSession state k pts timerMs).isBroadcast = true →
        (x.txSession state k pts timerMs).direction = .receive := by
      intro h
      exact absurd (by simpa [isBroadcast, txSession] using h) hd
    rw [pump, update_single_quiet rfl (hin _ (List.mem_singleton_self _)) hquiet]
    rfl

/-! ## The exchange after a BAM -/

/-- The BAM that announces the message. -/
def bam (x : Transfer) : Frame := makeBam (x.txSession .sendingData 0 0 0)

section

variable (hb : x.dest = broadcastAddress)
include hb

/-- **The call.** A broadcast opens a session and goes out as a BAM. -/
theorem sent_broadcast : x.sent = (x.sender [x.txSession .sendingData 0 0 0] [], .ok [x.bam]) := by
  have h₁ := x.length_gt
  have h₂ := x.length_le
  rw [sent, send, if_neg (by simp [x.pgn_valid]), if_neg (by simp [x.source_valid]),
    if_neg (by simp [x.dest_valid]), if_neg (by omega), if_neg (by omega), if_pos hb]
  rfl

/-- **BAM received.** -/
theorem receive_bam : (x.receiver [] []).processFrame x.bam x.portB =
      (x.receiver [x.rxSession .receivingData 16 0 1 0 0] [], []) := by
  have hcap := x.cap_ge
  have hlen := x.length_le
  have hN := x.packets_spec
  have hcm : IsCm TpCm.bam x.bam :=
    isCm_makeCm x.source_valid (by decide) x.pgn_valid fun h => absurd rfl h
  have hsrc : x.bam.source = x.source := makeCm_source
  have hprio : x.bam.priority = .lowest := makeCm_priority
  have hdst : x.bam.id.destination = broadcastAddress := makeCm_destination
  have hglobal : x.bam.isBroadcast = true := by
    simp [Frame.isBroadcast, Identifier.isBroadcast, hdst]
  have hpgn : pgnFromCmBytes x.bam.data = x.pgn := pgnFromCmBytes_makeCm x.pgn_valid
  have hsize : sizeFromCmBytes x.bam.data = x.data.length := sizeFromCmBytes_makeCm x.length_le
  have hpackets : x.bam.data.b3.toNat = x.packets := toNat_ofNat_of_le hN.2.2.2
  have hfits : x.data.length ≤ (x.receiver [] []).maxReceiveBytes := Nat.le_min.mpr ⟨hcap, hlen⟩
  rw [processFrame_bam hcm, handleBam_idle rfl
    (by decide : 0 < 32) hglobal (by rw [hsize, hpackets]; exact x.shape_valid)
    (by rw [hsize]; exact hfits)]
  simp only [bamSession, hsrc, hprio, hpgn, hsize, rxSession, hb]
  rfl

/-- **A broadcast packet with more to come.** -/
theorem receive_broadcast_more (timerMs : ℕ) {j : ℕ} (hj : j + 1 < x.packets) :
    (x.receiver [x.rxSession .receivingData 16 j 1 0 timerMs] []).processFrame
    (x.packet j) x.portB = (x.receiver [x.rxSession .receivingData 16 (j + 1) 1 0 0] [], []) := by
  have hwin : advanceWindow (x.rxSession .receivingData 16 (j + 1) 1 0 0) (j + 1) =
      (x.rxSession .receivingData 16 (j + 1) 1 0 0, []) := by
    simp only [advanceWindow]
    rw [if_neg]
    rintro ⟨h, -⟩
    simp [isBroadcast, rxSession, hb] at h
  rw [receive_packet_more (Or.inr rfl) _ _ _ _ hj, hwin]

/-- **The timer drives the broadcast.** Once the interval has passed, the
next packet goes out, and the session is done with the last of them. -/
theorem drive_sender (hk : k < x.packets) (hdue : tpBamInterPacketMs ≤ satAdd32 timerMs elapsedMs) :
    (x.sender [x.txSession .sendingData k 0 timerMs] []).update elapsedMs =
      (if k + 1 < x.packets then x.sender [x.txSession .sendingData (k + 1) 0 0] []
        else x.sender [] [x.txSession .complete x.packets 0 0], [x.packet k]) := by
  have hgen := x.generateDataFrames_txSession .sendingData 0 0 (k := k) (c := 1) (by omega)
  have hcond : ({ x.txSession .sendingData k 0 timerMs with
      timerMs := satAdd32 timerMs elapsedMs } : TransportSession).isBroadcast = true := by
    simp [isBroadcast, txSession, hb]
  have htick : tick elapsedMs (x.txSession .sendingData k 0 timerMs) =
      if k + 1 < x.packets then
        (some (x.txSession .sendingData (k + 1) 0 0), .sent [x.packet k])
      else (none, .completed (x.txSession .complete x.packets 0 0) [x.packet k]) := by
    have hgen' : generateDataFrames
        { x.txSession .sendingData k 0 timerMs with timerMs := 0 } 1 =
          (x.txSession .sendingData (k + 1) 0 0, [x.packet k]) := hgen
    simp only [tick]
    rw [if_pos ⟨hcond, rfl, rfl, hdue⟩]
    simp only [hgen']
    by_cases hlast : k + 1 < x.packets
    · rw [if_pos hlast, if_neg (mt x.txSession_done.mp (by omega))]
    have heq : k + 1 = x.packets := by omega
    rw [if_neg hlast, if_pos (x.txSession_done.mpr heq.ge), heq]
    rfl
  rw [update_single rfl, htick]
  by_cases hlast : k + 1 < x.packets
  · rw [if_pos hlast, if_pos hlast]
    rfl
  · rw [if_neg hlast, if_neg hlast]
    rfl

end

/-- Before the interval has passed the sender only grows older. -/
theorem wait_sender (hdue : ¬tpBamInterPacketMs ≤ satAdd32 timerMs elapsedMs) :
    (x.sender [x.txSession .sendingData k 0 timerMs] []).update elapsedMs =
      (x.sender [x.txSession .sendingData k 0 (satAdd32 timerMs elapsedMs)] [], []) := by
  have htick : tick elapsedMs (x.txSession .sendingData k 0 timerMs) =
      (some (x.txSession .sendingData k 0 (satAdd32 timerMs elapsedMs)), .quiet) := by
    simp only [tick]
    rw [if_neg, if_neg]
    · rfl
    · simp [timedOut, deadline, txSession]
    · rintro ⟨-, -, -, h⟩
      exact hdue h
  rw [update_single rfl, htick]
  rfl

/-- A broadcast is not drained. -/
theorem pending_broadcast (hb : x.dest = broadcastAddress) (k timerMs : ℕ) :
    (x.sender [x.txSession .sendingData k 0 timerMs] []).getPendingDataFrames =
      (x.sender [x.txSession .sendingData k 0 timerMs] [], []) := by
  have hdrain : drain (x.txSession .sendingData k 0 timerMs) =
      (x.txSession .sendingData k 0 timerMs, []) := by
    rw [drain, if_neg]
    rintro ⟨-, -, h⟩
    simp [isBroadcast, txSession, hb] at h
  rw [getPendingDataFrames_single rfl, hdrain]
  rfl

end Machbus.Tp.Transfer
