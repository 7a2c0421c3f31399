import Machbus.Etp.Helpers.Frames
/-!
# ETP — the two ends of a transfer, packet by packet

The sender is determined by how many packets have gone out, the receiver
by how many have come in and by the group it is in. There is one equation
for each frame of the exchange.
-/

namespace Machbus.Etp.Transfer

open ExtendedTransportProtocol List Nat
variable (x : Transfer) {k : ℕ} {timerMs : ℕ} {group : ℕ}

/-! ## The points of a transfer -/

/-- The data frames of the whole message. -/
def packets : ℕ := divCeil x.data.length tpBytesPerFrame

/-- The window the receiver grants after `k` packets. -/
def grant (k : ℕ) : ℕ := min (x.packets - k) tpMaxPacketsPerCts

/-- The transmit session with `k` packets sent. -/
def txSession (state : SessionState) (k packetsToSend timerMs : ℕ) : TransportSession :=
  { direction := .transmit
    state := state
    pgn := x.pgn
    data := x.data
    totalBytes := x.data.length
    bytesTransferred := min (k * 7) x.data.length
    sourceAddress := x.source
    destinationAddress := x.dest
    canPort := x.portA
    priority := x.priority
    packetsToSend := packetsToSend
    timerMs := timerMs }

/-- The receive session with `j` packets received, `last` of them in the
group of `group` packets at `offset`, and a window of `size` packets. -/
def rxSession (j offset size group last timerMs : ℕ) : TransportSession :=
  { direction := .receive
    state := .waitingForData
    pgn := x.pgn
    data := bufferUpTo 0xFF x.data (j * 7)
    totalBytes := x.data.length
    bytesTransferred := min (j * 7) x.data.length
    sourceAddress := x.source
    destinationAddress := x.dest
    canPort := x.portB
    priority := .lowest
    lastSequence := last
    packetsToSend := group
    ctsWindowSize := size
    dpoPacketOffset := offset
    timerMs := timerMs }

/-- The sending engine with a table and what it has completed. -/
def sender (sessions done : List TransportSession) : ExtendedTransportProtocol :=
  { ExtendedTransportProtocol.new with sessions := sessions, onComplete := done }

/-- The receiving engine with a table and what it has completed. -/
def receiver (sessions done : List TransportSession) : ExtendedTransportProtocol :=
  { withMaxReceiveBytes x.cap with
    sessions := sessions
    onComplete := done }

/-- Packet `m` of the group after `k` packets. -/
def packet (k m : ℕ) : Frame :=
  makeDt x.source x.dest (m + 1) (readBlock 0xFF x.data.length x.data ((k + m) * 7) 7)

/-- The DPO of the group after `k` packets. -/
def dpo (k : ℕ) : Frame := makeDpoFields x.pgn x.source x.dest (x.grant k) k

/-- The frames of the group after `k` packets: the DPO and then the
data. -/
def message (k : ℕ) : ℕ → Frame
  | 0 => x.dpo k
  | m + 1 => x.packet k m

/-- The RTS that announces the message. -/
def rts : Frame := makeRts (x.txSession .waitingForCTS 0 0 0)

/-- The CTS that grants the window after `k` packets. -/
def cts (k : ℕ) : Frame := makeCts x.dest x.source (x.grant k) (k + 1) x.pgn

/-- The acknowledgement of the whole message. -/
def eoma : Frame := makeEoma x.dest x.source x.data.length x.pgn

/-! ## Sizes -/

/-- The packets cover the message, and all of them are needed. They can
be counted in twenty-four bits. -/
theorem packets_spec :
    (x.packets - 1) * 7 < x.data.length ∧ x.data.length ≤ x.packets * 7 ∧ 256 ≤ x.packets ∧
      x.packets ≤ 0xFFFFFF := by
  have h₁ := x.length_gt
  have h₂ := x.length_le
  simp only [tpMaxDataLength, etpMaxDataLength] at h₁ h₂
  simp only [packets, divCeil, tpBytesPerFrame]
  omega

theorem lt_length (h : k < x.packets) : k * 7 < x.data.length := by
  have := x.packets_spec
  omega

theorem grant_pos (h : k < x.packets) :
    0 < x.grant k ∧ k + x.grant k ≤ x.packets ∧ x.grant k ≤ 16 := by
  simp only [grant, tpMaxPacketsPerCts]
  omega

theorem grant_zero : x.grant 0 = tpMaxPacketsPerCts := by
  have := x.packets_spec
  simp only [grant, tpMaxPacketsPerCts]
  omega

/-- The packets still missing after `k`. -/
theorem remaining_packets (h : k < x.packets) :
    divCeil (x.data.length - min (k * 7) x.data.length) 7 = x.packets - k := by
  have hN := x.packets_spec
  simp only [divCeil]
  omega

/-- All bytes are out with the last packet. -/
theorem txSession_done {state : SessionState} {pts : ℕ} :
    (x.txSession state k pts timerMs).totalBytes ≤
      (x.txSession state k pts timerMs).bytesTransferred ↔ x.packets ≤ k := by
  have := x.packets_spec
  simp only [txSession]
  omega

/-- They are in with the last packet. -/
theorem rxSession_done {offset size last : ℕ} :
    (x.rxSession k offset size group last timerMs).totalBytes ≤
      (x.rxSession k offset size group last timerMs).bytesTransferred ↔ x.packets ≤ k := by
  have := x.packets_spec
  simp only [rxSession]
  omega

theorem valid_of_le {a : Address} (h : a ≤ maxAddress) :
    validEtpSource a = true ∧ validEtpDestination a = true := by
  have hne : a ≠ nullAddress ∧ a ≠ broadcastAddress := by
    refine ⟨?_, ?_⟩
    all_goals
      rintro rfl
      exact absurd h (by decide)
  simp [validEtpSource, validEtpDestination, hne]

variable {x} {k m : ℕ} {b0 b1 b2 b3 b4 : UInt8}

/-- What either side reads off a control frame of the other. -/
theorem read_cm {src dst : Address} {f : Frame} (hsrc : src ≤ maxAddress) (hdst : dst ≤ maxAddress)
    (hf : f = makeCm src dst b0 b1 b2 b3 b4 x.pgn) : IsCm b0 f ∧ f.source = src ∧
      f.destination = dst ∧ pgnFromCmBytes f.data = x.pgn := by
  rw [hf]
  exact ⟨isCm_makeCm (valid_of_le hsrc).1 (valid_of_le hdst).2 x.pgn_valid, makeCm_source,
    makeCm_destination, pgnFromCmBytes_makeCm x.pgn_valid⟩

/-! ## The sender -/

/-- **The call.** The message opens a session and goes out as an RTS. -/
theorem sent_eq : x.sent = (sender [x.txSession .waitingForCTS 0 0 0] [], .ok [x.rts]) := by
  have h₁ := x.length_gt
  have h₂ := x.length_le
  rw [sent, send, if_neg (by simp [x.pgn_valid]), if_neg (by simp [(valid_of_le x.source_le).1]),
    if_neg (by simp [(valid_of_le x.dest_le).2]), if_neg (by omega), if_neg (by omega)]
  rfl

/-- **CTS received.** The sender is cleared to send the granted window. -/
theorem receive_cts (hk : k < x.packets) (pts timerMs : ℕ) :
    (sender [x.txSession .waitingForCTS k pts timerMs] []).processFrame (x.cts k) x.portA =
      (sender [x.txSession .sendingData k (x.grant k) 0] [], []) := by
  have hN := x.packets_spec
  have hlt := x.lt_length hk
  obtain ⟨hpos, hfit, h16⟩ := x.grant_pos hk
  obtain ⟨hcm, hsrc, hdst, hpgn⟩ := read_cm x.dest_le x.source_le (f := x.cts k) rfl
  have hnum : (x.cts k).data.b1.toNat = x.grant k := toNat_ofNat_of_le (by omega)
  have hnext : packetFromCmBytes (x.cts k).data = k + 1 := packetFromCmBytes_makeCm (by omega)
  have htotal : (x.txSession .waitingForCTS k pts timerMs).totalPackets = x.packets := rfl
  have hgranted : grantedPackets (x.txSession .waitingForCTS k pts timerMs) (x.grant k) (k + 1) =
      x.grant k := by
    rw [grantedPackets]
    simp only [tpMaxPacketsPerCts]
    omega
  have haccept : acceptCts (x.txSession .waitingForCTS k pts timerMs) (x.grant k) (k + 1) =
      .ok (x.txSession .sendingData k (x.grant k) 0) := by
    have hstate : (x.txSession .waitingForCTS k pts timerMs).state ≠ .sendingData := by
      simp [txSession]
    have hoff : (k + 1 - 1) * 7 = min (k * 7) x.data.length := by
      rw [Nat.min_eq_left (Nat.le_of_lt hlt), Nat.add_sub_cancel]
    rw [acceptCts, if_neg hstate, if_neg (by omega), if_neg (by omega), hgranted, hoff]
    rfl
  rw [processFrame_cm hcm, if_neg (by decide), if_pos rfl, handleCts, hsrc, hdst, hpgn, hnum,
    hnext, sessionPosition_single rfl (by simp [txSession])]
  simp only
  rw [sessionAt_single rfl, haccept]
  rfl

/-- **The sender's loop.** `c` packets of the group after `k`, from index
`i` on. -/
theorem generateFrom_txSession (state : SessionState) (pts timerMs : ℕ) {k i c : ℕ}
    (h : k + i + c ≤ x.packets) :
    generateFrom (x.txSession state (k + i) pts timerMs) i c =
      (x.txSession state (k + i + c) pts timerMs, (range' i c).map (x.packet k)) := by
  induction c generalizing i with
  | zero => rfl
  | succ c ih =>
    have hlt := x.lt_length (k := k + i) (by omega)
    have hoff : min ((k + i) * 7) x.data.length = (k + i) * 7 := min_eq_left (by omega)
    have hbytes : min ((k + i) * 7 + 7) x.data.length = min ((k + (i + 1)) * 7) x.data.length := by
      omega
    have hrest := ih (i := i + 1) (by omega)
    rw [generateFrom, if_neg (mt x.txSession_done.mp (by omega))]
    simp only [txSession, tpBytesPerFrame, hoff, hbytes] at hrest ⊢
    rw [hrest, range'_succ, map_cons, packet]
    simp [show k + (i + 1) + c = k + i + (c + 1) by omega]

/-- What the sender waits for after `k` packets. -/
def waitState (x : Transfer) (k : ℕ) : SessionState :=
  if k = x.packets then .waitingForEndOfMsg else .waitingForCTS

/-- The group as it is sent: the DPO, then the packets in order. -/
theorem message_group (k n : ℕ) :
    (range' 0 (n + 1)).map (x.message k) = x.dpo k :: (range' 0 n).map (x.packet k) := by
  have hshift : range' 1 n = (range' 0 n).map (1 + ·) := by
    rw [map_add_range']
  rw [range'_succ, map_cons, hshift, map_map]
  refine congrArg (cons (x.dpo k)) (map_congr_left fun m _ => ?_)
  rw [Function.comp_apply, add_comm, message]

/-- **The window is drained.** -/
theorem pending_window (hk : k < x.packets) (timerMs : ℕ) :
    (sender [x.txSession .sendingData k (x.grant k) timerMs] []).getPendingDataFrames =
      (sender [x.txSession (x.waitState (k + x.grant k)) (k + x.grant k) (x.grant k) 0] [],
        (range' 0 (x.grant k + 1)).map (x.message k)) := by
  have hlt := x.lt_length hk
  obtain ⟨hpos, hfit, h16⟩ := x.grant_pos hk
  have hgen : generateDataFrames (x.txSession .sendingData k (x.grant k) timerMs) (x.grant k) =
      (x.txSession .sendingData (k + x.grant k) (x.grant k) timerMs,
        (range' 0 (x.grant k)).map (x.packet k)) :=
    generateFrom_txSession .sendingData (x.grant k) timerMs (k := k) (i := 0) hfit
  have hdpo : makeDpo (x.txSession .sendingData k (x.grant k) timerMs) = x.dpo k := by
    have hoff : min (k * 7) x.data.length / 7 = k := by omega
    simp only [makeDpo, txSession, hoff]
    rfl
  have hdrain : drain (x.txSession .sendingData k (x.grant k) timerMs) =
      (x.txSession (x.waitState (k + x.grant k)) (k + x.grant k) (x.grant k) 0,
        x.dpo k :: (range' 0 (x.grant k)).map (x.packet k)) := by
    have hpts : (x.txSession .sendingData k (x.grant k) timerMs).packetsToSend = x.grant k := rfl
    rw [drain, hpts, hgen, hdpo]
    by_cases hlast : k + x.grant k = x.packets
    · -- the message is out
      simp only [if_pos (x.txSession_done.mpr hlast.ge), waitState, if_pos hlast]
      rfl
    have hmore : ¬x.packets ≤ k + x.grant k := by omega
    simp only [if_neg (mt x.txSession_done.mp hmore), waitState, if_neg hlast]
    rfl
  rw [getPendingDataFrames_single rfl, hdrain, message_group]
  rfl

/-- **EOMA received.** The sender is done. -/
theorem receive_eoma (pts timerMs : ℕ) :
    (sender [x.txSession .waitingForEndOfMsg x.packets pts timerMs] []).processFrame x.eoma
        x.portA =
      (sender [] [x.txSession .complete x.packets pts timerMs], []) := by
  obtain ⟨hcm, hsrc, hdst, hpgn⟩ := read_cm x.dest_le x.source_le (f := x.eoma) rfl
  have hsize : sizeFromCmBytes x.eoma.data = x.data.length := sizeFromCmBytes_makeCm x.length_le
  rw [processFrame_cm hcm, if_neg (by decide), if_neg (by decide), if_neg (by decide), if_pos rfl,
    handleEoma_single rfl (by rw [hsrc, hdst]; rfl) (by rw [hpgn]; rfl) rfl (by rw [hsize]; rfl)]
  rfl

/-! ## The receiver -/

/-- **RTS received.** The receiver opens its session and grants the first
window. -/
theorem receive_rts : (x.receiver [] []).processFrame x.rts x.portB =
      (x.receiver [x.rxSession 0 0 (x.grant 0) 0 0 0] [], [x.cts 0]) := by
  have hcap := x.cap_ge
  have hmin := x.length_gt
  have hmax := x.length_le
  -- what the receiver reads off the frame
  obtain ⟨hcm, hsrc, hdst, hpgn⟩ := read_cm x.source_le x.dest_le (f := x.rts) rfl
  have hprio : x.rts.priority = .lowest := Identifier.priority_encode
  have hsize : sizeFromCmBytes x.rts.data = x.data.length := sizeFromCmBytes_makeCm x.length_le
  have hfits : x.data.length ≤ (x.receiver [] []).maxReceiveBytes := Nat.le_min.mpr ⟨hcap, hmax⟩
  rw [processFrame_cm hcm, if_pos rfl, handleRts_idle rfl
    (by decide : 0 < 16) (by rw [hsize]; exact hmin) (by rw [hsize]; exact hmax)
    (by rw [hsize]; exact hfits)]
  simp only [rtsSession, hsrc, hdst, hprio, hpgn, hsize, cts, grant_zero]
  rfl

/-- **DPO received.** The group is open. -/
theorem receive_dpo (hk : k < x.packets) (offset last timerMs : ℕ) :
    (x.receiver [x.rxSession k offset (x.grant k) 0 last timerMs] []).processFrame (x.dpo k)
        x.portB =
      (x.receiver [x.rxSession k k (x.grant k) (x.grant k) 0 0] [], []) := by
  have hN := x.packets_spec
  obtain ⟨hpos, hfit, h16⟩ := x.grant_pos hk
  obtain ⟨hcm, hsrc, hdst, hpgn⟩ := read_cm x.source_le x.dest_le (f := x.dpo k) rfl
  have hnum : (x.dpo k).data.b1.toNat = x.grant k := toNat_ofNat_of_le (by omega)
  have hoff : packetFromCmBytes (x.dpo k).data = k := packetFromCmBytes_makeCm (by omega)
  have hfits : DpoFits (x.rxSession k offset (x.grant k) 0 last timerMs) (x.grant k) k := by
    have hrem := x.remaining_packets hk
    refine ⟨hpos.ne', le_refl _, ?_, ?_⟩
    · have hwin : x.grant k ≤ x.packets - k := min_le_left _ _
      exact hwin.trans hrem.ge
    · have hbytes : min (k * 7) x.data.length / 7 = k := by omega
      exact hbytes.symm
  rw [processFrame_dpo hcm, handleDpo_single rfl (by rw [rxPath, hsrc, hdst]; rfl)
      (by rw [hpgn]; rfl) (by rw [hnum, hoff]; exact hfits), hnum, hoff]
  rfl

/-- **A packet arrives.** What the receiver has copied in after packet
`m` of the group is the message up to packet `k + m + 1`. -/
theorem ingest_rxSession (size group timerMs : ℕ) (h : k + m < x.packets) :
    ingest (x.rxSession (k + m) k size group m timerMs) (m + 1)
        (readBlock 0xFF x.data.length x.data ((k + m) * 7) 7) =
      x.rxSession (k + m + 1) k size group (m + 1) 0 := by
  have hlt := x.lt_length h
  have hoff : (k + (m + 1) - 1) * 7 = (k + m) * 7 := by omega
  have hbuf : writeBlock x.data.length (bufferUpTo 0xFF x.data ((k + m) * 7)) ((k + m) * 7)
      (readBlock 0xFF x.data.length x.data ((k + m) * 7) 7) =
        bufferUpTo 0xFF x.data ((k + m) * 7 + 7) :=
    writeBlock_readBlock (le_of_lt hlt)
  simp only [ingest, rxSession, hoff]
  rw [hbuf, succ_mul]

/-- What the engine does with packet `m` of a group is decided by the
session it fills. -/
theorem receive_packet (size timerMs : ℕ) (hgroup : group ≠ 0) (hm : m < 16) :
    (x.receiver [x.rxSession (k + m) k size group m timerMs] []).processFrame (x.packet k m)
        x.portB =
      (x.receiver [x.rxSession (k + m) k size group m timerMs] []).acceptDt 0 (m + 1)
        (readBlock 0xFF x.data.length x.data ((k + m) * 7) 7) := by
  have hsrc : (x.packet k m).source = x.source := makeDt_source
  have hdst : (x.packet k m).destination = x.dest := makeDt_destination
  have hdt : IsDt (x.packet k m) := ⟨⟨Nat.le_refl _, hsrc ▸ (valid_of_le x.source_le).1,
    hdst ▸ (valid_of_le x.dest_le).2⟩, makeDt_pgn⟩
  have hseq : (x.packet k m).data.b0.toNat = m + 1 := toNat_ofNat_of_le (by omega)
  have htail : (x.packet k m).data.tail = readBlock 0xFF x.data.length x.data ((k + m) * 7) 7 :=
    Bytes8.tail_padded _ (length_readBlock _ _ _ _ _)
  rw [processFrame_dt hdt,
    handleDt_single rfl (by rw [rxPath, hsrc, hdst]; rfl) rfl hgroup (by rw [hseq]; rfl), hseq,
    htail]

/-- **A packet with more to come.** -/
theorem receive_packet_more (size timerMs : ℕ) (hgroup : group ≠ 0)
    (hm : m < 16) (h : k + m + 1 < x.packets) :
    (x.receiver [x.rxSession (k + m) k size group m timerMs] []).processFrame (x.packet k m)
        x.portB =
      (x.receiver [(advanceWindow (x.rxSession (k + m + 1) k size group (m + 1) 0) (m + 1)).1] [],
        (advanceWindow (x.rxSession (k + m + 1) k size group (m + 1) 0) (m + 1)).2) := by
  have hin := ingest_rxSession (x := x) (k := k) (m := m) size group timerMs (by omega)
  rw [receive_packet size timerMs hgroup hm,
    acceptDt_single_more rfl (by rw [hin]; exact mt x.rxSession_done.mp (by omega)), hin]
  rfl

/-- **Inside the group** the receiver says nothing. -/
theorem receive_in_group (timerMs : ℕ) (hk : k < x.packets) (hm : m + 1 < x.grant k) :
    (x.receiver [x.rxSession (k + m) k (x.grant k) (x.grant k) m timerMs] []).processFrame
        (x.packet k m) x.portB =
      (x.receiver [x.rxSession (k + m + 1) k (x.grant k) (x.grant k) (m + 1) 0] [], []) := by
  obtain ⟨hpos, hfit, h16⟩ := x.grant_pos hk
  have hwin : advanceWindow (x.rxSession (k + m + 1) k (x.grant k) (x.grant k) (m + 1) 0) (m + 1) =
      (x.rxSession (k + m + 1) k (x.grant k) (x.grant k) (m + 1) 0, []) := by
    rw [advanceWindow, if_neg (by simp only [rxSession]; omega)]
  rw [receive_packet_more (x.grant k) timerMs hpos.ne' (by omega) (by omega), hwin]

/-- **At the end of the group** the receiver grants the next window. -/
theorem receive_end_of_group (timerMs : ℕ) (hm : m + 1 = x.grant k)
    (hmore : k + x.grant k < x.packets) :
    (x.receiver [x.rxSession (k + m) k (x.grant k) (x.grant k) m timerMs] []).processFrame
        (x.packet k m) x.portB =
      (x.receiver [x.rxSession (k + x.grant k) k (x.grant (k + x.grant k)) 0 (m + 1) 0] [],
        [x.cts (k + x.grant k)]) := by
  obtain ⟨hpos, hfit, h16⟩ := x.grant_pos (k := k) (by omega)
  have hnext : k + m + 1 = k + x.grant k := by omega
  have hwin : advanceWindow (x.rxSession (k + m + 1) k (x.grant k) (x.grant k) (m + 1) 0) (m + 1) =
      (x.rxSession (k + x.grant k) k (x.grant (k + x.grant k)) 0 (m + 1) 0,
        [x.cts (k + x.grant k)]) := by
    have hrem : divCeil ((x.rxSession (k + x.grant k) k (x.grant k) (x.grant k) (m + 1)
        0).totalBytes - (x.rxSession (k + x.grant k) k (x.grant k) (x.grant k) (m + 1)
        0).bytesTransferred) 7 = x.packets - (k + x.grant k) := x.remaining_packets hmore
    have hcount : min (x.packets - (k + x.grant k)) tpMaxPacketsPerCts % 256 =
        x.grant (k + x.grant k) := by
      simp only [grant, tpMaxPacketsPerCts]
      omega
    rw [hnext, advanceWindow, if_pos (by simp only [rxSession]; omega)]
    simp only [hrem, hcount]
    rw [cts, show k + x.grant k + 1 = k + (m + 1) + 1 by omega]
    rfl
  rw [receive_packet_more (x.grant k) timerMs hpos.ne' (by omega) (by omega), hwin]

variable (x) in
/-- The completed receive session. -/
def received (offset size last : ℕ) : TransportSession :=
  { x.rxSession x.packets offset size size last 0 with state := .complete }

/-- **The last packet.** The buffer is the message. -/
theorem receive_last (timerMs : ℕ) (hk : k < x.packets) (hm : m + 1 = x.grant k)
    (hall : k + x.grant k = x.packets) :
    (x.receiver [x.rxSession (k + m) k (x.grant k) (x.grant k) m timerMs] []).processFrame
        (x.packet k m) x.portB =
      (x.receiver [] [x.received k (x.grant k) (m + 1)], [x.eoma]) := by
  obtain ⟨hpos, hfit, h16⟩ := x.grant_pos hk
  have hlast : k + m + 1 = x.packets := by omega
  have hin := ingest_rxSession (x := x) (k := k) (m := m) (x.grant k) (x.grant k) timerMs (by omega)
  rw [receive_packet (x.grant k) timerMs hpos.ne' (by omega),
    acceptDt_single_last rfl (by rw [hin]; exact x.rxSession_done.mpr hlast.ge), hin, hlast]
  rfl

/-! ## Draining and time, when nothing is sent -/

theorem pump_idle {t : ExtendedTransportProtocol} (hs : t.sessions = []) (p : Pump) :
    pump t p = (t, []) := by
  cases p with
  | pending =>
    rcases t with ⟨sessions⟩
    subst hs
    rfl
  | update elapsedMs => exact update_nil hs elapsedMs

/-- The receiver only grows older. -/
theorem pump_receiver {j offset size last : ℕ} {p : Pump}
    (hin : InTime (x.receiver [x.rxSession j offset size group last timerMs] []) p) :
    ∃ timerMs', pump (x.receiver [x.rxSession j offset size group last timerMs] []) p =
      (x.receiver [x.rxSession j offset size group last timerMs'] [], []) := by
  cases p with
  | pending =>
    exact ⟨timerMs, rfl⟩
  | update elapsedMs =>
    refine ⟨satAdd32 timerMs elapsedMs, ?_⟩
    rw [pump, update_single_quiet rfl (hin _ (mem_singleton_self _))]
    rfl

/-- The sender only grows older, unless a granted window is drained. -/
theorem pump_sender {state : SessionState} {k pts : ℕ} {p : Pump}
    (hin : InTime (sender [x.txSession state k pts timerMs] []) p)
    (hstate : p = .pending → state ≠ .sendingData) :
    ∃ timerMs', pump (sender [x.txSession state k pts timerMs] []) p =
      (sender [x.txSession state k pts timerMs'] [], []) := by
  cases p with
  | pending =>
    refine ⟨timerMs, ?_⟩
    have hdrain : drain (x.txSession state k pts timerMs) =
        (x.txSession state k pts timerMs, []) := by
      rw [drain, if_neg]
      rintro ⟨h, -⟩
      exact hstate rfl h
    rw [pump, getPendingDataFrames_single rfl, hdrain]
    rfl
  | update elapsedMs =>
    refine ⟨satAdd32 timerMs elapsedMs, ?_⟩
    rw [pump, update_single_quiet rfl (hin _ (mem_singleton_self _))]
    rfl

end Machbus.Etp.Transfer
