import Machbus.Common.Lockstep
import Machbus.Net.Helpers.Wire
import Machbus.Network.Model.FastPacket
/-!
# Fast packets that arrive interleaved

A transfer is a message `send_to` took and the frames it made of it. The
receiver keeps one session for each transfer that has begun and is not
complete, whatever the order in which the frames of different transfers
come in; `session` says what it holds after a given number of frames. The
table is only known up to order, since a completed session is removed by
moving the last one into its place.
-/

namespace Machbus

open Nat Identifier
open List hiding beq_eq_decide

namespace FastPacket

/-! ## A transfer -/

/-- A message a sender took, and its frames. -/
structure Transfer where
  sender : FastPacketProtocol
  pgn : ℕ
  data : List UInt8
  source : Address
  destination : Address
  priority : Priority
  frames : List Frame
  /-- The frames are those of `send_to`. -/
  sent : (sender.sendTo pgn data source destination priority).2 = .ok frames

namespace Transfer

variable (x : Transfer) {k : ℕ}

/-- The sequence counter the sender gave the transfer. -/
def counter : ℕ := x.sender.txSequenceCounter &&& 0x07

/-- **What tells transfers apart on the wire.** An identifier has no room
for the low byte of a PDU1 PGN. -/
def key : Address × ℕ × ℕ := (x.source, pgnNormalize x.pgn, x.counter)

/-- The destination on the wire: a PDU2 PGN has none. -/
def wireDestination : Address :=
  if pgnPduFormat x.pgn < 240 then x.destination else broadcastAddress

/-- **The message as it can arrive.** -/
def message : Message where
  pgn := pgnNormalize x.pgn
  data := x.data
  source := x.source
  destination := x.wireDestination
  priority := x.priority
  timestampUs := 0

def id : Identifier := Identifier.encode x.priority x.pgn x.source x.destination

/-- The number of frames. -/
def count : ℕ := 1 + divCeil (x.data.length - firstFrameData) subsequentFrameData

/-- Frame number `k`. -/
def frame (k : ℕ) : Frame :=
  if k = 0 then
    Frame.new x.id (Bytes8.padded
      (UInt8.ofNat (x.counter <<< 5) :: UInt8.ofNat x.data.length :: x.data.take firstFrameData))
  else makeSubsequent x.id x.data (x.counter <<< 5) k

/-- The bytes `k` frames carry. -/
def carried (k : ℕ) : ℕ := firstFrameData + (k - 1) * subsequentFrameData

/-- The receiver's session after `k` frames. -/
def session (k : ℕ) : Session where
  pgn := pgnNormalize x.pgn
  data := bufferUpTo 0xFF x.data (carried k)
  totalBytes := x.data.length
  bytesReceived := min (carried k) x.data.length
  sourceAddress := x.source
  destinationAddress := x.wireDestination
  priority := x.priority
  sequenceCounter := x.counter
  expectedFrame := k
  timerMs := 0
  lastTimestampUs := 0

/-! ### What `send_to` checked -/

/-- **What `send_to` establishes.** -/
theorem sent_spec :
    pgnIsValid x.pgn = true ∧ validFastPacketSource x.source = true ∧ 9 ≤ x.data.length ∧
      x.data.length ≤ 223 ∧ x.frames = makeFrames x.id x.data (x.counter <<< 5) := by
  have h := x.sent
  unfold FastPacketProtocol.sendTo at h
  split at h
  · cases h
  rename_i hpgn
  split at h
  · cases h
  rename_i hsource
  split at h
  · cases h
  rename_i hmax
  split at h
  · cases h
  rename_i hmin
  rw [fastPacketMaxData] at hmax
  rw [canDataLength] at hmin
  exact ⟨by simpa using hpgn, by simpa using hsource, by omega, by omega, (Except.ok.inj h).symm⟩

theorem counter_lt : x.counter < 8 := by
  rw [counter, and_seven]
  exact mod_lt _ (by decide)

/-- A transfer has at least two frames, and its last one is the first to
carry everything. -/
theorem count_spec :
    2 ≤ x.count ∧ x.count ≤ 32 ∧ ∀ k, x.count ≤ k ↔ 0 < k ∧ x.data.length ≤ carried k := by
  obtain ⟨-, -, hmin, hmax, -⟩ := x.sent_spec
  simp only [count, carried, divCeil, firstFrameData, subsequentFrameData]
  refine ⟨by omega, by omega, fun k => ?_⟩
  omega

theorem frames_eq : x.frames = (range x.count).map x.frame := by
  obtain ⟨-, -, -, -, hframes⟩ := x.sent_spec
  obtain ⟨hmin, hmax, -⟩ := x.count_spec
  have hcount : x.count % 256 = x.count := mod_eq_of_lt (by omega)
  rw [hframes]
  change _ :: (range (x.count % 256 - 1)).map _ = _
  obtain ⟨n, hn⟩ : ∃ n, x.count = n + 1 := ⟨x.count - 1, by omega⟩
  rw [hcount, hn, range_succ_eq_map, map_cons, map_map]
  rfl

@[simp] theorem length_frames : x.frames.length = x.count := by
  rw [x.frames_eq, length_map, length_range]

/-- What is left to send after `k` frames. -/
theorem drop_frames (hk : k < x.count) : x.frames.drop k = x.frame k :: x.frames.drop (k + 1) := by
  rw [drop_eq_getElem_cons (by rw [length_frames]; exact hk)]
  simp [x.frames_eq]

/-! ### What a frame carries -/

section

variable (k : ℕ)

theorem frame_id : (x.frame k).id = x.id := by
  unfold frame
  split <;> rfl

theorem frame_source : (x.frame k).source = x.source := by
  rw [Frame.source, frame_id, id, source_encode]

theorem frame_pgn : (x.frame k).pgn = pgnNormalize x.pgn := by
  rw [Frame.pgn, frame_id, id, pgn_encode x.sent_spec.1]

theorem frame_destination : (x.frame k).destination = x.wireDestination := by
  rw [Frame.destination, frame_id, id, destination_encode, wireDestination, pgnPduFormat_eq]

theorem frame_priority : (x.frame k).priority = x.priority := by
  rw [Frame.priority, frame_id, id, priority_encode]

theorem frame_length : (x.frame k).length = canDataLength := by
  unfold frame
  split <;> rfl

theorem frame_timestampUs : (x.frame k).timestampUs = 0 := by
  unfold frame
  split <;> rfl

theorem frame_b0 : (x.frame k).data.b0 = .ofNat (x.counter <<< 5 ||| k) := by
  unfold frame
  split
  next h =>
    rw [h, or_zero]
    rfl
  · rfl

end

/-- The two counters share a byte. -/
theorem counters_of_byte :
    ∀ c < 8, ∀ k < 32, ((UInt8.ofNat (c <<< 5 ||| k)).toNat >>> 5) &&& 0x07 = c ∧
      (UInt8.ofNat (c <<< 5 ||| k)).toNat &&& 0x1F = k := by
  decide

theorem seqCounter_frame (hk : k < x.count) : seqCounter (x.frame k).data = x.counter := by
  obtain ⟨-, hmax, -⟩ := x.count_spec
  rw [seqCounter, frame_b0]
  exact (counters_of_byte _ x.counter_lt k (by omega)).1

theorem frameCounter_frame (hk : k < x.count) : frameCounter (x.frame k).data = k := by
  obtain ⟨-, hmax, -⟩ := x.count_spec
  rw [frameCounter, frame_b0]
  exact (counters_of_byte _ x.counter_lt k (by omega)).2

/-! ### What the receiver makes of a frame -/

/-- The first frame opens the session. -/
theorem openSession_frame : openSession (x.frame 0) = x.session 1 := by
  obtain ⟨-, -, hmin, hmax, -⟩ := x.sent_spec
  obtain ⟨htwo, -⟩ := x.count_spec
  have hsize : (x.frame 0).data.b1.toNat = x.data.length :=
    toNat_ofNat_of_le (n := x.data.length) (by omega)
  have hfirst : (x.frame 0).data.toList.drop 2 = x.data.take 6 := by
    match hd : x.data, hmin with
    | a :: b :: c :: d :: e :: f :: rest, _ =>
      simp only [frame, hd]
      rfl
  have hcopy : min x.data.length firstFrameData = 6 := by
    rw [firstFrameData]
    omega
  have hbuf : newRxPayload x.data.length ((x.data.take 6).take 6) = bufferUpTo 0xFF x.data 6 := by
    rw [newRxPayload, bufferUpTo, take_take, min_self, length_take, min_eq_left (by omega)]
  have hcarried : carried 1 = 6 := rfl
  simp only [openSession, session, hsize, hfirst, hcopy, hbuf, hcarried, frame_pgn, frame_source,
    frame_destination, frame_priority, frame_timestampUs,
    x.seqCounter_frame (by omega : 0 < x.count)]
  rw [min_eq_left (by omega)]

/-- Every further one extends it. -/
theorem ingest_frame (hpos : 0 < k) (hk : k < x.count) :
    (x.session k).ingest (x.frame k) = x.session (k + 1) := by
  obtain ⟨-, hmax, hall⟩ := x.count_spec
  have hopen : carried k ≤ x.data.length := by
    have := (hall k).not.mp (by omega)
    omega
  have htail : (x.frame k).data.tail =
      readBlock 0xFF x.data.length x.data (carried k) subsequentFrameData := by
    unfold frame
    rw [if_neg (by omega)]
    exact Bytes8.tail_padded _ (by rw [length_readBlock]; rfl)
  have hnext : carried (k + 1) = carried k + subsequentFrameData := by
    simp only [carried, firstFrameData, subsequentFrameData]
    omega
  have hexpected : (k + 1) % 256 = k + 1 := mod_eq_of_lt (by omega)
  have hoff : firstFrameData + (k - 1) * subsequentFrameData = carried k := rfl
  simp only [Session.ingest, session, x.frameCounter_frame hk, htail, hoff,
    writeBlock_readBlock hopen, hnext, hexpected, frame_timestampUs]

/-- The complete session is the message. -/
theorem makeMessage_session (hk : x.count ≤ k) : makeMessage (x.session k) = x.message := by
  obtain ⟨-, -, hall⟩ := x.count_spec
  simp [makeMessage, session, message, bufferUpTo_of_le ((hall k).mp hk).2]

end Transfer

/-- The key a session is looked up by. -/
def Session.key (s : Session) : Address × ℕ × ℕ := (s.sourceAddress, s.pgn, s.sequenceCounter)

@[simp] theorem key_session (x : Transfer) (k : ℕ) : (x.session k).key = x.key := rfl

end FastPacket

/-! ## The receiver -/

namespace FastPacketProtocol

open FastPacket

variable {t : FastPacketProtocol} {x : Transfer} {k : ℕ}

theorem rxPosition_eq (t : FastPacketProtocol) (x : Transfer) :
    t.rxPosition x.source (pgnNormalize x.pgn) x.counter =
      t.rxSessions.findIdx? fun s => decide (s.key = x.key) := by
  rw [rxPosition]
  simp [Session.key, Transfer.key, Bool.and_assoc, beq_eq_decide]

/-- **A first frame** that finds room and no session of its key. -/
theorem processFrame_first (hnone : ∀ s ∈ t.rxSessions, s.key ≠ x.key)
    (hroom : t.rxSessions.length < t.maxRxSessions) :
    t.processFrame (x.frame 0) =
      ({ t with rxSessions := t.rxSessions ++ [x.session 1] }, none) := by
  obtain ⟨-, hsource, hmin, hmax, -⟩ := x.sent_spec
  obtain ⟨htwo, -, hall⟩ := x.count_spec
  have hpos : 0 < x.count := by omega
  have hsize : (x.frame 0).data.b1.toNat = x.data.length :=
    toNat_ofNat_of_le (n := x.data.length) (by omega)
  have hfind : t.rxPosition x.source (pgnNormalize x.pgn) x.counter = none := by
    rw [rxPosition_eq, findIdx?_eq_none_iff]
    intro s hs
    simpa using hnone s hs
  have hmore : ¬(x.session 1).totalBytes ≤ (x.session 1).bytesReceived := by
    have := (hall 1).not.mp (by omega)
    simp only [Transfer.session]
    omega
  simp only [processFrame, processFrameSession, startNewSession, x.frame_length, x.frame_source,
    x.frame_pgn, x.seqCounter_frame hpos, x.frameCounter_frame hpos, hsource, hfind,
    x.openSession_frame, canDataLength, fastPacketMaxData]
  rw [if_neg (by simp), if_neg (by simp), if_pos trivial, if_neg (by omega), if_neg hmore,
    if_neg (not_le.mpr hroom)]
  rfl

/-- **A further frame** finds the session of its transfer. -/
theorem processFrame_next {l₁ l₂ : List FastPacket.Session}
    (hs : t.rxSessions = l₁ ++ x.session k :: l₂) (hfirst : ∀ s ∈ l₁, s.key ≠ x.key)
    (hpos : 0 < k) (hk : k < x.count) :
    t.processFrame (x.frame k) =
      if k + 1 = x.count then
        ({ t with rxSessions := l₁ ++ lastFirst l₂ }, some x.message)
      else ({ t with rxSessions := l₁ ++ x.session (k + 1) :: l₂ }, none) := by
  obtain ⟨-, hsource, -, -, -⟩ := x.sent_spec
  obtain ⟨-, -, hall⟩ := x.count_spec
  have hfind : t.rxPosition x.source (pgnNormalize x.pgn) x.counter = some l₁.length := by
    have hbefore : l₁.findIdx? (fun s => decide (s.key = x.key)) = none := by
      rw [findIdx?_eq_none_iff]
      intro s hs
      simpa using hfirst s hs
    rw [rxPosition_eq, hs, findIdx?_append, hbefore, findIdx?_cons]
    simp
  have hget : t.rxSessions[l₁.length]? = some (x.session k) := by
    rw [hs]
    simp
  have hexpected : (x.session k).expectedFrame = k := rfl
  have hdone : (x.session (k + 1)).totalBytes ≤ (x.session (k + 1)).bytesReceived ↔
      k + 1 = x.count := by
    have := hall (k + 1)
    simp only [Transfer.session]
    omega
  simp only [processFrame, processFrameSession, x.frame_length, x.frame_source, x.frame_pgn,
    x.seqCounter_frame hk, x.frameCounter_frame hk, hsource, hfind, hget, hexpected,
    x.ingest_frame hpos hk]
  rw [if_neg (by simp), if_neg (by simp), if_neg (by omega), if_neg (by simp)]
  by_cases hlast : k + 1 = x.count
  · rw [if_pos (hdone.mpr hlast), if_pos hlast, hs, set_append_cons, swapRemove_append_cons,
      Option.map_some, x.makeMessage_session (by omega)]
  · rw [if_neg (fun h => hlast (hdone.mp h)), if_neg hlast, hs, set_append_cons, Option.map_none]

/-- How far a transfer has come. -/
abbrev Progress := Transfer × ℕ

/-- The session a transfer has open. -/
def current (p : Progress) : Option FastPacket.Session :=
  if 0 < p.2 ∧ p.2 < p.1.count then some (p.1.session p.2) else none

/-- The message a transfer still has to deliver. -/
def owed (p : Progress) : List Message := if p.2 < p.1.count then [p.1.message] else []

/-- **The receiver between two frames.** Up to order its table holds the
sessions of the transfers that are under way, and these differ in their
keys. -/
structure Receiving (ps : List Progress) (t : FastPacketProtocol) : Prop where
  sessions : t.rxSessions.Perm (ps.filterMap current)
  keys : (ps.map fun p => p.1.key).Nodup
  room : ps.length ≤ t.maxRxSessions

theorem key_of_current {p : Progress} {s : FastPacket.Session} (h : current p = some s) :
    s.key = p.1.key := by
  unfold current at h
  split at h
  · rw [← Option.some.inj h, key_session]
  · cases h

namespace Receiving

variable {pre post : List Progress} (h : Receiving (pre ++ (x, k) :: post) t)
include h

/-- The sessions of the other transfers. -/
theorem perm : t.rxSessions.Perm ((current (x, k)).toList ++ (pre ++ post).filterMap current) := by
  refine h.sessions.trans ?_
  have hmid : ((x, k) :: (pre ++ post)).filterMap current =
      (current (x, k)).toList ++ (pre ++ post).filterMap current := by
    rw [filterMap_cons]
    cases current (x, k) <;> rfl
  rw [← hmid]
  exact perm_middle.filterMap current

/-- None of them has the key of this one. -/
theorem other_key : ∀ s ∈ (pre ++ post).filterMap current, s.key ≠ x.key := by
  intro s hs heq
  obtain ⟨p, hp, hcur⟩ := mem_filterMap.mp hs
  have hnodup := h.keys
  rw [(perm_middle.map _).nodup_iff, map_cons, nodup_cons] at hnodup
  exact hnodup.1 (mem_map.mpr ⟨p, hp, (key_of_current hcur).symm.trans heq⟩)

/-- A transfer that moves on leaves the others as they are. -/
theorem advance {t' : FastPacketProtocol}
    (hs : t'.rxSessions.Perm ((current (x, k + 1)).toList ++ (pre ++ post).filterMap current))
    (hm : t'.maxRxSessions = t.maxRxSessions) : Receiving (pre ++ (x, k + 1) :: post) t' := by
  refine ⟨?_, ?_, ?_⟩
  · refine hs.trans (.trans ?_ (perm_middle.filterMap current).symm)
    rw [filterMap_cons]
    cases current (x, k + 1) <;> exact .refl _
  · simpa using h.keys
  · simpa [hm] using h.room

/-- **One frame** of any transfer under way. -/
theorem step (hk : k < x.count) :
    Receiving (pre ++ (x, k + 1) :: post) (t.processFrame (x.frame k)).1 ∧
      owed (x, k) = (t.processFrame (x.frame k)).2.toList ++ owed (x, k + 1) := by
  obtain ⟨htwo, -⟩ := x.count_spec
  have hperm := h.perm
  have howed : owed (x, k) = [x.message] := if_pos hk
  rcases Nat.eq_zero_or_pos k with rfl | hpos
  · -- the first frame: no session of this key, and room for one more
    have hnone : current (x, 0) = none := by simp [current]
    have hone : current (x, 0 + 1) = some (x.session 1) := if_pos ⟨Nat.zero_lt_one, htwo⟩
    rw [hnone, Option.toList_none, nil_append] at hperm
    have hlen : t.rxSessions.length < t.maxRxSessions := by
      have hroom := h.room
      have hle := length_filterMap_le current (pre ++ post)
      rw [hperm.length_eq]
      simp only [length_append, length_cons] at hroom hle
      omega
    rw [processFrame_first (fun s hs => h.other_key s (hperm.mem_iff.mp hs)) hlen]
    refine ⟨h.advance ?_ rfl, ?_⟩
    · rw [hone]
      exact (perm_append_singleton _ _).trans (hperm.cons _)
    · rw [howed, owed, if_pos (by omega : 0 + 1 < x.count)]
      rfl
  · -- a further frame: its session is the only one of this key
    have hcur : current (x, k) = some (x.session k) := if_pos ⟨hpos, hk⟩
    rw [hcur] at hperm
    obtain ⟨l₁, l₂, hsplit⟩ := append_of_mem (hperm.mem_iff.mpr mem_cons_self)
    have hrest : (l₁ ++ l₂).Perm ((pre ++ post).filterMap current) := by
      rw [hsplit] at hperm
      exact (perm_middle.symm.trans hperm).cons_inv
    have hfirst : ∀ s ∈ l₁, s.key ≠ x.key := fun s hs =>
      h.other_key s (hrest.mem_iff.mp (mem_append_left _ hs))
    rw [processFrame_next hsplit hfirst hpos hk]
    by_cases hlast : k + 1 = x.count
    · have hnone : current (x, k + 1) = none := if_neg (by simp [hlast])
      rw [if_pos hlast]
      refine ⟨h.advance ?_ rfl, ?_⟩
      · rw [hnone]
        exact ((lastFirst_perm l₂).append_left l₁).trans hrest
      · rw [howed, owed, if_neg (by simp [hlast])]
        rfl
    · have hnext : current (x, k + 1) = some (x.session (k + 1)) := if_pos ⟨by simp, by simp; omega⟩
      rw [if_neg hlast]
      refine ⟨h.advance ?_ rfl, ?_⟩
      · rw [hnext]
        exact perm_middle.trans (hrest.cons _)
      · rw [howed, owed, if_pos (by simp; omega)]
        rfl

end Receiving

/-- **Any interleaving is reassembled.** Transfers that differ in their
keys on the wire, no more than the receiver has room for: however their
frames interleave, the receiver returns each message exactly once, as the
wire can carry it, and no session is left. -/
theorem interleaved_fast_packets (t : FastPacketProtocol) (hidle : t.rxSessions = [])
    (xs : List Transfer) (hkeys : (xs.map Transfer.key).Nodup)
    (hroom : xs.length ≤ t.maxRxSessions) (fs : List Frame)
    (hfs : Interleaves (xs.map Transfer.frames) fs) :
    ((outputs processFrame t fs).flatMap Option.toList).Perm (xs.map Transfer.message) ∧
      (run (moves processFrame) t fs).rxSessions = [] := by
  have hstart : Receiving (xs.map fun x => (x, 0)) t := by
    refine ⟨?_, by rw [map_map]; exact hkeys, by simpa using hroom⟩
    rw [hidle, filterMap_map, filterMap_eq_nil_iff.mpr fun x _ => by simp [current]]
  have htodo : (xs.map fun x => (x, 0)).map (fun p : Progress => p.1.frames.drop p.2) =
      xs.map Transfer.frames := by simp
  have howed : (xs.map fun x => (x, 0)).flatMap owed = xs.map Transfer.message := by
    rw [flatMap_map, map_eq_flatMap]
    congr 1
    funext x
    exact if_pos (by have := x.count_spec.1; show 0 < x.count; omega)
  rw [← htodo] at hfs
  rw [← howed]
  have hstep : ∀ (pre : List Progress) p post s a l, Receiving (pre ++ p :: post) s →
      p.1.frames.drop p.2 = a :: l →
      p.1.frames.drop (p.2 + 1) = l ∧
        Receiving (pre ++ (p.1, p.2 + 1) :: post) (processFrame s a).1 ∧
        owed p = (processFrame s a).2.toList ++ owed (p.1, p.2 + 1) := by
    rintro pre ⟨x, k⟩ post s a l hI htodo
    have hk : k < x.count := by
      by_contra hk
      rw [drop_eq_nil_of_le (by rw [Transfer.length_frames]; exact Nat.le_of_not_lt hk)] at htodo
      cases htodo
    rw [x.drop_frames hk] at htodo
    obtain ⟨rfl, rfl⟩ := cons.inj htodo
    exact ⟨rfl, hI.step hk⟩
  have hnil : ∀ p : Progress, p.1.frames.drop p.2 = [] → owed p = [] := by
    rintro ⟨x, k⟩ hnil
    have hlen := drop_eq_nil_iff.mp hnil
    rw [Transfer.length_frames] at hlen
    exact if_neg (not_lt.mpr hlen)
  obtain ⟨hout, js, hdone, hend⟩ :=
    outputs_perm_of_interleaves (fun p : Progress => (p.1, p.2 + 1)) hstep hnil hfs hstart
  refine ⟨hout, perm_nil.mp (hend.sessions.trans ?_)⟩
  rw [filterMap_eq_nil_iff.mpr]
  intro p hp
  have hlen := drop_eq_nil_iff.mp (hdone p hp)
  rw [Transfer.length_frames] at hlen
  exact if_neg fun h => absurd h.2 (not_lt.mpr hlen)

/-- Nine bytes sent by a node whose counter is at zero. -/
def nineBytes (pgn : ℕ) (source destination : Address) (data : List UInt8) (frames : List Frame)
    (sent : ((({} : FastPacketProtocol).sendTo pgn data source destination .default).2 =
      .ok frames)) : Transfer :=
  ⟨{}, pgn, data, source, destination, .default, frames, sent⟩

/-- A group function for node `0x30`. -/
def groupFunction : Transfer := nineBytes 126208 0x10 0x30 [1, 2, 3, 4, 5, 6, 7, 8, 9] _ rfl

/-- A position another node broadcasts. -/
def position : Transfer := nineBytes 0x1F801 0x11 broadcastAddress [9, 8, 7, 6, 5, 4, 3, 2, 1] _ rfl

theorem interleaved_fast_packets_pair :
    ((outputs processFrame {} [groupFunction.frame 0, position.frame 0, position.frame 1,
        groupFunction.frame 1]).flatMap Option.toList).Perm
        [groupFunction.message, position.message] ∧
      (run (moves processFrame) {} [groupFunction.frame 0, position.frame 0, position.frame 1,
        groupFunction.frame 1]).rxSessions = [] := by
  refine interleaved_fast_packets {} rfl [groupFunction, position] (by decide) (by decide) _ ?_
  exact .take [] (.take [[groupFunction.frame 1]] (.take [[groupFunction.frame 1]]
    (.take [] (.done (by simp)))))

/-- **What the wire does not carry.** A position sent to node `0x30` arrives
as a broadcast: its PGN is of the kind without a destination. And two
transfers whose PGNs differ in a low byte that the identifier has no room
for are one to the receiver: of the two messages only one comes out. -/
theorem wire_drops_destination_and_low_byte :
    let toNode := nineBytes 0x1F801 0x10 0x30 [1, 2, 3, 4, 5, 6, 7, 8, 9] _ rfl
    let plain := nineBytes 0xEF00 0x10 0x30 [1, 2, 3, 4, 5, 6, 7, 8, 9] _ rfl
    let low := nineBytes 0xEF01 0x10 0x30 [9, 8, 7, 6, 5, 4, 3, 2, 1] _ rfl
    toNode.destination = 0x30 ∧
      ((outputs processFrame {} toNode.frames).flatMap Option.toList).map Message.destination =
        [broadcastAddress] ∧
      (plain.source, plain.pgn, plain.counter) ≠ (low.source, low.pgn, low.counter) ∧
      ((outputs processFrame {} [plain.frame 0, low.frame 0, plain.frame 1, low.frame 1]).flatMap
        Option.toList).length = 1 := by
  decide

end FastPacketProtocol

end Machbus
