import Machbus.Tp.Model.Engine
/-!
# TP — draining into a store of fixed size

A target without a heap drains into `N` slots. The frames are counted
first, and no session is touched unless they all fit.
-/

namespace Machbus

open List

namespace Tp

variable (N : ℕ) (s : TransportSession)

/-- The sessions a drain is about. -/
abbrev WindowOpen : Prop :=
  s.state = .sendingData ∧ s.direction = .transmit ∧ s.isBroadcast = false

/-- A full store stops the loop behind the session's counters. -/
def generateDataFramesFixed (s : TransportSession) (out : List Frame) :
    ℕ → TransportSession × Except Error (List Frame)
  | 0 => (s, .ok out)
  | count + 1 =>
    if s.totalBytes ≤ s.bytesTransferred then (s, .ok out)
    else
      let seq := (s.lastSequence + 1) % 256
      let frame := makeDt s.sourceAddress s.destinationAddress seq
        (readBlock 0xFF s.totalBytes s.data s.bytesTransferred tpBytesPerFrame)
      let s := { s with
        lastSequence := seq
        bytesTransferred := min (s.bytesTransferred + tpBytesPerFrame) s.totalBytes }
      if N ≤ out.length then (s, .error .bufferOverflow)
      else generateDataFramesFixed s (out ++ [frame]) count

/-- The loop over the sessions, which an error leaves at once. -/
def drainFixed (out : List Frame) :
    List TransportSession → List TransportSession × Except Error (List Frame)
  | [] => ([], .ok out)
  | s :: rest =>
    if WindowOpen s then
      match generateDataFramesFixed N s out s.packetsToSend with
      | (s, .error e) => (s :: rest, .error e)
      | (s, .ok out) =>
        let state := if s.totalBytes ≤ s.bytesTransferred then .waitingForEndOfMsg
          else .waitingForCTS
        let r := drainFixed out rest
        ({ s with state, timerMs := 0 } :: r.1, r.2)
    else
      let r := drainFixed out rest
      (s :: r.1, r.2)

/-- The frames a session's window still takes. -/
def needed : ℕ :=
  if WindowOpen s then
    min s.packetsToSend (divCeil (s.totalBytes - s.bytesTransferred) tpBytesPerFrame)
  else 0

end Tp

open Tp

def TransportProtocol.getPendingDataFramesFixed (N : ℕ) (t : TransportProtocol) :
    TransportProtocol × Except Error (List Frame) :=
  if N < (t.sessions.map needed).sum then (t.noteResourceRejection, .error .bufferOverflow)
  else
    let r := drainFixed N [] t.sessions
    ({ t with sessions := r.1 }, r.2)

namespace Tp

variable {N : ℕ} {s : TransportSession} {out : List Frame}

theorem length_generateDataFrames (s : TransportSession) (count : ℕ) :
    (generateDataFrames s count).2.length =
      min count (divCeil (s.totalBytes - s.bytesTransferred) tpBytesPerFrame) := by
  induction count generalizing s with
  | zero => simp [generateDataFrames]
  | succ count ih =>
    rw [generateDataFrames]
    split
    all_goals
      simp only [length_nil, length_cons, ih, divCeil, tpBytesPerFrame]
      omega

/-- **With room for its frames** the bounded loop is the plain one. -/
theorem generateDataFramesFixed_eq {count : ℕ}
    (h : out.length + (generateDataFrames s count).2.length ≤ N) :
    generateDataFramesFixed N s out count =
      ((generateDataFrames s count).1, .ok (out ++ (generateDataFrames s count).2)) := by
  induction count generalizing s out with
  | zero => simp [generateDataFramesFixed, generateDataFrames]
  | succ count ih =>
    rw [generateDataFrames] at h ⊢
    rw [generateDataFramesFixed]
    split
    · simp
    · rw [if_neg ‹_›, length_cons] at h
      rw [if_neg (by omega), ih (by rw [length_append, length_singleton]; omega), append_assoc]
      rfl

/-- The plain drain of an open window. -/
theorem drain_of_open (h : WindowOpen s) : drain s =
    let r := generateDataFrames s s.packetsToSend
    ({ r.1 with
        state := if r.1.totalBytes ≤ r.1.bytesTransferred then .waitingForEndOfMsg
          else .waitingForCTS
        timerMs := 0 }, r.2) := by
  rw [drain, if_pos h]
  dsimp only
  split <;> rfl

theorem drain_of_not_open (h : ¬WindowOpen s) : drain s = (s, []) := if_neg h

theorem length_drain (s : TransportSession) : (drain s).2.length = needed s := by
  rw [needed]
  split
  next h => rw [drain_of_open h, length_generateDataFrames]
  next h => rw [drain_of_not_open h, length_nil]

theorem drainFixed_eq {ss : List TransportSession}
    (h : out.length + (ss.flatMap fun s => (drain s).2).length ≤ N) :
    drainFixed N out ss =
      (ss.map fun s => (drain s).1, .ok (out ++ ss.flatMap fun s => (drain s).2)) := by
  induction ss generalizing out with
  | nil => rw [drainFixed, flatMap_nil, append_nil, map_nil]
  | cons s rest ih =>
    rw [flatMap_cons, length_append, ← Nat.add_assoc, ← length_append] at h
    have hrest := ih h
    rw [length_append] at h
    rw [drainFixed, map_cons, flatMap_cons, ← append_assoc]
    split
    next hopen =>
      rw [drain_of_open hopen] at h hrest ⊢
      dsimp only at h hrest ⊢
      rw [generateDataFramesFixed_eq (by omega)]
      dsimp only
      rw [hrest]
    next hopen =>
      rw [drain_of_not_open hopen, append_nil] at hrest ⊢
      rw [hrest]

end Tp

/-- **The bounded drain is the plain one or nothing**: where the frames do
not fit, no session is touched. -/
theorem TransportProtocol.getPendingDataFramesFixed_agrees (N : ℕ) (t : TransportProtocol) :
    t.getPendingDataFramesFixed N =
      if t.getPendingDataFrames.2.length ≤ N then
        (t.getPendingDataFrames.1, .ok t.getPendingDataFrames.2)
      else (t.noteResourceRejection, .error .bufferOverflow) := by
  have hcount : t.getPendingDataFrames.2.length = (t.sessions.map needed).sum := by
    simp only [getPendingDataFrames, length_flatMap, length_drain]
  rw [getPendingDataFramesFixed, ← hcount]
  split
  · rw [if_neg (by omega)]
  · rw [if_pos (by omega), drainFixed_eq (by rw [length_nil, Nat.zero_add]; exact not_lt.mp ‹_›)]
    rfl

end Machbus
