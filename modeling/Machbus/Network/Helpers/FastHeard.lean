import Mathlib.Data.Multiset.Filter
import Machbus.Network.Interleaving
/-!
# Helpers — what a port sees of the fast packets

The reassembler is not told the port of a frame: its sessions are known by
source, PGN and sequence counter alone. What a port sees of them can only
be said with a record, kept beside the engine, of the port that the last
frame of each key came from. As long as no frame comes for a session of
another port, the sessions of a port are its own.
-/

namespace Machbus

open List

namespace FastPacket

/-- What a session is looked up by. -/
abbrev Key := Address × ℕ × ℕ

/-- The key of a frame. -/
def frameKey (f : Frame) : Key := (f.source, f.pgn, seqCounter f.data)

theorem key_openSession (f : Frame) : (openSession f).key = frameKey f := rfl

theorem key_tick {elapsedMs : ℕ} {s s' : Session} (h : (tick elapsedMs s).1 = some s') :
    s'.key = s.key := by
  simp only [tick] at h
  split at h
  · cases h
  · cases h
    rfl

end FastPacket

namespace FastPacketProtocol

open FastPacket

variable {t u : FastPacketProtocol} {f : Frame}

/-- The sessions a frame can find. -/
def mayFind (f : Frame) (s : FastPacket.Session) : Bool := s.key == frameKey f

/-- The reassembler with a part of its table. -/
def only (t : FastPacketProtocol) (R : FastPacket.Session → Bool) : FastPacketProtocol :=
  { rxSessions := t.rxSessions.filter R, maxRxSessions := t.maxRxSessions }

theorem rxPosition_frame (t : FastPacketProtocol) (f : Frame) :
    t.rxPosition f.source f.pgn (seqCounter f.data) = t.rxSessions.findIdx? (mayFind f) := by
  rw [rxPosition]
  congr 1
  funext s
  rw [mayFind, Bool.eq_iff_iff]
  simp [Session.key, frameKey, and_assoc]

/-- **Side by side.** The reassembler `t` has the table of `u` and the
sessions `rest` beside it. -/
structure Beside (rest : List FastPacket.Session)
    (r r' : FastPacketProtocol × Option FastPacket.Session) : Prop where
  sessions : r.1.rxSessions.Perm (rest ++ r'.1.rxSessions)
  completed : r.2 = r'.2

theorem beside_same (R : FastPacket.Session → Bool) (stats stats' : TransportStats)
    (done : Option FastPacket.Session) :
    Beside (t.rxSessions.filter fun s => !R s) ({ t with stats := stats }, done)
      ({ t.only R with stats := stats' }, done) :=
  ⟨(filter_append_perm R t.rxSessions).symm.trans perm_append_comm, rfl⟩

theorem startNewSession_beside (f : Frame) (hroom : t.rxSessions.length < t.maxRxSessions) :
    Beside (t.rxSessions.filter fun s => !mayFind f s) (t.startNewSession f)
      ((t.only (mayFind f)).startNewSession f) := by
  have hpart : (t.only (mayFind f)).rxSessions = t.rxSessions.filter (mayFind f) := rfl
  have hmax : (t.only (mayFind f)).maxRxSessions = t.maxRxSessions := rfl
  simp only [startNewSession, rxPosition_frame]
  split
  · split
    · exact beside_same _ _ _ _
    · exact beside_same _ _ _ _
  split
  · exact beside_same _ _ _ _
  rcases findIdx?_filter_cases (p := mayFind f) (R := mayFind f) (fun _ hs => hs) t.rxSessions with
    ⟨h, h'⟩ | ⟨l₁, s, l₂, hl, hs, h, hR, h'⟩
  · have hroom' : ¬t.maxRxSessions ≤ (t.rxSessions.filter (mayFind f)).length :=
      Nat.not_le.mpr (Nat.lt_of_le_of_lt (length_filter_le _ _) hroom)
    simp only [hpart, h, h', hmax]
    rw [if_neg (Nat.not_le.mpr hroom), if_neg hroom']
    refine ⟨?_, rfl⟩
    have hpush := ((filter_append_perm (mayFind f) t.rxSessions).symm.trans
      perm_append_comm).append_right [openSession f]
    rw [append_assoc] at hpush
    exact hpush
  · -- the session with the frame's key is replaced
    simp only [hpart, h, h']
    rw [hl, length_append, length_cons] at hroom
    have hlen : (l₁.filter (mayFind f)).length ≤ l₁.length := length_filter_le _ _
    have hlen' : (l₂.filter (mayFind f)).length ≤ l₂.length := length_filter_le _ _
    rw [hR, hl, swapRemove_append_cons, swapRemove_append_cons,
      if_neg (by rw [length_append, length_lastFirst]; omega),
      if_neg (by rw [length_append, length_lastFirst]; omega)]
    refine ⟨?_, rfl⟩
    have hremove : (l₁ ++ lastFirst l₂).Perm _ := remove_perm_part hs
    exact (hremove.append_right [openSession f]).trans (.of_eq (append_assoc _ _ _))

/-- **A frame deals with the sessions of its key.** -/
theorem processFrameSession_beside (f : Frame) (hroom : t.rxSessions.length < t.maxRxSessions) :
    Beside (t.rxSessions.filter fun s => !mayFind f s) (t.processFrameSession f)
      ((t.only (mayFind f)).processFrameSession f) := by
  have hpart : (t.only (mayFind f)).rxSessions = t.rxSessions.filter (mayFind f) := rfl
  simp only [processFrameSession, rxPosition_frame]
  split
  · exact beside_same _ _ _ _
  split
  · exact beside_same _ _ _ _
  split
  · exact startNewSession_beside f hroom
  rcases findIdx?_filter_cases (p := mayFind f) (R := mayFind f) (fun _ hs => hs) t.rxSessions with
    ⟨h, h'⟩ | ⟨l₁, s, l₂, hl, hs, h, hR, h'⟩
  · simp only [hpart, h, h']
    exact beside_same _ _ _ _
  · have hget : t.rxSessions[l₁.length]? = some s := by rw [hl]; simp
    have hget' : (t.rxSessions.filter (mayFind f))[(l₁.filter (mayFind f)).length]? = some s := by
      rw [hR]
      simp
    simp only [hpart, h, h', hget, hget']
    split
    · refine ⟨?_, rfl⟩
      rw [hR, hl, swapRemove_append_cons, swapRemove_append_cons]
      exact remove_perm_part hs
    split
    · refine ⟨?_, rfl⟩
      rw [hR, hl, set_append_cons, set_append_cons, swapRemove_append_cons, swapRemove_append_cons]
      exact remove_perm_part hs
    · refine ⟨?_, rfl⟩
      rw [hR, hl, set_append_cons, set_append_cons]
      exact replace_perm_part hs _

/-! ## What a frame can do -/

/-- **What a frame can do to the table.** -/
inductive FrameStep (t : FastPacketProtocol) (f : Frame) :
    FastPacketProtocol × Option FastPacket.Session → Prop
  /-- Only counters move. -/
  | counted (stats : TransportStats) (done : Option FastPacket.Session) :
      FrameStep t f ({ t with stats := stats }, done)
  /-- The session of the frame's key is complete, or given up. -/
  | closed {l₁ l₂ : List FastPacket.Session} {s : FastPacket.Session} (stats : TransportStats)
      (done : Option FastPacket.Session) (hl : t.rxSessions = l₁ ++ s :: l₂)
      (hs : mayFind f s = true) :
      FrameStep t f ({ t with rxSessions := l₁ ++ lastFirst l₂, stats := stats }, done)
  /-- It takes the frame in and waits for more. -/
  | extended {l₁ l₂ : List FastPacket.Session} {s : FastPacket.Session}
      (hl : t.rxSessions = l₁ ++ s :: l₂) (hs : mayFind f s = true) :
      FrameStep t f ({ t with rxSessions := l₁ ++ s.ingest f :: l₂ }, none)
  /-- A first frame opens a session beside others. -/
  | opened (h : ∀ s ∈ t.rxSessions, mayFind f s = false) :
      FrameStep t f ({ t with rxSessions := t.rxSessions ++ [openSession f] }, none)
  /-- Or in the place of the one it restarts. -/
  | reopened {l₁ l₂ : List FastPacket.Session} {s : FastPacket.Session} (stats : TransportStats)
      (hl : t.rxSessions = l₁ ++ s :: l₂) (hs : mayFind f s = true) :
      FrameStep t f
        ({ t with rxSessions := l₁ ++ lastFirst l₂ ++ [openSession f], stats := stats }, none)

theorem startNewSession_step (t : FastPacketProtocol) (f : Frame) :
    FrameStep t f (t.startNewSession f) := by
  simp only [startNewSession, rxPosition_frame]
  split
  · split
    · exact .counted _ _
    · exact .counted _ _
  split
  · exact .counted t.stats _
  rcases hfind : t.rxSessions.findIdx? (mayFind f) with _ | i
  · dsimp only
    split
    · exact .counted _ _
    · exact .opened (List.findIdx?_eq_none_iff.mp hfind)
  · obtain ⟨l₁, s, l₂, hl, rfl, hs, -⟩ := exists_split_of_findIdx? hfind
    have hremove : swapRemove t.rxSessions l₁.length = l₁ ++ lastFirst l₂ := by
      rw [hl, swapRemove_append_cons]
    simp only [hremove]
    split
    · exact .closed _ _ hl hs
    · exact .reopened _ hl hs

theorem processFrameSession_step (t : FastPacketProtocol) (f : Frame) :
    FrameStep t f (t.processFrameSession f) := by
  simp only [processFrameSession, rxPosition_frame]
  split
  · exact .counted _ _
  split
  · exact .counted _ _
  split
  · exact t.startNewSession_step f
  rcases hfind : t.rxSessions.findIdx? (mayFind f) with _ | i
  · exact .counted _ _
  · obtain ⟨l₁, s, l₂, hl, rfl, hs, -⟩ := exists_split_of_findIdx? hfind
    have hget : t.rxSessions[l₁.length]? = some s := by rw [hl]; simp
    have hremove : swapRemove t.rxSessions l₁.length = l₁ ++ lastFirst l₂ := by
      rw [hl, swapRemove_append_cons]
    have hset : ∀ s', t.rxSessions.set l₁.length s' = l₁ ++ s' :: l₂ := by
      intro s'
      rw [hl, set_append_cons]
    simp only [hget, hremove, hset, swapRemove_append_cons]
    split
    · exact .closed _ _ hl hs
    split
    · exact .closed t.stats _ hl hs
    · exact .extended hl hs

variable {r : FastPacketProtocol × Option FastPacket.Session}

theorem key_of_mayFind {s : FastPacket.Session} (h : mayFind f s = true) : s.key = frameKey f :=
  beq_iff_eq.mp h

/-- The sessions keep distinct keys. -/
theorem FrameStep.keyNodup (h : FrameStep t f r)
    (hn : KeyNodup (fun _ => true) Session.key t.rxSessions) :
    KeyNodup (fun _ => true) Session.key r.1.rxSessions := by
  cases h with
  | counted => exact hn
  | closed _ _ hl =>
    rw [hl] at hn
    exact hn.remove
  | extended hl =>
    rw [hl] at hn
    exact hn.replace rfl
  | opened hnone =>
    refine hn.push fun _ s hs heq => ?_
    have hfound : mayFind f s = true := beq_iff_eq.mpr heq
    rw [hnone s hs] at hfound
    cases hfound
  | reopened _ hl hs =>
    rw [hl] at hn
    refine hn.remove.push fun _ x hx => ?_
    rw [key_openSession, ← key_of_mayFind hs]
    exact hn.ne_of_mem_remove rfl x hx

/-- A table of sessions of the frame's key stays one. -/
theorem FrameStep.key (h : FrameStep t f r) (hall : ∀ s ∈ t.rxSessions, s.key = frameKey f) :
    ∀ s ∈ r.1.rxSessions, s.key = frameKey f := by
  intro x hx
  have hkept : ∀ {l₁ l₂ : List FastPacket.Session} {s : FastPacket.Session},
      t.rxSessions = l₁ ++ s :: l₂ → x ∈ l₁ ++ lastFirst l₂ → x.key = frameKey f :=
    fun hl hx => hall x (by rw [hl]; exact mem_of_mem_remove hx)
  cases h with
  | counted => exact hall x hx
  | closed _ _ hl => exact hkept hl hx
  | extended hl hs =>
    rcases mem_replace hx with hx | rfl
    · exact hkept hl hx
    · exact key_of_mayFind hs
  | opened =>
    rcases mem_append.mp hx with hx | hx
    · exact hall x hx
    · rw [mem_singleton.mp hx, key_openSession]
  | reopened _ hl =>
    rcases mem_append.mp hx with hx | hx
    · exact hkept hl hx
    · rw [mem_singleton.mp hx, key_openSession]

theorem FrameStep.maxRxSessions (h : FrameStep t f r) : r.1.maxRxSessions = t.maxRxSessions := by
  cases h <;> rfl

/-- With distinct keys, a frame can find one session at most. -/
theorem length_mayFind_le (hn : KeyNodup (fun _ => true) Session.key t.rxSessions) (f : Frame) :
    (t.rxSessions.filter (mayFind f)).length ≤ 1 := by
  have hkeys : (((t.rxSessions.filter (mayFind f)).map Session.key)).Nodup := by
    rw [KeyNodup, filter_true] at hn
    exact hn.sublist (filter_sublist.map _)
  rcases hfilter : t.rxSessions.filter (mayFind f) with _ | ⟨x, _ | ⟨y, l⟩⟩
  · simp
  · simp
  · -- two slots found would share their key
    exfalso
    have hx : x ∈ t.rxSessions.filter (mayFind f) := by simp [hfilter]
    have hy : y ∈ t.rxSessions.filter (mayFind f) := by simp [hfilter]
    have hkey := (key_of_mayFind (mem_filter.mp hx).2).trans
      (key_of_mayFind (mem_filter.mp hy).2).symm
    rw [hfilter, map_cons, hkey, nodup_cons] at hkeys
    exact hkeys.1 mem_cons_self

/-! ## What a port sees -/

/-- **What a port sees**, given the ports the last frames of the keys came
from: the cap, and the sessions of its own, in no order. -/
def heardOn (origin : Key → UInt8) (p : UInt8) (t : FastPacketProtocol) :
    ℕ × Multiset FastPacket.Session :=
  (t.maxRxSessions, ↑(t.rxSessions.filter fun s => origin s.key == p))

/-- **The frame is for a session of its port**, if it is for any: every
session of its key was last continued from there. -/
def Owns (origin : Key → UInt8) (t : FastPacketProtocol) (f : Frame) (port : UInt8) : Prop :=
  ∀ s ∈ t.rxSessions, s.key = frameKey f → origin s.key = port
  deriving Decidable

variable {origin origin' : Key → UInt8} {p port : UInt8}

theorem heardOn_eq_iff :
    t.heardOn origin p = u.heardOn origin' p ↔ t.maxRxSessions = u.maxRxSessions ∧
      (t.rxSessions.filter fun s => origin s.key == p).Perm
        (u.rxSessions.filter fun s => origin' s.key == p) :=
  Prod.ext_iff.trans (and_congr_right fun _ => Multiset.coe_eq_coe)

/-- Recording the port of such a frame shows nowhere. -/
theorem heardOn_record (hown : t.Owns origin f port) :
    t.heardOn (Function.update origin (frameKey f) port) p = t.heardOn origin p := by
  rw [heardOn_eq_iff]
  refine ⟨rfl, List.Perm.of_eq (filter_congr fun s hs => ?_)⟩
  by_cases hkey : s.key = frameKey f
  · rw [hkey, Function.update_self, ← hown s hs hkey, hkey]
  · rw [Function.update_of_ne hkey]

/-- A frame on another port shows nowhere on this one. -/
theorem heardOn_processFrame_of_ne (hport : port ≠ p)
    (hroom : t.rxSessions.length < t.maxRxSessions) (hown : t.Owns origin f port) :
    (t.processFrame f).1.heardOn (Function.update origin (frameKey f) port) p =
      t.heardOn origin p := by
  rw [← heardOn_record hown, heardOn_eq_iff]
  refine ⟨(t.processFrameSession_step f).maxRxSessions, ?_⟩
  have hother : ∀ s : FastPacket.Session, s.key = frameKey f →
      (Function.update origin (frameKey f) port s.key == p) = false := by
    intro s hs
    rw [hs]
    simpa using hport
  refine filter_perm_of_untouched (processFrameSession_beside f hroom).sessions ?_ ?_
  · intro s _ hmine
    by_contra hR
    rw [hother s (key_of_mayFind (by simpa using hR))] at hmine
    cases hmine
  · intro s hs
    refine hother s ((processFrameSession_step _ f).key (fun x hx => ?_) s hs)
    exact key_of_mayFind (mem_filter.mp hx).2

section

variable (h : t.heardOn origin p = u.heardOn origin' p)
  (hn : KeyNodup (fun _ => true) Session.key t.rxSessions)
include h hn

/-- The sessions a frame of the port can find are the same where the port
sees the same. -/
theorem mayFind_eq (hown : t.Owns origin f p) (hown' : u.Owns origin' f p) :
    t.rxSessions.filter (mayFind f) = u.rxSessions.filter (mayFind f) := by
  have hmine : ∀ {o : Key → UInt8} {v : FastPacketProtocol}, v.Owns o f p →
      (v.rxSessions.filter fun s => o s.key == p).filter (mayFind f) =
        v.rxSessions.filter (mayFind f) := by
    intro o v hv
    rw [filter_filter]
    refine filter_congr fun s hs => ?_
    cases hfound : mayFind f s with
    | false => rfl
    | true => simpa using hv s hs (key_of_mayFind hfound)
  have hperm := (heardOn_eq_iff.mp h).2.filter (mayFind f)
  rw [hmine hown, hmine hown'] at hperm
  have hlen := length_mayFind_le hn f
  rcases hfilter : t.rxSessions.filter (mayFind f) with _ | ⟨x, _ | ⟨y, l⟩⟩
  · rw [hfilter] at hperm
    exact hperm.nil_eq
  · rw [hfilter] at hperm
    exact (perm_singleton.mp hperm.symm).symm
  · rw [hfilter, length_cons, length_cons] at hlen
    omega

/-- **A frame on the port** does the same to two reassemblers that look the
same to it, and completes the same message. -/
theorem heardOn_processFrame (hroom : t.rxSessions.length < t.maxRxSessions)
    (hroom' : u.rxSessions.length < u.maxRxSessions) (hown : t.Owns origin f p)
    (hown' : u.Owns origin' f p) :
    (t.processFrame f).1.heardOn (Function.update origin (frameKey f) p) p =
        (u.processFrame f).1.heardOn (Function.update origin' (frameKey f) p) p ∧
      (t.processFrame f).2 = (u.processFrame f).2 := by
  have hmax : t.maxRxSessions = u.maxRxSessions := (heardOn_eq_iff.mp h).1
  have honly : u.only (mayFind f) = t.only (mayFind f) := by
    rw [only, only, hmax, mayFind_eq h hn hown hown']
  have hbeside := processFrameSession_beside f hroom
  have hbeside' := processFrameSession_beside f hroom'
  rw [honly] at hbeside'
  refine ⟨heardOn_eq_iff.mpr ⟨?_, ?_⟩, ?_⟩
  · exact ((t.processFrameSession_step f).maxRxSessions.trans hmax).trans
      (u.processFrameSession_step f).maxRxSessions.symm
  · -- off the frame's key nothing moves, and what is put in is the port's
    have hrest : ∀ {o : Key → UInt8} {v : FastPacketProtocol},
        (v.rxSessions.filter fun s => !mayFind f s).filter
            (fun s => Function.update o (frameKey f) p s.key == p) =
          (v.rxSessions.filter fun s => o s.key == p).filter fun s => !mayFind f s := by
      intro o v
      rw [filter_comm]
      refine (filter_filter.trans (filter_congr fun s _ => ?_)).trans filter_filter.symm
      cases hfound : mayFind f s with
      | true => rfl
      | false =>
        rw [Function.update_of_ne fun hkey => ?_]
        rw [mayFind, hkey] at hfound
        simp at hfound
    have hput : ∀ {o : Key → UInt8}, ((t.only (mayFind f)).processFrameSession
        f).1.rxSessions.filter (fun s => Function.update o (frameKey f) p s.key == p) =
          ((t.only (mayFind f)).processFrameSession f).1.rxSessions := by
      refine filter_eq_self.mpr fun s hs => ?_
      have hkey := (processFrameSession_step _ f).key
        (fun x hx => key_of_mayFind (mem_filter.mp hx).2) s hs
      rw [hkey, Function.update_self]
      exact beq_self_eq_true p
    have hview := hbeside.sessions.filter fun s => Function.update origin (frameKey f) p s.key == p
    have hview' := hbeside'.sessions.filter
      fun s => Function.update origin' (frameKey f) p s.key == p
    rw [filter_append, hrest, hput] at hview hview'
    have hsame := (heardOn_eq_iff.mp h).2.filter fun s => !mayFind f s
    exact hview.trans ((hsame.append_right _).trans hview'.symm)
  · simp [processFrame, hbeside.completed, hbeside'.completed]

end

/-! ## Other calls -/

theorem rxSessions_update_perm (t : FastPacketProtocol) (elapsedMs : ℕ) :
    (t.update elapsedMs).rxSessions.Perm (t.rxSessions.filterMap fun s => (tick elapsedMs s).1) :=
  (sweep_perm t.rxSessions).1

/-- The timers of a port's sessions run by themselves. -/
theorem heardOn_update (h : t.heardOn origin p = u.heardOn origin' p) (elapsedMs : ℕ) :
    (t.update elapsedMs).heardOn origin p = (u.update elapsedMs).heardOn origin' p := by
  obtain ⟨hmax, hsame⟩ := heardOn_eq_iff.mp h
  have hticks : ∀ (o : Key → UInt8) (v : FastPacketProtocol),
      ((v.update elapsedMs).rxSessions.filter fun s => o s.key == p).Perm
        ((v.rxSessions.filter fun s => o s.key == p).filterMap fun s => (tick elapsedMs s).1) := by
    intro o v
    refine ((v.rxSessions_update_perm elapsedMs).filter _).trans (List.Perm.of_eq ?_)
    exact filter_filterMap_comm fun s s' hs => by rw [key_tick hs]
  rw [heardOn_eq_iff]
  exact ⟨hmax, (hticks origin t).trans ((hsame.filterMap _).trans (hticks origin' u).symm)⟩

/-- Sending touches no session. -/
theorem sendTo_rxSessions (t : FastPacketProtocol) (pgn : ℕ) (data : List UInt8)
    (source destination : Address) (priority : Priority) :
    (t.sendTo pgn data source destination priority).1.rxSessions = t.rxSessions ∧
      (t.sendTo pgn data source destination priority).1.maxRxSessions = t.maxRxSessions := by
  unfold sendTo
  repeat' split
  all_goals exact ⟨rfl, rfl⟩

end FastPacketProtocol

end Machbus
