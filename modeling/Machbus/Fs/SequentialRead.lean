import Machbus.Fs.Helpers.Reading
/-!
# File server — reading a file from start to end

A client that opens a file and reads it piece by piece, one request
after the other, is given the bytes of the file in order and then the
end. That rests on every request being carried out once: the server keeps
its answers for a while and repeats them when the same request comes
again, and a client has only 255 numbers to tell its requests apart.
-/

namespace Machbus.Fs.Exchange

open List

open FileServer Nat

variable {x : Exchange} {handle : FileHandle} {content : List UInt8} {n : ℕ} {l : State} {a : Act}
  {k m : ℕ}

/-! ## The whole file -/

/-- The bytes reported before the end. -/
def untilEnd (reports : List (Except FSError (List UInt8))) : List UInt8 :=
  ((reports.filterMap Except.toOption).takeWhile (· ≠ [])).flatten

theorem filterMap_pieces (content : List UInt8) (n k : ℕ) :
    (pieces content n k).filterMap Except.toOption = (List.range k).map (chunk content n) := by
  rw [pieces, filterMap_map]
  exact congrFun filterMap_eq_map' _

/-- Pieces put together. -/
theorem untilEnd_pieces (hn : 0 < n) (k : ℕ) : untilEnd (pieces content n k) = content.take
    (k * n) := by
  rw [untilEnd, filterMap_pieces]
  induction k generalizing content with
  | zero => simp
  | succ k ih =>
    rw [range_succ_eq_map, map_cons, map_map, takeWhile_cons]
    have hrest : (List.range k).map (chunk content n ∘ succ) =
        (List.range k).map (chunk (content.drop n) n) :=
      map_congr_left fun i _ => by
        rw [Function.comp, chunk, chunk, drop_drop, succ_mul, add_comm]
    have hfirst : chunk content n 0 = content.take n := by rw [chunk, zero_mul, drop_zero]
    rw [hrest, hfirst]
    by_cases hend : content.take n = []
    · have hempty : content = [] := by
        rcases take_eq_nil_iff.mp hend with h | h
        · omega
        · exact h
      simp [hempty]
    · rw [if_pos (by simpa using hend), flatten_cons, ih, succ_mul, add_comm, take_add]

theorem chunk_eq_nil_iff (hn : 0 < n) : chunk content n k = [] ↔ content.length ≤ k * n := by
  rw [← length_eq_zero_iff, length_chunk]
  omega

theorem Reading.reports (h : x.Reading handle content n l k m) :
    readsIn l.left.heard = pieces content n k := by
  cases h with
  | idle hc hout hreads h | waiting hc htan hout hreads h => rw [h.heard, hreads]

/-- With nothing under way every read has been answered. -/
theorem Reading.settled (h : x.Reading handle content n l k m) (hright : l.toRight = [])
    (hleft : l.toLeft = []) : k = m := by
  cases h with
  | idle hc hout hreads h => rfl
  | waiting hc htan hout hreads h =>
    cases h with
    | asked h =>
      have := h.toRight
      rw [hright] at this
      cases this
    | answered response h =>
      have := h.toLeft
      rw [hleft] at this
      cases this

theorem Opening.run {path : Text} {flags : UInt8} {as : List Act}
    (h : x.Opening content path flags l) (hx : x.Valid)
    (hmode : getAccessMode flags = OpenFlags.read.bit) (hquiet : ∀ a ∈ as, asks a = false)
    (halive : Along x.step x.KeepsAlive l as) (hnew : Along x.step x.NotReplayed l as) :
    x.Opening content path flags (run x.step l as) := by
  induction as generalizing l with
  | nil => exact h
  | cons a as ih =>
    exact ih (h.step hx hmode (hquiet a mem_cons_self) halive.1 hnew.1)
      (fun b hb => hquiet b (mem_cons_of_mem _ hb)) halive.2 hnew.2

theorem Reading.run {as : List Act} (h : x.Reading handle content n l k m) (hx : x.Valid)
    (hn : n ≤ 65535) (hsize : content.length ≤ u32Max)
    (hreads : Along x.step (ReadsOn handle n) l as) (halive : Along x.step x.KeepsAlive l as)
    (hnew : Along x.step x.NotReplayed l as) :
    ∃ k', x.Reading handle content n (run x.step l as) k' (m + as.countP asks) := by
  induction as generalizing l k m with
  | nil => exact ⟨k, h⟩
  | cons a as ih =>
    obtain ⟨k', h'⟩ := h.step hx hn hsize hreads.1 halive.1 hnew.1
    obtain ⟨k'', h''⟩ := ih h' hreads.2 halive.2 hnew.2
    refine ⟨k'', ?_⟩
    rw [countP_cons, add_comm (as.countP asks), ← add_assoc]
    exact h''

/-! ### A file of 255 bytes -/

def bytes255 : List UInt8 := (List.range 255).map UInt8.ofNat

/-- A client that is connected to a server with one file. -/
def connected (content : List UInt8) : State :=
  run pair.step (start (.new {}) ((FileServer.new {}).setUp (.addFile ['A'] content 0)))
    [.left (.connect 0x20), .deliverRight, .deliverLeft]

/-- The request to open is answered. -/
def opening : List Act := [.deliverRight, .deliverLeft]

def opened : State :=
  run pair.step (connected bytes255) (.left (.ask (.openFile ['A'] 0)) :: opening)

theorem ready_connected : pair.Ready ['A'] bytes255 (connected bytes255) where
  valid := ⟨by decide, by decide⟩
  client := ⟨by decide +kernel, by decide +kernel, by decide +kernel⟩
  idle := by decide +kernel
  reads := by rfl
  opened := by rfl
  server := ⟨by decide +kernel, ['\\', 'A'], ['*'], by decide +kernel, by decide +kernel⟩
  toRight := by decide +kernel
  toLeft := by decide +kernel

/-- **What the reports come to.** None is an error; with nothing under way
every read has been answered; the end is reported once the file has been
asked for and a piece more; and what comes before it is the content of
the file. -/
structure Delivers (content : List UInt8) (n asked : ℕ) (t : State) : Prop where
  answered : ∀ r ∈ readsIn t.left.heard, ∃ bytes, r = .ok bytes
  settled : t.toRight = [] → t.toLeft = [] → (readsIn t.left.heard).length = asked
  ended : content.length + n ≤ (readsIn t.left.heard).length * n → .ok [] ∈ readsIn t.left.heard
  whole : .ok [] ∈ readsIn t.left.heard → untilEnd (readsIn t.left.heard) = content

/-- **Reading a file piece by piece gives the file**, if no request meets an
answer that is still kept from an earlier one. -/
theorem sequential_read {path : Text} {flags : UInt8} {opening reading : List Act}
    (hready : x.Ready path content l) (hmode : getAccessMode flags = OpenFlags.read.bit)
    (hn : 0 < n) (hn16 : n ≤ 65535) (hsize : content.length ≤ u32Max)
    (hopening : ∀ a ∈ opening, asks a = false)
    (hopened : handle ∈ opensIn
      (Machbus.run x.step l (.left (.ask (.openFile path flags)) :: opening)).left.heard)
    (hreading : Along x.step (ReadsOn handle n)
      (Machbus.run x.step l (.left (.ask (.openFile path flags)) :: opening)) reading)
    (halive : Along x.step x.KeepsAlive l
      (.left (.ask (.openFile path flags)) :: opening ++ reading))
    (hnew : Along x.step x.NotReplayed l
      (.left (.ask (.openFile path flags)) :: opening ++ reading)) :
    Delivers content n (reading.countP asks)
      (Machbus.run x.step l (.left (.ask (.openFile path flags)) :: opening ++ reading)) := by
  rw [along_append] at halive hnew
  generalize ht : run x.step l (.left (.ask (.openFile path flags)) :: opening ++ reading) = t
  obtain ⟨k, hreads⟩ : ∃ k, x.Reading handle content n t k (0 + reading.countP asks) := by
    have hstart := (hready.open flags).run hready.valid hmode hopening halive.1.2 hnew.1.2
    rw [← ht, run_append]
    rw [run_cons] at hopened
    refine Reading.run (k := 0) ?_ hready.valid hn16 hsize hreading halive.2 hnew.2
    cases hstart with
    | none hnone h | waiting hc hreads hnone htan hascii hlen hout h =>
      rw [h.heard, hnone] at hopened
      cases hopened
    | opened hc hout hreads honly h =>
      rw [h.heard, honly, mem_singleton] at hopened
      subst hopened
      have hzero : reached content n 0 = 0 := by rw [reached, zero_mul, zero_min]
      exact .idle hc hout hreads { h with server := hzero.symm ▸ h.server }
  have hreports : readsIn t.left.heard = pieces content n k := hreads.reports
  have hlength : (readsIn t.left.heard).length = k := by
    rw [hreports, pieces, length_map, length_range]
  have hend : .ok [] ∈ readsIn t.left.heard ↔ ∃ i < k, content.length ≤ i * n := by
    rw [hreports, pieces]
    simp [chunk_eq_nil_iff hn]
  refine ⟨fun r hr => ?_, fun hright hleft => ?_, fun henough => ?_, fun hmem => ?_⟩
  · rw [hreports, pieces, mem_map] at hr
    obtain ⟨i, -, rfl⟩ := hr
    exact ⟨_, rfl⟩
  · rw [hlength, hreads.settled hright hleft, zero_add]
  · rw [hlength] at henough
    obtain ⟨j, rfl⟩ : ∃ j, k = j + 1 := exists_eq_add_one_of_ne_zero (by rintro rfl; omega)
    rw [succ_mul] at henough
    exact hend.mpr ⟨j, lt_succ_self j, by omega⟩
  · obtain ⟨i, hi, hlen⟩ := hend.mp hmem
    rw [hreports, untilEnd_pieces hn]
    exact take_of_length_le (hlen.trans (mul_le_mul_right n hi.le))

/-- A read, from the request to the report. -/
def readRound (handle : FileHandle) (n : ℕ) : List Act :=
  [.left (.ask (.readFile handle n)), .deliverRight, .deliverLeft]

/-- Four reads of up to a hundred bytes, with time between them. -/
def reading255 : List Act :=
  readRound 1 100 ++ [.left (.update 500), .right 500] ++ readRound 1 100 ++ readRound 1 100 ++
    readRound 1 100

theorem sequential_read_hundreds :
    untilEnd (readsIn (Machbus.run pair.step (connected bytes255)
      (.left (.ask (.openFile ['A'] 0)) :: opening ++ reading255)).left.heard) = bytes255 := by
  have h := @sequential_read pair 1 bytes255 100 (connected bytes255) ['A'] 0 opening reading255
    ready_connected (by decide) (by decide) (by decide) (by decide +kernel) (by decide)
    (by decide +kernel)
    ⟨⟨rfl, rfl, by decide +kernel⟩, trivial, trivial, trivial, trivial,
      ⟨rfl, rfl, by decide +kernel⟩, trivial, trivial, ⟨rfl, rfl, by decide +kernel⟩,
      trivial, trivial, ⟨rfl, rfl, by decide +kernel⟩, trivial, trivial, trivial⟩
    (by decide +kernel) (by decide +kernel)
  exact h.whole (h.ended (by decide +kernel))

/-! ## When the numbers come round -/

/-- Nothing is under way and nothing is waited for. -/
structure Rests (x : Exchange) (handle : FileHandle) (l : State) : Prop where
  toRight : l.toRight = []
  toLeft : l.toLeft = []
  client : l.left.client.Holds x handle
  idle : l.left.client.outstanding = []

/-- **A round**, whatever piece the server answers with. -/
theorem Rests.round {t : FileServer} (h : x.Rests handle l) (hx : x.Valid) (hn : n ≤ 65535)
    (hserver : l.right.handleClientMessage
      (x.request (readRequest l.left.client.nextTan handle n)) =
        (t, [.sendTo (chunkResponse l.left.client.nextTan content n k) x.client])) :
    x.Rests handle (run x.step l (readRound handle n)) ∧
      (run x.step l (readRound handle n)).right = t ∧
      (run x.step l (readRound handle n)).left.client.nextTan =
        l.left.client.allocateTan.1.nextTan ∧
      readsIn (run x.step l (readRound handle n)).left.heard =
        readsIn l.left.heard ++ [.ok (chunk content n k)] := by
  obtain ⟨d, hask, hd, htan, hout⟩ := FileClient.ask_readFile (n := n) h.client h.idle
  have hact : x.parties.actLeft l.left (.ask (.readFile handle n)) =
      ({ l.left with client := d }, [x.request (readRequest l.left.client.nextTan handle n)]) := by
    simp [parties, Station.act, Station.called, hask, fromClient, FSClientOutbound.new, request]
  obtain ⟨e, hread, hholds, hdone, hnext⟩ := handleServerResponse_read hx content k hd h.client.tan
    hout hn
  have hserve : x.parties.recvRight l.right
      (x.request (readRequest l.left.client.nextTan handle n)) =
      (t, [x.answer (chunkResponse l.left.client.nextTan content n k)]) := by
    simp only [parties, hserver, fromServer_sendTo]
  have hstart : Link.At (fun _ => True) l.left l.right [] [] l :=
    ⟨rfl, rfl, h.toRight, h.toLeft, fun _ _ => trivial⟩
  have hasked := hstart.actLeft hact fun _ _ => trivial
  have hanswered := hasked.deliverRight hserve fun _ _ => trivial
  have hheard : x.parties.recvLeft { l.left with client := d }
      (x.answer (chunkResponse l.left.client.nextTan content n k)) =
      (⟨e, l.left.heard ++ [.readResponse l.left.client.nextTan (.ok (chunk content n k))]⟩,
        []) := by
    simp [parties, Station.receive, hread]
  have hround := hanswered.deliverLeft hheard fun _ _ => trivial
  have hleft : (run x.step l (readRound handle n)).left = _ := hround.left
  refine ⟨⟨hround.toRight, hround.toLeft, ?_, ?_⟩, hround.right, ?_, ?_⟩
  · rw [hleft]
    exact hholds
  · rw [hleft]
    exact hdone
  · rw [hleft]
    exact hnext.trans htan
  · rw [hleft]
    rw [readsIn, filterMap_append]
    rfl

/-- **After `k` reads**, the first of them under the number 2: what is kept
from reads, and that the answer to the first is. -/
structure Turned (x : Exchange) (handle : FileHandle) (content : List UInt8) (n k : ℕ) (l : State) :
    Prop where
  rests : x.Rests handle l
  serving : l.right.Serving x.client handle content (reached content n k)
  reads : readsIn l.left.heard = pieces content n k
  tan : l.left.client.nextTan.toNat = (2 + k) % 255
  fresh : ∀ t r, l.right.kept x.client t = some r → r.requestData = readRequest t handle n →
    ∃ i < k, t.toNat = (2 + i) % 255
  first : 0 < k → ∃ time, l.right.kept x.client 2 =
    some ⟨2, readRequest 2 handle n, chunkResponse 2 content n 0, time⟩

theorem toNat_allocateTan {c : FileClient} (h : c.nextTan.toNat < 255) :
    c.allocateTan.1.nextTan.toNat = (c.nextTan.toNat + 1) % 255 := by
  have hsucc : (c.nextTan + 1).toNat = c.nextTan.toNat + 1 := by
    rw [UInt8.toNat_add, show (1 : UInt8).toNat = 1 from rfl]
    exact mod_eq_of_lt (by omega)
  rw [FileClient.allocateTan]
  split
  next hlast =>
    have : (c.nextTan + 1).toNat = 255 := congrArg UInt8.toNat hlast
    rw [← hsucc, this]
    rfl
  next hmore =>
    have : (c.nextTan + 1).toNat ≠ 255 := fun he => hmore (UInt8.toNat_inj.mp he)
    rw [hsucc] at this ⊢
    rw [mod_eq_of_lt (by omega)]

theorem Turned.round (h : x.Turned handle content n k l) (hx : x.Valid) (hn : n ≤ 65535)
    (hsize : content.length ≤ u32Max) (hk : k < 255) :
    x.Turned handle content n (k + 1) (run x.step l (readRound handle n)) := by
  have htan := h.tan
  have hnew : l.right.cachedResponse x.client l.left.client.nextTan
      (readRequest l.left.client.nextTan handle n) = none := by
    rw [cachedResponse_eq, Option.filter_eq_none_iff]
    intro r hr heq
    obtain ⟨i, hi, heq⟩ := h.fresh _ r hr (by simpa using heq)
    omega
  obtain ⟨t, time, hmet, ht, hkept⟩ :=
    handleClientMessage_read hx h.rests.client.tan hn hsize h.serving hnew
  obtain ⟨hrests, hserver, hnext, hreads⟩ := h.rests.round hx hn hmet
  refine ⟨hrests, by rw [hserver]; exact ht, by rw [hreads, h.reads, pieces_succ],
    ?_, ?_, fun _ => ?_⟩
  · rw [hnext, toNat_allocateTan (by omega)]
    omega
  · intro tan r hr hdata
    rw [hserver, hkept] at hr
    split at hr
    next heq => exact ⟨k, lt_succ_self k, by rw [heq, htan]⟩
    · obtain ⟨i, hi, heq⟩ := h.fresh tan r hr hdata
      exact ⟨i, Nat.lt_succ_of_lt hi, heq⟩
  · rw [hserver, hkept]
    rcases Nat.eq_zero_or_pos k with rfl | hpos
    · have hfirst : l.left.client.nextTan = 2 := UInt8.toNat_inj.mp htan
      rw [hfirst]
      exact ⟨time, rfl⟩
    · have hother : (2 : UInt8) ≠ l.left.client.nextTan := by
        intro he
        rw [← he, show (2 : UInt8).toNat = 2 from rfl] at htan
        omega
      rw [if_neg hother]
      exact h.first hpos

/-- A request that comes again is answered as before. -/
theorem handleClientMessage_repeated {s : FileServer} {msg : Message} {cached : TANResponse}
    (haccepted : Accepted msg)
    (h : s.cachedResponse msg.source (u8At msg.data 1) msg.data = some cached) :
    s.handleClientMessage msg =
      (s.ensureClient msg.source, [.sendTo cached.responseData msg.source]) := by
  rw [cachedResponse_eq, ← kept_ensureClient, ← cachedResponse_eq] at h
  rw [FileServer.handleClientMessage]
  dsimp only
  rw [if_neg haccepted.envelope, if_neg haccepted.function, if_neg haccepted.tan, h]

/-- **The numbers come round**: the read after 255 others is answered with
the first piece. -/
theorem Turned.comes_round (h : x.Turned handle content n 255 l) (hx : x.Valid) (hn : n ≤ 65535) :
    x.Rests handle (run x.step l (readRound handle n)) ∧
      readsIn (run x.step l (readRound handle n)).left.heard =
        pieces content n 255 ++ [.ok (chunk content n 0)] := by
  have htan : l.left.client.nextTan = 2 := UInt8.toNat_inj.mp h.tan
  obtain ⟨time, hfirst⟩ := h.first (by omega)
  have haccepted : Accepted (x.request (readRequest 2 handle n)) :=
    accepted_request hx (by change 2 ≤ 8; omega)
      (by change FSFunction.readFile.asU8 ≠ ccmFunctionCode; decide)
      (by change (2 : UInt8) ≠ _; decide)
  have hcached : l.right.cachedResponse x.client 2 (readRequest 2 handle n) =
      some ⟨2, readRequest 2 handle n, chunkResponse 2 content n 0, time⟩ := by
    rw [cachedResponse_eq, hfirst, Option.filter_some, if_pos (by simp)]
  have hmet := handleClientMessage_repeated haccepted hcached
  have hround := h.rests.round (k := 0) hx hn (by rw [htan]; exact hmet)
  exact ⟨hround.1, by rw [hround.2.2.2, h.reads]⟩

/-- So many rounds. -/
def readRounds (handle : FileHandle) (n k : ℕ) : List Act :=
  (List.replicate k (readRound handle n)).flatten

theorem readRounds_succ (handle : FileHandle) (n k : ℕ) :
    readRounds handle n (k + 1) = readRounds handle n k ++ readRound handle n := by
  rw [readRounds, replicate_succ']
  simp [readRounds]

theorem Rests.readsOn (h : x.Rests handle l) :
    Along x.step (ReadsOn handle n) l (readRound handle n) :=
  ⟨⟨rfl, rfl, map_eq_nil_iff.mp h.idle⟩, trivial, trivial, trivial⟩

theorem Turned.rounds (h : x.Turned handle content n 0 l) (hx : x.Valid) (hn : n ≤ 65535)
    (hsize : content.length ≤ u32Max) (hk : k ≤ 255) :
    x.Turned handle content n k (run x.step l (readRounds handle n k)) ∧
      Along x.step (ReadsOn handle n) l (readRounds handle n k) := by
  induction k with
  | zero => exact ⟨h, trivial⟩
  | succ k ih =>
    obtain ⟨hturned, halong⟩ := ih (by omega)
    rw [readRounds_succ, run_append, along_append]
    exact ⟨hturned.round hx hn hsize (by omega), halong, hturned.rests.readsOn⟩

theorem turned_opened : pair.Turned 1 bytes255 1 0 opened where
  rests := ⟨by decide +kernel, by decide +kernel,
    ⟨⟨by decide +kernel, by decide +kernel, by decide +kernel⟩, ⟨1, ['A'], 0, 0⟩, by decide +kernel,
      by decide⟩, by decide +kernel⟩
  serving := ⟨by decide +kernel, ⟨1, 0x10, ['\\', 'A'], 0, 0, false, ['*']⟩, by decide +kernel,
    by decide, by decide, by decide +kernel, by decide +kernel⟩
  reads := by rfl
  tan := by decide +kernel
  fresh t r hr hdata := by
    have hcache : ∀ e ∈ ((opened.right.clients.get 0x10).map (·.tanCache)).getD [],
        e.2.requestData ≠ readRequest e.1 1 1 := by decide +kernel
    obtain ⟨c, hc, hr⟩ := Option.bind_eq_some_iff.mp hr
    rw [show pair.client = 0x10 from rfl] at hc
    rw [hc] at hcache
    exact absurd hdata (hcache _ (OrderedMap.mem_of_get hr))
  first h := absurd h (lt_irrefl 0)

/-- **The file is not what is read.** The 256th byte reported is the first
one again, where the end should be. -/
theorem sequential_read_comes_round :
    let reading := readRounds 1 1 256
    let t := Machbus.run pair.step (connected bytes255)
      (.left (.ask (.openFile ['A'] 0)) :: opening ++ reading)
    let reports := readsIn t.left.heard
    pair.Ready ['A'] bytes255 (connected bytes255) ∧
      1 ∈ opensIn opened.left.heard ∧
      Along pair.step (ReadsOn 1 1)
        opened reading ∧
      Along pair.step pair.KeepsAlive (connected bytes255)
        (.left (.ask (.openFile ['A'] 0)) :: opening ++ reading) ∧
      t.toRight = [] ∧ t.toLeft = [] ∧ reports.length = reading.countP asks ∧
      .ok [] ∉ reports ∧ untilEnd reports = bytes255 ++ [0] := by
  intro reading t reports
  have hx : pair.Valid := ready_connected.valid
  obtain ⟨hturned, halong⟩ := turned_opened.rounds (k := 255) hx (by decide) (by decide +kernel)
    (le_refl _)
  obtain ⟨hrests, hreads⟩ := hturned.comes_round hx (by decide)
  have ht : t = run pair.step (run pair.step opened (readRounds 1 1 255)) (readRound 1 1) := by
    rw [← run_append, ← readRounds_succ, opened, ← run_append]
  have hreports : reports = pieces bytes255 1 255 ++ [.ok (chunk bytes255 1 0)] := by
    rw [← hreads, ← ht]
  refine ⟨ready_connected, by decide +kernel, ?_, by decide +kernel, ?_, ?_, ?_, ?_, ?_⟩
  · change Along _ _ _ (readRounds 1 1 (255 + 1))
    rw [readRounds_succ, along_append]
    exact ⟨halong, hturned.rests.readsOn⟩
  · rw [ht]
    exact hrests.toRight
  · rw [ht]
    exact hrests.toLeft
  all_goals
    rw [hreports]
    decide +kernel

end Machbus.Fs.Exchange
