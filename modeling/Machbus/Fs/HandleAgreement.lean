import Machbus.Fs.Helpers.Hearing
import Machbus.Fs.Helpers.Reading
/-!
# File server — the handles a client believes in

A client believes in a handle from the answer that opens it to the answer
that closes it, and the server is not asked in between. The two agree as
long as every request that is answered is carried out when it is
answered, the answers find the requests they belong to, and the server
keeps the client. It forgets a client, with its handles, that has not
maintained the connection for six seconds, counted from the start of the
server for one that never has.
-/

namespace Machbus.Fs

open List FSFunction

/-! ## The server -/

namespace FileServer

variable {s : FileServer} {elapsedMs : ℕ}

/-- **A volume that is removed stays so.** -/
theorem removed_preserved : Preserved fun s => s.volumeState = .removed where
  ensured s a h := by rw [ensureClient_eq]; exact h
  effect s a request t _ _ h he := by
    cases he with
    | nothing | closed | sought | wrote | movedFile | deletedDirectory
    | deletedFile | setAttributes | maintained => exact h
    | opened hvolume | initialized hvolume | prepared hvolume => exact absurd h hvolume
    | wentUp | wentTo => rw [setCurrentDirectory, ensureClient_eq]; exact h
    | removed => rfl
  clock _ _ _ _ _ hstate h := hstate.mpr h
  entries _ _ _ h := h
  removed _ _ := rfl
  pruned _ h := h

/-- There is no volume, and no handle on it. -/
def Ejected (s : FileServer) : Prop := s.volumeState = .removed ∧ s.openFiles = []

theorem ejected_preserved : Preserved Ejected :=
  removed_preserved.and
    { clock := fun _ _ _ _ _ _ h => h
      entries := fun _ _ _ h => h
      removed := fun _ _ => rfl
      pruned := fun s h => by rw [cleanupDisconnectedClients, h]; rfl }
    (fun s a h => by rw [ensureClient_eq]; exact h)
    fun s a request t hremoved h he => by
      cases he with
      | opened hvolume | initialized hvolume | prepared hvolume => exact absurd hremoved hvolume
      | closed _ _ hopen | sought hopen | wrote hopen => rw [findOpen, h] at hopen; cases hopen
      | wentUp | wentTo => rw [setCurrentDirectory, ensureClient_eq]; exact h
      | removed => rfl
      | _ => exact h

/-- One call alone brings the volume back. -/
theorem call_ejected (hstand : s.Standing) (h : s.Ejected) (c : Call)
    (hc : .reinsertVolume ≠ c) : (s.call c).Ejected := by
  cases c with
  | setUp c =>
    exact setUp_induction (P := Ejected) (fun _ _ _ _ _ _ => h) (fun _ _ _ _ _ => h) (fun _ => h)
      (fun _ _ _ => h) c
  | act a => exact ejected_preserved.step hstand h a
  | prepareVolumeForRemoval =>
    rw [call, prepareVolumeForRemoval, h.1]
    exact h
  | receiveVolumeMaintainRequest client =>
    rw [call, receiveVolumeMaintainRequest, if_pos (by rw [h.1]; decide)]
    exact h
  | clearVolumeMaintainRequest client => exact h
  | setVolumeRemoved => exact ⟨rfl, rfl⟩
  | reinsertVolume => exact absurd rfl hc

theorem run_ejected (hstand : s.Standing) (h : s.Ejected) (later : List Call) :
    .reinsertVolume ∈ later ∨ (run call s later).Ejected := by
  induction later generalizing s with
  | nil => exact .inr h
  | cons c later ih =>
    by_cases hc : .reinsertVolume = c
    · exact .inl (hc ▸ mem_cons_self)
    · exact (ih (hstand.call c) (call_ejected hstand h c hc)).imp_left (mem_cons_of_mem c)

/-- **A volume that is taken out stays out**, with every file closed, until
it is put back. -/
theorem stays_ejected (config : FileServerConfig) (calls later : List Call) :
    .reinsertVolume ∈ later ∨
      (run call (new config) (calls ++ .setVolumeRemoved :: later)).Ejected := by
  have hstand := (standing_calls config calls).call .setVolumeRemoved
  rw [run_append]
  exact run_ejected hstand ⟨rfl, rfl⟩ later

/-- **Time takes the handles of the clients that are forgotten**, and no
others while there is a volume. -/
theorem openFiles_update (h : (s.update elapsedMs).1.volumeState ≠ .removed) :
    (s.update elapsedMs).1.openFiles = s.openFiles.filter fun f =>
      !{ s with currentTimeMs := satAdd32 s.currentTimeMs elapsedMs }.disconnectedClients.contains
        f.owner := by
  rw [update] at h ⊢
  rcases updateVolumeStateMachine_cases
    { s with currentTimeMs := satAdd32 s.currentTimeMs elapsedMs } elapsedMs with
    ⟨state, timer, -, -, hmachine⟩ | ⟨-, timer, hremoved⟩
  · have hgone := disconnectedClients_cleanupExpiredTanCache { s with
      currentTimeMs := satAdd32 s.currentTimeMs elapsedMs
      volumeRemovalTimerMs := timer }
    rw [hmachine]
    split <;> exact congrArg (fun gone : List Address => s.openFiles.filter fun f =>
      !gone.contains f.owner) hgone
  · refine absurd ?_ h
    rw [hremoved]
    split <;> rfl

/-- **A server that nobody asks only reports.** -/
theorem update_reports (s : FileServer) (elapsedMs : ℕ) : ∀ o ∈ (s.update elapsedMs).2,
    o = .broadcast o.data ∧
      (u8At o.data 0 = fileServerStatus.asU8 ∨ u8At o.data 1 = invalidTan) := by
  have hmachine : ∀ s : FileServer, ∀ o ∈ (s.updateVolumeStateMachine elapsedMs).2,
      o = .broadcast o.data ∧
        (u8At o.data 0 = fileServerStatus.asU8 ∨ u8At o.data 1 = invalidTan) := by
    intro s o ho
    rcases s.updateVolumeStateMachine_cases elapsedMs with ⟨_, _, -, -, h⟩ | ⟨-, timer, h⟩
    · rw [h] at ho
      cases ho
    · rw [h, setVolumeRemoved, mem_singleton] at ho
      rw [ho]
      exact ⟨rfl, .inr rfl⟩
  intro o ho
  rw [update] at ho
  split at ho
  · rcases mem_append.mp ho with ho | ho
    · exact hmachine _ o ho
    · rw [mem_singleton.mp ho]
      exact ⟨rfl, .inl rfl⟩
  · exact hmachine _ o ho

end FileServer

namespace Exchange

open FileServer FileClient

variable (x : Exchange)

/-! ## What is under way -/

/-- A message that is not a mere report or maintenance has a number. -/
def Carries (tan : TAN) (m : Message) : Prop :=
  u8At m.data 0 ≠ FSFunction.fileServerStatus.asU8 ∧ u8At m.data 1 = tan
  deriving Decidable

/-- A request of the client. -/
def IsRequest (m : Message) : Prop :=
  ∃ (function : FSFunction) (tan : TAN) (b : UInt8) (rest : List UInt8),
    function ≠ .fileServerStatus ∧ tan ≠ invalidTan ∧
      m = x.request (function.asU8 :: tan :: b :: rest)

/-- A message the client takes as one of the server. -/
structure FromServer (m : Message) : Prop where
  pgn : m.pgn = pgnFileServerToClient
  source : m.source = x.server
  usable : m.hasUsableSource = true
  destination : m.hasValidDestinationForPgn = true

/-- The handles the client believes in once it has heard what is under way
to it. -/
def view (c : FileClient) (toLeft : List Message) : List FileHandle :=
  toLeft.foldl (hear c.asked) c.openFiles.keys

/-- The client waits for the answer to a request, or has given up one that
closes nothing. -/
def Waited (c : FileClient) (m : Message) : Prop :=
  (∃ function, c.asked (u8At m.data 1) = some (function, m.data) ∧ u8At m.data 0 = function.asU8) ∨
    c.asked (u8At m.data 1) = none ∧ u8At m.data 0 ≠ FSFunction.closeFile.asU8

/-- **The requests under way in order**: first those from before a
disconnect, when the client believes in nothing. -/
structure Queued (c : FileClient) (toLeft stale current : List Message) : Prop where
  silent : stale ≠ [] → view c toLeft = []
  lost : ∀ m ∈ stale, m ≠ x.ccm → c.asked (u8At m.data 1) = none
  waited : ∀ m ∈ current, m ≠ x.ccm → Waited c m

/-- **Client and queues fit together.** -/
structure Tidy (c : FileClient) (toRight toLeft : List Message) : Prop where
  address : c.serverAddress = nullAddress ∨ c.serverAddress = x.server
  nextTan : c.nextTan ≠ invalidTan
  nodup : c.pendingRequests.keys.Nodup
  invalid : c.asked invalidTan = none
  requests : ∀ m ∈ toRight, m = x.ccm ∨ x.IsRequest m
  answers : ∀ m ∈ toLeft, x.FromServer m
  once : ∀ tan, c.asked tan ≠ none →
    (toRight ++ toLeft).countP (fun m => decide (Carries tan m)) ≤ 1
  order : ∃ stale current, toRight = stale ++ current ∧ x.Queued c toLeft stale current

/-- **Every handle the client believes in is open at the server.** -/
structure Agreed (l : State) : Prop where
  standing : l.right.Standing
  tidy : x.Tidy l.left.client l.toRight l.toLeft
  opened : l.right.volumeState ≠ .removed →
    ∀ handle ∈ view l.left.client l.toLeft, l.right.HasOpen x.client handle

variable {x} {c d : FileClient} {m : Message} {toRight toLeft : List Message}
  {function : FSFunction}

theorem IsRequest.ne_ccm (h : x.IsRequest m) : m ≠ x.ccm := by
  obtain ⟨function, tan, b, rest, hfunction, -, rfl⟩ := h
  intro he
  have hbyte : function.asU8 = fileServerStatus.asU8 :=
    congrArg (fun m : Message => u8At m.data 0) he
  exact hfunction (asU8_injective hbyte)

theorem IsRequest.carries (h : x.IsRequest m) : Carries (u8At m.data 1) m := by
  obtain ⟨function, tan, b, rest, hfunction, -, rfl⟩ := h
  exact ⟨fun he => hfunction (asU8_injective he), rfl⟩

theorem countP_carries_eq_zero {tan : TAN} {ms : List Message} (h : ∀ n ∈ ms, ¬Carries tan n) :
    ms.countP (fun m => decide (Carries tan m)) = 0 :=
  countP_eq_zero.mpr fun n hn => by simpa using h n hn

/-- Of a number that the client waits for, one frame is under way. -/
theorem Tidy.not_carries (h : x.Tidy c toRight (m :: toLeft)) {tan : TAN}
    (hasked : c.asked tan ≠ none)
    (hm : Carries tan m) : ∀ n ∈ toRight ++ toLeft, ¬Carries tan n := by
  intro n hn hcarries
  have hone := h.once tan hasked
  rw [countP_append, countP_cons_of_pos (by simpa using hm)] at hone
  have hpos : 0 < (toRight ++ toLeft).countP fun m => decide (Carries tan m) :=
    countP_pos_iff.mpr ⟨n, hn, by simpa using hcarries⟩
  rw [countP_append] at hpos
  omega

/-! ## The client's side of a step -/

/-- **The client waits for less.** Nothing under way has the number of a
request to close that it no longer waits for. -/
theorem Tidy.loses {before : List Message} (h : x.Tidy c toRight (before ++ toLeft))
    (haddress : d.serverAddress = c.serverAddress) (hnext : d.nextTan ≠ invalidTan)
    (hnodup : d.pendingRequests.keys.Nodup) (hheld : d.openFiles.keys ⊆ view c before)
    (hlost : ∀ tan, d.asked tan = c.asked tan ∨ d.asked tan = none ∧
      ((∀ n ∈ toRight ++ toLeft, ¬Carries tan n) ∨
        ∃ function data, c.asked tan = some (function, data) ∧ function ≠ .closeFile)) :
    x.Tidy d toRight toLeft ∧ view d toLeft ⊆ view c (before ++ toLeft) := by
  have hview : view d toLeft ⊆ view c (before ++ toLeft) := by
    rw [view, view, foldl_append]
    refine foldl_hear_subset (fun n hn held => ?_) hheld
    rcases hlost (u8At n.data 1) with heq | ⟨hnone, hfree | ⟨function, data, hc, hclose⟩⟩
    · rw [hear, heq]
      exact List.Subset.refl _
    · have hreport : u8At n.data 0 = fileServerStatus.asU8 :=
        not_not.mp fun hne => hfree n (mem_append_right _ hn) ⟨hne, rfl⟩
      rw [hear_report (.inl hreport), hear_report (.inl hreport)]
      exact List.Subset.refl _
    · rw [hear_report (.inr hnone)]
      refine subset_hear fun request he => ?_
      rw [hc] at he
      exact absurd (Prod.mk.inj (Option.some.inj he)).1 hclose
  have hless : ∀ tan, d.asked tan ≠ none → c.asked tan ≠ none := fun tan hne => by
    rcases hlost tan with heq | ⟨hnone, -⟩
    · rw [← heq]
      exact hne
    · exact absurd hnone hne
  refine ⟨⟨haddress ▸ h.address, hnext, hnodup, by_contra fun hne => hless _ hne h.invalid,
    h.requests, fun n hn => h.answers n (mem_append_right _ hn), fun tan hne => ?_, ?_⟩, hview⟩
  · refine Nat.le_trans (List.Sublist.countP_le ?_) (h.once tan (hless tan hne))
    exact List.Sublist.append_left (sublist_append_right _ _) _
  · obtain ⟨stale, current, rfl, hq⟩ := h.order
    refine ⟨stale, current, rfl, fun hstale => ?_, fun n hn hccm => ?_, fun n hn hccm => ?_⟩
    · rw [hq.silent hstale] at hview
      exact subset_nil.mp hview
    · exact by_contra fun hne => hless _ hne (hq.lost n hn hccm)
    · have hn' := mem_append_right stale hn
      rcases hlost (u8At n.data 1) with heq | ⟨hnone, hfree | ⟨function, data, hc, hclose⟩⟩
      · rw [Waited, heq]
        exact hq.waited n hn hccm
      · have hrequest := (h.requests n hn').resolve_left hccm
        exact absurd hrequest.carries (hfree n (mem_append_left _ hn'))
      · refine .inr ⟨hnone, ?_⟩
        rcases hq.waited n hn hccm with ⟨function', hc', hfunction⟩ | ⟨hc', -⟩
        · rw [hc] at hc'
          rw [hfunction, ← (Prod.mk.inj (Option.some.inj hc')).1]
          exact fun he => hclose (asU8_injective he)
        · rw [hc] at hc'
          cases hc'

/-- **A message of the server is taken.** -/
theorem Tidy.hears (h : x.Tidy c toRight (m :: toLeft)) (hd : Hears c m d) :
    x.Tidy d toRight toLeft ∧ view d toLeft ⊆ view c (m :: toLeft) := by
  refine @Tidy.loses x c d toRight toLeft [m] h hd.serverAddress (hd.nextTan ▸ h.nextTan) hd.nodup
    hd.held fun tan => ?_
  rcases hd.asked tan with heq | ⟨hnone, ⟨htan, hfunction⟩ | ⟨data, hvolume⟩⟩
  · exact .inl heq
  · by_cases hasked : c.asked tan = none
    · exact .inl (hnone.trans hasked.symm)
    · exact .inr ⟨hnone, .inl (h.not_carries hasked ⟨hfunction, htan.symm⟩)⟩
  · exact .inr ⟨hnone, .inr ⟨_, data, hvolume, by decide⟩⟩

/-- Maintenance messages do not count. -/
theorem Tidy.maintains (h : x.Tidy c toRight toLeft) {sent : List Message}
    (hsent : ∀ n ∈ sent, n = x.ccm) : x.Tidy c (toRight ++ sent) toLeft := by
  refine { h with
    requests := forall_mem_append.mpr ⟨h.requests, fun n hn => .inl (hsent n hn)⟩
    once := fun tan hne => ?_
    order := ?_ }
  · have hzero := @countP_carries_eq_zero tan sent fun n hn => hsent n hn ▸ fun h => h.1 rfl
    have hone := h.once tan hne
    simp only [countP_append] at hone ⊢
    omega
  · obtain ⟨stale, current, rfl, hq⟩ := h.order
    refine ⟨stale, current ++ sent, append_assoc _ _ _, hq.silent, hq.lost, fun n hn hccm => ?_⟩
    rcases mem_append.mp hn with hn | hn
    · exact hq.waited n hn hccm
    · exact absurd (hsent n hn) hccm

/-- **A request is made** under a number that nothing under way has. -/
theorem Tidy.asks (h : x.Tidy c toRight toLeft)
    (hfree : ∀ n ∈ toRight ++ toLeft, ¬Carries c.nextTan n) {b : UInt8}
    {rest : List UInt8} (hfunction : function ≠ .fileServerStatus) {sent : List Message}
    (hsent : sent = [] ∨ sent = [x.request (function.asU8 :: c.nextTan :: b :: rest)]) :
    x.Tidy (c.request function (b :: rest)).1 (toRight ++ sent) toLeft ∧
      view (c.request function (b :: rest)).1 toLeft ⊆ view c toLeft := by
  have hasked := asked_request c function (b :: rest)
  generalize hd : (c.request function (b :: rest)).1 = d at hasked
  have hother : ∀ n ∈ toRight ++ toLeft, u8At n.data 0 ≠ fileServerStatus.asU8 →
      d.asked (u8At n.data 1) = c.asked (u8At n.data 1) := fun n hn hne => by
    rw [hasked, if_neg fun htan => hfree n hn ⟨hne, htan⟩]
  have hview : view d toLeft ⊆ view c toLeft := by
    refine foldl_hear_subset (fun n hn held => ?_) (by rw [← hd]; exact List.Subset.refl _)
    by_cases hreport : u8At n.data 0 = fileServerStatus.asU8
    · rw [hear_report (.inl hreport), hear_report (.inl hreport)]
      exact List.Subset.refl _
    · rw [hear, hother n (mem_append_right _ hn) hreport]
      exact List.Subset.refl _
  have hnew : ∀ n ∈ sent, n = x.request (function.asU8 :: c.nextTan :: b :: rest) := by
    rcases hsent with rfl | rfl <;> simp
  have hnewRequest : ∀ n ∈ sent, x.IsRequest n := fun n hn =>
    ⟨function, c.nextTan, b, rest, hfunction, h.nextTan, hnew n hn⟩
  refine ⟨⟨hd ▸ h.address, hd ▸ nextTan_allocateTan c, hd ▸ OrderedMap.nodup_keys_insert h.nodup,
    ?_, forall_mem_append.mpr ⟨h.requests, fun n hn => .inr (hnewRequest n hn)⟩, h.answers,
    fun tan hne => ?_, ?_⟩, hview⟩
  · rw [hasked, if_neg h.nextTan.symm]
    exact h.invalid
  · by_cases htan : tan = c.nextTan
    · subst htan
      have hzero := countP_carries_eq_zero hfree
      have hone : sent.countP (fun m => decide (Carries c.nextTan m)) ≤ 1 := by
        refine Nat.le_trans countP_le_length ?_
        rcases hsent with rfl | rfl <;> simp
      simp only [countP_append] at hzero ⊢
      omega
    · have hzero := @countP_carries_eq_zero tan sent fun n hn hc =>
        htan (by rw [hnew n hn] at hc; exact hc.2.symm)
      rw [hasked, if_neg htan] at hne
      have hone := h.once tan hne
      simp only [countP_append] at hone ⊢
      omega
  · obtain ⟨stale, current, rfl, hq⟩ := h.order
    have hkept : ∀ n ∈ stale ++ current, n ≠ x.ccm →
        d.asked (u8At n.data 1) = c.asked (u8At n.data 1) := fun n hn hccm =>
      hother n (mem_append_left _ hn) ((h.requests n hn).resolve_left hccm).carries.1
    refine ⟨stale, current ++ sent, append_assoc _ _ _, fun hstale => ?_, fun n hn hccm => ?_,
      fun n hn hccm => ?_⟩
    · rw [hq.silent hstale] at hview
      exact subset_nil.mp hview
    · rw [hkept n (mem_append_left _ hn) hccm]
      exact hq.lost n hn hccm
    · rcases mem_append.mp hn with hn | hn
      · rw [Waited, hkept n (mem_append_right _ hn) hccm]
        exact hq.waited n hn hccm
      · rw [hnew n hn]
        exact .inl ⟨function, (hasked c.nextTan).trans (if_pos rfl), rfl⟩

/-- **The client gives up everything**: what is under way is from before. -/
theorem Tidy.forgets (h : x.Tidy c toRight toLeft)
    (haddress : d.serverAddress = nullAddress) (hopen : d.openFiles = [])
    (hpending : d.pendingRequests = []) (hnext : d.nextTan ≠ invalidTan) {sent : List Message}
    (hsent : ∀ n ∈ sent, n = x.ccm ∨ x.IsRequest n) :
    x.Tidy d (toRight ++ sent) toLeft ∧ view d toLeft = [] := by
  have hasked : ∀ tan, d.asked tan = none := fun tan => by
    rw [asked, hpending]
    rfl
  have hview : view d toLeft = [] := by
    rw [view, foldl_hear_report fun n _ => .inr (hasked _), hopen]
    rfl
  exact ⟨⟨.inl haddress, hnext, by rw [hpending]; exact nodup_nil, hasked _,
    forall_mem_append.mpr ⟨h.requests, hsent⟩, h.answers, fun tan hne => absurd (hasked tan) hne,
    toRight ++ sent, [], by simp, fun _ => hview, fun n _ _ => hasked _, by simp⟩, hview⟩

/-! ## The server's side of a step -/

/-- **Frames of the client are met**, and answered under their numbers if at
all. -/
theorem Tidy.met (met : List Message) {answers : List Message}
    (h : x.Tidy c (met ++ toRight) toLeft)
    (hanswers : ∀ n ∈ answers, x.FromServer n)
    (hcarries : ∀ tan, c.asked tan ≠ none → answers.countP (fun m => decide (Carries tan m)) ≤
      met.countP fun m => decide (Carries tan m))
    (hview : (∀ m ∈ met, m ≠ x.ccm → c.asked (u8At m.data 1) = none) →
      view c (toLeft ++ answers) = view c toLeft) : x.Tidy c toRight (toLeft ++ answers) := by
  refine { h with
    requests := fun n hn => h.requests n (mem_append_right _ hn)
    answers := forall_mem_append.mpr ⟨h.answers, hanswers⟩
    once := fun tan hne => ?_
    order := ?_ }
  · have hone := h.once tan hne
    have hfew := hcarries tan hne
    simp only [countP_append] at hone ⊢
    omega
  · obtain ⟨stale, current, hqueue, hq⟩ := h.order
    rcases append_eq_append_iff.mp hqueue with ⟨stale, rfl, rfl⟩ | ⟨z, rfl, rfl⟩
    · refine ⟨stale, current, rfl, fun hstale => ?_,
        fun n hn => hq.lost n (mem_append_right _ hn), hq.waited⟩
      rw [hview fun m hm => hq.lost m (mem_append_left _ hm)]
      exact hq.silent (append_ne_nil_of_right_ne_nil _ hstale)
    · exact ⟨[], toRight, rfl, fun h => absurd rfl h, by simp,
        fun n hn => hq.waited n (mem_append_right _ hn)⟩

variable {l : State} {s t : FileServer} {o : FSOutbound}

theorem fromServer_reaches (hx : x.Valid) (ho : Reaches x.client o) :
    ∃ m, x.fromServer [o] = [m] ∧ m.data = o.data ∧ x.FromServer m := by
  rcases ho with ho | ho
  · obtain ⟨hsource, hdest⟩ := addressed_answer hx o.data
    exact ⟨x.answer o.data, by rw [ho, fromServer_sendTo]; rfl, rfl, rfl, rfl, hsource, hdest⟩
  · have hserver := hx.server
    refine ⟨.withAddressing pgnFileServerToClient o.data x.server broadcastAddress .default,
      by rw [ho]; rfl, rfl, rfl, rfl, ?_, ?_⟩
    · simpa [Message.hasUsableSource, Message.withAddressing] using hserver
    · simp [Message.hasValidDestinationForPgn, Message.withAddressing, nullAddress,
      broadcastAddress]

/-- **A request is carried out** and answered. -/
theorem IsRequest.served (h : x.IsRequest m) (hx : x.Valid) (hstand : s.Standing)
    (hnew : s.cachedResponse x.client (u8At m.data 1) m.data = none) :
    ∃ t o n, x.parties.recvRight s m = (t, [n]) ∧ Served x.client s m.data t o ∧
      n.data = o.data ∧ x.FromServer n ∧ t.Standing ∧
      (s.volumeState = .removed → t.volumeState = .removed) := by
  obtain ⟨function, tan, b, rest, hfunction, htan, rfl⟩ := h
  have haccepted : Accepted (x.request (function.asU8 :: tan :: b :: rest)) :=
    accepted_request hx (by simp) (fun he => hfunction (asU8_injective he)) htan
  rw [cachedResponse_eq, ← kept_ensureClient] at hnew
  obtain ⟨t, o, hhandled, hserved⟩ := handleClientMessage_served hstand haccepted rfl hnew
  obtain ⟨n, hn, hdata, hfrom⟩ := fromServer_reaches hx hserved.reaches
  have hstanding := standing_preserved.handleClientMessage hstand hstand
    (x.request (function.asU8 :: tan :: b :: rest))
  have hremoved := fun hr => removed_preserved.handleClientMessage hstand hr
    (x.request (function.asU8 :: tan :: b :: rest))
  rw [hhandled] at hstanding hremoved
  exact ⟨t, o, n, by simp [parties, hhandled, hn], hserved, hdata, hfrom, hstanding, hremoved⟩

/-- **The answer to a request says what became of the handles.** -/
theorem served_held (hserved : Served x.client s m.data t o) (hwaited : Waited c m)
    (hinvalid : c.asked invalidTan = none) (hlen : 3 ≤ m.data.length)
    (htan : u8At m.data 1 ≠ invalidTan) (hvolume : t.volumeState ≠ .removed)
    {held : List FileHandle}
    (hheld : ∀ handle ∈ held, s.HasOpen x.client handle) {n : Message} (hn : n.data = o.data) :
    ∀ handle ∈ hear c.asked held n, t.HasOpen x.client handle := by
  have hkeeps := fun handle hh => hserved.keeps hvolume handle (hheld handle hh)
  have hstay : u8At m.data 0 ≠ closeFile.asU8 →
      ∀ handle ∈ held, t.HasOpen x.client handle := fun hne handle hh =>
    (hkeeps handle hh).resolve_right fun h => hne h.1
  intro handle hh
  rcases hserved.tan with htan' | htan'
  · rcases hwaited with ⟨function, hasked, hfunction⟩ | ⟨hnone, hclose⟩
    · rw [hear, hn, htan', hasked] at hh
      dsimp only at hh
      cases function with
      | openFile =>
        rcases mem_append.mp hh with hh | hh
        · exact hserved.opens hfunction handle (Option.mem_toList.mp hh)
        · exact hstay (by rw [hfunction]; decide) handle hh
      | closeFile =>
        rw [heldAfter] at hh
        split at hh
        · obtain ⟨hmem, hne⟩ := mem_filter.mp hh
          refine (hkeeps handle hmem).resolve_right fun h => ?_
          rw [requestHandle, if_pos hlen] at hne
          simp only [decide_eq_true_eq] at hne
          exact hne h.2.1
        next hanswer =>
          refine (hkeeps handle hh).resolve_right fun h => hanswer ?_
          rw [h.2.2]
          rfl
      | _ => exact hstay (by rw [hfunction]; decide) handle hh
    · rw [hear_report (.inr (by rw [hn, htan']; exact hnone))] at hh
      exact hstay hclose handle hh
  · rw [hear_report (.inr (by rw [hn, htan']; exact hinvalid))] at hh
    refine (hkeeps handle hh).resolve_right fun h => htan ?_
    rw [h.2.2] at htan'
    exact htan'

/-! ## Steps -/

variable (x)

/-- The number of the next request is the number of nothing under way,
if the call sends one. -/
def NumberFree (l : State) (a : ClientAct) : Prop :=
  (l.left.act a).2 ≠ [] → ∀ m ∈ l.toRight ++ l.toLeft, ¬Carries l.left.client.nextTan m
  deriving Decidable

/-- No request to close is given up while its answer may still come. -/
def ClosesKept (c : FileClient) (elapsedMs : ℕ) : Prop :=
  ∀ e ∈ c.pendingRequests, e.2.function = .closeFile →
    e.2.isExpired (satAdd32 c.currentTimeMs elapsedMs) c.config.requestTimeoutMs = false
  deriving Decidable

/-- **A step that keeps requests, answers and handles together**: the
client uses its server, a number is used again only when nothing under
way has it, no answer is repeated, a request to close waits for its
answer, and the server forgets no client that has a file open. -/
def Orderly (l : State) : Act → Prop
  | .left (.connect server) => server = x.server ∧ NumberFree l (.connect server)
  | .left (.ask r) => NumberFree l (.ask r)
  | .left (.update elapsedMs) => ClosesKept l.left.client elapsedMs
  | .left (.disconnect _) => True
  | .right elapsedMs => x.Keeps l.right elapsedMs ∨ ∀ f ∈ l.right.openFiles, f.owner ≠ x.client
  | .deliverRight => x.NotReplayed l .deliverRight
  | .deliverLeft => True

instance (l : State) (a : Act) : Decidable (x.Orderly l a) := by
  rcases a with _ | _ | (_ | _ | _ | _) | _ <;> unfold Orderly <;> infer_instance

variable {x}

section

variable (h : x.Agreed l)
include h

/-- What only concerns the client. -/
theorem Agreed.left {a : Station} {sent log : List Message}
    (htidy : x.Tidy a.client (l.toRight ++ sent) l.toLeft ∧
      view a.client l.toLeft ⊆ view l.left.client l.toLeft) :
    x.Agreed { l with left := a, toRight := l.toRight ++ sent, log := log } :=
  ⟨h.standing, htidy.1, fun hvolume handle hh => h.opened hvolume handle (htidy.2 hh)⟩

/-- **A call of the application.** -/
theorem Agreed.asks {c : FileClient}
    (hfree : ∀ m ∈ l.toRight ++ l.toLeft, ¬Carries l.left.client.nextTan m)
    {b : UInt8} {rest : List UInt8} (hfunction : function ≠ .fileServerStatus)
    (hnext : c.nextTan = l.left.client.nextTan)
    (hpending : c.pendingRequests = l.left.client.pendingRequests)
    (hopen : c.openFiles = l.left.client.openFiles)
    (haddress : c.serverAddress = nullAddress ∨ c.serverAddress = x.server) {log : List Message} :
    x.Agreed { l with
      left := { l.left with client := (c.request function (b :: rest)).1 }
      toRight := l.toRight ++ x.fromClient [(c.request function (b :: rest)).2]
      log := log } := by
  have hasked : c.asked = l.left.client.asked := by
    funext tan
    rw [asked, asked, hpending]
  have hview : ∀ ms, view c ms = view l.left.client ms := fun ms => by
    rw [view, view, hasked, hopen]
  have htidy : x.Tidy c l.toRight l.toLeft := by
    obtain ⟨-, hnext', hnodup, hinvalid, hrequests, hanswers, honce, stale, current, hqueue, hq⟩ :=
      h.tidy
    refine ⟨haddress, hnext ▸ hnext', hpending ▸ hnodup, hasked ▸ hinvalid, hrequests, hanswers,
      hasked ▸ honce, stale, current, hqueue, ?_, hasked ▸ hq.lost, ?_⟩
    · rw [hview]
      exact hq.silent
    · simp only [Waited, hasked]
      exact hq.waited
  have hsent : x.fromClient [(c.request function (b :: rest)).2] = [] ∨
      x.fromClient [(c.request function (b :: rest)).2] =
        [x.request (function.asU8 :: c.nextTan :: b :: rest)] := by
    by_cases hc : c.serverAddress = x.server
    · exact .inr (by simp [fromClient, FileClient.request, FSClientOutbound.new, hc, request])
    · simp [fromClient, FileClient.request, FSClientOutbound.new, hc]
  refine h.left (a := { l.left with client := (c.request function (b :: rest)).1 }) ?_
  have := htidy.asks (hnext ▸ hfree) hfunction hsent
  rwa [hview] at this

theorem Agreed.update_left {elapsedMs : ℕ} (hkept : ClosesKept l.left.client elapsedMs) :
    x.Agreed (x.step l (.left (.update elapsedMs))) := by
  have hpasses := update_passes h.tidy.nextTan h.tidy.nodup elapsedMs
  have hsent : ∀ n ∈ x.fromClient (l.left.client.update elapsedMs).2.1, n = x.ccm :=
    fromClient_ccm (@updateCcm_calm { l.left.client with
      currentTimeMs := satAdd32 l.left.client.currentTimeMs elapsedMs } elapsedMs).2.2.2.2
  refine h.left ?_
  rcases hpasses.kept with ⟨haddress, hopen, hpending⟩ | ⟨haddress, hopen, hasked⟩
  · obtain ⟨htidy, hview⟩ := h.tidy.forgets haddress hopen hpending hpasses.nextTan
      (fun n hn => .inl (hsent n hn))
    exact ⟨htidy, hview ▸ nil_subset _⟩
  · obtain ⟨htidy, hview⟩ := @Tidy.loses x l.left.client (l.left.client.update elapsedMs).1
      l.toRight l.toLeft [] h.tidy haddress hpasses.nextTan hpasses.nodup
      (hopen ▸ List.Subset.refl _) fun tan => by
        rcases hasked tan with heq | ⟨hnone, r, hr, hexpired⟩
        · exact .inl heq
        · refine .inr ⟨hnone, .inr ⟨r.function, r.requestData, by rw [asked, hr]; rfl,
            fun hclose => ?_⟩⟩
          rw [hkept _ (OrderedMap.mem_of_get hr) hclose] at hexpired
          cases hexpired
    exact ⟨htidy.maintains hsent, hview⟩

theorem Agreed.disconnect (ship : Bool) : x.Agreed (x.step l (.left (.disconnect ship))) := by
  obtain ⟨hnext, hframes⟩ := closeFrames_spec l.left.client.openFiles.keys h.tidy.nextTan
  refine h.left ?_
  obtain ⟨htidy, hview⟩ := @Tidy.forgets x l.left.client l.left.client.disconnect.1
    l.toRight l.toLeft h.tidy rfl rfl rfl hnext
    (x.fromClient (if ship then l.left.client.disconnect.2 else [])) (by
      intro n hn
      rw [fromClient, mem_map] at hn
      obtain ⟨o, ho, rfl⟩ := hn
      have ho := mem_of_mem_filter ho
      cases ship with
      | false => cases ho
      | true =>
        obtain ⟨tan, handle, htan, rfl⟩ := hframes o ho
        exact .inr ⟨.closeFile, tan, handle, _, by decide, htan, rfl⟩)
  exact ⟨htidy, hview ▸ nil_subset _⟩

theorem Agreed.deliverLeft : x.Agreed (x.step l .deliverLeft) := by
  cases hm : l.toLeft with
  | nil =>
    rw [step, Link.step_deliverLeft_nil hm]
    exact h
  | cons m ms =>
    have htidy := h.tidy
    have hopen := h.opened
    rw [hm] at htidy hopen
    have hfrom := htidy.answers m mem_cons_self
    have hheard := handleServerResponse_hears (m := m) htidy.nodup htidy.invalid hfrom.pgn
      hfrom.usable hfrom.destination (htidy.address.imp_right fun h => hfrom.source.trans h.symm)
    obtain ⟨htidy', hview⟩ := htidy.hears hheard
    rw [step, Link.step_deliverLeft hm rfl]
    refine ⟨h.standing, ?_, fun hvolume handle hh => hopen hvolume handle (hview hh)⟩
    change x.Tidy _ (l.toRight ++ []) ms
    rw [append_nil]
    exact htidy'

theorem Agreed.update_right (hx : x.Valid) {elapsedMs : ℕ}
    (hkept : x.Keeps l.right elapsedMs ∨ ∀ f ∈ l.right.openFiles, f.owner ≠ x.client) :
    x.Agreed (x.step l (.right elapsedMs)) := by
  have hreports : ∀ n ∈ x.fromServer (l.right.update elapsedMs).2, x.FromServer n ∧
      (u8At n.data 0 = fileServerStatus.asU8 ∨ u8At n.data 1 = invalidTan) := by
    intro n hn
    rw [fromServer, mem_map] at hn
    obtain ⟨o, ho, rfl⟩ := hn
    obtain ⟨hbroadcast, hreport⟩ := update_reports l.right elapsedMs o (mem_of_mem_filter ho)
    obtain ⟨m, hm, hdata, hfrom⟩ := fromServer_reaches hx (.inr hbroadcast)
    rw [hbroadcast] at hm ⊢
    cases hm
    exact ⟨hfrom, hreport⟩
  have hsilent : ∀ n ∈ x.fromServer (l.right.update elapsedMs).2,
      u8At n.data 0 = fileServerStatus.asU8 ∨
        l.left.client.asked (u8At n.data 1) = none := fun n hn =>
    (hreports n hn).2.imp_right fun h' => by rw [h']; exact h.tidy.invalid
  have hview : view l.left.client (l.toLeft ++ x.fromServer (l.right.update elapsedMs).2) =
      view l.left.client l.toLeft := by
    rw [view, foldl_append, foldl_hear_report hsilent]
    rfl
  refine ⟨standing_preserved.update h.standing elapsedMs, ?_, fun hvolume handle hh => ?_⟩
  · refine h.tidy.met [] (fun n hn => (hreports n hn).1) (fun tan hne => ?_) fun _ => hview
    exact Nat.le_of_eq (countP_carries_eq_zero fun n hn hc =>
      (hsilent n hn).elim hc.1 fun h' => hne (hc.2 ▸ h'))
  · have hbefore : l.right.volumeState ≠ .removed := fun hr =>
      hvolume (removed_preserved.update hr elapsedMs)
    have hh : handle ∈ view l.left.client l.toLeft := hview ▸ hh
    have hopen := h.opened hbefore handle hh
    change (l.right.update elapsedMs).1.HasOpen _ _
    rw [HasOpen, openFiles_update hvolume]
    obtain ⟨f, hf, heq⟩ := mem_map.mp hopen
    have howner : f.owner = x.client := congrArg Prod.fst heq
    rcases hkept with hkept | hnone
    · refine mem_map.mpr ⟨f, mem_filter.mpr ⟨hf, ?_⟩, heq⟩
      rw [Keeps] at hkept
      rw [howner]
      simpa using hkept
    · exact absurd howner (hnone f hf)

theorem Agreed.deliverRight (hx : x.Valid) (hnew : x.NotReplayed l .deliverRight) :
    x.Agreed (x.step l .deliverRight) := by
  cases hm : l.toRight with
  | nil =>
    rw [step, Link.step_deliverRight_nil hm]
    exact h
  | cons m ms =>
    have htidy := h.tidy
    rw [hm] at htidy
    rcases htidy.requests m mem_cons_self with rfl | hrequest
    · -- maintenance leaves the handles alone
      rw [step, Link.step_deliverRight hm rfl]
      simp only [parties, handleClientMessage_ccm hx]
      have hmet := @Tidy.met x l.left.client ms l.toLeft [x.ccm] [] htidy
        (by simp) (by simp) (by simp)
      refine ⟨standing_preserved.modified (h.standing.ensureClient _) fun _ => rfl, hmet, ?_⟩
      intro hvolume handle hh
      rw [ensureClient_eq] at hvolume
      have hh : handle ∈ view l.left.client (l.toLeft ++ []) := hh
      rw [append_nil] at hh
      exact (h.opened hvolume handle hh).of_eq (openFiles_ensureClient _ _)
    · obtain ⟨t, o, n, hr, hserved, hdata, hfrom, hstanding, hremoved⟩ :=
        hrequest.served hx h.standing (hnew m (by rw [hm]; rfl) hrequest.ne_ccm)
      rw [step, Link.step_deliverRight hm hr]
      have hhear : view l.left.client (l.toLeft ++ [n]) =
          hear l.left.client.asked (view l.left.client l.toLeft) n := by
        rw [view, foldl_append]
        rfl
      -- the answer is under the number of the request
      have hnumber : u8At n.data 1 = u8At m.data 1 ∨ u8At n.data 1 = invalidTan := by
        rw [hdata]
        exact hserved.tan
      have hlost : l.left.client.asked (u8At m.data 1) = none →
          view l.left.client (l.toLeft ++ [n]) = view l.left.client l.toLeft := fun hnone => by
        rw [hhear, hear_report (.inr _)]
        rcases hnumber with h' | h' <;> rw [h']
        · exact hnone
        · exact htidy.invalid
      refine ⟨hstanding, htidy.met [_] (by simpa using hfrom) (fun tan' hne => ?_)
        fun hnone => hlost (hnone _ mem_cons_self hrequest.ne_ccm), fun hvolume handle hh => ?_⟩
      · by_cases hc : Carries tan' n
        · have htan' : tan' = u8At m.data 1 := by
            rcases hnumber with h' | h'
            · exact hc.2.symm.trans h'
            · exact absurd htidy.invalid (by rw [← h', hc.2]; exact hne)
          rw [htan', countP_cons_of_pos (a := m) (decide_eq_true hrequest.carries)]
          exact countP_le_length
        · simp [hc]
      · have hbefore : l.right.volumeState ≠ .removed := fun hr => hvolume (hremoved hr)
        have hopen := h.opened hbefore
        obtain ⟨stale, current, hqueue, hq⟩ := htidy.order
        cases stale with
        | nil =>
          rw [nil_append] at hqueue
          have hwaited := hq.waited _ (hqueue ▸ mem_cons_self) hrequest.ne_ccm
          rw [hhear] at hh
          obtain ⟨function, tan, b, rest, -, htan, rfl⟩ := hrequest
          exact served_held hserved hwaited htidy.invalid
            (by simp [Exchange.request, Message.withAddressing]) htan hvolume hopen hdata handle hh
        | cons n' stale =>
          rw [cons_append, List.cons.injEq] at hqueue
          rw [hlost (hq.lost _ (hqueue.1 ▸ mem_cons_self) hrequest.ne_ccm),
            hq.silent (by simp)] at hh
          cases hh

/-- A call that fails changes nothing. -/
theorem Agreed.called {a : ClientAct} (hfree : NumberFree l a)
    {r : Except Error (FileClient × FSClientOutbound)} (hact : l.left.act a = l.left.called r)
    (hr : ∀ d o, r = .ok (d, o) → ∃ (c : FileClient) (function : FSFunction) (b : UInt8)
      (rest : List UInt8), function ≠ .fileServerStatus ∧ c.nextTan = l.left.client.nextTan ∧
        c.pendingRequests = l.left.client.pendingRequests ∧ c.openFiles = l.left.client.openFiles ∧
        (c.serverAddress = nullAddress ∨ c.serverAddress = x.server) ∧
        c.request function (b :: rest) = (d, o)) : x.Agreed (x.step l (.left a)) := by
  match r, hr with
  | .error e, _ =>
    have hidle : x.parties.actLeft l.left a = (l.left, []) := by
      simp only [parties, hact]
      rfl
    rw [Exchange.step, Link.step_left hidle, append_nil, append_nil]
    exact h
  | .ok (d, o), hr =>
    obtain ⟨c, function, b, rest, hfunction, hnext, hpending, hopen, haddress, hask⟩ := hr d o rfl
    have hdone : x.parties.actLeft l.left a =
        ({ l.left with client := (c.request function (b :: rest)).1 },
          x.fromClient [(c.request function (b :: rest)).2]) := by
      simp only [parties, hact, hask]
      rfl
    rw [Exchange.step, Link.step_left hdone]
    have hsends : (l.left.act a).2 ≠ [] := by
      rw [hact]
      exact cons_ne_nil _ _
    exact h.asks (hfree hsends) hfunction hnext hpending hopen haddress

theorem Agreed.step (hx : x.Valid) {a : Act} (ha : x.Orderly l a) : x.Agreed (x.step l a) := by
  match a, ha with
  | .deliverLeft, _ => exact h.deliverLeft
  | .deliverRight, ha => exact h.deliverRight hx ha
  | .right elapsedMs, ha => exact h.update_right hx ha
  | .left (.update elapsedMs), ha => exact h.update_left ha
  | .left (.disconnect ship), _ => exact h.disconnect ship
  | .left (.connect server), ha =>
    obtain ⟨rfl, hfree⟩ := ha
    refine h.called hfree rfl fun d o hr => ?_
    simp only [tryConnectToServer, tryRequestServerProperties, ensureServerAddressForRequest,
      require_then_eq_ok] at hr
    have hask := Except.ok.inj hr.2.2.2.2
    refine ⟨_, .getFileServerProperties, _, _, by decide, ?_, ?_, ?_, ?_, hask⟩
    · rfl
    · rfl
    · rfl
    · exact .inr rfl
  | .left (.ask r), ha =>
    refine h.called ha rfl fun d o hr => ?_
    obtain ⟨function, b, rest, hfunction, hask⟩ := ask_eq_ok hr
    exact ⟨_, function, b, rest, hfunction, rfl, rfl, rfl, h.tidy.address, hask⟩

end

theorem agreed_start (config : FileClientConfig) {server : FileServer} (hserver : server.Standing) :
    x.Agreed (start (.new config) server) where
  standing := hserver
  tidy := ⟨.inl rfl, by change (0 : UInt8) ≠ _; decide, nodup_nil, rfl, by simp [start],
    by simp [start], fun _ hne => absurd rfl hne, [], [], rfl, fun h => absurd rfl h, by simp,
    by simp⟩
  opened _ _ hh := by cases hh

/-! ## Agreement -/

variable (x)

/-- **Client and server agree** when nothing is under way and there is a
volume: what the client holds is open for it. -/
def HandlesAgree (l : State) : Prop :=
  l.toRight = [] → l.toLeft = [] → l.right.volumeState ≠ .removed →
    ∀ handle ∈ l.left.client.openFiles.keys, (l.right.findOpen x.client handle).isSome = true

variable {x}

theorem Agreed.handlesAgree (h : x.Agreed l) : x.HandlesAgree l := by
  intro _ hleft hvolume handle hh
  refine hasOpen_iff.mp (h.opened hvolume handle ?_)
  rw [hleft]
  exact hh

/-- **In every run in which requests, answers and handles are kept
together, client and server agree in every state.** -/
theorem handles_agree (hx : x.Valid) (calls : List SetUp) {acts : List Act}
    (hacts : Along x.step x.Orderly (start (.new {}) (Machbus.run setUp (.new {}) calls)) acts) :
    ∀ pre, pre <+: acts →
      x.HandlesAgree
        (Machbus.run x.step (start (.new {}) (Machbus.run setUp (.new {}) calls)) pre) := by
  rintro pre ⟨post, rfl⟩
  have hstanding : (run setUp (.new {}) calls).Standing :=
    run_induction (standing_new {}) (fun _ c h => h.call (.setUp c)) calls
  have hpre := ((along_append _).mp hacts).1
  exact (hpre.induction (agreed_start {} hstanding) fun _ _ ha h => h.step hx ha).handlesAgree

/-! ### A client that connects late -/

/-- Both are driven by the same step. -/
def tick (elapsedMs : ℕ) : List Act := [.left (.update elapsedMs), .right elapsedMs]

/-- Opening a file after so many seconds. -/
def openAfter (seconds : ℕ) : List Act :=
  (List.replicate seconds (tick 1000 ++ [.deliverLeft])).flatten ++
    [.left (.connect 0x20), .deliverRight, .deliverLeft,
      .left (.ask (.openFile ['A'] 0)), .deliverRight, .deliverLeft]

/-- A client that connects early opens a file and closes it a second
later. -/
theorem handles_agree_early_connect :
    (∀ pre, pre <+: openAfter 1 ++ tick 1000 ++ [.deliverLeft, .left (.ask (.closeFile 1)),
        .deliverRight, .deliverLeft] →
      pair.HandlesAgree (Machbus.run pair.step
        (start (.new {}) (Machbus.run setUp (.new {}) [.addFile ['A'] [1, 2] 0])) pre)) ∧
      (Machbus.run pair.step
        (start (.new {}) (Machbus.run setUp (.new {}) [.addFile ['A'] [1, 2] 0]))
        (openAfter 1)).left.client.openFiles.keys = [1] :=
  ⟨handles_agree ⟨by decide, by decide⟩ [.addFile ['A'] [1, 2] 0] (by decide +kernel),
    by decide +kernel⟩

/-- A client that connects when the server has been up for seven seconds
and opens a file is forgotten with the next tick, and goes on believing
in its handle. -/
theorem handles_disagree_after_late_connect :
    ¬pair.HandlesAgree (Machbus.run pair.step
      (start (.new {}) (Machbus.run setUp (.new {}) [.addFile ['A'] [1, 2] 0]))
      (openAfter 7 ++ tick 1000 ++ [.deliverLeft])) := by
  intro h
  have hheld := h (by decide +kernel) (by decide +kernel) (by decide +kernel) 1 (by decide +kernel)
  revert hheld
  decide +kernel

end Exchange

end Machbus.Fs
