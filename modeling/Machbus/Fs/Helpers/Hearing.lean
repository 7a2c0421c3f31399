import Machbus.Fs.Helpers.Handles
/-!
# File server — what a client makes of an answer

What a client holds after an answer is read off the request it waits for
and the answer: a handle more, a handle less, or nothing else. With that
goes what each call of the application and the passing of time do to the
handles and to what the client waits for.
-/

namespace Machbus.Fs.FileClient

open List OrderedMap FSFunction

open FileServer (opensHandle)

/-- What was asked under a number and waits for its answer. -/
def asked (c : FileClient) (tan : TAN) : Option (FSFunction × List UInt8) :=
  (c.pendingRequests.get tan).map fun r => (r.function, r.requestData)

/-- The handles held after the answer to a request. -/
def heldAfter (function : FSFunction) (request response : List UInt8) (held : List FileHandle) :
    List FileHandle :=
  match function with
  | .openFile => (opensHandle response).toList ++ held
  | .closeFile =>
    if response = successResponse .closeFile (u8At response 1) then
      held.filter (· ≠ requestHandle request)
    else held
  | _ => held

variable {c d : FileClient} {request response : List UInt8} {tan : TAN} {m : Message}
  {held held' : List FileHandle} {o : FSClientOutbound}

/-! ## Answers -/

/-- An answer that is not accepted changes nothing. -/
theorem answered_induction {α : Type} {P : FileClient → Prop}
    {event : Except FSError α → ClientEvent}
    {r : Except (FSError × List ClientEvent) (FileClient × List ClientEvent × α)} (hc : P c)
    (hr : ∀ d events a, r = .ok (d, events, a) → P d) : P (c.answered event r).1 := by
  match r, hr with
  | .ok (d, events, a), hr => exact hr d events a rfl
  | .error _, _ => exact hc

theorem succeeded_eq_ok {least used : ℕ} {u : Unit} (h : succeeded least used response = .ok u) :
    u8At response 2 = FSError.success.asU8 := by
  simp only [succeeded, require_then_eq_ok] at h
  obtain ⟨error, herror, h⟩ := bind_eq_ok.mp h.2
  have hsuccess := (require_then_eq_ok.mp h).1
  subst hsuccess
  rw [mapError_eq_ok, decodeResponseError] at herror
  cases hraw : response[2]? with
  | none => rw [hraw] at herror; cases herror
  | some raw =>
    rw [hraw] at herror
    rw [u8At, getD_eq_getElem?_getD, hraw]
    exact FSError.asU8_of_tryFromU8 (given_eq_ok.mp herror)

/-- **What an answer leaves alone**, and the handles that are held after
it. -/
structure Heeded (c : FileClient) (held : List FileHandle) (d : FileClient) : Prop where
  pendingRequests : d.pendingRequests = c.pendingRequests
  nextTan : d.nextTan = c.nextTan
  serverAddress : d.serverAddress = c.serverAddress
  held : d.openFiles.keys ⊆ held

theorem Heeded.same (c : FileClient) : Heeded c c.openFiles.keys c :=
  ⟨rfl, rfl, rfl, List.Subset.refl _⟩

theorem keys_movePosition (handle : FileHandle) (f : ℕ → ℕ) :
    (c.movePosition handle f).openFiles.keys ⊆ c.openFiles.keys := by
  intro h hh
  rw [← isSome_get, movePosition, get_modify] at hh
  rw [← isSome_get]
  split at hh
  · subst h
    simpa using hh
  · exact hh

theorem handleOpenResponse_heeded (hfunction : u8At response 0 = openFile.asU8) :
    Heeded c (heldAfter .openFile request response c.openFiles.keys)
      (c.handleOpenResponse tan request response).1 := by
  have hsame : Heeded c (heldAfter .openFile request response c.openFiles.keys) c :=
    ⟨rfl, rfl, rfl, subset_append_right _ _⟩
  refine answered_induction hsame fun d events a h => ?_
  obtain ⟨u, hok, h⟩ := bind_eq_ok.mp h
  obtain ⟨hvalid, h⟩ := require_then_eq_ok.mp h
  split at h
  · obtain ⟨path, -, h⟩ := given_then_eq_ok.mp h
    cases h
    refine ⟨rfl, rfl, rfl, fun handle hh => ?_⟩
    rw [heldAfter, opensHandle, if_pos ⟨hfunction, succeeded_eq_ok hok, hvalid⟩]
    exact mem_cons.mpr (mem_keys_insert.mp hh)
  · cases h
    exact hsame

theorem handleCloseResponse_heeded :
    Heeded c (heldAfter .closeFile request response c.openFiles.keys)
      (c.handleCloseResponse tan request response).1 := by
  rw [heldAfter]
  split
  · -- the answer the server gives is accepted
    rename_i hsuccess
    have hok : succeeded 3 3 response = .ok () := by rw [hsuccess]; rfl
    rw [handleCloseResponse, hok]
    refine ⟨rfl, rfl, rfl, fun handle hh => ?_⟩
    obtain ⟨hne, hmem⟩ := mem_keys_remove.mp hh
    exact mem_filter.mpr ⟨hmem, by simpa using hne⟩
  · refine answered_induction (.same c) fun d events a h => ?_
    obtain ⟨u, hok, h⟩ := bind_eq_ok.mp h
    cases h
    exact ⟨rfl, rfl, rfl, fun handle hh => (mem_keys_remove.mp hh).2⟩

theorem handleReadResponse_heeded :
    Heeded c c.openFiles.keys (c.handleReadResponse tan request response).1 := by
  rw [handleReadResponse]
  dsimp only
  split
  · exact .same c
  split
  · exact .same c
  · exact .same c
  · split
    · exact .same c
    · exact ⟨rfl, rfl, rfl, keys_movePosition _ _⟩
  · exact .same c

theorem handleGetDirectoryResponse_heeded :
    Heeded c c.openFiles.keys (c.handleGetDirectoryResponse tan response).1 := by
  rw [handleGetDirectoryResponse]
  split
  · exact .same c
  · split
    · exact .same c
    · dsimp only
      split
      · exact ⟨rfl, rfl, rfl, List.Subset.refl _⟩
      · split <;> exact ⟨rfl, rfl, rfl, List.Subset.refl _⟩
  · exact .same c

theorem handlePropertiesResponse_heeded :
    Heeded c c.openFiles.keys (c.handlePropertiesResponse tan response).1 := by
  rw [handlePropertiesResponse]
  split
  · exact .same c
  · dsimp only
    split <;> exact ⟨rfl, rfl, rfl, List.Subset.refl _⟩

theorem parseSimpleOperationResponse_heeded {event : Except FSError Unit → ClientEvent}
    {clearsMediaState : Bool} :
    Heeded c c.openFiles.keys (c.parseSimpleOperationResponse event response
      clearsMediaState).1 := by
  refine answered_induction (.same c) fun d events a h => ?_
  obtain ⟨u, -, h⟩ := bind_eq_ok.mp h
  cases h
  cases clearsMediaState with
  | true => exact ⟨rfl, rfl, rfl, nil_subset _⟩
  | false => exact .same c

/-- **The answer to a request changes the handles as it says.** -/
theorem handleAnswer_heeded {pending : PendingRequest}
    (hfunction : u8At response 0 = pending.function.asU8) :
    Heeded c (heldAfter pending.function pending.requestData response c.openFiles.keys)
      (c.handleAnswer pending tan response).1 := by
  obtain ⟨_, function, _, request⟩ := pending
  cases function with
  | fileServerStatus | volumeStatus => exact .same c
  | getFileServerProperties => exact handlePropertiesResponse_heeded
  | openFile => exact handleOpenResponse_heeded hfunction
  | closeFile => exact handleCloseResponse_heeded
  | readFile => exact handleReadResponse_heeded
  | writeFile =>
    refine answered_induction (.same c) fun d events a h => ?_
    obtain ⟨u, -, h⟩ := bind_eq_ok.mp h
    obtain ⟨-, h⟩ := require_then_eq_ok.mp h
    cases h
    exact ⟨rfl, rfl, rfl, keys_movePosition _ _⟩
  | seekFile =>
    refine answered_induction (.same c) fun d events a h => ?_
    obtain ⟨u, -, h⟩ := bind_eq_ok.mp h
    cases h
    exact ⟨rfl, rfl, rfl, keys_movePosition _ _⟩
  | getCurrentDirectory => exact handleGetDirectoryResponse_heeded
  | changeDirectory =>
    refine answered_induction (.same c) fun d events a h => ?_
    obtain ⟨u, -, h⟩ := bind_eq_ok.mp h
    simp only [require_then_eq_ok, given_then_eq_ok] at h
    obtain ⟨-, requested, -, path, -, h⟩ := h
    cases h
    exact ⟨rfl, rfl, rfl, List.Subset.refl _⟩
  | moveFile | deleteFile | setFileAttributes | initializeVolume =>
    exact parseSimpleOperationResponse_heeded
  | getFileAttributes =>
    refine answered_induction (.same c) fun d events a h => ?_
    obtain ⟨u, -, h⟩ := bind_eq_ok.mp h
    cases h
    exact .same c
  | getFileDateTime =>
    refine answered_induction (.same c) fun d events a h => ?_
    obtain ⟨-, h⟩ := require_then_eq_ok.mp h
    obtain ⟨u, -, h⟩ := bind_eq_ok.mp h
    simp only [require_then_eq_ok] at h
    obtain ⟨-, -, -, h⟩ := h
    cases h
    exact .same c

/-! ## Everything the server sends -/

/-- What a client holds after a message, given what it waits for. -/
def hear (asked : TAN → Option (FSFunction × List UInt8)) (held : List FileHandle) (m : Message) :
    List FileHandle :=
  match asked (u8At m.data 1) with
  | some (function, request) => heldAfter function request m.data held
  | none => held

section

variable {asked : TAN → Option (FSFunction × List UInt8)}

theorem subset_hear {held : List FileHandle}
    (h : ∀ request, asked (u8At m.data 1) = some (.closeFile, request) →
      m.data ≠ successResponse .closeFile (u8At m.data 1)) : held ⊆ hear asked held m := by
  rw [hear]
  split
  next function request hasked =>
    cases function with
    | openFile => exact subset_append_right _ _
    | closeFile =>
      rw [heldAfter, if_neg (h _ hasked)]
      exact List.Subset.refl _
    | _ => exact List.Subset.refl _
  · exact List.Subset.refl _

/-- A report is no answer, nor is what nobody waits for. -/
theorem hear_report {held : List FileHandle}
    (h : u8At m.data 0 = fileServerStatus.asU8 ∨ asked (u8At m.data 1) = none) :
    hear asked held m = held := by
  rw [hear]
  split
  next function request hasked =>
    have hstatus : u8At m.data 0 = fileServerStatus.asU8 := by
      rcases h with h | h
      · exact h
      · rw [h] at hasked
        cases hasked
    cases function with
    | openFile =>
      have hnone : opensHandle m.data = none := if_neg fun h => by
        rw [hstatus] at h
        exact absurd h.1 (by decide)
      rw [heldAfter, hnone]
      rfl
    | closeFile =>
      refine if_neg fun he => ?_
      rw [he] at hstatus
      change closeFile.asU8 = _ at hstatus
      exact absurd hstatus (by decide)
    | _ => rfl
  · rfl

theorem hear_mono (h : held ⊆ held') : hear asked held m ⊆ hear asked held' m := by
  rw [hear, hear]
  split
  next function request _ =>
    cases function with
    | openFile =>
      exact append_subset.mpr ⟨subset_append_left _ _, subset_append_of_subset_right _ h⟩
    | closeFile =>
      rw [heldAfter, heldAfter]
      split
      · exact filter_subset _ h
      · exact h
    | _ => exact h
  · exact h

end

/-- What is held after a queue of messages grows with what is held before. -/
theorem foldl_hear_subset {asked asked' : TAN → Option (FSFunction × List UInt8)}
    {ms : List Message} (hms : ∀ m ∈ ms, ∀ held, hear asked' held m ⊆ hear asked held m)
    (hheld : held' ⊆ held) : ms.foldl (hear asked') held' ⊆ ms.foldl (hear asked) held := by
  induction ms generalizing held held' with
  | nil => exact hheld
  | cons m ms ih =>
    refine ih (fun n hn => hms n (mem_cons_of_mem _ hn)) ?_
    exact List.Subset.trans (hms m mem_cons_self held') (hear_mono hheld)

theorem foldl_hear_report {asked : TAN → Option (FSFunction × List UInt8)} {ms : List Message}
    (h : ∀ m ∈ ms, u8At m.data 0 = fileServerStatus.asU8 ∨
      asked (u8At m.data 1) = none) (held : List FileHandle) :
    ms.foldl (hear asked) held = held := by
  induction ms with
  | nil => rfl
  | cons m ms ih =>
    rw [foldl_cons, hear_report (h m mem_cons_self)]
    exact ih fun n hn => h n (mem_cons_of_mem _ hn)

/-- **A report that no request has to wait for**, but for those on the
volume. -/
structure Noted (c d : FileClient) : Prop where
  nextTan : d.nextTan = c.nextTan
  serverAddress : d.serverAddress = c.serverAddress
  nodup : d.pendingRequests.keys.Nodup
  held : d.openFiles.keys ⊆ c.openFiles.keys
  asked : ∀ tan, d.asked tan = c.asked tan ∨
    d.asked tan = none ∧ ∃ data, c.asked tan = some (.volumeStatus, data)

theorem Noted.same (h : c.pendingRequests.keys.Nodup) : Noted c c :=
  ⟨rfl, rfl, h, List.Subset.refl _, fun _ => .inl rfl⟩

theorem asked_remove (c : FileClient) (tan t : TAN) :
    asked { c with pendingRequests := c.pendingRequests.remove tan } t =
      if t = tan then none else c.asked t := by
  rw [asked, get_remove]
  split <;> rfl

section

variable (hnodup : c.pendingRequests.keys.Nodup)
include hnodup

theorem asked_retain (p : TAN → PendingRequest → Bool) (t : TAN) :
    asked { c with pendingRequests := c.pendingRequests.retain p } t = c.asked t ∨
      asked { c with pendingRequests := c.pendingRequests.retain p } t = none ∧
        ∃ r, c.pendingRequests.get t = some r ∧ p t r = false := by
  rw [asked, asked, get_retain hnodup]
  cases c.pendingRequests.get t with
  | none => exact .inl rfl
  | some r =>
    cases hp : p t r with
    | true => exact .inl (by simp [hp])
    | false => exact .inr ⟨by simp [hp], r, rfl, hp⟩

theorem handleVolumeStatusResponse_noted {data : List UInt8} {t : Option TAN} {name : Option Text}
    (ht : ∀ tan ∈ t, ∃ data, c.asked tan = some (.volumeStatus, data)) {r : Heard}
    (h : c.handleVolumeStatusResponse data t name = some r) : Noted c r.1 := by
  unfold handleVolumeStatusResponse at h
  split at h
  · cases h
  split at h
  · cases h
  rename_i state _ _ _
  have hmedia : ∀ e : FileClient, Noted c e →
      Noted c (if state = .removed then e.clearMediaState else e) := by
    intro e he
    split
    · exact { he with held := nil_subset _ }
    · exact he
  cases h
  refine hmedia _ ?_
  cases t with
  | some tan =>
    refine ⟨rfl, rfl, nodup_keys_filter hnodup, List.Subset.refl _, fun t => ?_⟩
    rw [asked_remove]
    split
    next he => exact .inr ⟨rfl, he ▸ ht tan rfl⟩
    · exact .inl rfl
  | none =>
    refine ⟨rfl, rfl, nodup_keys_filter hnodup, List.Subset.refl _, fun t => ?_⟩
    rcases asked_retain hnodup (fun _ r => r.function != .volumeStatus) t with
      h | ⟨hnone, r, hr, hp⟩
    · exact .inl h
    · refine .inr ⟨hnone, r.requestData, ?_⟩
      have hfunction : r.function = .volumeStatus := by simpa using hp
      rw [asked, hr, Option.map_some, hfunction]

theorem handleStatusBroadcast_noted {data : List UInt8}
    {r : Heard} (h : c.handleStatusBroadcast data = some r) : Noted c r.1 := by
  rw [handleStatusBroadcast] at h
  split at h
  · cases h
  split at h
  · cases h
    split
    · refine ⟨rfl, rfl, ?_, List.Subset.refl _, fun t => .inl ?_⟩
      · rw [keys_mapValues]
        exact hnodup
      · rw [asked, asked, get_mapValues]
        cases c.pendingRequests.get t <;> rfl
    · exact ⟨rfl, rfl, hnodup, List.Subset.refl _, fun _ => .inl rfl⟩
  · split at h
    · cases h
    · split at h
      · exact handleVolumeStatusResponse_noted hnodup (by simp) h
      · cases h

theorem heardFrom_noted {r : Option Heard}
    (hr : ∀ h, r = some h → Noted c h.1) : Noted c (c.heardFrom r).1 := by
  cases r with
  | none => exact .same hnodup
  | some h =>
    have h := hr h rfl
    exact { h with }

end

/-- **What a message of the server does to a client.** -/
structure Hears (c : FileClient) (m : Message) (d : FileClient) : Prop where
  nextTan : d.nextTan = c.nextTan
  serverAddress : d.serverAddress = c.serverAddress
  nodup : d.pendingRequests.keys.Nodup
  held : d.openFiles.keys ⊆ hear c.asked c.openFiles.keys m
  asked : ∀ tan, d.asked tan = c.asked tan ∨ d.asked tan = none ∧
    (tan = u8At m.data 1 ∧ u8At m.data 0 ≠ FSFunction.fileServerStatus.asU8 ∨
      ∃ data, c.asked tan = some (.volumeStatus, data))

theorem Noted.hears (h : Noted c d)
    (hm : ∀ request, c.asked (u8At m.data 1) = some (.closeFile, request) →
      m.data ≠ successResponse .closeFile (u8At m.data 1)) : Hears c m d :=
  ⟨h.nextTan, h.serverAddress, h.nodup, List.Subset.trans h.held (subset_hear hm), fun tan =>
    (h.asked tan).imp_right fun h => ⟨h.1, .inr h.2⟩⟩

/-- **The client takes every message of its server.** -/
theorem handleServerResponse_hears (hnodup : c.pendingRequests.keys.Nodup)
    (hinvalid : c.asked invalidTan = none) (hpgn : m.pgn = pgnFileServerToClient)
    (hsource : m.hasUsableSource = true) (hdest : m.hasValidDestinationForPgn = true)
    (hserver : c.serverAddress = nullAddress ∨ m.source = c.serverAddress) :
    Hears c m (c.handleServerResponse m).1 := by
  rw [handleServerResponse]
  rw [if_neg (by rw [hpgn, hsource, hdest]; simp), if_neg (by tauto)]
  split
  · -- too short to be the answer to anything
    refine (Noted.same hnodup).hears fun request _ he => ?_
    have hlen := congrArg List.length he
    change _ = 8 at hlen
    omega
  · have hreport := @heardFrom_noted c hnodup (c.handleStatusBroadcast m.data) fun h hh =>
      handleStatusBroadcast_noted hnodup hh
    split
    next hother =>
      refine hreport.hears fun request hrequest he => ?_
      rcases hother with h | h
      · rw [he] at h
        change closeFile.asU8 = _ at h
        exact absurd h (by decide)
      · rw [h] at hrequest
        rw [show c.asked 0xFF = none from hinvalid] at hrequest
        cases hrequest
    next hother =>
      split
      next hnone =>
        refine hreport.hears fun request hrequest he => ?_
        rw [asked, hnone] at hrequest
        cases hrequest
      next pending hpending =>
        have hasked : c.asked (u8At m.data 1) = some (pending.function, pending.requestData) := by
          rw [asked, hpending]
          rfl
        split
        · rename_i hfunction
          refine hreport.hears fun request hrequest he => hfunction ?_
          rw [hasked] at hrequest
          rw [he, (Prod.mk.inj (Option.some.inj hrequest)).1]
          rfl
        · rename_i hfunction
          split
          · rename_i hvolume
            refine (heardFrom_noted hnodup fun h hh => handleVolumeStatusResponse_noted hnodup ?_
              hh).hears fun request hrequest => ?_
            · intro tan htan
              cases htan
              exact ⟨_, hasked.trans (by rw [hvolume])⟩
            · rw [hasked, hvolume] at hrequest
              cases hrequest
          · -- the answer to the request
            have hfunction : u8At m.data 0 = pending.function.asU8 := not_not.mp hfunction
            have h := @handleAnswer_heeded { c with
              pendingRequests := c.pendingRequests.remove (u8At m.data 1)
              serverStatusTimerMs := 0 } m.data (u8At m.data 1) pending hfunction
            refine ⟨h.nextTan, h.serverAddress, ?_, ?_, fun tan => ?_⟩
            · rw [h.pendingRequests]
              exact nodup_keys_filter hnodup
            · rw [hear, hasked]
              exact h.held
            · rw [asked, h.pendingRequests]
              have hremove := asked_remove c (u8At m.data 1) tan
              rw [asked] at hremove
              rw [hremove]
              split
              · exact .inr ⟨rfl, .inl ⟨‹_›, fun h => hother (.inl h)⟩⟩
              · exact .inl rfl

/-! ## Calls of the application -/

theorem asked_request (c : FileClient) (function : FSFunction) (rest : List UInt8) (tan : TAN) :
    (c.request function rest).1.asked tan =
      if tan = c.nextTan then some (function, function.asU8 :: c.nextTan :: rest)
      else c.asked tan := by
  rw [asked, request, trackRequest, get_insert]
  split <;> rfl

/-- **Every call that succeeds sends one request**, with something behind
command and number. -/
theorem ask_eq_ok {r : ClientRequest} (h : c.ask r = .ok (d, o)) :
    ∃ function b rest, function ≠ .fileServerStatus ∧ c.request function (b :: rest) = (d, o) := by
  cases r with
  | serverProperties => exact ⟨_, _, _, by decide, Except.ok.inj h⟩
  | closeFile handle | readFile handle count | seekFile handle mode offset | getCurrentDirectory =>
    simp only [ask, tryCloseFile, tryReadFile, trySeekFile, tryGetCurrentDirectory, knownHandle,
      require_then_eq_ok] at h
    exact ⟨_, _, _, by decide, Except.ok.inj h.2⟩
  | tryServerProperties | openFile path flags | writeFile handle payload | changeDirectory path
  | moveFile source dest | deleteFile path | getFileAttributes path | setFileAttributes path attrs
  | getFileDateTime path | volumeStatus name mode | initializeVolume name availableSpace flags =>
    simp only [ask, tryRequestServerProperties, tryOpenFile, tryWriteFile, tryChangeDirectory,
      tryMoveFile, tryDeleteFile, tryGetFileAttributes, trySetFileAttributes, tryGetFileDateTime,
      tryVolumeStatusRequest, tryInitializeVolume, ensureServerAddressForRequest,
      ensureConnectedForRequest, knownHandle, require_then_eq_ok] at h
    exact ⟨_, _, _, by decide, Except.ok.inj h.2.2⟩

/-- The frames to close what is open. -/
theorem closeFrames_spec (handles : List FileHandle) (hc : c.nextTan ≠ invalidTan) :
    (closeFrames handles c).1.nextTan ≠ invalidTan ∧
      ∀ o ∈ (closeFrames handles c).2, ∃ tan handle, tan ≠ invalidTan ∧
        o = .new (frame8 [closeFile.asU8, tan, handle]) c.serverAddress := by
  induction handles generalizing c with
  | nil => exact ⟨hc, by simp [closeFrames]⟩
  | cons handle handles ih =>
    obtain ⟨hnext, hframes⟩ := ih (nextTan_allocateTan c)
    refine ⟨hnext, fun o ho => ?_⟩
    rcases mem_cons.mp ho with rfl | ho
    · exact ⟨c.nextTan, handle, hc, rfl⟩
    · exact hframes o ho

/-! ## Time -/

/-- **What time does to a client.** It gives up its server, or no more than
what it has waited for too long. -/
structure Passes (c : FileClient) (elapsedMs : ℕ) (d : FileClient) : Prop where
  nextTan : d.nextTan ≠ invalidTan
  nodup : d.pendingRequests.keys.Nodup
  kept : d.serverAddress = nullAddress ∧ d.openFiles = [] ∧ d.pendingRequests = [] ∨
    d.serverAddress = c.serverAddress ∧ d.openFiles = c.openFiles ∧
      ∀ tan, d.asked tan = c.asked tan ∨ d.asked tan = none ∧
        ∃ r, c.pendingRequests.get tan = some r ∧
          r.isExpired (satAdd32 c.currentTimeMs elapsedMs) c.config.requestTimeoutMs = true

theorem updateStatus_passes (elapsedMs : ℕ) :
    ((c.updateStatus elapsedMs).1.serverAddress = nullAddress ∧
        (c.updateStatus elapsedMs).1.openFiles = [] ∧
        (c.updateStatus elapsedMs).1.pendingRequests = [] ∧
        (c.nextTan ≠ invalidTan → (c.updateStatus elapsedMs).1.nextTan ≠ invalidTan)) ∨
      ∃ timer, (c.updateStatus elapsedMs).1 = { c with serverStatusTimerMs := timer } := by
  rw [updateStatus]
  split
  · dsimp only
    split
    · exact .inl ⟨rfl, rfl, rfl, fun h => (@closeFrames_spec { c with
        serverStatusTimerMs := satAdd32 c.serverStatusTimerMs elapsedMs } c.openFiles.keys h).1⟩
    · exact .inr ⟨_, rfl⟩
  · exact .inr ⟨_, rfl⟩

theorem update_passes (htan : c.nextTan ≠ invalidTan) (hnodup : c.pendingRequests.keys.Nodup)
    (elapsedMs : ℕ) : Passes c elapsedMs (c.update elapsedMs).1 := by
  rw [update]
  obtain ⟨timer, hccm⟩ : ∃ timer,
      (updateCcm { c with currentTimeMs := satAdd32 c.currentTimeMs elapsedMs } elapsedMs).1 =
        { c with currentTimeMs := satAdd32 c.currentTimeMs elapsedMs, ccmTimerMs := timer } := by
    rw [updateCcm]
    split
    · split <;> exact ⟨_, rfl⟩
    · exact ⟨_, rfl⟩
  rw [hccm]
  rcases @updateStatus_passes { c with
    currentTimeMs := satAdd32 c.currentTimeMs elapsedMs, ccmTimerMs := timer } elapsedMs with
    ⟨haddress, hopen, hpending, hnext⟩ | ⟨timer', hstatus⟩
  · refine ⟨hnext htan, ?_, .inl ⟨haddress, hopen, ?_⟩⟩
    · rw [expireRequests, hpending]
      exact nodup_nil
    · rw [expireRequests, hpending]
      rfl
  · rw [hstatus]
    refine ⟨htan, nodup_keys_filter hnodup, .inr ⟨rfl, rfl, fun tan => ?_⟩⟩
    rcases asked_retain hnodup (fun _ r =>
      !r.isExpired (satAdd32 c.currentTimeMs elapsedMs) c.config.requestTimeoutMs) tan with
      h | ⟨hnone, r, hr, hp⟩
    · exact .inl h
    · exact .inr ⟨hnone, r, hr, by simpa using hp⟩

end Machbus.Fs.FileClient
