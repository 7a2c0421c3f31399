import Machbus.Fs.FileAccess
import Machbus.Fs.Helpers.Conversation
/-!
# File server — opening a file and reading on

What a request to open a file for reading and each request to read the
next piece do at the server, and what their answers do at the client: the
steps of a client that reads a file piece by piece.
-/

namespace Machbus.Fs

open List FileServer FileClient OrderedMap OpenFlags FSFunction Nat

variable {path : Text}

namespace FileServer

variable {x : Exchange} {client : Address}

/-! ## The server -/

/-- **A handle on a file that is read**, with its position. -/
structure Serving (client : Address) (handle : FileHandle) (content : List UInt8) (position : ℕ)
    (s : FileServer) : Prop where
  volume : s.volumeState = .present ∨ s.volumeState = .inUse
  handle : ∃ f, s.findOpen client handle = some f ∧ f.isDirectory = false ∧
    getAccessMode f.flags = OpenFlags.read.bit ∧ f.position = position ∧
    s.files.get f.path = some content

/-- **The file a client means by a path.** -/
structure Offering (client : Address) (requested : Text) (content : List UInt8) (s : FileServer) :
    Prop where
  volume : s.volumeState = .present ∨ s.volumeState = .inUse
  file : ∃ path pattern, s.openTarget client requested false = .ok (path, pattern) ∧
    s.files.get path = some content

section Time

variable {s : FileServer} {client : Address}

theorem disconnectedClients_cleanupExpiredTanCache (s : FileServer) :
    s.cleanupExpiredTanCache.disconnectedClients = s.disconnectedClients := by
  simp [disconnectedClients, cleanupExpiredTanCache, mapValues, filter_map,
    Function.comp_def, ServerClientConnection.isConnected]

theorem findOpen_cleanupDisconnectedClients (hkept : client ∉ s.disconnectedClients)
    (handle : FileHandle) :
    s.cleanupDisconnectedClients.findOpen client handle = s.findOpen client handle := by
  rw [findOpen, cleanupDisconnectedClients, List.find?_filter]
  congr 1
  funext f
  by_cases hf : OpenFile.isOf client handle f = true
  · have howner : f.owner = client := by
      simp only [OpenFile.isOf, Bool.and_eq_true, beq_iff_eq] at hf
      exact hf.2
    simp [howner, hkept]
  · simp [hf]

theorem currentDirectory_cleanup (hkept : client ∉ s.disconnectedClients) :
    s.cleanupExpiredTanCache.cleanupDisconnectedClients.currentDirectory client =
      s.currentDirectory client := by
  rw [currentDirectory, get_cleanupDisconnectedClients, disconnectedClients_cleanupExpiredTanCache,
    if_neg hkept, cleanupExpiredTanCache, get_mapValues, currentDirectory]
  cases s.clients.get client <;> rfl

/-- **What is left alone** of a volume that is there. -/
theorem idles_frame {t : FileServer} (h : x.Idles s t)
    (hvolume : s.volumeState = .present ∨ s.volumeState = .inUse) :
    (t.volumeState = .present ∨ t.volumeState = .inUse) ∧ t.files = s.files ∧
      (∀ handle, t.findOpen x.client handle = s.findOpen x.client handle) ∧
      t.currentDirectory x.client = s.currentDirectory x.client := by
  cases h with
  | ensured =>
    have hcwd := ensureClient_currentDirectory s x.client x.client
    rw [ensureClient_eq] at hcwd ⊢
    exact ⟨hvolume, rfl, fun _ => rfl, hcwd⟩
  | modified hf => exact ⟨hvolume, rfl, fun _ => rfl, currentDirectory_modifyClient _ _ _ hf⟩
  | @time elapsedMs hkept =>
    rw [update]
    rcases updateVolumeStateMachine_cases
      { s with currentTimeMs := satAdd32 s.currentTimeMs elapsedMs } elapsedMs with
      ⟨state, timer, hstate, -, hmachine⟩ | ⟨hprepared, -⟩
    · rw [hmachine]
      have hkept' : x.client ∉ (cleanupExpiredTanCache { s with
          currentTimeMs := satAdd32 s.currentTimeMs elapsedMs
          volumeState := state
          volumeRemovalTimerMs := timer }).disconnectedClients := by
        rw [disconnectedClients_cleanupExpiredTanCache]
        exact hkept
      split <;> exact ⟨hstate.mpr hvolume, rfl,
        fun handle => findOpen_cleanupDisconnectedClients hkept' handle,
        currentDirectory_cleanup hkept⟩
    · rcases hvolume with h | h <;> cases h.symm.trans hprepared

end Time

section Steady

variable {x : Exchange} {handle : FileHandle} {content : List UInt8} {requested : Text}
  {position : ℕ}

theorem steady_serving : x.Steady fun s => s.Serving x.client handle content position where
  volume _ h := h.volume
  idles s t hidles h := by
    obtain ⟨hvolume, hfiles, hopen, -⟩ := idles_frame hidles h.volume
    refine ⟨hvolume, ?_⟩
    rw [hopen, hfiles]
    exact h.handle

theorem steady_offering : x.Steady fun s => s.Offering x.client requested content where
  volume _ h := h.volume
  idles s t hidles h := by
    obtain ⟨hvolume, hfiles, -, hcwd⟩ := idles_frame hidles h.volume
    refine ⟨hvolume, ?_⟩
    rw [openTarget, hcwd, hfiles]
    exact h.file

end Steady

/-! ## One read -/

/-- The `k`-th piece of a file. -/
def chunk (content : List UInt8) (n k : ℕ) : List UInt8 := (content.drop (k * n)).take n

/-- Where a reader stands after `k` pieces. -/
def reached (content : List UInt8) (n k : ℕ) : ℕ := min (k * n) content.length

def readRequest (tan : TAN) (handle : FileHandle) (n : ℕ) : List UInt8 :=
  FSFunction.readFile.asU8 :: tan :: fill6 (handle :: leBytes n 2)

/-- What the `k`-th read is answered with. -/
def chunkResponse (tan : TAN) (content : List UInt8) (n k : ℕ) : List UInt8 :=
  if k * n < content.length then readResponse tan (chunk content n k).length (chunk content n k)
  else encodeErrorResponse FSFunction.readFile.asU8 tan .endOfFile

section Read

variable {s : FileServer} {client : Address} {handle : FileHandle} {content : List UInt8}
  {tan : TAN} {n k : ℕ}

theorem length_chunk : (chunk content n k).length = min n (content.length - k * n) := by
  rw [chunk, length_take, length_drop]

theorem slice_eq_chunk (h : k * n < content.length) :
    slice content (reached content n k) (reached content n k + min n (content.length - k * n)) =
      chunk content n k := by
  have hreached : reached content n k = k * n := by rw [reached]; omega
  rw [hreached, slice, chunk, drop_take, Nat.add_sub_cancel_left]
  rcases le_total n (content.length - k * n) with hle | hle
  · rw [min_eq_left hle]
  · rw [min_eq_right hle, take_of_length_le (by rw [length_drop]),
      take_of_length_le (by rw [length_drop]; exact hle)]

theorem u16At_readRequest (hn : n ≤ 65535) : u16At (readRequest tan handle n) 3 = n :=
  ofLe_two (by omega)

/-- **A read gives the next piece** and moves on behind it. -/
theorem handleReadFile_serving (h : s.Serving client handle content (reached content n k))
    (hn : n ≤ 65535) (hsize : content.length ≤ u32Max) :
    (∃ t, s.handleReadFile client tan (readRequest tan handle n) =
        .ok (t, chunkResponse tan content n k) ∧
        t.Serving client handle content (reached content n (k + 1)) ∧ t.clients = s.clients) ∨
      (s.handleReadFile client tan (readRequest tan handle n) = .error .endOfFile ∧
        chunkResponse tan content n k = encodeErrorResponse readFile.asU8 tan .endOfFile ∧
        reached content n (k + 1) = reached content n k) := by
  obtain ⟨f, hf, hdir, hmode, hposition, hfile⟩ := h.handle
  have hvolume : s.volumeState ≠ .removed := by
    rcases h.volume with hv | hv <;> rw [hv] <;> decide
  have hhandle : u8At (readRequest tan handle n) 2 = handle := rfl
  have hwire : fsFileSizeToWire content.length = content.length := min_eq_left hsize
  have hsucc : (k + 1) * n = k * n + n := succ_mul k n
  have hrun : s.handleReadFile client tan (readRequest tan handle n) =
      (require (reached content n k < content.length) .endOfFile >>= fun _ =>
        .ok (s.setPosition client handle
            (reached content n k + min n (content.length - reached content n k)),
          readResponse tan (min n (content.length - reached content n k))
            (slice content (reached content n k)
              (reached content n k + min n (content.length - reached content n k))))) := by
    simp only [handleReadFile, require_bind_of hvolume, hhandle, u16At_readRequest hn, hf]
    rw [require_bind_of (by rfl), require_bind_of (by rfl), require_bind_of (by exact ⟨rfl, rfl⟩),
      require_bind_of (by exact .inr (.inl rfl)), given_bind_of rfl, if_neg (by rw [hdir]; decide),
      require_bind_of (.inl hmode), given_bind_of hfile, hwire, hposition]
  by_cases hmore : k * n < content.length
  · left
    have hreached : reached content n k = k * n := by rw [reached]; omega
    refine ⟨s.setPosition client handle
      (reached content n k + min n (content.length - reached content n k)), ?_, ?_, rfl⟩
    · rw [hrun, require_bind_of (by rw [hreached]; exact hmore), chunkResponse, if_pos hmore,
        length_chunk, ← slice_eq_chunk hmore, hreached]
    · refine ⟨h.volume, ?_⟩
      have hfind := findOpen_setPosition s client handle
        (reached content n k + min n (content.length - reached content n k))
      rw [hf] at hfind
      refine ⟨_, hfind, hdir, hmode, ?_, hfile⟩
      simp only [reached]
      omega
  · right
    refine ⟨?_, ?_, ?_⟩
    · rw [hrun, require_bind_of_not (by rw [reached]; omega)]
    · rw [chunkResponse, if_neg hmore]
    · simp only [reached]
      omega

end Read

/-- What a server keeps under a number. -/
def kept (s : FileServer) (client : Address) (tan : TAN) : Option TANResponse :=
  (s.clients.get client).bind (·.tanCache.get tan)

theorem kept_cacheResponse {s : FileServer}
    (hclient : (s.clients.get client).isSome = true) (tan tan' : TAN)
    (request response : List UInt8) :
    (s.cacheResponse client tan request response).kept client tan' =
      if tan' = tan then some ⟨tan, request, response, s.currentTimeMs⟩
      else s.kept client tan' := by
  obtain ⟨c, hc⟩ := Option.isSome_iff_exists.mp hclient
  rw [kept, kept, cacheResponse, get_modifyClient, if_pos rfl, hc, Option.map_some,
    Option.bind_some, Option.bind_some, get_insert]

theorem kept_ensureClient (s : FileServer) (client : Address) (tan : TAN) :
    (s.ensureClient client).kept client tan = s.kept client tan := by
  rw [kept, kept, get_ensureClient, if_pos rfl]
  cases s.clients.get client <;> rfl

theorem cachedResponse_eq (s : FileServer) (client : Address) (tan : TAN) (request : List UInt8) :
    s.cachedResponse client tan request = (s.kept client tan).filter (·.requestData == request) :=
  rfl

section

variable {x : Exchange} (hx : x.Valid) {handle : FileHandle} {content : List UInt8} {tan : TAN}
  {n k : ℕ}
include hx

/-- **A server that serves a handle answers the next read**, and keeps the
answer. -/
theorem handleClientMessage_read {s : FileServer} (htan : tan ≠ invalidTan)
    (hn : n ≤ 65535) (hsize : content.length ≤ u32Max)
    (hs : s.Serving x.client handle content (reached content n k))
    (hnew : s.cachedResponse x.client tan (readRequest tan handle n) = none) :
    ∃ t time, s.handleClientMessage (x.request (readRequest tan handle n)) =
        (t, [.sendTo (chunkResponse tan content n k) x.client]) ∧
      t.Serving x.client handle content (reached content n (k + 1)) ∧
      ∀ tan', t.kept x.client tan' =
        if tan' = tan then some ⟨tan, readRequest tan handle n, chunkResponse tan content n k, time⟩
        else s.kept x.client tan' := by
  have hclient := isSome_ensureClient s x.client
  have hs := steady_serving.idles s _ .ensured hs
  have haccepted : Accepted (x.request (readRequest tan handle n)) :=
    Exchange.accepted_request hx (by change 2 ≤ 8; omega)
      (by change readFile.asU8 ≠ ccmFunctionCode; decide) htan
  rw [cachedResponse_eq, ← kept_ensureClient] at hnew
  have hread : u8At (x.request (readRequest tan handle n)).data 0 = readFile.asU8 := rfl
  rcases handleReadFile_serving hs hn hsize with ⟨t, hok, ht, hclients⟩ | ⟨herror, hresponse, hend⟩
  · refine ⟨_, t.currentTimeMs, handleClientMessage_of_ok haccepted hnew hread (by decide) hok,
      steady_serving.idles _ _ (.modified fun _ => rfl) ht, fun tan' => ?_⟩
    have hkept : t.kept x.client tan' = s.kept x.client tan' := by
      rw [← kept_ensureClient s, kept, hclients]
      rfl
    rw [← hkept]
    exact kept_cacheResponse (by rw [hclients]; exact hclient) _ _ _ _
  · rw [hresponse, hend]
    refine ⟨_, (s.ensureClient x.client).currentTimeMs,
      handleClientMessage_of_error haccepted hnew hread (by decide) herror,
      steady_serving.idles _ _ (.modified fun _ => rfl) hs, fun tan' => ?_⟩
    rw [← kept_ensureClient s]
    exact kept_cacheResponse hclient _ _ _ _

theorem serves_read (htan : tan ≠ invalidTan) (hn : n ≤ 65535) (hsize : content.length ≤ u32Max) :
    x.Serves (fun s => s.Serving x.client handle content (reached content n k))
      (readRequest tan handle n)
      fun response s => response = chunkResponse tan content n k ∧
        s.Serving x.client handle content (reached content n (k + 1)) := by
  intro s hs hnew
  obtain ⟨t, _, hmet, ht, -⟩ := handleClientMessage_read hx htan hn hsize hs hnew
  refine ⟨_, t, hmet, ⟨rfl, ht⟩, ?_⟩
  rw [chunkResponse]
  split <;> rfl

end

/-! ## Opening the file -/

def openRequest (tan : TAN) (flags : UInt8) (path : Text) : List UInt8 :=
  FSFunction.openFile.asU8 :: tan :: flags :: counted path

theorem utf8_of_isAscii (h : isAscii path = true) :
    utf8 path = path.map fun c => .ofNat c.toNat := by
  induction path with
  | nil => rfl
  | cons c path ih =>
    simp only [isAscii, all_cons, Bool.and_eq_true, decide_eq_true_eq] at h
    have hone : c.val.toNat ≤ 127 := le_of_lt_succ h.1
    have hc : String.utf8EncodeChar c = [.ofNat c.toNat] := by
      rw [String.utf8EncodeChar, if_pos hone]
      rfl
    have ih := ih (by simpa [isAscii] using h.2)
    rw [utf8] at ih
    rw [utf8, flatMap_cons, hc, ih]
    rfl

theorem decodeWirePath_utf8 (h : isAscii path = true) : decodeWirePath (utf8 path) = some path := by
  have hsmall : ∀ c ∈ path, c.toNat < 0x80 := by
    simpa [isAscii] using h
  rw [utf8_of_isAscii h, decodeWirePath, if_pos, map_map]
  · congr 1
    refine (map_congr_left fun c hc => ?_).trans (map_id path)
    have := hsmall c hc
    simp only [Function.comp_apply, UInt8.toNat_ofNat', id]
    rw [mod_eq_of_lt (by omega), Char.ofNat_toNat]
  · rw [all_map, all_eq_true]
    intro c hc
    have := hsmall c hc
    simp only [Function.comp_apply, decide_eq_true_eq, UInt8.lt_iff_toNat_lt, UInt8.toNat_ofNat']
    rw [mod_eq_of_lt (by omega)]
    exact this

section Open

variable {path : Text} {tan : TAN} {flags : UInt8}

theorem length_openRequest : (openRequest tan flags path).length = 5 + (utf8 path).length := by
  simp [openRequest, counted, leBytes]
  omega

theorem u16At_openRequest (hlen : len path ≤ 65535) :
    u16At (openRequest tan flags path) 3 = (utf8 path).length :=
  ofLe_two (lt_succ_of_le hlen)

theorem slice_openRequest :
    slice (openRequest tan flags path) 5 (5 + (utf8 path).length) = utf8 path := by
  rw [slice, take_of_length_le (by rw [length_openRequest])]
  rfl

theorem countedPathBytes_openRequest (hlen : len path ≤ 65535) :
    countedPathBytes (openRequest tan flags path) 3 5 = some (utf8 path) := by
  have hcount : ofLe [leByte (len path) 0, leByte (len path) 1] = (utf8 path).length :=
    ofLe_two (lt_succ_of_le hlen)
  have hcanonical :
      fsPayloadLenIsCanonical (openRequest tan flags path) (5 + (utf8 path).length) = true := by
    simp [fsPayloadLenIsCanonical, length_openRequest]
  change (if fsPayloadLenIsCanonical _ (5 + ofLe [_, _]) then some (slice _ 5 _) else none) = _
  rw [hcount, if_pos hcanonical, slice_openRequest]

/-- What a request to open a file for reading is answered with. -/
def Opens (client : Address) (path : Text) (content : List UInt8) (tan : TAN)
    (response : List UInt8) (s : FileServer) : Prop :=
  (∃ handle, response = frame8 [openFile.asU8, tan, FSError.success.asU8, handle] ∧
      handle ≠ reservedFileHandle0 ∧ handle ≠ invalidFileHandle ∧
      s.Serving client handle content 0) ∨
    (∃ e, response = encodeErrorResponse openFile.asU8 tan e) ∧ s.Offering client path content

variable {s t : FileServer} {client : Address} {content response : List UInt8}

/-- **A file that is there is opened at its start**, or there is no handle
left. -/
theorem handleOpenFile_offering (h : s.Offering client path content)
    (hascii : isAscii path = true) (hlen : len path ≤ 65535)
    (hmode : getAccessMode flags = read.bit)
    (hopen : s.handleOpenFile client tan (openRequest tan flags path) = .ok (t, response)) :
    Opens client path content tan response t := by
  have hflags : u8At (openRequest tan flags path) 2 = flags := rfl
  have hfile : (read.bit == openDir.bit) = false := rfl
  simp only [handleOpenFile, require_then_eq_ok, given_then_eq_ok, hflags,
    countedPathBytes_openRequest hlen, Option.some.injEq, hmode, hfile] at hopen
  obtain ⟨-, -, bytes, rfl, requested, hrequested, -, -, happend, hopen⟩ := hopen
  rw [decodeWirePath_utf8 hascii, Option.some.injEq] at hrequested
  subst hrequested
  obtain ⟨file, pattern, htarget, hcontent⟩ := h.file
  obtain ⟨⟨file', pattern'⟩, htarget', hopen⟩ := bind_eq_ok.mp hopen
  rw [htarget] at htarget'
  cases htarget'
  simp only [require_then_eq_ok] at hopen
  obtain ⟨-, -, hopen⟩ := hopen
  obtain ⟨u, hu, hopen⟩ := bind_eq_ok.mp hopen
  obtain ⟨position, hposition, hopen⟩ := bind_eq_ok.mp hopen
  -- the file is there, so nothing is made
  have hsame : u = s := by
    cases provide_spec hu with
    | file => rfl
    | newFile hnew =>
      rw [hcontent] at hnew
      cases hnew
  subst hsame
  have hstart : position = 0 := by
    have hnot : hasFlag flags .append = false := by simpa using happend
    rw [initialPosition, hnot] at hposition
    cases hposition
    rfl
  subst hstart
  have hpair := Except.ok.inj hopen
  have hresponse := congrArg Prod.snd hpair
  have ht := congrArg Prod.fst hpair
  rw [openHandle] at hresponse ht
  dsimp only at hresponse ht
  by_cases hfound : u.allocateHandle.1 = invalidFileHandle
  · rw [if_pos hfound] at hresponse ht
    exact .inr ⟨⟨_, hresponse.symm⟩, ht ▸ ⟨h.volume, h.file⟩⟩
  rw [if_neg hfound] at hresponse ht
  obtain ⟨hzero, hfree⟩ := allocateLoop_free hfound
  refine .inl ⟨u.allocateHandle.1, hresponse.symm, hzero, hfound, ?_⟩
  rw [← ht]
  refine ⟨h.volume, ⟨u.allocateHandle.1, client, file, 0, flags, false, pattern⟩, ?_, rfl, hmode,
    rfl, hcontent⟩
  have hnone : u.openFiles.find? (OpenFile.isOf client u.allocateHandle.1) = none := by
    refine List.find?_eq_none.mpr fun f hf hof => hfree f hf ?_
    simp only [OpenFile.isOf, Bool.and_eq_true, beq_iff_eq] at hof
    exact hof.1
  change (u.openFiles ++ [_]).find? _ = _
  rw [List.find?_append, hnone]
  simp [OpenFile.isOf]

theorem steady_opens (response : List UInt8) :
    x.Steady (Opens x.client path content tan response) where
  volume := by
    rintro s (⟨_, _, _, _, h⟩ | ⟨_, h⟩)
    · exact h.volume
    · exact h.volume
  idles := by
    rintro s t hidles (⟨handle, hresponse, hzero, hvalid, h⟩ | ⟨hresponse, h⟩)
    · exact .inl ⟨handle, hresponse, hzero, hvalid, steady_serving.idles s t hidles h⟩
    · exact .inr ⟨hresponse, steady_offering.idles s t hidles h⟩

theorem serves_open (hx : x.Valid) (htan : tan ≠ invalidTan)
    (hascii : isAscii path = true) (hlen : len path ≤ 65535)
    (hmode : getAccessMode flags = read.bit) :
    x.Serves (fun s => s.Offering x.client path content) (openRequest tan flags path)
      (Opens x.client path content tan) := by
  intro s hs hnew
  have hs := steady_offering.idles s _ .ensured hs
  have haccepted : Accepted (x.request (openRequest tan flags path)) :=
    Exchange.accepted_request hx (by rw [length_openRequest]; omega)
      (by change openFile.asU8 ≠ ccmFunctionCode; decide) htan
  rw [cachedResponse_eq, ← kept_ensureClient] at hnew
  have hfunction : u8At (x.request (openRequest tan flags path)).data 0 = openFile.asU8 :=
    rfl
  cases hopen : (s.ensureClient x.client).handleOpenFile x.client tan (openRequest tan flags path)
    with
  | ok r =>
    obtain ⟨t, response⟩ := r
    have hopens := handleOpenFile_offering hs hascii hlen hmode hopen
    refine ⟨_, _, handleClientMessage_of_ok haccepted hnew hfunction (by decide) hopen,
      (steady_opens _).idles _ _ (.modified fun _ => rfl) hopens, ?_⟩
    rcases hopens with ⟨_, rfl, -⟩ | ⟨⟨_, rfl⟩, -⟩ <;> rfl
  | error e =>
    exact ⟨_, _, handleClientMessage_of_error haccepted hnew hfunction (by decide) hopen,
      (steady_opens _).idles _ _ (.modified fun _ => rfl) (.inr ⟨⟨e, rfl⟩, hs⟩), rfl⟩

end Open

end FileServer

/-! ## The client -/

namespace FileClient

open FileServer (chunk chunkResponse readRequest readResponse openRequest)

/-- **A client that is connected to the server.** -/
structure Joined (x : Exchange) (c : FileClient) : Prop where
  connected : c.isConnected = true
  server : c.serverAddress = x.server
  tan : c.nextTan ≠ invalidTan

/-- **A client that can read through a handle.** -/
structure Holds (x : Exchange) (handle : FileHandle) (c : FileClient) : Prop
    extends Joined x c where
  handle : ∃ i, c.openFiles.get handle = some i ∧ getAccessMode i.flags ≠ OpenFlags.openDir.bit

variable {x : Exchange} {c d : FileClient} {handle : FileHandle} {content : List UInt8}
  {tan : TAN} {n k : ℕ}

theorem Joined.calm (h : c.Joined x) (hd : c.Calm d) : d.Joined x :=
  ⟨by rw [isConnected, hd.state]; exact h.connected, hd.serverAddress.trans h.server,
    by rw [hd.nextTan]; exact h.tan⟩

theorem Holds.calm (h : c.Holds x handle) (hd : c.Calm d) : d.Holds x handle :=
  ⟨h.toJoined.calm hd, by rw [hd.openFiles]; exact h.handle⟩

/-- **Asking for the next piece.** -/
theorem ask_readFile (h : c.Holds x handle) (hidle : c.outstanding = []) :
    ∃ d, c.ask (.readFile handle n) = .ok (d, .new (readRequest c.nextTan handle n) x.server) ∧
      d.Holds x handle ∧ d.nextTan = c.allocateTan.1.nextTan ∧
      d.outstanding = [(c.nextTan, .readFile, readRequest c.nextTan handle n)] := by
  obtain ⟨i, hi, hmode⟩ := h.handle
  have hpending : c.pendingRequests = [] := map_eq_nil_iff.mp hidle
  refine ⟨(c.request .readFile (fill6 (handle :: leBytes n 2))).1, ?_,
    ⟨⟨h.connected, h.server, nextTan_allocateTan c⟩, i, hi, hmode⟩, rfl, ?_⟩
  · rw [ask, tryReadFile, knownHandle, require_bind_of (by rw [hi]; rfl), ← h.server]
    rfl
  · simp [request, trackRequest, allocateTan, outstanding, hpending, OrderedMap.insert,
      OrderedMap.remove, readRequest]

theorem Holds.movePosition (h : c.Holds x handle) (f : ℕ → ℕ) :
    (c.movePosition handle f).Holds x handle := by
  obtain ⟨i, hi, hmode⟩ := h.handle
  refine ⟨⟨h.connected, h.server, h.tan⟩, { i with position := f i.position }, ?_, hmode⟩
  rw [FileClient.movePosition, get_modify, if_pos rfl, hi]
  rfl

/-- **The next piece is reported.** -/
theorem handleReadResponse_chunk (h : c.Holds x handle) (hn : n ≤ 65535) :
    ∃ d, c.handleReadResponse tan (readRequest tan handle n) (chunkResponse tan content n k) =
        (d, [.readResponse tan (.ok (chunk content n k))]) ∧
      d.Holds x handle ∧ d.outstanding = c.outstanding ∧ d.nextTan = c.nextTan := by
  obtain ⟨i, hi, hmode⟩ := h.handle
  have hhandle : requestHandle (readRequest tan handle n) = handle := rfl
  have hrequested : (if 5 ≤ (readRequest tan handle n).length then
      u16At (readRequest tan handle n) 3 else 0) = n :=
    (if_pos (by change 5 ≤ 8; omega)).trans (u16At_readRequest hn)
  rw [chunkResponse]
  split
  · have hlen : (chunk content n k).length ≤ n := by
      rw [length_chunk]
      omega
    generalize chunk content n k = bytes at hlen ⊢
    have hcount : u16At (readResponse tan bytes.length bytes) 3 = bytes.length :=
      ofLe_two (by omega)
    have hdecode : decodeResponseError (readResponse tan bytes.length bytes) = .ok .success := rfl
    have hlen' : (readResponse tan bytes.length bytes).length = 5 + bytes.length := by
      simp [readResponse, leBytes]
      omega
    have hcanonical :
        fsPayloadLenIsCanonical (readResponse tan bytes.length bytes) (5 + bytes.length)
          = true := by
      simp [fsPayloadLenIsCanonical, hlen']
    have hslice : slice (readResponse tan bytes.length bytes) 5 (5 + bytes.length) = bytes := by
      rw [slice, take_of_length_le (by rw [hlen'])]
      rfl
    have hfile : (c.openFiles.get handle).any
        (fun i => getAccessMode i.flags == openDir.bit) = false := by
      rw [hi]
      simpa using hmode
    have hresult : c.handleReadResponse tan (readRequest tan handle n)
        (readResponse tan bytes.length bytes) =
        (c.movePosition handle (satAdd32 · bytes.length), [.readResponse tan (.ok bytes)]) := by
      rw [handleReadResponse]
      dsimp only
      rw [if_neg (by omega), hdecode]
      rw [hcount, hrequested, hhandle, hfile, if_neg (not_lt.mpr hlen)]
      simp [Option.filter_some, hcanonical, hslice]
    exact ⟨_, hresult, h.movePosition (satAdd32 · bytes.length), rfl, rfl⟩
  next hend =>
    have hempty : chunk content n k = [] := by
      rw [chunk, drop_eq_nil_of_le (not_lt.mp hend), take_nil]
    rw [hempty]
    exact ⟨c, rfl, h, rfl, rfl⟩

variable {path : Text} {flags : UInt8}

/-- **Asking for the file**, if its path is well formed. -/
theorem ask_openFile (path : Text) (flags : UInt8) (h : c.Joined x) (hidle : c.outstanding = []) :
    (∃ e, c.ask (.openFile path flags) = .error e) ∨ isAscii path = true ∧ len path ≤ 65535 ∧
        ∃ d, c.ask (.openFile path flags) = .ok (d, .new (openRequest c.nextTan flags path)
          x.server) ∧
          d.Joined x ∧
          d.outstanding = [(c.nextTan, .openFile, openRequest c.nextTan flags path)] := by
  have hpending : c.pendingRequests = [] := map_eq_nil_iff.mp hidle
  rw [ask, tryOpenFile, require_bind_of h.connected]
  by_cases hvalid : isAscii path ∧ len path ≤ fsMaxPathLen ∧ openFlagsHaveNoReservedBits flags ∧
      isValidFsPath path (getAccessMode flags == openDir.bit) false
  · right
    refine ⟨hvalid.1, hvalid.2.1, (c.request .openFile (flags :: counted path)).1, ?_,
      ⟨h.connected, h.server, nextTan_allocateTan c⟩, ?_⟩
    · rw [require_bind_of hvalid, ← h.server]
      rfl
    · simp [request, trackRequest, allocateTan, outstanding, hpending, OrderedMap.insert,
        OrderedMap.remove, openRequest]
  · left
    rw [require_bind_of_not hvalid]
    exact ⟨_, rfl⟩

/-- **An error is reported as one.** -/
theorem handleOpenResponse_error (request : List UInt8) (e : FSError) :
    opensIn (c.handleOpenResponse tan request (encodeErrorResponse openFile.asU8 tan e)).2
      = [] := by
  have hresult : c.handleOpenResponse tan request (encodeErrorResponse openFile.asU8 tan e) =
      (c, if e = .success then [.openResponse tan (.error .invalidHandle)]
        else [.error e, .openResponse tan (.error e)]) := by
    cases e <;> rfl
  rw [hresult]
  split <;> rfl

/-- **The handle is kept.** -/
theorem handleOpenResponse_opened {handle : FileHandle} (hascii : isAscii path = true)
    (hlen : len path ≤ 65535) (hzero : handle ≠ reservedFileHandle0)
    (hvalid : handle ≠ invalidFileHandle) :
    c.handleOpenResponse tan (openRequest tan flags path)
        (frame8 [openFile.asU8, tan, FSError.success.asU8, handle]) =
      ({ c with openFiles := c.openFiles.insert handle ⟨handle, path, flags, 0⟩ },
        [.fileOpened handle path, .openResponse tan (.ok handle)]) := by
  have hhandle : u8At (frame8 [openFile.asU8, tan, FSError.success.asU8, handle]) 3 =
      handle := rfl
  have hfits : 5 ≤ (openRequest tan flags path).length ∧
      5 + u16At (openRequest tan flags path) 3 ≤ (openRequest tan flags path).length := by
    rw [u16At_openRequest hlen, length_openRequest]
    omega
  have hboth : ¬(handle = reservedFileHandle0 ∨ handle = invalidFileHandle) := by
    simp [hzero, hvalid]
  rw [handleOpenResponse, hhandle]
  rw [require_bind_of hboth, if_pos hfits, u16At_openRequest hlen,
    slice_openRequest, decodeWirePath_utf8 hascii]
  rfl

end FileClient

/-! ## The loop -/

namespace Exchange

open FileServer

variable (x : Exchange) (handle : FileHandle) (content : List UInt8) (n : ℕ)

/-- The reports of `k` reads. -/
def pieces (k : ℕ) : List (Except FSError (List UInt8)) :=
  (List.range k).map fun i => .ok (chunk content n i)

/-- **One read after the other**, each when the answer to the one before
has been handled; in between, time passes and frames are delivered. -/
def ReadsOn (l : State) : Act → Prop
  | .left (.ask (.readFile h m)) => h = handle ∧ m = n ∧ l.left.client.pendingRequests = []
  | .left (.update _) | .right _ | .deliverLeft | .deliverRight => True
  | _ => False

/-- **Where the loop stands**: how many reads are reported, and how many
were asked for. -/
inductive Reading : State → ℕ → ℕ → Prop
  | idle {l : State} {k : ℕ} {c : FileClient} {heard : List ClientEvent} (hc : c.Holds x handle)
      (hout : c.outstanding = []) (hreads : readsIn heard = pieces content n k)
      (h : x.Stands c heard (fun s => s.Serving x.client handle content (reached content n k))
        [] [] l) :
      Reading l k k
  | waiting {l : State} {k : ℕ} {c : FileClient} {heard : List ClientEvent} {tan : TAN}
      (hc : c.Holds x handle) (htan : tan ≠ invalidTan)
      (hout : c.outstanding = [(tan, .readFile, readRequest tan handle n)])
      (hreads : readsIn heard = pieces content n k)
      (h : x.Waits c heard (fun s => s.Serving x.client handle content (reached content n k))
        (readRequest tan handle n) (fun response s => response = chunkResponse tan content n k ∧
          s.Serving x.client handle content (reached content n (k + 1))) l) :
      Reading l k (k + 1)

/-- **Opening**: nothing was asked for or nothing was opened; the request or
its answer is under way; or the file is open at its start. -/
inductive Opening (path : Text) (flags : UInt8) : State → Prop
  | none {l : State} {c : FileClient} {heard : List ClientEvent} (hnone : opensIn heard = [])
      (h : x.Stands c heard (fun s => s.Offering x.client path content) [] [] l) :
      Opening path flags l
  | waiting {l : State} {c : FileClient} {heard : List ClientEvent} {tan : TAN} (hc : c.Joined x)
      (hreads : readsIn heard = []) (hnone : opensIn heard = []) (htan : tan ≠ invalidTan)
      (hascii : isAscii path = true) (hlen : len path ≤ 65535)
      (hout : c.outstanding = [(tan, .openFile, openRequest tan flags path)])
      (h : x.Waits c heard (fun s => s.Offering x.client path content) (openRequest tan flags path)
        (Opens x.client path content tan) l) : Opening path flags l
  | opened {l : State} {c : FileClient} {heard : List ClientEvent} {handle : FileHandle}
      (hc : c.Holds x handle) (hout : c.outstanding = []) (hreads : readsIn heard = [])
      (honly : opensIn heard = [handle])
      (h : x.Stands c heard (fun s => s.Serving x.client handle content 0) [] [] l) :
      Opening path flags l

variable {x handle content n} {l : State} {a : Act} {k m : ℕ}

theorem Steady.const_and {P : FileServer → Prop} (hP : x.Steady P) (p : Prop) :
    x.Steady fun s => p ∧ P s where
  volume s h := hP.volume s h.2
  idles s t hidles h := ⟨h.1, hP.idles s t hidles h.2⟩

theorem pieces_succ (content : List UInt8) (n k : ℕ) :
    pieces content n (k + 1) = pieces content n k ++ [.ok (chunk content n k)] := by
  rw [pieces, range_succ, map_append]
  rfl

/-- The answer to the request to open. -/
theorem handleServerResponse_open (hx : x.Valid) {d : FileClient} {tan : TAN}
    {flags : UInt8} {response : List UInt8} (hd : d.Joined x) (htan : tan ≠ invalidTan)
    (hout : d.outstanding = [(tan, .openFile, openRequest tan flags path)])
    (hfunction : u8At response 0 = openFile.asU8) (hresponse : u8At response 1 = tan)
    (hlen : 2 ≤ response.length) :
    d.handleServerResponse (x.answer response) =
      handleOpenResponse { d with pendingRequests := [], serverStatusTimerMs := 0 } tan
        (openRequest tan flags path) response := by
  obtain ⟨pending, hpending, hdata, hanswer⟩ := handleServerResponse_answer
    (x.answer response) rfl (addressed_answer hx _).1 (addressed_answer hx _).2 hd.server.symm hlen
    hout hfunction hresponse htan (by decide) (by decide)
  rw [hanswer]
  simp only [handleAnswer, hpending, hdata]
  rfl

theorem Opening.step {flags : UInt8} (h : x.Opening content path flags l) (hx : x.Valid)
    (hmode : getAccessMode flags = read.bit) (hquiet : asks a = false)
    (halive : x.KeepsAlive l a) (hnew : x.NotReplayed l a) :
    x.Opening content path flags (x.step l a) := by
  cases h with
  | none hnone h => exact .none hnone (h.idle hx steady_offering hquiet halive)
  | opened hc hout hreads honly h =>
    exact .opened hc hout hreads honly (h.idle hx steady_serving hquiet halive)
  | @waiting c heard tan hc hreads hnone htan hascii hlen hout h =>
    rcases h.step hx steady_offering steady_opens (serves_open hx htan hascii hlen hmode)
      (by change openFile.asU8 ≠ ccmFunctionCode; decide) hquiet halive hnew with
      h | ⟨response, d, hd, h⟩
    · exact .waiting hc hreads hnone htan hascii hlen hout h
    · have hbare := hc.calm hd
      rcases h.server with ⟨handle, rfl, hzero, hvalid, hserving⟩ | ⟨⟨e, rfl⟩, hoffering⟩
      · rw [handleServerResponse_open hx hbare htan (hd.outstanding.trans hout) rfl rfl
            (by change 2 ≤ 8; omega), handleOpenResponse_opened hascii hlen hzero hvalid] at h
        have hstands : x.Stands _ _ (fun s => s.Serving x.client handle content 0) [] [] _ :=
          { h with server := hserving }
        refine .opened ?_ ?_ ?_ ?_ hstands
        · refine ⟨⟨hbare.connected, hbare.server, hbare.tan⟩, ⟨handle, path, flags, 0⟩, ?_, ?_⟩
          · exact get_insert.trans (if_pos rfl)
          · rw [hmode]
            decide
        · rfl
        · rw [readsIn, filterMap_append, ← readsIn, hreads]
          rfl
        · rw [opensIn, filterMap_append, ← opensIn, hnone]
          rfl
      · rw [handleServerResponse_open hx hbare htan (hd.outstanding.trans hout) rfl rfl
          (by change 2 ≤ 8; omega)] at h
        have hstill := @FileClient.handleOpenResponse_error
          { d with pendingRequests := [], serverStatusTimerMs := 0 } tan
          (openRequest tan flags path) e
        refine .none ?_ { h with server := hoffering }
        rw [opensIn, filterMap_append, ← opensIn, hnone, ← opensIn, hstill]
        rfl

/-- The answer is an answer to the client. -/
theorem handleServerResponse_read (hx : x.Valid) (content : List UInt8) (k : ℕ) {d : FileClient}
    {tan : TAN} (hd : d.Holds x handle) (htan : tan ≠ invalidTan)
    (hout : d.outstanding = [(tan, .readFile, readRequest tan handle n)]) (hn : n ≤ 65535) :
    ∃ e, d.handleServerResponse (x.answer (chunkResponse tan content n k)) =
        (e, [.readResponse tan (.ok (chunk content n k))]) ∧
      e.Holds x handle ∧ e.outstanding = [] ∧ e.nextTan = d.nextTan := by
  obtain ⟨hfunction, htan', hlen⟩ : u8At (chunkResponse tan content n k) 0 = readFile.asU8 ∧
      u8At (chunkResponse tan content n k) 1 = tan ∧
      2 ≤ (chunkResponse tan content n k).length := by
    rw [chunkResponse]
    split <;> exact ⟨rfl, rfl, by simp [readResponse, encodeErrorResponse, frame8]⟩
  obtain ⟨pending, hpending, hdata, hanswer⟩ := handleServerResponse_answer
    (x.answer (chunkResponse tan content n k)) rfl (addressed_answer hx _).1
    (addressed_answer hx _).2
    hd.server.symm hlen hout hfunction htan' htan (by decide) (by decide)
  have hbare : Holds x handle { d with pendingRequests := [], serverStatusTimerMs := 0 } :=
    ⟨⟨hd.connected, hd.server, hd.tan⟩, hd.handle⟩
  rw [hanswer]
  simp only [handleAnswer, hpending, hdata]
  exact FileClient.handleReadResponse_chunk hbare hn

/-- **A step of the loop.** -/
theorem Reading.step (h : x.Reading handle content n l k m) (hx : x.Valid) (hn : n ≤ 65535)
    (hsize : content.length ≤ u32Max) (hreads : ReadsOn handle n l a) (halive : x.KeepsAlive l a)
    (hnew : x.NotReplayed l a) :
    ∃ k', x.Reading handle content n (x.step l a) k' (m + if asks a then 1 else 0) := by
  cases h with
  | @idle c heard hc hout hread h =>
    match a, hreads with
    | .left (.ask (.readFile _ _)), ⟨rfl, rfl, _⟩ =>
      have hout' := h.client.outstanding.trans hout
      obtain ⟨d, hask, hd, -, hdout⟩ := ask_readFile (n := n) (hc.calm h.client) hout'
      exact ⟨k, .waiting hd (hc.calm h.client).tan hdout hread
        (.asked (h.ask hask (by change readFile.asU8 ≠ ccmFunctionCode; decide)))⟩
    | .left (.update _), _ | .right _, _ | .deliverLeft, _ | .deliverRight, _ =>
      exact ⟨k, .idle hc hout hread (h.idle hx steady_serving rfl halive)⟩
  | @waiting c heard tan hc htan hout hread h =>
    have hquiet : asks a = false := by
      match a, hreads with
      | .left (.ask (.readFile _ _)), ⟨_, _, hidle⟩ =>
        have hbusy := h.client.outstanding.trans hout
        rw [outstanding, hidle] at hbusy
        cases hbusy
      | .left (.update _), _ | .right _, _ | .deliverLeft, _ | .deliverRight, _ => rfl
    rw [hquiet]
    rcases h.step hx steady_serving (fun _ => steady_serving.const_and _)
      (serves_read hx htan hn hsize) (by change readFile.asU8 ≠ ccmFunctionCode; decide)
      hquiet halive hnew with h | ⟨response, d, hd, h⟩
    · exact ⟨k, .waiting hc htan hout hread h⟩
    · rw [h.server.1] at h
      obtain ⟨e, hread', hholds, hdone, -⟩ := handleServerResponse_read hx content k (hc.calm hd)
        htan (hd.outstanding.trans hout) hn
      rw [hread'] at h
      have hstands : x.Stands _ _
          (fun s => s.Serving x.client handle content (reached content n (k + 1))) [] [] _ :=
        { h with server := h.server.2 }
      refine ⟨k + 1, .idle hholds hdone ?_ hstands⟩
      rw [readsIn, filterMap_append, pieces_succ, ← hread]
      rfl

/-- **Where it all starts**: a client that is connected to the server and
waits for nothing, and a file on the server. -/
structure Ready (x : Exchange) (path : Text) (content : List UInt8) (l : State) : Prop where
  valid : x.Valid
  client : l.left.client.Joined x
  idle : l.left.client.pendingRequests = []
  reads : readsIn l.left.heard = []
  opened : opensIn l.left.heard = []
  server : l.right.Offering x.client path content
  toRight : ∀ m ∈ l.toRight, m = x.ccm
  toLeft : ∀ m ∈ l.toLeft, IsStatus m

theorem Ready.stands (h : x.Ready path content l) :
    x.Stands l.left.client l.left.heard (fun s => s.Offering x.client path content) [] [] l :=
  ⟨.refl _, rfl, h.server, filter_eq_nil_iff.mpr fun m hm => by simpa using h.toRight m hm,
    filter_eq_nil_iff.mpr fun m hm => by simpa using h.toLeft m hm⟩

theorem Ready.open (flags : UInt8) (h : x.Ready path content l) :
    x.Opening content path flags (x.step l (.left (.ask (.openFile path flags)))) := by
  have hidle : l.left.client.outstanding = [] := by
    rw [outstanding, h.idle]
    rfl
  rcases ask_openFile path flags h.client hidle with
    ⟨e, he⟩ | ⟨hascii, hlen, d, hask, hd, hout⟩
  · have hsame : x.step l (.left (.ask (.openFile path flags))) = l := by
      have hact : x.parties.actLeft l.left (.ask (.openFile path flags)) = (l.left, []) := by
        simp [parties, Station.act, Station.called, he, fromClient]
      rw [step, Link.step_left hact]
      simp
    rw [hsame]
    exact .none h.opened h.stands
  · exact .waiting hd h.reads h.opened h.client.tan hascii hlen hout
      (.asked (h.stands.ask hask (by change openFile.asU8 ≠ ccmFunctionCode; decide)))

end Exchange

end Machbus.Fs
