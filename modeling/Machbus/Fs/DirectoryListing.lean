import Mathlib.Data.List.Perm.Subperm
import Machbus.Common.Lockstep
import Machbus.Fs.Helpers.Reading
import Machbus.Fs.Namespace
/-!
# File server — reading a directory

A directory is read like a file: a handle on it has a position, and a
read gives the entries from there on, as many as it asks for. They are
found among all the paths by what these start with. An entry has one byte
for the length of a name, and a directory is listed with the separator at
its end, for which a name of 255 bytes leaves no room. A request that comes
again while its answer is kept is not a read: it gets the old answer.
-/

namespace Machbus.Fs.FileServer

open List OrderedMap

variable {s t : FileServer} {d : Text} {e : FileEntry}

/-! ## Nothing is there twice -/

/-- No file and no directory is there twice. -/
def Unique (s : FileServer) : Prop := s.files.keys.Nodup ∧ s.directories.Nodup

theorem Unique.effect {a : Address} {request : List UInt8} (hu : s.Unique) (h : s.Stored)
    (he : Effect a request s t) : t.Unique := by
  cases he with
  | @opened u _ path _ _ _ _ _ _ hpath _ hprovided =>
    have hu : u.Unique := by
      cases hprovided with
      | directory | file => exact hu
      | newDirectory hnew =>
        refine ⟨hu.1, ?_⟩
        change (s.directories ++ [path]).Nodup
        rw [← concat_eq_append]
        exact hu.2.concat (h.notMem_directories hpath hnew)
      | newFile => exact ⟨nodup_keys_insert hu.1, hu.2⟩
    exact openHandle_induction (P := Unique) hu fun _ => hu
  | wrote => exact ⟨nodup_keys_insert hu.1, hu.2⟩
  | movedFile => exact ⟨nodup_keys_insert (nodup_keys_filter hu.1), hu.2⟩
  | deletedDirectory => exact ⟨hu.1, hu.2.filter _⟩
  | deletedFile => exact ⟨nodup_keys_filter hu.1, hu.2⟩
  | initialized _ _ ht =>
    rw [ht]
    exact ⟨nodup_nil, nodup_singleton _⟩
  | wentUp | wentTo =>
    rw [setCurrentDirectory, ensureClient_eq]
    exact hu
  | _ => exact hu

theorem unique_preserved : Preserved fun s => s.Stored ∧ s.Unique :=
  stored_preserved.and
    ⟨fun _ _ _ _ _ _ h => h, fun _ _ _ h => h, fun _ h => h, fun _ h => h⟩
    (fun _ _ h => by rw [ensureClient_eq]; exact h) fun _ _ _ _ hstored h he => h.effect hstored he

theorem Unique.setUp (h : s.Unique) : ∀ call, (s.setUp call).Unique := by
  refine setUp_induction (fun _ _ _ _ _ _ => h) (fun _ _ _ _ _ => ⟨nodup_keys_insert h.1, h.2⟩)
    (fun _ => ⟨nodup_keys_filter h.1, h.2⟩) fun p _ _ => ⟨h.1, ?_⟩
  change (if s.directories.contains p then s.directories else s.directories ++ [p]).Nodup
  split
  · exact h.2
  next hnew =>
    rw [← concat_eq_append]
    exact h.2.concat (by simpa using hnew)

theorem unique_calls (config : FileServerConfig) (calls : List Call) :
    (run call (new config) calls).Stored ∧ (run call (new config) calls).Unique := by
  refine ⟨stored_calls config calls, ?_⟩
  exact (run_induction (I := fun s : FileServer => s.Standing ∧ s.Stored ∧ s.Unique)
    ⟨standing_new config, stored_calls config [], nodup_nil, nodup_singleton _⟩
    (fun _ c ⟨hstand, h⟩ => ⟨hstand.call c, h.1.call hstand c, call_induction h.2.setUp
      (fun a => (unique_preserved.step hstand h a).2) (fun _ _ _ => h.2) h.2 c⟩) calls).2.2

/-! ## What is in a directory -/

/-- **A visible child of a directory**, one name further down. -/
inductive Child (s : FileServer) (d : Text) : FileEntry → Prop
  | file {name : Text} {data : List UInt8} (hfile : (d ++ name, data) ∈ s.files)
      (hname : name ≠ [] ∧ sep ∉ name)
      (hvisible : hasAttribute ((s.fileAttrs.get (d ++ name)).getD 0) .hidden = false) :
      Child s d (s.fileEntry (d ++ name) name (fsFileSizeToWire data.length)
        ((s.fileAttrs.get (d ++ name)).getD 0))
  | directory {name : Text} (hdir : d ++ (name ++ [sep]) ∈ s.directories) (hname : sep ∉ name) :
      Child s d (s.fileEntry (d ++ (name ++ [sep])) (name ++ [sep]) 0 FileAttributes.directory.bit)

/-- What a handle on a directory lists. -/
def visible (s : FileServer) (d : Text) : List FileEntry :=
  (s.listDirectory d ['*']).filter (!hasAttribute ·.attributes .hidden)

theorem bind_dropPrefix? {p : Text} {f : Text → Option FileEntry} :
    (p.dropPrefix? d).bind f = some e ↔ ∃ name, p = d ++ name ∧ f name = some e := by
  simp [Option.bind_eq_some_iff, dropPrefix?_eq_some_iff]

/-- **The listing is complete**, and has nothing twice. -/
theorem visible_spec (h : s.Stored) (hu : s.Unique) (hd : d ∈ s.directories) :
    (s.visible d).Nodup ∧ ∀ e, e ∈ s.visible d ↔ s.Child d e := by
  have hsep : ∀ name, d ++ name ∈ s.directories → name ≠ [] → name = name.dropLast ++ [sep] := by
    intro name hmem hne
    obtain ⟨ds, -, hds, -⟩ := h.directories _ hmem
    obtain ⟨front, c, rfl⟩ := (eq_nil_or_concat' name).resolve_left hne
    rw [← append_assoc, directoryPath] at hds
    simp [(append_inj' hds rfl).2]
  obtain ⟨cs, hcs, hpath, hshort⟩ := h.directories d hd
  rw [visible, listDirectory, hpath, normalizeDirectoryPath_of_names hcs (.inr rfl), ← hpath,
    if_neg (by omega)]
  dsimp only
  refine ⟨(nodup_append'.mpr ⟨?_, ?_, ?_⟩).filter _, fun e => ?_⟩
  -- the name in an entry says which path it is from
  · refine (pairwise_map.mp hu.1).filterMap _ fun p p' hne e he e' he' heq => hne ?_
    simp [bind_dropPrefix?] at he he'
    grind [fileEntry]
  · refine hu.2.filterMap fun p p' e he he' => ?_
    simp [bind_dropPrefix?] at he he'
    grind [fileEntry]
  · intro e hfile hdir
    simp [bind_dropPrefix?] at hfile hdir
    grind [fileEntry]
  · simp [bind_dropPrefix?]
    constructor
    · rintro (⟨⟨data, name, hfile, hname, rfl⟩, hvisible⟩ | ⟨⟨name, hdir, hne, hname, rfl⟩, -⟩)
      · exact .file hfile hname hvisible
      · have hname' := hsep name hdir hne
        rw [hname'] at hdir ⊢
        exact .directory hdir hname
    · rintro (⟨hfile, hname, hvisible⟩ | ⟨hdir, hname⟩)
      · exact .inl ⟨⟨_, _, hfile, hname, rfl⟩, hvisible⟩
      · exact .inr ⟨⟨_, hdir, by simp, by simpa using hname, rfl⟩,
          (by decide : hasAttribute FileAttributes.directory.bit .hidden = false)⟩

/-! ## Entries on the wire -/

/-- A name, and what else an entry holds. -/
def listed (e : FileEntry) : List UInt8 × List UInt8 :=
  (utf8 e.name, e.attributes :: leBytes e.date 2 ++ leBytes e.time 2 ++ leBytes e.size 4)

/-- Reads entries back: a length, a name of that length and nine bytes. -/
def decodeEntries : ℕ → List UInt8 → List (List UInt8 × List UInt8)
  | n + 1, len :: rest =>
    (rest.take len.toNat, (rest.drop len.toNat).take 9) ::
      decodeEntries n (rest.drop (len.toNat + 9))
  | _, _ => []

/-- The name of an entry fits the byte for its length. -/
def Fits (e : FileEntry) : Prop := (utf8 e.name).length ≠ 0 ∧ (utf8 e.name).length ≤ 255

/-- **Entries are read back.** -/
theorem decodeEntries_flatten {es : List FileEntry} (h : ∀ e ∈ es, Fits e) :
    ∃ bytes, es.mapM encodeDirectoryEntry = some bytes ∧
      decodeEntries es.length bytes.flatten = es.map listed := by
  induction es with
  | nil => exact ⟨[], rfl, rfl⟩
  | cons e es ih =>
    obtain ⟨bytes, hbytes, hread⟩ := ih fun e he => h e (mem_cons_of_mem _ he)
    obtain ⟨hne, hle⟩ := h e mem_cons_self
    have hlen : (UInt8.ofNat (utf8 e.name).length).toNat = (utf8 e.name).length := by
      simp
      omega
    refine ⟨(UInt8.ofNat (utf8 e.name).length :: (listed e).1 ++ (listed e).2) :: bytes, ?_, ?_⟩
    · simp [encodeDirectoryEntry, hbytes, listed, hne, Nat.not_lt.mpr hle]
    · simp [decodeEntries, hlen, listed]
      exact ⟨rfl, hread⟩

/-- A directory is listed with a separator more than its name. -/
theorem Child.fits (hc : s.Child d e) (h : s.Stored) (hd : d ∈ s.directories)
    (hdirs : ∀ name, d ++ (name ++ [sep]) ∈ s.directories → sep ∉ name →
      (utf8 name).length ≤ 254) : Fits e := by
  cases hc with
  | @file name _ hfile hname =>
    obtain ⟨cs, -, hcs, hpath⟩ := h.files _ (mem_map_of_mem hfile)
    obtain ⟨ds, hds, rfl, -⟩ := h.directories d hd
    have hsplit : cs = ds ++ [name] := by
      refine rooted_inj (fun c hc => (hcs c hc).sep_notMem) (forall_mem_append.mpr ⟨?_, ?_⟩)
        (hpath.symm.trans (by simp [directoryPath]))
      · exact fun c hc => (hds c hc).sep_notMem
      · exact forall_mem_singleton.mpr hname.2
    have hvalid : Name name := hcs name (by simp [hsplit])
    simp [Name, isValidComponent] at hvalid
    obtain ⟨c, cs, rfl⟩ := exists_cons_of_ne_nil hname.1
    exact ⟨by simp [fileEntry, utf8, c.utf8Size_pos.ne'], hvalid.1.2⟩
  | @directory name hdir hname =>
    have hlen : (utf8 (name ++ [sep])).length = (utf8 name).length + 1 := by
      simp [utf8]
      rfl
    have := hdirs name hdir hname
    simp only [Fits, fileEntry, hlen]
    omega

/-! ## Reading on -/

/-- **A message for the next entries** that asks for no hidden ones. -/
structure AsksFor (client : Address) (handle : FileHandle) (msg : Message) : Prop where
  accepted : Accepted msg
  sender : msg.source = client
  function : u8At msg.data 0 = FSFunction.readFile.asU8
  handle : u8At msg.data 2 = handle
  visible : u8At msg.data 5 = 0 ∨ u8At msg.data 5 = 0xFF
  reserved : u8At msg.data 6 = 0xFF ∧ u8At msg.data 7 = 0xFF
  length : fsPayloadLenIsCanonical msg.data 8 = true

/-- The server keeps no answer to the very same request. -/
def Unkept (s : FileServer) (msg : Message) : Prop :=
  s.cachedResponse msg.source (u8At msg.data 1) msg.data = none

/-- The entries an answer holds, or its error. -/
abbrev Heard := Except UInt8 (List (List UInt8 × List UInt8))

def heard (response : List UInt8) : Heard :=
  if u8At response 2 = FSError.success.asU8 then
    .ok (decodeEntries (u16At response 3) (response.drop 5))
  else .error (u8At response 2)

/-- A message, and what the answers to it say. -/
def readOn (s : FileServer) (msg : Message) : FileServer × List Heard :=
  (s.handleClientMessage msg).map id (map (heard ·.data))

/-- **What reads are to give**: as many entries as are asked for, from the
first that is left, and then the end. -/
def serve (rest : List FileEntry) (msg : Message) : List FileEntry × List Heard :=
  (rest.drop (u16At msg.data 3), [if rest = [] then .error FSError.endOfFile.asU8
    else .ok ((rest.take (u16At msg.data 3)).map listed)])

/-- What is left to read by a handle. -/
structure Leaves (client : Address) (handle : FileHandle) (s : FileServer)
    (rest : List FileEntry) : Prop where
  volume : s.volumeState ≠ .removed
  handle : ∃ f, s.findOpen client handle = some f ∧ f.isDirectory = true ∧
    f.directoryPattern = ['*'] ∧ (s.visible f.path).length ≤ u32Max ∧
    rest = (s.visible f.path).drop f.position
  fits : ∀ e ∈ rest, Fits e

variable {client : Address} {handle : FileHandle} {rest : List FileEntry} {msg : Message}

theorem heard_readResponse {n : ℕ} (hn : n < 2 ^ 16) (tan : TAN) (payload : List UInt8) :
    heard (readResponse tan n payload) = .ok (decodeEntries n payload) := by
  have hcount : u16At (readResponse tan n payload) 3 = n := ofLe_two hn
  rw [heard, hcount]
  rfl

/-- **A read gives the next entries** and moves on behind them. -/
theorem Leaves.execute (h : Leaves client handle s rest) (hr : AsksFor client handle msg) :
    let r := s.executeFunction client (u8At msg.data 0) (u8At msg.data 1) msg.data
    [heard r.2] = (serve rest msg).2 ∧ Leaves client handle r.1 (serve rest msg).1 := by
  obtain ⟨f, hf, hdir, hpattern, hfew, rfl⟩ := h.handle
  obtain ⟨-, rfl, rfl⟩ := findOpen_eq_some hf
  have hreport : (u8At msg.data 5 == 1) = false := by
    rcases hr.visible with hv | hv <;> rw [hv] <;> rfl
  have hentries : ((s.listDirectory f.path f.directoryPattern).filter fun e =>
      false || !hasAttribute e.attributes .hidden) = s.visible f.path := by
    rw [hpattern]
    rfl
  have hrun : s.handleFunction f.owner .readFile (u8At msg.data 1) msg.data =
      s.handleReadDirectory f (u8At msg.data 1) (u16At msg.data 3) false := by
    simp only [handleFunction, handleReadFile, require_bind_of h.volume, hr.handle, hf, hreport]
    rw [require_bind_of (le_of_fsPayloadLenIsCanonical hr.length), require_bind_of hr.length,
      require_bind_of hr.reserved, require_bind_of (hr.visible.elim .inl (.inr ∘ .inl)),
      given_bind_of rfl, if_pos hdir]
  simp only [handleReadDirectory, hentries] at hrun
  by_cases hmore : f.position < (s.visible f.path).length
  · obtain ⟨bytes, hbytes, hread⟩ := decodeEntries_flatten fun e he =>
      h.fits e (mem_of_mem_take (i := u16At msg.data 3) he)
    rw [length_take] at hread
    rw [require_bind_of hmore, ← length_drop, ← take_eq_take_min, given_bind_of hbytes] at hrun
    have hfind := findOpen_setPosition s f.owner f.handle
      (satAdd32 f.position (min (u16At msg.data 3) ((s.visible f.path).drop f.position).length))
    rw [hf] at hfind
    simp only [executeFunction, hr.function, FSFunction.tryFromU8_asU8, hrun]
    refine ⟨?_, h.volume, ⟨_, hfind, hdir, hpattern, hfew, ?_⟩,
      fun e he => h.fits e (mem_of_mem_drop he)⟩
    · have : u16At msg.data 3 < 2 ^ 16 := by
        have := (u8At msg.data 3).toNat_lt
        have := (u8At msg.data 4).toNat_lt
        simp [u16At]
        omega
      rw [heard_readResponse (by omega), hread, serve, if_neg (by simpa using hmore)]
    · change _ = (s.visible f.path).drop (satAdd32 _ _)
      rw [serve, drop_drop, drop_eq_drop_iff, satAdd32, length_drop]
      omega
  · have hnil := drop_eq_nil_of_le (Nat.not_lt.mp hmore)
    rw [require_bind_of_not hmore] at hrun
    simp only [executeFunction, hr.function, FSFunction.tryFromU8_asU8, hrun, hnil, serve,
      drop_nil]
    exact ⟨rfl, h.volume, ⟨f, hf, hdir, hpattern, hfew, hnil.symm⟩,
      fun _ he => absurd he not_mem_nil⟩

/-- The answer to a message that is not a repetition. -/
theorem Leaves.read (h : Leaves client handle s rest) (hr : AsksFor client handle msg)
    (hnew : s.Unkept msg) : (s.readOn msg).2 = (serve rest msg).2 ∧
      Leaves client handle (s.readOn msg).1 (serve rest msg).1 := by
  obtain rfl := hr.sender
  have hknown : Leaves msg.source handle (s.ensureClient msg.source) rest := by
    rw [ensureClient_eq]
    exact ⟨h.volume, h.handle, h.fits⟩
  obtain ⟨hheard, hnext⟩ := hknown.execute hr
  rw [Unkept, cachedResponse_eq, ← kept_ensureClient] at hnew
  rw [readOn, handleClientMessage_executed hr.accepted hnew hr.function (by decide)]
  exact ⟨hheard, hnext.volume, hnext.handle, hnext.fits⟩

/-- **Reading a directory gives every visible child once**, and then the
end, if its directories' names leave room for a separator, there are no
more children than positions, and no request comes while its answer is
kept. -/
theorem directory_enumerated {config : FileServerConfig} {calls : List Call} {f : OpenFile}
    (hs : run call (new config) calls = s) (hvolume : s.volumeState ≠ .removed)
    (hopen : s.findOpen client handle = some f) (hd : f.path ∈ s.directories)
    (hf : f.isDirectory = true ∧ f.directoryPattern = ['*'] ∧ f.position = 0)
    (hnames : ∀ name, f.path ++ (name ++ [sep]) ∈ s.directories → sep ∉ name →
      (utf8 name).length ≤ 254)
    (hfew : ∀ es : List FileEntry, es.Nodup → (∀ e ∈ es, s.Child f.path e) → es.length ≤ u32Max) :
    ∃ entries : List FileEntry, entries.Nodup ∧ (∀ e, e ∈ entries ↔ s.Child f.path e) ∧
      ∀ msgs, (∀ msg ∈ msgs, AsksFor client handle msg) → Along (moves readOn) Unkept s msgs →
        outputs readOn s msgs = outputs serve entries msgs := by
  obtain ⟨h, hu⟩ := hs ▸ unique_calls config calls
  obtain ⟨hnodup, hmem⟩ := visible_spec h hu hd
  have hleaves : Leaves client handle s (s.visible f.path) :=
    ⟨hvolume, ⟨f, hopen, hf.1, hf.2.1, hfew _ hnodup fun e => (hmem e).mp, by rw [hf.2.2]; rfl⟩,
      fun e he => ((hmem e).mp he).fits h hd hnames⟩
  exact ⟨s.visible f.path, hnodup, hmem, fun msgs hasks hnew =>
    outputs_eq_of_lockstep (fun _ _ _ hr hnew hl => hl.read hr hnew) hleaves hasks hnew⟩

/-- The root, opened by a client after a call. -/
def rootOpened (c : SetUp) : FileServer :=
  run call (new {}) [.setUp c, .act (.message
    (requestOf 0x21 ([0x20, 1, OpenFlags.openDir.bit, 1, 0] ++ utf8 root)))]

def rootHandle : OpenFile := ⟨1, 0x21, root, 0, OpenFlags.openDir.bit, true, ['*']⟩

/-- A read of one entry under a number. -/
def readOne (tan : TAN) : Message := requestOf 0x21 [0x22, tan, 1, 1, 0, 0, 0xFF, 0xFF]

theorem asksFor_readOne : ∀ tan ∈ [2, 3], AsksFor 0x21 1 (readOne tan) := by
  refine forall_mem_cons.mpr ⟨?_, forall_mem_singleton.mpr ?_⟩ <;>
    exact ⟨⟨rfl, rfl, by decide, by decide, by decide, by decide⟩, rfl, rfl, rfl, .inl rfl,
      ⟨rfl, rfl⟩, rfl⟩

theorem directory_enumerated_root :
    let s := rootOpened (.addFile ['A'] [7] 0)
    ∃ entries : List FileEntry, entries.Nodup ∧ (∀ e, e ∈ entries ↔ s.Child root e) ∧
      outputs readOn s [readOne 2, readOne 3] = outputs serve entries [readOne 2, readOne 3] := by
  intro s
  have hdirs : s.directories = [root] := by decide +kernel
  obtain ⟨h, hu⟩ := unique_calls {} _
  have hspec := visible_spec h hu (show root ∈ s.directories by decide +kernel)
  obtain ⟨entries, hnodup, hmem, hreads⟩ := directory_enumerated (s := s) rfl (by decide +kernel)
    (show s.findOpen 0x21 1 = some rootHandle by decide +kernel) (by decide +kernel)
    (by decide) (fun name hname _ => by simp [hdirs, rootHandle, root] at hname)
    fun es hes hc => (subperm_of_subset hes fun e he => (hspec.2 e).mpr (hc e he)).length_le.trans
      (by decide +kernel)
  refine ⟨entries, hnodup, hmem, hreads _ ?_ ?_⟩
  · exact forall_mem_map.mpr asksFor_readOne
  · exact ⟨by unfold Unkept; decide +kernel, by unfold Unkept; decide +kernel, trivial⟩

/-- **A directory whose name has 255 bytes** cannot be read past. -/
theorem long_directory_not_listed :
    let name : Text := replicate 255 'A'
    let s := rootOpened (.addDirectory (sep :: name))
    s.findOpen 0x21 1 = some rootHandle ∧ isValidComponent false name = true ∧
      (∃ e, s.Child root e) ∧ AsksFor 0x21 1 (readOne 2) ∧ s.Unkept (readOne 2) ∧
      outputs readOn s [readOne 2] = [[.error FSError.invalidLength.asU8]] :=
  ⟨by decide +kernel, by decide +kernel,
    ⟨_, @Child.directory _ _ (replicate 255 'A') (by decide +kernel) (by decide +kernel)⟩,
    asksFor_readOne 2 (by decide), by unfold Unkept; decide +kernel, by decide +kernel⟩

end Machbus.Fs.FileServer
