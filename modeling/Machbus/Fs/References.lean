import Machbus.Fs.Namespace
/-!
# File server — references

A handle names a file or a directory by its path, and a client stands in
a directory by its path. What they name can be taken away by the request
of another client. Files that are open are protected from that;
directories are not, whether a handle is open on them or a client stands
in them, and that is the only way a reference can come to dangle.
-/

namespace Machbus.Fs.FileServer

open OrderedMap List

/-- **References name what is there.** A client that was never heard from
stands at the root. -/
structure References (s : FileServer) : Prop where
  files : ∀ f ∈ s.openFiles, f.isDirectory = false → f.path ∈ s.files.keys
  directories : ∀ f ∈ s.openFiles, f.isDirectory = true → f.path ∈ s.directories
  current : ∀ a, s.currentDirectory a ∈ s.directories

/-- A handle is open on the directory, or a client stands in it. -/
def Referenced (s : FileServer) (directory : Text) : Prop :=
  (∃ f ∈ s.openFiles, f.isDirectory = true ∧ f.path = directory) ∨
    ∃ a, s.currentDirectory a = directory

/-- **No request deletes a directory that is referred to**, among those
that are not the repetition of an earlier one. -/
def Spares (s : FileServer) : ServerAct → Prop
  | .update _ => True
  | .message msg =>
    ∀ directory, Accepted msg →
      (s.ensureClient msg.source).cachedResponse msg.source (u8At msg.data 1) msg.data = none →
      s.DeletesDirectory msg.source msg.data directory → ¬s.Referenced directory

section Changes

variable {s t : FileServer}

/-- Nothing referred to is lost. -/
theorem References.transfer (h : s.References) (hopen : ∀ f ∈ t.openFiles, ∃ g ∈ s.openFiles,
      f.path = g.path ∧ f.isDirectory = g.isDirectory)
    (hfiles : ∀ f ∈ s.openFiles, f.isDirectory = false → f.path ∈ s.files.keys →
      f.path ∈ t.files.keys) (hdirs : ∀ d, s.Referenced d → d ∈ s.directories → d ∈ t.directories)
    (hcurrent : ∀ a, t.currentDirectory a ∈ t.directories ∨
      t.currentDirectory a = s.currentDirectory a) : t.References := by
  refine ⟨fun f hf hdir => ?_, fun f hf hdir => ?_, fun a => ?_⟩
  · obtain ⟨g, hg, hpath, hkind⟩ := hopen f hf
    rw [hpath]
    exact hfiles g hg (hkind ▸ hdir) (h.files g hg (hkind ▸ hdir))
  · obtain ⟨g, hg, hpath, hkind⟩ := hopen f hf
    rw [hpath]
    exact hdirs _ (.inl ⟨g, hg, hkind ▸ hdir, rfl⟩) (h.directories g hg (hkind ▸ hdir))
  · rcases hcurrent a with ha | ha
    · exact ha
    · rw [ha]
      exact hdirs _ (.inr ⟨a, rfl⟩) (h.current a)

/-- The handles, the files and the directories are as before. -/
theorem References.of_same (h : s.References) (hopen : t.openFiles = s.openFiles)
    (hfiles : t.files = s.files) (hdirs : t.directories = s.directories)
    (hcurrent : ∀ a, t.currentDirectory a = s.currentDirectory a) : t.References := by
  refine h.transfer (fun f hf => ⟨f, hopen ▸ hf, rfl, rfl⟩) (fun f _ _ hf => ?_)
    (fun d _ hd => ?_) fun a => .inr (hcurrent a)
  · rw [hfiles]
    exact hf
  · rw [hdirs]
    exact hd

/-- Nothing is open any more and all clients are at the root. -/
theorem References.wiped (hopen : t.openFiles = []) (hroot : root ∈ t.directories)
    (hcurrent : ∀ a, t.currentDirectory a = root) : t.References := by
  refine ⟨fun f hf => ?_, fun f hf => ?_, fun a => hcurrent a ▸ hroot⟩
  all_goals
    rw [hopen] at hf
    cases hf

theorem currentDirectory_clearMediaDependentClientState (s : FileServer) (a : Address) :
    s.clearMediaDependentClientState.currentDirectory a = root := by
  rw [currentDirectory, get_clearMediaDependentClientState]
  cases s.clients.get a <;> rfl

theorem References.ensureClient (h : s.References) (a : Address) :
    (s.ensureClient a).References := by
  refine h.of_same (openFiles_ensureClient s a) ?_ ?_ (ensureClient_currentDirectory s a)
  all_goals rw [ensureClient_eq]

/-- A client goes to a directory that is there. -/
theorem References.setCurrentDirectory (h : s.References) {a : Address} {f : Text → Text}
    (htarget : f (s.currentDirectory a) ∈ s.directories) :
    (s.setCurrentDirectory a f).References := by
  have hdirs : (s.setCurrentDirectory a f).directories = s.directories := by
    rw [FileServer.setCurrentDirectory, modifyClient, ensureClient_eq]
  refine h.transfer (fun g hg => ⟨g, openFiles_ensureClient s a ▸ hg, rfl, rfl⟩)
    (fun g _ _ hg => ?_) (fun d _ hd => hdirs ▸ hd) fun b => ?_
  · rw [FileServer.setCurrentDirectory, ensureClient_eq]
    exact hg
  · rw [currentDirectory_setCurrentDirectory, hdirs]
    split
    · exact .inl htarget
    · exact .inr rfl

end Changes

/-! ## Requests -/

section Requests

variable {s t : FileServer} {a : Address} {request : List UInt8}

theorem mem_openFiles_setPosition {handle : FileHandle} {position : ℕ} {f : OpenFile}
    (hf : f ∈ (s.setPosition a handle position).openFiles) :
    ∃ g ∈ s.openFiles, f.path = g.path ∧ f.isDirectory = g.isDirectory := by
  rcases mem_modifyFirst hf with hf | ⟨g, hg, -, rfl⟩
  · exact ⟨f, hf, rfl, rfl⟩
  · exact ⟨g, hg, rfl, rfl⟩

/-- What is opened is there afterwards. -/
theorem Provides.there {path : Text} {flags : UInt8} {isDirectory : Bool} (hstored : s.Stored)
    (hpath : OpenPath isDirectory path) (hp : s.Provides path flags isDirectory t) :
    if isDirectory then path ∈ t.directories else path ∈ t.files.keys := by
  cases hp with
  | directory h =>
    obtain ⟨cs, hcs, rfl, -⟩ := hpath
    exact (hstored.directoryExists_iff hcs (.inr rfl)).mp h
  | newDirectory => exact mem_append_right _ (mem_singleton_self _)
  | file h => exact isSome_get.mp h
  | newFile => exact mem_keys_insert.mpr (.inl rfl)

/-- Making something does not take anything away. -/
theorem References.provides {path : Text} {flags : UInt8} {isDirectory : Bool} (h : s.References)
    (hp : s.Provides path flags isDirectory t) : t.References := by
  cases hp with
  | directory | file => exact h
  | newDirectory =>
    exact h.transfer (fun f hf => ⟨f, hf, rfl, rfl⟩) (fun _ _ _ hf => hf)
      (fun _ _ hd => mem_append_left _ hd) fun _ => .inr rfl
  | newFile =>
    exact h.transfer (fun f hf => ⟨f, hf, rfl, rfl⟩)
      (fun _ _ _ hf => mem_keys_insert.mpr (.inr hf)) (fun _ _ hd => hd)
      fun _ => .inr rfl

theorem References.pushOpen {f : OpenFile} (h : s.References)
    (hf : if f.isDirectory then f.path ∈ s.directories else f.path ∈ s.files.keys) :
    (s.pushOpen f).References := by
  refine ⟨forall_mem_append.mpr ⟨h.files, forall_mem_singleton.mpr fun hdir => ?_⟩,
    forall_mem_append.mpr ⟨h.directories, forall_mem_singleton.mpr fun hdir => ?_⟩, fun b => ?_⟩
  · rw [hdir] at hf
    exact hf
  · rw [hdir] at hf
    exact hf
  · have hb : (s.pushOpen f).currentDirectory b = s.currentDirectory b :=
      currentDirectory_modifyClient { s with openFiles := _ } _ _ fun _ => rfl
    rw [hb]
    exact h.current b

/-- The directory above an existing one exists. -/
theorem parentOfCurrent_mem (htree : s.Tree) {cwd : Text} (hcwd : DirectoryPath cwd)
    (hmem : cwd ∈ s.directories) : parentOfCurrent cwd ∈ s.directories := by
  obtain ⟨cs, hcs, rfl, -⟩ := hcwd
  rcases eq_nil_or_concat' cs with rfl | ⟨ds, d, rfl⟩
  · exact htree.root
  · have hparent := htree.directoryParent _ hmem fun he =>
      ne_root_of_names (by simp) hcs (.inr rfl) (.inl he)
    rw [fileParentDirectoryPath_directoryPath hcs] at hparent
    rw [parentOfCurrent_directoryPath hcs]
    exact hparent

/-- **A request keeps references alive** unless it deletes a directory
that is referred to. -/
theorem References.effect (h : s.References) (htree : s.Tree) (hstored : s.Stored)
    (hstand : s.Standing) (he : Effect a request s t)
    (hspares : ∀ d, s.DeletesDirectory a request d → ¬s.Referenced d) : t.References := by
  cases he with
  | nothing => exact h
  | @opened u _ _ _ _ _ _ _ _ hpath _ hprovided =>
    have hu : ∀ next, { u with nextHandle := next }.References := fun _ =>
      (h.provides hprovided).of_same rfl rfl rfl fun _ => rfl
    have hthere := hprovided.there hstored hpath
    exact openHandle_induction (P := References) (hu _) fun _ => (hu _).pushOpen hthere
  | closed =>
    exact h.transfer (fun f hf => ⟨f, mem_of_mem_eraseP hf, rfl, rfl⟩) (fun _ _ _ hf => hf)
      (fun _ _ hd => hd) fun b => .inr (currentDirectory_modifyClient _ _ _ fun _ => rfl)
  | sought =>
    exact h.transfer (fun _ hf => mem_openFiles_setPosition hf) (fun _ _ _ hf => hf)
      (fun _ _ hd => hd) fun _ => .inr rfl
  | @wrote handle f data bytes dateTimes _ hdata =>
    refine h.transfer (fun _ hf => mem_openFiles_setPosition (s := { s with files := _ }) hf)
      (fun g _ _ hg => ?_) (fun _ _ hd => hd) fun _ => .inr rfl
    exact mem_keys_insert.mpr (.inr hg)
  | wentUp => exact h.setCurrentDirectory (parentOfCurrent_mem htree (hstand a) (h.current a))
  | wentTo htarget =>
    refine h.setCurrentDirectory ?_
    rcases htarget with rfl | ⟨-, hmem⟩
    · exact htree.root
    · exact hmem
  | movedFile _ hopen =>
    refine h.transfer (fun f hf => ⟨f, hf, rfl, rfl⟩) (fun f hf _ hfile => ?_)
      (fun _ _ hd => hd) fun _ => .inr rfl
    rw [mem_keys_insert, mem_keys_remove]
    exact .inr ⟨ne_of_isPathOpen hopen hf, hfile⟩
  | deletedDirectory hd =>
    -- the directory that goes is not one of those that are referred to
    refine h.transfer (fun f hf => ⟨f, hf, rfl, rfl⟩) (fun _ _ _ hf => hf)
      (fun d href hmem => mem_filter.mpr ⟨hmem, ?_⟩) fun _ => .inr rfl
    rw [bne_iff_ne]
    rintro rfl
    exact hspares _ hd href
  | deletedFile hopen =>
    refine h.transfer (fun f hf => ⟨f, hf, rfl, rfl⟩) (fun f hf _ hfile => ?_)
      (fun _ _ hd => hd) fun _ => .inr rfl
    exact mem_keys_remove.mpr ⟨ne_of_isPathOpen hopen hf, hfile⟩
  | setAttributes | prepared | maintained => exact h.of_same rfl rfl rfl fun _ => rfl
  | initialized _ _ ht =>
    rw [ht]
    exact .wiped rfl (mem_singleton_self _) (currentDirectory_clearMediaDependentClientState _)
  | removed => exact .wiped rfl htree.root (currentDirectory_clearMediaDependentClientState _)

end Requests

/-! ## Steps -/

section Steps

variable {s : FileServer} {d : Text}

/-- Time takes nothing away but with the handles on it. -/
theorem references_keptByTime : KeptByTime fun s => s.Tree ∧ s.References where
  clock _ _ _ _ _ _ h := ⟨h.1.of_same rfl rfl, h.2.of_same rfl rfl rfl fun _ => rfl⟩
  entries s _ hsame h := ⟨h.1.of_same rfl rfl,
    h.2.of_same rfl rfl rfl fun a => currentDirectory_congr s a (hsame a)⟩
  removed s h := ⟨h.1.of_same rfl rfl,
    .wiped rfl h.1.root (currentDirectory_clearMediaDependentClientState _)⟩
  pruned s h := by
    refine ⟨h.1.of_same rfl rfl, h.2.transfer (fun f hf => ⟨f, mem_of_mem_filter hf, rfl, rfl⟩)
      (fun _ _ _ hf => hf) (fun _ _ hd => hd) fun a => ?_⟩
    rw [currentDirectory, get_cleanupDisconnectedClients]
    split
    · exact .inl h.1.root
    · exact .inr rfl

/-- An entry for the sender changes nothing about its request. -/
theorem deletesDirectory_ensureClient {a b : Address} {request : List UInt8} :
    (s.ensureClient b).DeletesDirectory a request d ↔ s.DeletesDirectory a request d := by
  constructor
  · rintro ⟨hfunction, hvolume, hsupported, hpath, hroot, hempty⟩
    rw [ensureClient_currentDirectory] at hpath
    rw [ensureClient_eq] at hvolume hsupported hpath hempty
    exact ⟨hfunction, hvolume, hsupported, hpath, hroot, hempty⟩
  · rintro ⟨hfunction, hvolume, hsupported, hpath, hroot, hempty⟩
    refine ⟨hfunction, ?_, ?_, ?_, hroot, ?_⟩
    · rw [ensureClient_eq]
      exact hvolume
    · rw [ensureClient_eq]
      exact hsupported
    · rw [ensureClient_currentDirectory, ensureClient_eq]
      exact hpath
    · rw [ensureClient_eq]
      exact hempty

/-- **A request to delete a directory is met**, whoever refers to it. -/
theorem handleClientMessage_deletesDirectory {msg : Message} (haccepted : Accepted msg)
    (hnew : (s.ensureClient msg.source).cachedResponse msg.source (u8At msg.data 1) msg.data = none)
    (hdelete : s.DeletesDirectory msg.source msg.data d) :
    (s.handleClientMessage msg).1 =
      { s.ensureClient msg.source with
        directories := s.directories.filter (· != d)
        fileDateTimes := s.fileDateTimes.remove d }.cacheResponse msg.source (u8At msg.data 1)
          msg.data (successResponse .deleteFile (u8At msg.data 1)) := by
  obtain ⟨hfunction, hvolume, hsupported, ⟨path, hpath, hdir, rfl⟩, hroot, hempty⟩ :=
    (deletesDirectory_ensureClient (b := msg.source)).mpr hdelete
  have hhandled : (s.ensureClient msg.source).handleDeleteFile msg.source (u8At msg.data 1)
      msg.data = .ok ({ s.ensureClient msg.source with
          directories := (s.ensureClient msg.source).directories.filter
            (· != ensureDirectorySuffix path)
          fileDateTimes := (s.ensureClient msg.source).fileDateTimes.remove
            (ensureDirectorySuffix path) }, successResponse .deleteFile (u8At msg.data 1)) := by
    simp only [handleDeleteFile, require_then_eq_ok, given_then_eq_ok]
    refine ⟨hvolume, hsupported, path, hpath, ?_⟩
    rw [if_pos hdir]
    simp only [require_then_eq_ok]
    exact ⟨hroot, by rw [hempty]; decide, trivial⟩
  have hdirs : (s.ensureClient msg.source).directories = s.directories := by rw [ensureClient_eq]
  have hdates : (s.ensureClient msg.source).fileDateTimes = s.fileDateTimes := by
    rw [ensureClient_eq]
  rw [hdirs, hdates] at hhandled
  rw [handleClientMessage_of_ok haccepted hnew hfunction (by decide) hhandled]

theorem currentDirectory_cacheResponse (s : FileServer) (a : Address) (tan : TAN)
    (request response : List UInt8) (b : Address) :
    (s.cacheResponse a tan request response).currentDirectory b = s.currentDirectory b :=
  currentDirectory_modifyClient s a b fun _ => rfl

/-- **A step keeps references alive just when it spares what is referred
to.** -/
theorem references_step_iff (hstand : s.Standing) (hstored : s.Stored) (htree : s.Tree)
    (h : s.References) (act : ServerAct) : (s.step act).References ↔ s.Spares act := by
  cases act with
  | update elapsedMs => exact ⟨fun _ => trivial,
    fun _ => (references_keptByTime.update ⟨htree, h⟩ _).2⟩
  | message msg =>
    constructor
    · intro href d haccepted hnew hdelete hreferenced
      change (s.handleClientMessage msg).1.References at href
      rw [handleClientMessage_deletesDirectory haccepted hnew hdelete] at href
      have hgone : d ∉ s.directories.filter (· != d) := by simp
      rcases hreferenced with ⟨f, hf, hdir, rfl⟩ | ⟨a, rfl⟩
      · exact hgone (href.directories f (openFiles_ensureClient s msg.source ▸ hf) hdir)
      · have hcurrent := href.current a
        rw [currentDirectory_cacheResponse] at hcurrent
        exact hgone (ensureClient_currentDirectory s msg.source a ▸ hcurrent)
    · intro hspares
      have hensured := h.ensureClient msg.source
      have hreceived := handleClientMessage_received (hstand.slash_notMem msg.source)
      change (s.handleClientMessage msg).1.References
      generalize (s.handleClientMessage msg).1 = t at hreceived ⊢
      cases hreceived with
      | ignored => exact h
      | maintained =>
        exact hensured.of_same rfl rfl rfl fun a => currentDirectory_modifyClient _ _ a fun _ => rfl
      | repeated => exact hensured
      | executed haccepted hnew he =>
        have heffect := hensured.effect (htree.ensureClient _) (hstored.ensureClient _)
          (hstand.ensureClient _) he fun d hd hreferenced =>
            hspares d haccepted hnew (deletesDirectory_ensureClient.mp hd)
              (by simpa [Referenced, openFiles_ensureClient, ensureClient_currentDirectory]
                using hreferenced)
        exact heffect.of_same rfl rfl rfl (currentDirectory_cacheResponse _ _ _ _ _)

/-- **When references never dangle.** From any server an application can
have whose files and directories form a tree, references name what is
there in every state of a run just when they do so at the start and no
request in the run deletes a directory on which a handle is open or in
which a client stands. -/
theorem references_never_dangle_iff (config : FileServerConfig) (calls : List Call)
    (htree : (run call (new config) calls).Tree) (acts : List ServerAct) :
    (∀ pre, pre <+: acts → (run step (run call (new config) calls) pre).References) ↔
      (run call (new config) calls).References ∧
        Along step Spares (run call (new config) calls) acts := by
  have hstand := standing_calls config calls
  have hstored := stored_calls config calls
  generalize run call (new config) calls = s at htree hstand hstored ⊢
  -- what the step lemma needs besides the references holds in every run
  have hkept : ∀ pre, (run step s pre).Standing ∧ (run step s pre).Stored ∧ (run step s pre).Tree :=
    fun pre => tree_preserved.run hstand ⟨hstored, htree⟩ pre
  have hiff : s.References → ((∀ pre, pre <+: acts → (run step s pre).Standing ∧
      ((run step s pre).Stored ∧ (run step s pre).Tree) ∧ (run step s pre).References) ↔
        Along step Spares s acts) := fun href =>
    always_iff_along (I := fun s : FileServer => s.Standing ∧ (s.Stored ∧ s.Tree) ∧ s.References)
      ⟨hstand, ⟨hstored, htree⟩, href⟩ (fun t act ht => by
        obtain ⟨hstand, hst, href⟩ := ht
        rw [← references_step_iff hstand hst.1 hst.2 href]
        exact ⟨fun h => h.2.2, fun h =>
          ⟨standing_preserved.step hstand hstand act, tree_preserved.step hstand hst act, h⟩⟩) acts
  constructor
  · intro h
    have href : s.References := h [] nil_prefix
    exact ⟨href, (hiff href).mp fun pre hpre => ⟨(hkept pre).1, (hkept pre).2, h pre hpre⟩⟩
  · rintro ⟨href, halong⟩ pre hpre
    exact ((hiff href).mpr halong pre hpre).2.2

/-- One empty directory. -/
def emptyDirectory : FileServer := run call (new {}) [.setUp (.addDirectory "\\D".toList)]

theorem emptyDirectory_tree : emptyDirectory.Tree :=
  ⟨by decide +kernel, by decide +kernel, by decide +kernel, by decide +kernel, by decide +kernel⟩

/-- A client goes to the directory, opens it and lets time pass. -/
def visit : List ServerAct :=
  [.message (requestOf 0x21 ([0x11, 0, 2, 0] ++ utf8 "\\D".toList)),
   .message (requestOf 0x21 ([0x20, 1, 0x03, 2, 0] ++ utf8 "\\D".toList)), .update 1000]

theorem references_never_dangle_visit :
    emptyDirectory.Tree ∧ ∀ pre, pre <+: visit → (run step emptyDirectory pre).References :=
  ⟨emptyDirectory_tree, (references_never_dangle_iff {} [.setUp (.addDirectory "\\D".toList)]
    emptyDirectory_tree visit).mpr
    ⟨⟨nofun, nofun, fun _ => emptyDirectory_tree.root⟩,
     fun _ _ _ h => absurd h.function (by decide), fun _ _ _ h => absurd h.function (by decide),
     trivial, trivial⟩⟩

/-- **References dangle.** One client goes to a directory and opens it;
another deletes it. -/
theorem references_dangle :
    let s := run step emptyDirectory
      (visit ++ [.message (requestOf 0x22 ([0x31, 0, 2, 0] ++ utf8 "\\D".toList))])
    emptyDirectory.Tree ∧
      (∃ f ∈ s.openFiles, f.isDirectory = true ∧ f.path ∉ s.directories) ∧
      s.currentDirectory 0x21 ∉ s.directories :=
  ⟨emptyDirectory_tree, by decide +kernel, by decide +kernel⟩

end Steps

end Machbus.Fs.FileServer
