import Machbus.Fs.Helpers.Invariant
/-!
# File server — the namespace is a tree

Files and directories are kept as two flat collections of paths. What
makes them a tree is that every path has the directory it is in beside
it; requests make and take paths one at a time and look at strings to do
so. On paths in normal form the strings tell the truth: the parent of a
path is the path without its last name, and a directory that is a prefix
of no other path has nothing in it.
-/

namespace Machbus.Fs

open OrderedMap

/-! ## Where a path leads

The server takes slashes, dots and outer separators out of a path in several
steps, and completes it with the directory the client stands in. All of it
amounts to one walk over the components, which `..` cannot take above the
root, and a path that came out of it is left alone from then on. -/

/-- **A path is normalized to where it leads**, and to nothing else when it
is normalized again, in whichever directory. -/
theorem normalizeIsoPath_resolves {p cwd q : Text} {allowRoot w : Bool} (hcwd : '/' ∉ cwd)
    (h : normalizeIsoPath p cwd allowRoot w = .ok q) :
    q = sep :: [sep].intercalate (walk cwd (replaceSlashes p)) ∧
      ∀ cwd', normalizeIsoPath q cwd' allowRoot w = .ok q := by
  obtain ⟨cs, hwalk, ⟨rfl, rfl, rfl⟩ | ⟨hne, hcs, rfl⟩⟩ := normalizeIsoPath_walk hcwd h
  · rw [hwalk]
    exact ⟨rfl, fun cwd' => rfl⟩
  · rw [hwalk, cons_intercalate hne]
    exact ⟨rfl, fun cwd' => normalizeIsoPath_of_names hne hcs (.inl rfl)⟩

/-- Two directories up from one, and down again. -/
theorem normalizeIsoPath_resolves_above :
    "\\B".toList = sep :: [sep].intercalate (walk "\\A\\".toList "..\\..\\B".toList) ∧
      ∀ cwd', normalizeIsoPath "\\B".toList cwd' false false = .ok "\\B".toList :=
  normalizeIsoPath_resolves (p := "../../B".toList) (by decide) (by decide +kernel)

/-! ## The collections -/

namespace FileServer

open List

variable {path : Text}

/-- **The stored paths are in normal form**, and attributes are kept for
the files and nothing else. -/
structure Stored (s : FileServer) : Prop where
  files : ∀ p ∈ s.files.keys, FilePath p
  directories : ∀ d ∈ s.directories, DirectoryPath d
  attributes : ∀ p, p ∈ s.fileAttrs.keys ↔ p ∈ s.files.keys

/-- **The namespace is a tree.** -/
structure Tree (s : FileServer) : Prop where
  fileParent : ∀ p ∈ s.files.keys, fileParentDirectoryPath p ∈ s.directories
  directoryParent : ∀ d ∈ s.directories, d ≠ root → fileParentDirectoryPath d ∈ s.directories
  disjoint : ∀ p ∈ s.files.keys, ensureDirectorySuffix p ∉ s.directories
  unique : s.directories.Nodup
  root : root ∈ s.directories

/-! ## Looking a path up -/

section Lookup

variable {s : FileServer} {p : Text} {cs : List Text}

/-- **A lookup of a directory normalizes once more, to no effect.** -/
theorem Stored.directoryExists_iff (h : s.Stored) (hcs : ∀ c ∈ cs, Name c)
    (hp : p = rooted sep cs ∧ cs ≠ [] ∨ p = directoryPath cs) :
    s.directoryExists p = true ↔ directoryPath cs ∈ s.directories := by
  rw [directoryExists, normalizeDirectoryPath_of_names hcs hp]
  by_cases hlong : fsWireStringMaxLen < (utf8 (directoryPath cs)).length
  · rw [if_pos hlong]
    refine ⟨nofun, fun hmem => ?_⟩
    obtain ⟨ds, -, -, hshort⟩ := h.directories _ hmem
    omega
  · rw [if_neg hlong]
    simp

theorem Stored.notMem_directories (h : s.Stored) (hp : DirectoryPath p)
    (hnew : s.directoryExists p = false) : p ∉ s.directories := fun hmem => by
  obtain ⟨cs, hcs, rfl, -⟩ := hp
  rw [(h.directoryExists_iff hcs (.inr rfl)).mpr hmem] at hnew
  cases hnew

theorem isFilePathDirectory_iff (hne : cs ≠ []) (hcs : ∀ c ∈ cs, Name c) :
    s.isFilePathDirectory (rooted sep cs) = true ↔ directoryPath cs ∈ s.directories := by
  have hroot : rooted sep cs ≠ root := fun he => ne_root_of_names hne hcs (.inl rfl) (.inl he)
  rw [isFilePathDirectory, if_neg hroot, ensureDirectorySuffix_rooted hne hcs]
  simp

theorem fileExistsAtDirectoryPath_iff (hne : cs ≠ []) (hcs : ∀ c ∈ cs, Name c) :
    s.fileExistsAtDirectoryPath (directoryPath cs) = true ↔ rooted sep cs ∈ s.files.keys := by
  have hroot : directoryPath cs ≠ root := fun he => ne_root_of_names hne hcs (.inr rfl) (.inl he)
  rw [fileExistsAtDirectoryPath, if_neg hroot, trimEnd_directoryPath hcs, isSome_get]

end Lookup

/-! ## Changes of the collections -/

section Changes

variable {s t : FileServer}

/-- The collections are not touched. -/
theorem Stored.of_same (h : s.Stored) (hfiles : t.files.keys = s.files.keys)
    (hattrs : t.fileAttrs.keys = s.fileAttrs.keys) (hdirs : t.directories = s.directories) :
    t.Stored :=
  ⟨hfiles ▸ h.files, hdirs ▸ h.directories, hfiles ▸ hattrs ▸ h.attributes⟩

/-- Every file was there, or is in a directory that exists and where no
directory is. -/
theorem Tree.files (h : s.Tree) (hdirs : t.directories = s.directories)
    (hfiles : ∀ p ∈ t.files.keys, p ∈ s.files.keys ∨
      fileParentDirectoryPath p ∈ s.directories ∧ ensureDirectorySuffix p ∉ s.directories) :
    t.Tree := by
  refine ⟨fun p hp => ?_, hdirs ▸ h.directoryParent, fun p hp => ?_, hdirs ▸ h.unique,
    hdirs ▸ h.root⟩
  · rw [hdirs]
    exact (hfiles p hp).elim (h.fileParent p) And.left
  · rw [hdirs]
    exact (hfiles p hp).elim (h.disjoint p) And.right

theorem Tree.of_same (h : s.Tree) (hfiles : t.files = s.files)
    (hdirs : t.directories = s.directories) : t.Tree :=
  h.files hdirs fun _ hp => .inl (hfiles ▸ hp)

theorem Stored.ensureClient (h : s.Stored) (a : Address) : (s.ensureClient a).Stored := by
  rw [ensureClient_eq]
  exact h.of_same rfl rfl rfl

theorem Stored.dropFile (h : s.Stored) (path : Text) : (s.dropFile path).Stored := by
  refine ⟨fun p hp => h.files p (mem_keys_remove.mp hp).2, h.directories, fun p => ?_⟩
  rw [FileServer.dropFile, mem_keys_remove, mem_keys_remove, h.attributes p]

theorem Tree.ensureClient (h : s.Tree) (a : Address) : (s.ensureClient a).Tree := by
  rw [ensureClient_eq]
  exact h.of_same rfl rfl

/-- **A file is added.** -/
theorem Tree.addFile (h : s.Tree) (hstored : s.Stored) (hpath : FilePath path)
    (hfiles : ∀ p ∈ t.files.keys, p = path ∨ p ∈ s.files.keys)
    (hdirs : t.directories = s.directories)
    (hparent : s.directoryExists (fileParentDirectoryPath path) = true)
    (hdir : s.isFilePathDirectory path = false ∨ s.directoryExists path = false) : t.Tree := by
  obtain ⟨cs, hne, hcs, rfl⟩ := hpath
  obtain ⟨ds, d, rfl⟩ := (eq_nil_or_concat' cs).resolve_left hne
  have hds : ∀ c ∈ ds, Name c := fun c hc => hcs c (mem_append_left _ hc)
  rw [fileParentDirectoryPath_rooted hcs, hstored.directoryExists_iff hds (.inr rfl)] at hparent
  rw [← Bool.not_eq_true, ← Bool.not_eq_true, isFilePathDirectory_iff hne hcs,
    hstored.directoryExists_iff hcs (.inl ⟨rfl, hne⟩), or_self] at hdir
  refine h.files hdirs fun p hp => ?_
  rcases hfiles p hp with rfl | hp
  · rw [fileParentDirectoryPath_rooted hcs, ensureDirectorySuffix_rooted hne hcs]
    exact .inr ⟨hparent, hdir⟩
  · exact .inl hp

/-- **A directory is added**, in a directory that exists and where no file
is. -/
theorem Tree.addDirectory (h : s.Tree) (hfiles : t.files = s.files)
    (hdirs : t.directories = s.directories ++ [path]) (hnew : path ∉ s.directories)
    (hparent : fileParentDirectoryPath path ∈ s.directories)
    (hfile : ∀ p ∈ s.files.keys, ensureDirectorySuffix p ≠ path) : t.Tree := by
  have hgrow : ∀ d ∈ s.directories, d ∈ t.directories := by
    intro d hd
    rw [hdirs]
    exact mem_append_left _ hd
  refine ⟨fun p hp => ?_, fun d hd hroot => ?_, fun p hp hmem => ?_, ?_, hgrow _ h.root⟩
  · exact hgrow _ (h.fileParent p (hfiles ▸ hp))
  · rw [hdirs, mem_append, mem_singleton] at hd
    rcases hd with hd | rfl
    · exact hgrow _ (h.directoryParent d hd hroot)
    · exact hgrow _ hparent
  · rw [hdirs, mem_append, mem_singleton] at hmem
    rcases hmem with hmem | hmem
    · exact h.disjoint p (hfiles ▸ hp) hmem
    · exact hfile p (hfiles ▸ hp) hmem
  · rw [hdirs, ← concat_eq_append]
    exact h.unique.concat hnew

/-- **A directory without anything in it goes.** -/
theorem Tree.deleteDirectory (h : s.Tree) {directory : Text} (hfiles : t.files = s.files)
    (hdirs : t.directories = s.directories.filter (· != directory)) (hne : directory ≠ Fs.root)
    (hnofile : ∀ p ∈ s.files.keys, fileParentDirectoryPath p ≠ directory)
    (hnodir : ∀ d ∈ s.directories, d ≠ directory → d ≠ Fs.root →
      fileParentDirectoryPath d ≠ directory) : t.Tree := by
  have hmem : ∀ d, d ∈ t.directories ↔ d ∈ s.directories ∧ d ≠ directory := by
    rw [hdirs]
    simp
  refine ⟨fun p hp => ?_, fun d hd hroot => ?_, fun p hp hd => ?_, ?_, ?_⟩
  · exact (hmem _).mpr ⟨h.fileParent p (hfiles ▸ hp), hnofile p (hfiles ▸ hp)⟩
  · obtain ⟨hd, hdne⟩ := (hmem d).mp hd
    exact (hmem _).mpr ⟨h.directoryParent d hd hroot, hnodir d hd hdne hroot⟩
  · exact h.disjoint p (hfiles ▸ hp) ((hmem _).mp hd).1
  · rw [hdirs]
    exact h.unique.filter _
  · exact (hmem _).mpr ⟨h.root, Ne.symm hne⟩

end Changes

/-! ## Requests -/

section Requests

variable {s t : FileServer} {request : List UInt8}

/-- What is opened leaves the stored paths in normal form. -/
theorem Stored.provides (h : s.Stored) {flags : UInt8} {isDirectory : Bool}
    (hpath : OpenPath isDirectory path) (hp : s.Provides path flags isDirectory t) : t.Stored := by
  cases hp with
  | directory | file => exact h
  | newDirectory =>
    exact ⟨h.files, forall_mem_append.mpr ⟨h.directories, forall_mem_singleton.mpr hpath⟩,
      h.attributes⟩
  | newFile =>
    refine ⟨fun p hp => ?_, h.directories, fun p => ?_⟩
    · rcases mem_keys_insert.mp hp with rfl | hp
      · exact hpath
      · exact h.files p hp
    · rw [mem_keys_insert, mem_keys_insert, h.attributes p]

theorem Tree.provides (htree : s.Tree) (h : s.Stored) {flags : UInt8}
    {isDirectory : Bool} (hpath : OpenPath isDirectory path)
    (hp : s.Provides path flags isDirectory t) : t.Tree := by
  cases hp with
  | directory | file => exact htree
  | newDirectory hnew hfile hparent =>
    have habsent := h.notMem_directories hpath hnew
    obtain ⟨cs, hcs, rfl, -⟩ := hpath
    obtain rfl | ⟨ds, d, rfl⟩ := eq_nil_or_concat' cs
    · exact absurd htree.root habsent
    · have hds : ∀ c ∈ ds, Name c := fun c hc => hcs c (mem_append_left _ hc)
      rw [fileParentDirectoryPath_directoryPath hcs, h.directoryExists_iff hds (.inr rfl)]
        at hparent
      refine htree.addDirectory rfl rfl habsent ?_ fun p hp he => ?_
      · rw [fileParentDirectoryPath_directoryPath hcs]
        exact hparent
      · obtain ⟨es, hne, hes, rfl⟩ := h.files p hp
        rw [ensureDirectorySuffix_rooted hne hes] at he
        have := directoryPath_inj hes hcs he
        subst this
        rw [(fileExistsAtDirectoryPath_iff (by simp) hcs).mpr hp] at hfile
        cases hfile
  | newFile _ hdir hparent =>
    exact htree.addFile h hpath (fun p hp => mem_keys_insert.mp hp) rfl hparent (.inl hdir)

/-- **What is in a directory starts with its path.** -/
theorem parent_isPrefixOf {cs : List Text} {p : Text} (hne : cs ≠ []) (hcs : ∀ c ∈ cs, Name c)
    (hp : p = rooted sep cs ∨ p = directoryPath cs) :
    (fileParentDirectoryPath p).isPrefixOf p = true := by
  obtain ⟨ds, d, rfl⟩ := (eq_nil_or_concat' cs).resolve_left hne
  rw [ isPrefixOf_iff_prefix]
  rcases hp with rfl | rfl
  · rw [fileParentDirectoryPath_rooted hcs, directoryPath]
    exact ⟨d, by simp⟩
  · rw [fileParentDirectoryPath_directoryPath hcs, directoryPath, directoryPath]
    exact ⟨d ++ [sep], by simp⟩

theorem Tree.deletedDirectory (htree : s.Tree) (h : s.Stored) {directory : Text}
    (hroot : directory ≠ Fs.root) (hempty : s.directoryNonEmpty directory = false) :
    { s with
      directories := s.directories.filter (· != directory)
      fileDateTimes := s.fileDateTimes.remove directory }.Tree := by
  rw [directoryNonEmpty, Bool.or_eq_false_iff, any_eq_false, any_eq_false] at hempty
  refine htree.deleteDirectory rfl rfl hroot (fun p hp he => ?_) fun d hd hne hdroot he => ?_
  · obtain ⟨cs, hcne, hcs, rfl⟩ := h.files p hp
    exact hempty.1 _ hp (he ▸ parent_isPrefixOf hcne hcs (.inl rfl))
  · obtain ⟨cs, hcs, rfl, -⟩ := h.directories d hd
    have hcne : cs ≠ [] := by
      rintro rfl
      exact hdroot rfl
    have hprefix := parent_isPrefixOf hcne hcs (.inr rfl)
    rw [he] at hprefix
    exact hempty.2 _ hd (by simp [hne, hprefix])

/-- Writing to a file that is there. -/
theorem keys_overwrite {data : List UInt8} (hdata : s.files.get path = some data)
    (new : List UInt8) (p : Text) : p ∈ (s.files.insert path new).keys ↔ p ∈ s.files.keys := by
  rw [mem_keys_insert, or_iff_right_of_imp]
  rintro rfl
  exact isSome_get.mp (by rw [hdata]; rfl)

theorem Stored.effect (h : s.Stored) {a : Address} (he : Effect a request s t) : t.Stored := by
  cases he with
  | nothing => exact h
  | opened _ _ hpath _ hprovided =>
    have hu := h.provides hpath hprovided
    exact openHandle_induction (P := Stored) (hu.of_same rfl rfl rfl)
      fun _ => hu.of_same rfl rfl rfl
  | closed | sought | prepared | maintained | removed => exact h.of_same rfl rfl rfl
  | @wrote handle f data bytes dateTimes _ hdata =>
    have hkeys := keys_overwrite hdata (writeAt data f.position bytes)
    exact ⟨fun p hp => h.files p ((hkeys p).mp hp), h.directories,
      fun p => (h.attributes p).trans (hkeys p).symm⟩
  | wentUp | wentTo => exact (h.ensureClient a).of_same rfl rfl rfl
  | @movedFile source dest data attrs dateTimes hdest =>
    refine ⟨fun p hp => ?_, h.directories, fun p => ?_⟩
    · rw [mem_keys_insert, mem_keys_remove] at hp
      rcases hp with rfl | ⟨-, hp⟩
      · exact hdest
      · exact h.files p hp
    · rw [mem_keys_insert, mem_keys_insert, mem_keys_remove, mem_keys_remove, h.attributes p]
  | deletedDirectory =>
    exact ⟨h.files, fun d hd => h.directories d (mem_of_mem_filter hd), h.attributes⟩
  | @deletedFile path => exact h.dropFile path
  | @setAttributes path attrs hfile =>
    refine ⟨h.files, h.directories, fun p => ?_⟩
    rw [mem_keys_insert, h.attributes p, or_iff_right_of_imp]
    rintro rfl
    exact isSome_get.mp hfile
  | initialized _ _ ht =>
    rw [ht]
    exact ⟨nofun, fun d hd => mem_singleton.mp hd ▸ directoryPath_root, fun _ => Iff.rfl⟩

theorem Tree.effect (htree : s.Tree) (h : s.Stored) {a : Address}
    (he : Effect a request s t) : t.Tree := by
  cases he with
  | nothing => exact htree
  | opened _ _ hpath _ hprovided =>
    have hu := htree.provides h hpath hprovided
    exact openHandle_induction (P := Tree) (hu.of_same rfl rfl) fun _ => hu.of_same rfl rfl
  | closed | sought | setAttributes | prepared | maintained | removed =>
    exact htree.of_same rfl rfl
  | wrote _ hdata => exact htree.files rfl fun p hp => .inl ((keys_overwrite hdata _ p).mp hp)
  | wentUp | wentTo => exact (htree.ensureClient a).of_same rfl rfl
  | movedFile hdest _ _ hdir hparent =>
    refine htree.addFile h hdest (fun p hp => ?_) rfl hparent (.inr hdir)
    rw [mem_keys_insert, mem_keys_remove] at hp
    exact hp.imp_right And.right
  | deletedDirectory hd => exact htree.deletedDirectory h hd.notRoot hd.empty
  | deletedFile => exact htree.files rfl fun p hp => .inl (mem_keys_remove.mp hp).2
  | initialized _ _ ht =>
    rw [ht]
    exact ⟨nofun, fun d hd hne => absurd (mem_singleton.mp hd) hne, nofun,
      nodup_singleton _, mem_singleton_self _⟩

end Requests

/-! ## Runs -/

section Runs

variable {s : FileServer}

/-- **Stored paths stay in normal form.** -/
theorem stored_preserved : Preserved Stored where
  ensured _ a h := h.ensureClient a
  effect _ _ _ _ _ _ h he := h.effect he
  clock _ _ _ _ _ _ h := h.of_same rfl rfl rfl
  entries _ _ _ h := h.of_same rfl rfl rfl
  removed _ h := h.of_same rfl rfl rfl
  pruned _ h := h.of_same rfl rfl rfl

theorem tree_keptByTime : KeptByTime Tree where
  clock _ _ _ _ _ _ h := h.of_same rfl rfl
  entries _ _ _ h := h.of_same rfl rfl
  removed _ h := h.of_same rfl rfl
  pruned _ h := h.of_same rfl rfl

/-- **A tree stays a tree**, on stored paths in normal form. -/
theorem tree_preserved : Preserved fun s => s.Stored ∧ s.Tree :=
  stored_preserved.and tree_keptByTime (fun _ a h => h.ensureClient a)
    fun _ _ _ _ hstored h he => h.effect hstored he

/-- Set-up may leave a path without its directory, never a path out of
normal form. -/
theorem Stored.setUp (h : s.Stored) : ∀ call, (s.setUp call).Stored := by
  refine setUp_induction (fun _ _ _ _ _ _ => h.of_same rfl rfl rfl) (fun p data attrs _ hp => ?_)
    h.dropFile fun p _ hp => ⟨h.files, ?_, h.attributes⟩
  · refine ⟨fun q hq => ?_, h.directories, fun q => ?_⟩
    · rcases mem_keys_insert.mp hq with rfl | hq
      · exact hp
      · exact h.files q hq
    · change q ∈ (s.fileAttrs.insert p attrs).keys ↔ q ∈ (s.files.insert p data).keys
      rw [mem_keys_insert, mem_keys_insert, h.attributes q]
  · change ∀ d ∈ (if s.directories.contains p then s.directories else s.directories ++ [p]), _
    split
    · exact h.directories
    · exact forall_mem_append.mpr ⟨h.directories, forall_mem_singleton.mpr hp⟩

theorem Stored.call (h : s.Stored) (hstand : s.Standing) : ∀ c, (s.call c).Stored :=
  call_induction h.setUp (stored_preserved.step hstand h) (fun _ _ _ => h.of_same rfl rfl rfl)
    (stored_preserved.removed s h)

theorem stored_calls (config : FileServerConfig) (calls : List Call) :
    (run call (new config) calls).Stored := by
  have hnew : (new config).Stored :=
    ⟨nofun, fun d hd => mem_singleton.mp hd ▸ directoryPath_root, fun _ => Iff.rfl⟩
  exact (run_induction (I := fun s : FileServer => s.Standing ∧ s.Stored)
    ⟨standing_new config, hnew⟩ (fun _ c h => ⟨h.1.call c, h.2.call h.1 c⟩) calls).2

/-- **The namespace stays a tree.** From any server an application can
have whose files and directories form a tree, through any messages and
any passing of time: every file and directory is in a directory that
exists, no path is both, directories are unique and the root is there;
every stored path is a sequence of names below the root; and attributes
are kept for exactly the files. -/
theorem namespace_stays_tree (config : FileServerConfig) (calls : List Call)
    (htree : (run call (new config) calls).Tree) (acts : List ServerAct) :
    let s := run step (run call (new config) calls) acts
    s.Tree ∧
    (∀ p ∈ s.files.keys, ∃ cs, cs ≠ [] ∧ p = rooted sep cs ∧ ∀ c ∈ cs,
      c ≠ [] ∧ c ≠ ['.'] ∧ c ≠ ['.', '.'] ∧ sep ∉ c ∧ hasWildcards c = false) ∧
    (∀ d ∈ s.directories, ∃ cs, d = rooted sep cs ++ [sep] ∧ ∀ c ∈ cs,
      c ≠ [] ∧ c ≠ ['.'] ∧ c ≠ ['.', '.'] ∧ sep ∉ c ∧ hasWildcards c = false) ∧
    ∀ p, p ∈ s.fileAttrs.keys ↔ p ∈ s.files.keys := by
  obtain ⟨-, hstored, hfinal⟩ := tree_preserved.run (standing_calls config calls)
    ⟨stored_calls config calls, htree⟩ acts
  refine ⟨hfinal, fun p hp => ?_, fun d hd => ?_, hstored.attributes⟩
  · obtain ⟨cs, hne, hcs, rfl⟩ := hstored.files p hp
    exact ⟨cs, hne, rfl, fun c hc => (hcs c hc).spec⟩
  · obtain ⟨cs, hcs, rfl, -⟩ := hstored.directories d hd
    exact ⟨cs, rfl, fun c hc => (hcs c hc).spec⟩

/-- A directory with one file in it. -/
def oneDirectory : List Call :=
  [.setUp (.addDirectory "\\D".toList), .setUp (.addFile "\\D\\A".toList [1] 0)]

/-- A client makes a second file there. -/
def createSecond : List ServerAct :=
  [.message (requestOf 0x21 ([0x20, 1, 0x06, 4, 0] ++ utf8 "\\D\\B".toList))]

theorem namespace_stays_tree_oneDirectory :
    let s := run step (run call (new {}) oneDirectory) createSecond
    s.Tree ∧ s.files.keys = ["\\D\\A".toList, "\\D\\B".toList] ∧
      ∀ p, p ∈ s.fileAttrs.keys ↔ p ∈ s.files.keys :=
  have h := namespace_stays_tree {} oneDirectory
    ⟨by decide +kernel, by decide +kernel, by decide +kernel, by decide +kernel, by decide +kernel⟩
    createSecond
  ⟨h.1, by decide +kernel, h.2.2.2⟩

end Runs

end FileServer

end Machbus.Fs
