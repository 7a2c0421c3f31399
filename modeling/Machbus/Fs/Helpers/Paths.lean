import Machbus.Fs.Model.Types
/-!
# File server — the normal form of a path

Whatever a client writes, what the server looks up is a list of proper
names: `\A\B` for a file, `\A\B\` for a directory. In that form going to
the parent takes the last name off, and normalizing once more changes
nothing.
-/

namespace Machbus.Fs

open List Except

/-- A name that can stand between two separators. -/
def Name (c : Text) : Prop := isValidComponent false c = true

/-- The path of a file. -/
def FilePath (p : Text) : Prop := ∃ cs, cs ≠ [] ∧ (∀ c ∈ cs, Name c) ∧ p = rooted sep cs

/-- The path of a directory. -/
def directoryPath (cs : List Text) : Text := rooted sep cs ++ [sep]

def DirectoryPath (p : Text) : Prop :=
  ∃ cs, (∀ c ∈ cs, Name c) ∧ p = directoryPath cs ∧ (utf8 p).length ≤ fsWireStringMaxLen

/-! ## Names -/

section Names

variable {w : Bool} {c : Text} {cs : List Text}

section

variable (h : isValidComponent w c = true)
include h

/-- What a component that passed the check is. -/
theorem of_isValidComponent : c ≠ [] ∧ c ≠ ['.'] ∧ c ≠ ['.', '.'] ∧
      ∀ x ∈ c, isReserved x = false ∧ x ≠ '/' ∧ x ≠ sep ∧ (w = true ∨ isWildcard x = false) := by
  simp only [isValidComponent, Bool.and_eq_true, Bool.not_eq_true', bne_iff_ne,
    all_eq_true, Bool.or_eq_true, isEmpty_eq_false_iff] at h
  obtain ⟨⟨⟨⟨h0, h1⟩, h2⟩, -⟩, hall⟩ := h
  exact ⟨h0, h1, h2, fun x hx => by
    obtain ⟨⟨⟨ha, hb⟩, hc⟩, hd⟩ := hall x hx
    exact ⟨ha, hb, hc, hd⟩⟩

theorem sep_notMem : sep ∉ c := fun hx => ((of_isValidComponent h).2.2.2 _ hx).2.2.1 rfl

/-- A component without wildcards is a name. -/
theorem name_of_isValidComponent (hw : hasWildcards c = false) : Name c := by
  rw [hasWildcards, any_eq_false] at hw
  rw [Name]
  simp only [isValidComponent, Bool.and_eq_true, all_eq_true, Bool.or_eq_true] at h ⊢
  refine ⟨h.1, fun x hx => ⟨(h.2 x hx).1, .inr ?_⟩⟩
  simpa using hw x hx

end

/-- A name passes with wildcards allowed or not. -/
theorem Name.isValidComponent (h : Name c) : Fs.isValidComponent w c = true := by
  rw [Name] at h
  simp only [Fs.isValidComponent, Bool.and_eq_true, all_eq_true, Bool.or_eq_true] at h ⊢
  exact ⟨h.1, fun x hx => ⟨(h.2 x hx).1, .inr ((h.2 x hx).2.resolve_left Bool.false_ne_true)⟩⟩

theorem Name.sep_notMem (h : Name c) : sep ∉ c := Fs.sep_notMem h

/-- The last character of a file path is no separator. -/
theorem endsWithSeparator_rooted (hne : cs ≠ []) (h : ∀ c ∈ cs, isValidComponent w c = true) :
    endsWithSeparator (rooted sep cs) = false := by
  obtain ⟨ds, d, rfl⟩ := (eq_nil_or_concat' cs).resolve_left hne
  have hd := h d (by simp)
  have hne := (of_isValidComponent hd).1
  rw [endsWithSeparator, getLast?_rooted_concat hne, List.getLast?_eq_getLast_of_ne_nil hne]
  have : d.getLast hne ≠ sep := fun he => Fs.sep_notMem hd (he ▸ getLast_mem hne)
  simpa using this

theorem ensureDirectorySuffix_rooted (hne : cs ≠ []) (h : ∀ c ∈ cs, Name c) :
    ensureDirectorySuffix (rooted sep cs) = directoryPath cs := by
  have hlast := endsWithSeparator_rooted hne h
  have hroot : rooted sep cs ≠ root := by
    intro he
    rw [he] at hlast
    exact absurd hlast (by decide)
  rw [ensureDirectorySuffix, if_pos ⟨hroot, by simp [hlast]⟩, directoryPath]

theorem trimEnd_rooted (h : ∀ c ∈ cs, Name c) : trimEnd (rooted sep cs) = rooted sep cs := by
  rw [trimEnd, rdropWhile_eq_self_iff]
  intro hne
  have hcs : cs ≠ [] := by
    rintro rfl
    exact hne rfl
  have hlast := endsWithSeparator_rooted hcs h
  rw [endsWithSeparator, List.getLast?_eq_getLast_of_ne_nil hne] at hlast
  simpa using hlast

theorem trimEnd_directoryPath (h : ∀ c ∈ cs, Name c) :
    trimEnd (directoryPath cs) = rooted sep cs := by
  rw [directoryPath, trimEnd, rdropWhile_concat_pos _ _ _ (by simp), ← trimEnd, trimEnd_rooted h]

theorem directoryPath_inj {ds : List Text} (hc : ∀ c ∈ cs, Name c) (hd : ∀ d ∈ ds, Name d)
    (h : directoryPath cs = directoryPath ds) : cs = ds :=
  rooted_inj (fun c hx => (hc c hx).sep_notMem) (fun d hx => (hd d hx).sep_notMem)
    (append_cancel_right h)
end Names

/-! ## Where a path leads -/

/-- The names in a path. -/
def components (p : Text) : List Text := (p.splitOn sep).filter (!·.isEmpty)

/-- **Where a path leads**, component by component, from the root or from the
directory that is current. -/
def walk (cwd p : Text) : List Text :=
  (p.splitOn sep).foldl resolveComponent (if isAbsolutePath p then [] else components cwd)

section Walk

variable {p cwd : Text} {cs ds : List Text}

/-- A component is not empty, and has no separator. -/
theorem of_mem_components {c : Text} (h : c ∈ components p) : c ≠ [] ∧ sep ∉ c := by
  obtain ⟨hc, hne⟩ := mem_filter.mp h
  exact ⟨by simpa using hne, (of_mem_splitOn hc).1⟩

theorem components_cons : components (sep :: p) = components p := by
  rw [components, splitOn_cons_eq_if_modifyHead, if_pos (by simp)]
  rfl

theorem components_concat : components (p ++ [sep]) = components p := by
  rw [components, splitOn_append_cons_self]
  simp [components]

/-- Separators around a path do not count. -/
theorem components_trimSeparators : components (trimSeparators p) = components p := by
  have hstart : components (p.dropWhile (· == sep)) = components p := by
    induction p with
    | nil => rfl
    | cons x p ih =>
      rw [dropWhile_cons]
      split
      next hx => rw [ih, beq_iff_eq.mp hx, components_cons]
      · rfl
  rw [← hstart, trimSeparators]
  generalize p.dropWhile (· == sep) = l
  induction l using reverseRecOn with
  | nil => rfl
  | append_singleton l x ih =>
    rw [trimEnd, rdropWhile_concat]
    split
    next hx => rw [← trimEnd, ih, beq_iff_eq.mp hx, components_concat]
    · rfl

theorem components_rooted (h : ∀ c ∈ cs, c ≠ [] ∧ sep ∉ c) : components (rooted sep cs) = cs := by
  rw [components, splitOn_rooted fun c hc => (h c hc).2, filter_cons_of_neg (by simp),
    filter_eq_self]
  intro c hc
  simpa using (h c hc).1

/-- Where a path leads is made of what is in the path and in the directory. -/
theorem forall_mem_walk {P : Text → Prop} (hp : ∀ c ∈ p.splitOn sep, c ≠ [] → P c)
    (hcwd : ∀ c ∈ components cwd, P c) : ∀ c ∈ walk cwd p, P c := by
  have hstart : ∀ c ∈ if isAbsolutePath p then [] else components cwd, P c := by
    split
    · simp
    · exact hcwd
  rw [walk]
  revert hp hstart
  generalize p.splitOn sep = parts, (if isAbsolutePath p then [] else components cwd) = start
  intro hp hstart
  induction parts generalizing start with
  | nil => exact hstart
  | cons d parts ih =>
    rw [forall_mem_cons] at hp
    refine ih _ hp.2 ?_
    rw [resolveComponent]
    split
    · exact hstart
    rename_i hd
    split
    · exact fun c hc => hstart c (dropLast_subset _ hc)
    · exact forall_mem_append.mpr ⟨hstart, forall_mem_singleton.mpr (hp.1 fun he => hd (.inl he))⟩

/-- Without dots, every component is one more name. -/
theorem foldl_resolveComponent (h : ∀ c ∈ cs, c ≠ ['.'] ∧ c ≠ ['.', '.']) :
    cs.foldl resolveComponent ds = ds ++ cs.filter (!·.isEmpty) := by
  induction cs generalizing ds with
  | nil => simp
  | cons c cs ih =>
    rw [forall_mem_cons] at h
    rw [foldl_cons, ih h.2, resolveComponent]
    by_cases hc : c = []
    · simp [hc]
    · simp [hc, h.1]

/-- What taking the dots out makes of a path. -/
theorem resolveDotSegments_cases (p cwd : Text) :
    resolveDotSegments p cwd = p ∧ (∀ c ∈ p.splitOn sep, c ≠ ['.'] ∧ c ≠ ['.', '.']) ∨
      resolveDotSegments p cwd = directoryPath (walk cwd p) ∨
      resolveDotSegments p cwd = rooted sep (walk cwd p) ∧ walk cwd p ≠ [] := by
  rw [resolveDotSegments]
  split
  next hdots =>
    refine .inl ⟨rfl, fun c hc => ?_⟩
    rw [Bool.not_eq_true', any_eq_false] at hdots
    simpa using hdots c hc
  refine .inr ?_
  dsimp only
  rw [← components, ← walk]
  split
  next hnil => exact .inl (by rw [hnil]; rfl)
  rename_i hne
  rw [cons_intercalate hne]
  split
  · exact .inl rfl
  · exact .inr ⟨rfl, hne⟩

/-- **Taking the dots out leads to the same place.** -/
theorem walk_eq : walk cwd p = (if isAbsolutePath (resolveDotSegments p cwd) then []
    else components cwd) ++ components (resolveDotSegments p cwd) := by
  have hcs : ∀ c ∈ walk cwd p, c ≠ [] ∧ sep ∉ c := forall_mem_walk
    (fun c hc hne => ⟨hne, (of_mem_splitOn hc).1⟩) fun c => of_mem_components
  rcases resolveDotSegments_cases p cwd with ⟨h, hdots⟩ | h | ⟨h, hne⟩
  · rw [h, walk, foldl_resolveComponent hdots]
    rfl
  · rw [h, directoryPath, components_concat, components_rooted hcs, if_pos, nil_append]
    cases walk cwd p <;> simp [isAbsolutePath]
  · rw [h, components_rooted hcs, if_pos, nil_append]
    obtain ⟨d, ds, hw⟩ := exists_cons_of_ne_nil hne
    simp [hw, isAbsolutePath]

end Walk

/-! ## Slashes -/

section Slashes

variable {p : Text}

theorem slash_notMem_replaceSlashes : '/' ∉ replaceSlashes p := by
  rw [replaceSlashes, mem_map]
  rintro ⟨c, -, hc⟩
  split at hc
  · exact absurd hc (by decide)
  · exact absurd hc ‹_›

theorem replaceSlashes_of_notMem (h : '/' ∉ p) : replaceSlashes p = p := by
  conv_rhs => rw [← map_id p]
  exact map_congr_left fun c hc => if_neg (by rintro rfl; exact h hc)

/-- What a name is not. -/
theorem Name.spec {c : Text} (h : Name c) :
    c ≠ [] ∧ c ≠ ['.'] ∧ c ≠ ['.', '.'] ∧ sep ∉ c ∧ hasWildcards c = false := by
  obtain ⟨hnil, hdot, hdots, hall⟩ := of_isValidComponent h
  refine ⟨hnil, hdot, hdots, h.sep_notMem, ?_⟩
  rw [hasWildcards, any_eq_false]
  intro x hx
  rw [(hall x hx).2.2.2.resolve_left Bool.false_ne_true]
  exact Bool.false_ne_true

/-- A character of a path in normal form is a separator or from a name. -/
theorem of_mem_path {x : Char} {cs : List Text} (hp : p = rooted sep cs ∨ p = directoryPath cs)
    (hx : x ∈ p) : x = sep ∨ ∃ d ∈ cs, x ∈ d := by
  rcases hp with rfl | rfl
  · exact mem_rooted hx
  · rw [directoryPath, mem_append, mem_singleton] at hx
    exact hx.elim mem_rooted .inl

theorem slash_notMem_path {cs : List Text} (h : ∀ d ∈ cs, '/' ∉ d)
    (hp : p = rooted sep cs ∨ p = directoryPath cs) : '/' ∉ p := by
  intro hx
  rcases of_mem_path hp hx with hx | ⟨d, hd, hx⟩
  · exact absurd hx (by decide)
  · exact h d hd hx

theorem slash_notMem_of_names {w : Bool} {cs : List Text}
    (h : ∀ d ∈ cs, isValidComponent w d = true) (hp : p = rooted sep cs ∨ p = directoryPath cs) :
    '/' ∉ p :=
  slash_notMem_path (fun d hd hx => ((of_isValidComponent (h d hd)).2.2.2 _ hx).2.1 rfl) hp

/-- Resolving puts no slash in. -/
theorem slash_notMem_resolveDotSegments {cwd : Text} (hp : '/' ∉ p) (hcwd : '/' ∉ cwd) :
    '/' ∉ resolveDotSegments p cwd := by
  have hpart : ∀ {q : Text}, '/' ∉ q → ∀ c ∈ q.splitOn sep, '/' ∉ c :=
    fun hq c hc hx => hq ((of_mem_splitOn hc).2 hx)
  have hcs : ∀ c ∈ walk cwd p, '/' ∉ c := forall_mem_walk
    (fun c hc _ => hpart hp c hc) fun c hc => hpart hcwd c (mem_of_mem_filter hc)
  rcases resolveDotSegments_cases p cwd with ⟨h, -⟩ | h | ⟨h, -⟩
  · rwa [h]
  · exact slash_notMem_path hcs (.inr h)
  · exact slash_notMem_path hcs (.inl h)

end Slashes

/-! ## What a path that passed the check is made of -/

section Normalize

variable {p q cwd : Text} {allowRoot w : Bool}

/-- The body of a valid path is a list of components. -/
theorem components_of_isValidFsPath (hslash : '/' ∉ p) (h : isValidFsPath p allowRoot w = true)
    (hroot : ¬(p = root ∨ p = [sep, sep])) (hbody : trimSeparators p ≠ []) :
    components p ≠ [] ∧ (∀ c ∈ components p, isValidComponent w c = true) ∧
      sep :: trimSeparators p = rooted sep (components p) := by
  rw [isValidFsPath] at h
  rw [replaceSlashes_of_notMem hslash] at h
  have hall : ∀ c ∈ (trimSeparators p).splitOn sep, isValidComponent w c = true := by
    split at h
    · cases h
    split at h
    · cases h
    split at h
    · cases h
    · exact all_eq_true.mp h
  have heq : components p = (trimSeparators p).splitOn sep := by
    rw [← components_trimSeparators, components, filter_eq_self]
    intro c hc
    simpa using (of_isValidComponent (hall c hc)).1
  rw [heq, ← cons_intercalate (splitOn_ne_nil _ _), intercalate_splitOn]
  exact ⟨splitOn_ne_nil _ _, hall, rfl⟩

theorem rootIf_eq_ok (h : rootIf allowRoot = .ok q) : q = root ∧ allowRoot = true := by
  rw [rootIf] at h
  split at h
  · exact ⟨(ok.inj h).symm, ‹_›⟩
  · cases h

/-- Between separators there is nothing. -/
theorem components_eq_nil (h : (p = root ∨ p = [sep, sep]) ∨ trimSeparators p = []) :
    components p = [] := by
  rcases h with (rfl | rfl) | h
  · rfl
  · rfl
  · rw [← components_trimSeparators, h]
    rfl

/-- The directory a relative path is resolved against. -/
theorem normalizeDirectoryBase_spec (hp : '/' ∉ p) (h : normalizeDirectoryBase p = .ok q) :
    (∀ c ∈ components p, Name c) ∧ q = directoryPath (components p) := by
  rw [normalizeDirectoryBase, replaceSlashes_of_notMem hp] at h
  split at h
  next hroot =>
    rw [components_eq_nil (.inl hroot), ← ok.inj h]
    exact ⟨by simp, rfl⟩
  rename_i hroot
  split at h
  · cases h
  rename_i hvalid
  rw [not_not] at hvalid
  split at h
  next hbody =>
    rw [components_eq_nil (.inr hbody), ← ok.inj h]
    exact ⟨by simp, rfl⟩
  rename_i hbody
  obtain ⟨-, hcs, heq⟩ := components_of_isValidFsPath hp hvalid hroot hbody
  refine ⟨hcs, ?_⟩
  rw [← ok.inj h, directoryPath, ← heq]

/-- **A normalized path is where the path leads.** -/
theorem normalizeIsoPath_walk (hcwd : '/' ∉ cwd) (h : normalizeIsoPath p cwd allowRoot w = .ok q) :
    ∃ cs, walk cwd (replaceSlashes p) = cs ∧ (cs = [] ∧ q = root ∧ allowRoot = true ∨
      cs ≠ [] ∧ (∀ c ∈ cs, isValidComponent w c = true) ∧ q = rooted sep cs) := by
  refine ⟨_, walk_eq, ?_⟩
  rw [normalizeIsoPath] at h
  have hslash := slash_notMem_resolveDotSegments (slash_notMem_replaceSlashes (p := p)) hcwd
  revert h hslash
  generalize resolveDotSegments (replaceSlashes p) cwd = r
  intro h hslash
  split at h
  · cases h
  rename_i hvalid
  rw [not_not] at hvalid
  -- nothing but separators is the root
  have hnil (hr : (r = root ∨ r = [sep, sep]) ∨ trimSeparators r = []) :
      (if isAbsolutePath r then [] else components cwd) ++ components r = [] := by
    rw [components_eq_nil hr, if_pos, nil_append]
    rcases hr with (rfl | rfl) | hr
    · rfl
    · rfl
    · cases r with
      | nil => cases hvalid
      | cons x t =>
        by_contra hx
        have hx' : (x == sep) = false := by simpa [isAbsolutePath] using hx
        rw [trimSeparators, dropWhile_cons_of_neg (by simp [hx']), trimEnd,
          rdropWhile_eq_nil_iff] at hr
        exact Bool.false_ne_true (hx'.symm.trans (hr x mem_cons_self))
  split at h
  · exact .inl ⟨hnil (.inl ‹_›), rootIf_eq_ok h⟩
  rename_i hroot
  split at h
  · exact .inl ⟨hnil (.inr ‹_›), rootIf_eq_ok h⟩
  rename_i hbody
  obtain ⟨hne, hcs, heq⟩ := components_of_isValidFsPath hslash hvalid hroot hbody
  refine .inr ⟨by simp [hne], ?_⟩
  split at h
  next habsolute =>
    rw [if_pos habsolute, nil_append]
    exact ⟨hcs, (ok.inj h).symm.trans heq⟩
  rename_i hrelative
  rw [if_neg hrelative]
  obtain ⟨base, hbase, h⟩ := bind_eq_ok.mp h
  cases h
  obtain ⟨hds, rfl⟩ := normalizeDirectoryBase_spec hcwd hbase
  constructor
  · exact forall_mem_append.mpr ⟨fun c hc => (hds c hc).isValidComponent, hcs⟩
  rw [rooted_append, ← heq]
  split
  next hb =>
    rw [directoryPath, root, append_eq_singleton_iff] at hb
    simp_all
  · simp [directoryPath]

/-- **A normalized path is the root or a list of components.** -/
theorem normalizeIsoPath_spec (hcwd : '/' ∉ cwd) (h : normalizeIsoPath p cwd allowRoot w = .ok q) :
    (q = root ∧ allowRoot = true) ∨
      ∃ cs, cs ≠ [] ∧ (∀ c ∈ cs, isValidComponent w c = true) ∧ q = rooted sep cs := by
  obtain ⟨cs, -, ⟨-, h⟩ | h⟩ := normalizeIsoPath_walk hcwd h
  · exact .inl h
  · exact .inr ⟨cs, h⟩

theorem notADirectory_eq_ok (h : notADirectory p = .ok q) :
    q = p ∧ endsWithSeparator p = false := by
  rw [notADirectory] at h
  split at h
  · cases h
  next hend =>
    exact ⟨(ok.inj h).symm, by simpa using hend⟩

/-- What names a file is a file path. -/
theorem normalizeClientPath_spec (hcwd : '/' ∉ cwd)
    (h : normalizeClientPath p cwd false = .ok q) : FilePath q := by
  obtain ⟨n, hn, h⟩ := bind_eq_ok.mp h
  obtain ⟨rfl, -⟩ := notADirectory_eq_ok h
  exact (normalizeIsoPath_spec hcwd hn).resolve_left fun h => Bool.false_ne_true h.2

/-- What names a directory is a directory path. -/
theorem normalizeDirectoryPath_spec (hcwd : '/' ∉ cwd)
    (h : normalizeDirectoryPath p cwd = .ok q) : DirectoryPath q := by
  obtain ⟨n, hn, h⟩ := bind_eq_ok.mp h
  dsimp only at h
  split at h
  · cases h
  rename_i hlen
  cases h
  obtain ⟨rfl, -⟩ | ⟨cs, hne, hcs, rfl⟩ := normalizeIsoPath_spec hcwd hn
  · exact ⟨[], by simp, rfl, by decide⟩
  · exact ⟨cs, hcs, ensureDirectorySuffix_rooted hne hcs, Nat.le_of_not_lt hlen⟩

/-- What is listed is a directory. -/
theorem normalizeDirectoryListingRequest_spec {pattern : Text} (hcwd : '/' ∉ cwd)
    (h : normalizeDirectoryListingRequest p cwd = .ok (q, pattern)) : DirectoryPath q := by
  rw [normalizeDirectoryListingRequest] at h
  split at h
  · obtain ⟨d, hd, h⟩ := bind_eq_ok.mp h
    cases h
    exact normalizeDirectoryPath_spec hcwd hd
  obtain ⟨n, hn, h⟩ := bind_eq_ok.mp h
  obtain ⟨rfl, -⟩ | ⟨cs, hne, hcs, rfl⟩ := normalizeIsoPath_spec hcwd hn
  · -- nothing is behind the separator of the root
    cases h
  · obtain ⟨ds, d, rfl⟩ := (eq_nil_or_concat' cs).resolve_left hne
    have hd : sep ∉ d := sep_notMem (hcs d (by simp))
    have hdir : (if rooted sep ds = [] then root else rooted sep ds ++ [sep])
        = directoryPath ds := by
      cases ds with
      | nil => rfl
      | cons d ds => simp [directoryPath]
    rw [rooted_append, show rooted sep [d] = sep :: d by simp, splitLast_append hd] at h
    dsimp only at h
    rw [hdir] at h
    split at h
    · cases h
    rename_i hchecks
    rw [not_or, not_or, not_or] at hchecks
    split at h
    · cases h
    rename_i hlen
    cases h
    refine ⟨ds, fun c hc => ?_, rfl, Nat.le_of_not_lt hlen⟩
    refine name_of_isValidComponent (hcs c (by simp [hc])) ?_
    have hbase : hasWildcards (rooted sep ds) = false := by simpa using hchecks.2.2.2
    rw [hasWildcards, any_eq_false] at hbase ⊢
    exact fun x hx => hbase x (mem_flatMap.mpr ⟨c, hc, mem_cons_of_mem _ hx⟩)

end Normalize

/-! ## A path in normal form -/

section Normal

variable {c : Text} {cs : List Text}

section

variable (h : ∀ d ∈ cs ++ [c], Name d)
include h

/-- One directory up. -/
theorem fileParentDirectoryPath_rooted :
    fileParentDirectoryPath (rooted sep (cs ++ [c])) = directoryPath cs := by
  have hc : Name c := h c (by simp)
  have hslash : '/' ∉ rooted sep (cs ++ [c]) := slash_notMem_of_names h (.inl rfl)
  rw [fileParentDirectoryPath, replaceSlashes_of_notMem hslash, trimEnd_rooted h, rooted_append,
    show rooted sep [c] = sep :: c by simp, splitLast_append hc.sep_notMem]
  cases cs with
  | nil => rfl
  | cons d cs => simp [directoryPath]

theorem fileParentDirectoryPath_directoryPath :
    fileParentDirectoryPath (directoryPath (cs ++ [c])) = directoryPath cs := by
  rw [← fileParentDirectoryPath_rooted h, fileParentDirectoryPath, fileParentDirectoryPath,
    replaceSlashes_of_notMem (slash_notMem_of_names h (.inr rfl)),
    replaceSlashes_of_notMem (slash_notMem_of_names h (.inl rfl)),
    trimEnd_directoryPath h, trimEnd_rooted h]

theorem parentOfCurrent_directoryPath :
    parentOfCurrent (directoryPath (cs ++ [c])) = directoryPath cs := by
  have hc : Name c := h c (by simp)
  have hne : directoryPath (cs ++ [c]) ≠ root := by
    intro he
    have := congrArg List.length he
    simp only [directoryPath, root, rooted_append, rooted_cons, length_append, length_cons] at this
    omega
  rw [parentOfCurrent, if_neg hne, directoryPath, dropLast_concat, rooted_append,
    show rooted sep [c] = sep :: c by simp, splitLast_append hc.sep_notMem]
  rfl

end

/-- What is between the outer separators starts and ends within a name. -/
theorem trimSeparators_of_names (hne : cs ≠ []) (h : ∀ d ∈ cs, isValidComponent w d = true) :
    trimSeparators (rooted sep cs) = [sep].intercalate cs ∧
      trimSeparators (directoryPath cs) = [sep].intercalate cs := by
  have hbody := cons_intercalate (a := sep) hne
  have hlast := endsWithSeparator_rooted hne h
  rw [directoryPath, ← hbody]
  rw [← hbody] at hlast
  obtain ⟨x, t, hxt, hx⟩ : ∃ x t, [sep].intercalate cs = x :: t ∧ (x == sep) = false := by
    obtain _ | ⟨c, ds⟩ := cs
    · exact absurd rfl hne
    · have hc := h c mem_cons_self
      obtain _ | ⟨x, c⟩ := c
      · exact absurd rfl (of_isValidComponent hc).1
      · have : x ≠ sep := fun he => sep_notMem hc (he ▸ mem_cons_self)
        simpa using this
  rw [hxt] at hlast ⊢
  have hend : trimEnd (x :: t) = x :: t := by
    rw [trimEnd, rdropWhile_eq_self_iff]
    intro hne
    rw [endsWithSeparator, List.getLast?_cons_cons, List.getLast?_eq_getLast_of_ne_nil hne] at hlast
    simpa using hlast
  constructor
  · rw [trimSeparators, dropWhile_cons_of_pos (by simp), dropWhile_cons_of_neg (by simp [hx]), hend]
  · rw [trimSeparators, cons_append, dropWhile_cons_of_pos (by simp), cons_append,
      dropWhile_cons_of_neg (by simp [hx]), ← cons_append, trimEnd,
      rdropWhile_concat_pos _ _ _ (by simp), ← trimEnd, hend]

variable {p cwd : Text} {allowRoot w : Bool}

theorem splitOn_intercalate_names (hne : cs ≠ []) (h : ∀ d ∈ cs, isValidComponent w d = true) :
    ([sep].intercalate cs).splitOn sep = cs :=
  splitOn_intercalate sep (fun d hd => sep_notMem (h d hd)) hne

section

variable (hne : cs ≠ []) (h : ∀ d ∈ cs, isValidComponent w d = true)
  (hp : p = rooted sep cs ∨ p = directoryPath cs)
include hne h hp

/-- Between the outer separators there is something. -/
theorem body_of_names : trimSeparators p = [sep].intercalate cs ∧ [sep].intercalate cs ≠ [] := by
  constructor
  · rcases hp with rfl | rfl
    · exact (trimSeparators_of_names hne h).1
    · exact (trimSeparators_of_names hne h).2
  · intro he
    have hsplit := splitOn_intercalate_names hne h
    rw [he] at hsplit
    exact (of_isValidComponent (h [] (hsplit ▸ mem_cons_self))).1 rfl

theorem ne_root_of_names : ¬(p = root ∨ p = [sep, sep]) := by
  obtain ⟨hbody, hnonempty⟩ := body_of_names hne h hp
  rintro (rfl | rfl) <;> exact hnonempty (hbody.symm.trans (by decide))

/-- **Both ways of writing the names pass the check.** -/
theorem isValidFsPath_of_names : isValidFsPath p allowRoot w = true := by
  obtain ⟨hbody, hnonempty⟩ := body_of_names hne h hp
  have hsplit := splitOn_intercalate_names hne h
  have hchars : (p.any fun c => isReserved c || (!w && isWildcard c)) = false := by
    rw [any_eq_false]
    intro x hx
    rcases of_mem_path hp hx with rfl | ⟨d, hd, hx⟩
    · cases w <;> decide
    · obtain ⟨hr, -, -, hw⟩ := (of_isValidComponent (h d hd)).2.2.2 x hx
      rcases hw with rfl | hw <;> simp [*]
  have hdouble : ¬[sep, sep] <:+: [sep].intercalate cs := by
    rintro ⟨u, v, huv⟩
    -- two separators in a row have an empty part between them
    have hmem : [] ∈ ([sep].intercalate cs).splitOn sep := by
      rw [← huv, append_assoc, show [sep, sep] ++ v = sep :: sep :: v from rfl,
        splitOn_append_cons_self, splitOn_cons_eq_if_modifyHead]
      simp
    exact (of_isValidComponent (h [] (hsplit ▸ hmem))).1 rfl
  have hpne : p ≠ [] := by
    rintro rfl
    exact hnonempty (hbody.symm.trans (by decide))
  rw [isValidFsPath, replaceSlashes_of_notMem (slash_notMem_of_names h hp), hbody, if_neg hpne,
    if_neg (ne_root_of_names hne h hp), hchars, if_neg Bool.false_ne_true, if_neg hnonempty,
    if_neg hdouble, hsplit, all_eq_true]
  exact h

end

/-- There is nothing to resolve. -/
theorem resolveDotSegments_of_names (h : ∀ d ∈ cs, isValidComponent w d = true)
    (hp : p = rooted sep cs ∨ p = directoryPath cs) : resolveDotSegments p cwd = p := by
  have hcomponents : components p = cs := by
    have hcs := components_rooted fun d hd =>
      ⟨(of_isValidComponent (h d hd)).1, sep_notMem (h d hd)⟩
    rcases hp with rfl | rfl
    · exact hcs
    · rw [directoryPath, components_concat, hcs]
  rw [resolveDotSegments, if_pos]
  rw [Bool.not_eq_true', any_eq_false]
  intro c hc
  by_cases hne : c = []
  · simp [hne]
  · have hmem : c ∈ components p := mem_filter.mpr ⟨hc, by simpa using hne⟩
    obtain ⟨-, h1, h2, -⟩ := of_isValidComponent (h c (hcomponents ▸ hmem))
    simp [h1, h2]

theorem normalizeIsoPath_of_names (hne : cs ≠ []) (h : ∀ d ∈ cs, isValidComponent w d = true)
    (hp : p = rooted sep cs ∨ p = directoryPath cs) :
    normalizeIsoPath p cwd allowRoot w = .ok (rooted sep cs) := by
  obtain ⟨hbody, hnonempty⟩ := body_of_names hne h hp
  have habsolute : isAbsolutePath p = true := by
    obtain ⟨d, ds, rfl⟩ := exists_cons_of_ne_nil hne
    rcases hp with rfl | rfl <;> simp [isAbsolutePath, directoryPath]
  rw [normalizeIsoPath, replaceSlashes_of_notMem (slash_notMem_of_names h hp),
    resolveDotSegments_of_names h hp, isValidFsPath_of_names hne h hp, hbody, if_neg (by simp),
    if_neg (ne_root_of_names hne h hp), if_neg hnonempty, if_pos habsolute, cons_intercalate hne]

/-- **A directory in normal form stays as it is**, unless it is too long. -/
theorem normalizeDirectoryPath_of_names (h : ∀ d ∈ cs, Name d)
    (hp : p = rooted sep cs ∧ cs ≠ [] ∨ p = directoryPath cs) :
    normalizeDirectoryPath p root =
      if fsWireStringMaxLen < (utf8 (directoryPath cs)).length then
        .error (.invalidData "FileServer: directory path exceeds one-byte wire length")
      else .ok (directoryPath cs) := by
  rcases cs with _ | ⟨d, ds⟩
  · obtain ⟨-, hne⟩ | rfl := hp
    · exact absurd rfl hne
    · rfl
  · have hp' := hp.imp_left And.left
    rw [normalizeDirectoryPath, normalizeIsoPath_of_names (cons_ne_nil _ _) h hp']
    change (if _ then _ else _) = _
    rw [ensureDirectorySuffix_rooted (cons_ne_nil _ _) h]

/-- The root, and what is below it, from where a client stands. -/
theorem DirectoryPath.slash_notMem (h : DirectoryPath p) : '/' ∉ p := by
  obtain ⟨cs, hcs, rfl, -⟩ := h
  exact slash_notMem_of_names hcs (.inr rfl)

theorem directoryPath_root : DirectoryPath root := ⟨[], by simp, rfl, by decide⟩

end Normal

end Machbus.Fs
