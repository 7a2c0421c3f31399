import Mathlib.Data.List.Pairwise
import Machbus.Fs.Helpers.Invariant
/-!
# File server — the table of open handles

The server records an open handle twice, in its own table and in the
entry of the client that owns it. Handles are given out, closed, taken
from silent clients and wiped with the volume; through all of it the two
records agree, no number is given twice, the limits hold, and a file is
open for writing at most once and then by nobody else.
-/

namespace Machbus.Fs

open List OrderedMap OpenFlags

/-- All of an open file but its pointer. -/
def OpenFile.shape (f : OpenFile) : OpenFile := { f with position := 0 }

/-- Neither handle writes the file both are on. -/
def Sharable (f g : OpenFile) : Prop :=
  f.isDirectory = false → g.isDirectory = false → f.path = g.path →
    openModeWrites f.flags = false ∧ openModeWrites g.flags = false

instance : Std.Symm Sharable where
  symm _ _ h hg hf he := (h hf hg he.symm).symm

/-- A handle that can be given out. -/
def InRange (h : FileHandle) : Prop := 1 ≤ h.toNat ∧ h.toNat ≤ 254

namespace FileServer

variable {a : Address} {f : OpenFile}

/-- The handles of a client, in the order they were opened. -/
def handlesOf (s : FileServer) (a : Address) : List FileHandle :=
  (s.openFiles.filter (·.owner = a)).map (·.handle)

/-- **The table is sound.** -/
structure HandleTable (s : FileServer) : Prop where
  distinct : (s.openFiles.map (·.handle)).Nodup
  range : ∀ f ∈ s.openFiles, InRange f.handle
  next : InRange s.nextHandle
  /-- Both records agree. -/
  listed : ∀ a c, s.clients.get a = some c → c.openHandles = s.handlesOf a
  known : ∀ f ∈ s.openFiles, (s.clients.get f.owner).isSome = true
  perClient : ∀ a c, s.clients.get a = some c →
    c.openHandles.length ≤ s.config.maxOpenFilesPerClient
  total : s.openFiles.length ≤ s.maxOpenFiles
  /-- What is open as a file is a file. -/
  stored : ∀ f ∈ s.openFiles, f.isDirectory = false → (s.files.get f.path).isSome = true
  mode : ∀ f ∈ s.openFiles, f.isDirectory = (getAccessMode f.flags == openDir.bit)
  /-- Nobody writes a file that is open twice. -/
  shared : s.openFiles.Pairwise Sharable
  removed : s.volumeState = .removed → s.openFiles = []

/-! ## Changes that leave the table alone -/

section Transfer

variable {s t : FileServer}

section

variable (h : t.openFiles.map OpenFile.shape = s.openFiles.map OpenFile.shape)
include h

theorem handlesOf_eq (a : Address) : t.handlesOf a = s.handlesOf a := by
  have hshape : ∀ l : List OpenFile, (l.filter (·.owner = a)).map (·.handle) =
      ((l.map OpenFile.shape).filter (·.owner = a)).map (·.handle) := by
    intro l
    rw [filter_map, map_map]
    rfl
  rw [handlesOf, handlesOf, hshape t.openFiles, hshape s.openFiles, h]

theorem exists_shape (hf : f ∈ t.openFiles) :
    ∃ g ∈ s.openFiles, g.handle = f.handle ∧ g.owner = f.owner ∧ g.path = f.path ∧
      g.flags = f.flags ∧ g.isDirectory = f.isDirectory := by
  have hmem := mem_map_of_mem (f := OpenFile.shape) hf
  rw [h, mem_map] at hmem
  obtain ⟨g, hg, he⟩ := hmem
  simp only [OpenFile.shape, OpenFile.mk.injEq] at he
  obtain ⟨hhandle, howner, hpath, -, hflags, hkind, -⟩ := he
  exact ⟨g, hg, hhandle, howner, hpath, hflags, hkind⟩

end

/-- **A change that moves pointers at most.** -/
theorem HandleTable.transfer (h : s.HandleTable)
    (hopen : t.openFiles.map OpenFile.shape = s.openFiles.map OpenFile.shape)
    (hnext : InRange t.nextHandle) (hconfig : t.config = s.config)
    (hproperties : t.properties = s.properties)
    (hvolume : t.volumeState = .removed → s.volumeState = .removed)
    (hclients : ∀ a, (t.clients.get a).map (·.openHandles) = (s.clients.get a).map (·.openHandles))
    (hfiles : ∀ f ∈ s.openFiles, f.isDirectory = false →
      (s.files.get f.path).isSome = true → (t.files.get f.path).isSome = true) : t.HandleTable := by
  have hlength : t.openFiles.length = s.openFiles.length := by
    simpa using congrArg length hopen
  have hentry : ∀ a c, t.clients.get a = some c →
      ∃ d, s.clients.get a = some d ∧ d.openHandles = c.openHandles := by
    intro a c hc
    have := hclients a
    rw [hc, Option.map_some, eq_comm, Option.map_eq_some_iff] at this
    exact this
  refine ⟨?_, ?_, hnext, ?_, ?_, ?_, ?_, ?_, ?_, ?_, ?_⟩
  · have hhandles : ∀ l : List OpenFile, l.map (·.handle) = (l.map OpenFile.shape).map (·.handle) :=
      fun l => by rw [map_map]; rfl
    rw [hhandles, hopen, ← hhandles]
    exact h.distinct
  · intro f hf
    obtain ⟨g, hg, hhandle, -⟩ := exists_shape hopen hf
    exact hhandle ▸ h.range g hg
  · intro a c hc
    obtain ⟨d, hd, he⟩ := hentry a c hc
    rw [← he, h.listed a d hd, handlesOf_eq hopen]
  · intro f hf
    obtain ⟨g, hg, -, howner, -⟩ := exists_shape hopen hf
    have hsome := h.known g hg
    rw [howner, ← Option.isSome_map (f := (·.openHandles)), ← hclients, Option.isSome_map] at hsome
    exact hsome
  · intro a c hc
    obtain ⟨d, hd, he⟩ := hentry a c hc
    rw [← he, hconfig]
    exact h.perClient a d hd
  · rw [hlength, maxOpenFiles, hconfig, hproperties]
    exact h.total
  · intro f hf hdir
    obtain ⟨g, hg, -, -, hpath, -, hkind⟩ := exists_shape hopen hf
    rw [← hpath]
    exact hfiles g hg (hkind.trans hdir) (h.stored g hg (hkind.trans hdir))
  · intro f hf
    obtain ⟨g, hg, -, -, -, hflags, hkind⟩ := exists_shape hopen hf
    rw [← hkind, ← hflags]
    exact h.mode g hg
  · have hpair : ∀ l : List OpenFile, l.Pairwise Sharable ↔
        (l.map .shape).Pairwise Sharable := fun l => by rw [pairwise_map]; rfl
    rw [hpair, hopen, ← hpair]
    exact h.shared
  · intro hr
    have := h.removed (hvolume hr)
    rw [this, length_nil, length_eq_zero_iff] at hlength
    exact hlength

/-- Neither the table nor what it depends on is touched. -/
theorem HandleTable.of_same (h : s.HandleTable) (hopen : t.openFiles = s.openFiles)
    (hnext : t.nextHandle = s.nextHandle) (hconfig : t.config = s.config)
    (hproperties : t.properties = s.properties)
    (hvolume : t.volumeState = .removed → s.volumeState = .removed)
    (hclients : ∀ a, (t.clients.get a).map (·.openHandles) = (s.clients.get a).map (·.openHandles))
    (hfiles : t.files = s.files) : t.HandleTable :=
  h.transfer (by rw [hopen]) (hnext ▸ h.next) hconfig hproperties hvolume hclients
    fun _ _ _ hf => hfiles ▸ hf

end Transfer

/-! ## Changes that take handles out -/

section Restrict

variable {s t : FileServer}

section

variable (h : s.HandleTable)
include h

/-- A client the server does not know owns nothing. -/
theorem HandleTable.handlesOf_eq_nil (ha : s.clients.get a = none) : s.handlesOf a = [] := by
  rw [handlesOf, map_eq_nil_iff, filter_eq_nil_iff]
  intro f hf howner
  have hknown := h.known f hf
  rw [of_decide_eq_true howner, ha] at hknown
  cases hknown

theorem HandleTable.length_handlesOf_le (a : Address) :
    (s.handlesOf a).length ≤ s.config.maxOpenFilesPerClient := by
  cases ha : s.clients.get a with
  | none => rw [h.handlesOf_eq_nil ha]; exact Nat.zero_le _
  | some c => exact h.listed a c ha ▸ h.perClient a c ha

/-- **Handles go, and both records say so.** -/
theorem HandleTable.restrict {q : OpenFile → Bool}
    (hopen : t.openFiles = s.openFiles.filter q) (hnext : t.nextHandle = s.nextHandle)
    (hconfig : t.config = s.config) (hproperties : t.properties = s.properties)
    (hlisted : ∀ a c, t.clients.get a = some c → c.openHandles = t.handlesOf a)
    (hknown : ∀ f ∈ t.openFiles, (t.clients.get f.owner).isSome = true)
    (hstored : ∀ f ∈ t.openFiles, f.isDirectory = false → (t.files.get f.path).isSome = true)
    (hremoved : t.volumeState = .removed → t.openFiles = []) : t.HandleTable := by
  have hsub : t.openFiles.Sublist s.openFiles := hopen ▸ filter_sublist
  refine ⟨?_, ?_, hnext ▸ h.next, hlisted, hknown, ?_, ?_, hstored, ?_, ?_, hremoved⟩
  · exact h.distinct.sublist (hsub.map _)
  · exact fun f hf => h.range f (hsub.subset hf)
  · intro a c hc
    rw [hlisted a c hc, hconfig]
    exact Nat.le_trans ((hsub.filter _).map _).length_le (h.length_handlesOf_le a)
  · rw [maxOpenFiles, hconfig, hproperties]
    exact Nat.le_trans hsub.length_le h.total
  · exact fun f hf => h.mode f (hsub.subset hf)
  · exact h.shared.sublist hsub

theorem HandleTable.ensureClient (a : Address) : (s.ensureClient a).HandleTable := by
  have hget := get_ensureClient s a
  rw [ensureClient_eq] at hget ⊢
  refine h.restrict (q := fun _ => true) (by simp) rfl rfl rfl ?_ ?_ h.stored h.removed
  · intro b c hc
    rw [hget b] at hc
    split at hc
    · subst b
      cases ha : s.clients.get a with
      | none =>
        rw [ha] at hc
        cases hc
        exact (h.handlesOf_eq_nil ha).symm
      | some d =>
        rw [ha] at hc
        cases hc
        exact h.listed a d ha
    · exact h.listed b c hc
  · intro f hf
    rw [hget]
    split
    · rfl
    · exact h.known f hf

/-- The record of a client is empty when the server's is. -/
theorem HandleTable.wiped (hopen : t.openFiles = [])
    (hnext : t.nextHandle = s.nextHandle) (hconfig : t.config = s.config)
    (hproperties : t.properties = s.properties)
    (hlisted : ∀ a c, t.clients.get a = some c → c.openHandles = []) : t.HandleTable := by
  have hnone : ∀ f ∈ t.openFiles, False := fun f hf => by
    rw [hopen] at hf
    exact not_mem_nil hf
  refine h.restrict (q := fun _ => false) (by simp [hopen]) hnext hconfig hproperties ?_
    (fun f hf => (hnone f hf).elim) (fun f hf => (hnone f hf).elim) fun _ => hopen
  intro a c hc
  rw [hlisted a c hc, handlesOf, hopen]
  rfl

end

/-- All entries lose their handles. -/
theorem openHandles_clearMediaDependentClientState {c : ServerClientConnection}
    (hc : s.clearMediaDependentClientState.clients.get a = some c) : c.openHandles = [] := by
  rw [get_clearMediaDependentClientState, Option.map_eq_some_iff] at hc
  obtain ⟨d, -, rfl⟩ := hc
  rfl

theorem HandleTable.setVolumeRemoved (h : s.HandleTable) : s.setVolumeRemoved.1.HandleTable :=
  h.wiped rfl rfl rfl rfl fun _ _ hc =>
    openHandles_clearMediaDependentClientState (s := { s with volumeState := .removed }) hc

/-- The handles of each client once one of a client's is closed. -/
theorem handles_of_filter (l : List OpenFile) (a b : Address) (handle : FileHandle) :
    ((l.filter fun f => !OpenFile.isOf a handle f).filter (·.owner = b)).map (·.handle) =
      if b = a then ((l.filter (·.owner = b)).map (·.handle)).filter (· != handle)
      else (l.filter (·.owner = b)).map (·.handle) := by
  rw [filter_filter]
  split
  · subst b
    rw [filter_map, filter_filter]
    refine congrArg _ (filter_congr fun f _ => ?_)
    by_cases howner : f.owner = a <;> simp [OpenFile.isOf, howner, bne]
  next hb =>
    refine congrArg _ (filter_congr fun f _ => ?_)
    by_cases howner : f.owner = b
    · simp [OpenFile.isOf, howner, hb]
    · simp [howner]

/-- A client closes one of its handles. -/
theorem HandleTable.closed (h : s.HandleTable) (a : Address) (handle : FileHandle) :
    ({ s with openFiles := s.openFiles.eraseP (OpenFile.isOf a handle) }.modifyClient a
      fun c => { c with openHandles := c.openHandles.filter (· != handle) }).HandleTable := by
  have herase := eraseP_eq_filter (p := OpenFile.isOf a handle) (k := handle) h.distinct
    fun f hf => by simpa using And.left (by simpa [OpenFile.isOf] using hf)
  rw [herase]
  refine h.restrict rfl rfl rfl rfl ?_ ?_ (fun f hf => h.stored f (mem_of_mem_filter hf)) ?_
  · intro b c hc
    rw [get_modifyClient] at hc
    change c.openHandles = .map _ (.filter _ (.filter _ s.openFiles))
    rw [handles_of_filter]
    split at hc
    · rw [if_pos ‹_›]
      subst b
      obtain ⟨d, hd, rfl⟩ := Option.map_eq_some_iff.mp hc
      rw [h.listed a d hd]
      rfl
    · rw [if_neg ‹_›]
      exact h.listed b c hc
  · intro f hf
    rw [get_modifyClient]
    have hknown := h.known f (mem_of_mem_filter hf)
    split
    next hb =>
      rw [hb] at hknown
      simpa using hknown
    · exact hknown
  · intro hr
    rw [h.removed hr]
    rfl

/-- Silent clients are forgotten with their handles. -/
theorem HandleTable.pruned (h : s.HandleTable) : s.cleanupDisconnectedClients.HandleTable := by
  have hkept : ∀ f ∈ s.cleanupDisconnectedClients.openFiles,
      f ∈ s.openFiles ∧ f.owner ∉ s.disconnectedClients := by
    intro f hf
    rw [cleanupDisconnectedClients, mem_filter] at hf
    exact ⟨hf.1, by simpa using hf.2⟩
  refine h.restrict rfl rfl rfl rfl ?_ ?_ (fun f hf => h.stored f (hkept f hf).1) ?_
  · intro a c hc
    rw [get_cleanupDisconnectedClients] at hc
    split at hc
    · cases hc
    rename_i ha
    rw [h.listed a c hc, handlesOf, handlesOf, cleanupDisconnectedClients, filter_filter]
    refine congrArg _ (filter_congr fun f _ => ?_)
    by_cases howner : f.owner = a
    · simp [howner, ha]
    · simp [howner]
  · intro f hf
    rw [get_cleanupDisconnectedClients, if_neg (hkept f hf).2]
    exact h.known f (hkept f hf).1
  · intro hr
    change .filter _ s.openFiles = []
    rw [h.removed hr]
    rfl

end Restrict

/-! ## Opening -/

section Open

variable {s t : FileServer} {h : FileHandle}

theorem inRange_nextHandleAfter (hh : InRange h) : InRange (nextHandleAfter h) := by
  obtain ⟨h1, h2⟩ := hh
  rw [nextHandleAfter]
  split
  · exact ⟨by decide, by decide⟩
  rename_i hne
  rw [not_or] at hne
  have hlt : (h + 1).toNat = h.toNat + 1 := by
    rw [UInt8.toNat_add, show (1 : UInt8).toNat = 1 from rfl]
    exact Nat.mod_eq_of_lt (by omega)
  have hmax : h.toNat + 1 ≠ 255 := fun he => hne.2 (UInt8.toNat_inj.mp (hlt.trans he))
  rw [InRange]
  omega

/-- **A handle that is found is free.** -/
theorem allocateLoop_free {l : List OpenFile} {n : ℕ}
    (hfound : (allocateLoop l n h).1 ≠ invalidFileHandle) :
    (allocateLoop l n h).1 ≠ reservedFileHandle0 ∧ ∀ f ∈ l, f.handle ≠ (allocateLoop l n h).1 := by
  induction n generalizing h with
  | zero => exact absurd rfl hfound
  | succ n ih =>
    rw [allocateLoop] at hfound ⊢
    split at hfound
    next hfree =>
      rw [if_pos hfree]
      refine ⟨hfree.2.1, fun f hf he => hfree.2.2 ?_⟩
      exact any_eq_true.mpr ⟨f, hf, by simpa using he⟩
    next htaken =>
      rw [if_neg htaken]
      exact ih hfound

theorem allocateLoop_inRange {l : List OpenFile} (n : ℕ) (hh : InRange h) :
    InRange (allocateLoop l n h).2 ∧
      ((allocateLoop l n h).1 ≠ invalidFileHandle → InRange (allocateLoop l n h).1) := by
  induction n generalizing h with
  | zero => exact ⟨hh, fun hne => absurd rfl hne⟩
  | succ n ih =>
    rw [allocateLoop]
    split
    · exact ⟨inRange_nextHandleAfter hh, fun _ => hh⟩
    · exact ih (inRange_nextHandleAfter hh)

/-- **A new handle goes into both records.** -/
theorem HandleTable.pushOpen (h : s.HandleTable)
    (hknown : (s.clients.get f.owner).isSome = true) (hroom : s.HasRoom f.owner)
    (hrange : InRange f.handle) (hfree : ∀ g ∈ s.openFiles, g.handle ≠ f.handle)
    (hstored : f.isDirectory = false → (s.files.get f.path).isSome = true)
    (hmode : f.isDirectory = (getAccessMode f.flags == openDir.bit))
    (hshared : ∀ g ∈ s.openFiles, Sharable g f)
    (hvolume : s.volumeState ≠ .removed) : (s.pushOpen f).HandleTable := by
  have hget := get_modifyClient { s with openFiles := s.openFiles ++ [f] } f.owner
  have hopen : (s.pushOpen f).openFiles = s.openFiles ++ [f] := rfl
  have hall : ∀ {P : OpenFile → Prop}, (∀ g ∈ s.openFiles, P g) → P f →
      ∀ g ∈ s.openFiles ++ [f], P g :=
    fun hs hf => forall_mem_append.mpr ⟨hs, forall_mem_singleton.mpr hf⟩
  have hhandles : ∀ a, (s.pushOpen f).handlesOf a =
      s.handlesOf a ++ if f.owner = a then [f.handle] else [] := by
    intro a
    rw [handlesOf, handlesOf, hopen]
    by_cases howner : f.owner = a <;> simp [howner]
  have hlisted : ∀ a c, (s.pushOpen f).clients.get a = some c →
      c.openHandles = (s.pushOpen f).handlesOf a := by
    intro a c hc
    rw [FileServer.pushOpen, hget] at hc
    rw [hhandles]
    split at hc
    · subst a
      obtain ⟨d, hd, rfl⟩ := Option.map_eq_some_iff.mp hc
      rw [if_pos rfl, ← h.listed _ d hd]
    next ha =>
      rw [if_neg (Ne.symm ha), append_nil]
      exact h.listed a c hc
  refine ⟨?_, ?_, h.next, ?_, ?_, ?_, ?_, ?_, ?_, ?_, fun hr => absurd hr hvolume⟩
  · rw [hopen, map_append, nodup_append]
    refine ⟨h.distinct, by simp, fun a ha b hb => ?_⟩
    obtain ⟨g, hg, rfl⟩ := mem_map.mp ha
    rw [mem_singleton.mp hb]
    exact hfree g hg
  · exact hall h.range hrange
  · exact hlisted
  · intro g hg
    rw [FileServer.pushOpen, hget]
    split
    · simpa using hknown
    · exact hall h.known hknown g hg
  · intro a c hc
    rw [hlisted a c hc, hhandles]
    split
    · subst a
      obtain ⟨d, hd⟩ := Option.isSome_iff_exists.mp hknown
      have := hroom.1 d hd
      rw [h.listed _ d hd] at this
      rw [length_append]
      exact this
    · rw [append_nil]
      exact h.length_handlesOf_le a
  · rw [hopen, length_append]
    exact hroom.2
  · exact hall h.stored hstored
  · exact hall h.mode hmode
  · rw [hopen, pairwise_append]
    refine ⟨h.shared, pairwise_singleton _ _, fun g hg k hk => ?_⟩
    rw [mem_singleton.mp hk]
    exact hshared g hg

/-- **Opening keeps the table sound.** -/
theorem HandleTable.opened (h : s.HandleTable) {path pattern : Text} {position : ℕ}
    {flags : UInt8} {isDirectory : Bool} {tan : TAN}
    (hknown : (s.clients.get a).isSome = true) (hvolume : s.volumeState ≠ .removed)
    (hmode : isDirectory = (getAccessMode flags == openDir.bit))
    (hroom : s.HasRoom a) (hprovided : s.Provides path flags isDirectory t) :
    (t.openHandle a tan path pattern position flags isDirectory).1.HandleTable := by
  -- a file that was not there is not open either
  have hshared : ∀ g ∈ s.openFiles, g.isDirectory = false → isDirectory = false → g.path = path →
      openModeWrites g.flags = false ∧ openModeWrites flags = false := by
    intro g hg hgdir hdir hpath
    cases hprovided with
    | directory | newDirectory => cases hdir
    | file _ _ hconflict =>
      rw [openFileAccessConflicts, any_eq_false] at hconflict
      have hno := hconflict g hg
      simp only [hgdir, hpath] at hno
      simpa [and_comm] using hno
    | newFile hnew =>
      have hstored := h.stored g hg hgdir
      rw [hpath, hnew] at hstored
      cases hstored
  have ht : t.HandleTable ∧ t.openFiles = s.openFiles ∧ t.clients = s.clients ∧
      t.config = s.config ∧ t.properties = s.properties ∧ t.volumeState = s.volumeState ∧
      (isDirectory = false → (t.files.get path).isSome = true) := by
    cases hprovided with
    | directory => exact ⟨h, rfl, rfl, rfl, rfl, rfl, nofun⟩
    | newDirectory =>
      exact ⟨h.of_same rfl rfl rfl rfl id (fun _ => rfl) rfl, rfl, rfl, rfl, rfl, rfl, nofun⟩
    | file hfile => exact ⟨h, rfl, rfl, rfl, rfl, rfl, fun _ => hfile⟩
    | newFile =>
      refine ⟨h.transfer rfl h.next rfl rfl id (fun _ => rfl) fun f _ _ hf => ?_,
        rfl, rfl, rfl, rfl, rfl, fun _ => ?_⟩
      · rw [get_insert]
        split
        · rfl
        · exact hf
      · rw [get_insert, if_pos rfl]
        rfl
  obtain ⟨ht, hopen, hclients, hconfig, hproperties, hstate, hfile⟩ := ht
  obtain ⟨hnext, hrange⟩ := allocateLoop_inRange (l := t.openFiles) 255 ht.next
  have htable : { t with nextHandle := t.allocateHandle.2 }.HandleTable :=
    ht.transfer rfl hnext rfl rfl id (fun _ => rfl) fun _ _ _ hf => hf
  refine openHandle_induction (P := HandleTable) htable fun hvalid => ?_
  refine htable.pushOpen (by rw [hclients]; exact hknown) ?_ (hrange hvalid)
    (allocateLoop_free hvalid).2 hfile hmode
    (by rw [hopen]; exact hshared) (by rw [hstate]; exact hvolume)
  rw [hclients, hconfig, hproperties, hopen]
  exact hroom

end Open

/-! ## Every step -/

section Steps

variable {s t : FileServer} {request : List UInt8}

theorem HandleTable.effect (h : s.HandleTable)
    (hknown : (s.clients.get a).isSome = true) (he : Effect a request s t) : t.HandleTable := by
  cases he with
  | nothing => exact h
  | opened hvolume hmode _ hroom hprovided => exact h.opened hknown hvolume hmode hroom hprovided
  | closed => exact h.closed a _
  | sought =>
    exact h.transfer (map_modifyFirst fun _ => rfl) h.next rfl rfl id (fun _ => rfl)
      fun _ _ _ hf => hf
  | wrote =>
    refine h.transfer (map_modifyFirst fun _ => rfl) h.next rfl rfl id (fun _ => rfl)
      fun f _ _ hf => ?_
    change (OrderedMap.get (OrderedMap.insert s.files _ _) _).isSome = true
    rw [get_insert]
    split
    · rfl
    · exact hf
  | wentUp | wentTo =>
    refine (h.ensureClient a).of_same rfl rfl rfl rfl id (fun b => ?_) rfl
    rw [setCurrentDirectory, modifyClient, map_get_modify]
    exact fun _ => rfl
  | movedFile _ hopen =>
    refine h.transfer rfl h.next rfl rfl id (fun _ => rfl) fun f hf _ hfile => ?_
    rw [get_insert]
    split
    · rfl
    · rw [get_remove, if_neg (ne_of_isPathOpen hopen hf)]
      exact hfile
  | deletedDirectory | setAttributes | maintained =>
    exact h.of_same rfl rfl rfl rfl id (fun _ => rfl) rfl
  | deletedFile hopen =>
    refine h.transfer rfl h.next rfl rfl id (fun _ => rfl) fun f hf _ hfile => ?_
    rw [dropFile, get_remove, if_neg (ne_of_isPathOpen hopen hf)]
    exact hfile
  | initialized _ _ ht =>
    rw [ht]
    exact h.wiped rfl rfl rfl rfl fun _ _ hc => openHandles_clearMediaDependentClientState hc
  | prepared => exact h.of_same rfl rfl rfl rfl (by rintro ⟨⟩) (fun _ => rfl) rfl
  | @removed requests =>
    have hrequests : { s with volumeMaintainRequests := requests }.HandleTable :=
      h.of_same rfl rfl rfl rfl id (fun _ => rfl) rfl
    exact hrequests.setVolumeRemoved

/-- **The table stays sound.** -/
theorem handleTable_preserved : Preserved HandleTable where
  ensured _ a h := h.ensureClient a
  effect _ _ _ _ _ hknown h he := h.effect hknown he
  clock _ _ _ _ _ hstate h := h.of_same rfl rfl rfl rfl hstate.mp (fun _ => rfl) rfl
  entries _ _ hsame h := h.of_same rfl rfl rfl rfl id (fun a => by
    have hsnd := congrArg (Option.map Prod.snd) (hsame a)
    rwa [Option.map_map, Option.map_map] at hsnd) rfl
  removed _ h := h.setVolumeRemoved
  pruned _ h := h.pruned

/-- **Only the client's own handles are touched.** -/
theorem Effect.openFiles_of_ne (he : Effect a request s t)
    (howner : f.owner ≠ a) : f ∈ t.openFiles → f ∈ s.openFiles := by
  have hposition : ∀ (u : FileServer) (handle : FileHandle) (position : ℕ),
      f ∈ (u.setPosition a handle position).openFiles → f ∈ u.openFiles := by
    intro u handle position hf
    rcases mem_modifyFirst hf with hf | ⟨g, -, hg, rfl⟩
    · exact hf
    · simp only [OpenFile.isOf, Bool.and_eq_true, beq_iff_eq] at hg
      exact absurd hg.2 howner
  cases he with
  | nothing | movedFile | deletedDirectory | deletedFile | setAttributes
  | prepared | maintained => exact id
  | @opened u _ _ _ _ _ _ _ _ _ _ hprovided =>
    have hu : u.openFiles = s.openFiles := by cases hprovided <;> rfl
    rw [← hu]
    refine openHandle_induction (P := fun t => f ∈ t.openFiles → _) id fun _ hf => ?_
    exact (mem_append.mp hf).resolve_right fun hf => howner (mem_singleton.mp hf ▸ rfl)
  | closed => exact mem_of_mem_eraseP
  | sought => exact hposition s _ _
  | wrote => exact hposition { s with files := _ } _ _
  | wentUp | wentTo => exact fun hf => openFiles_ensureClient s a ▸ hf
  | initialized _ _ ht =>
    rw [ht]
    exact (absurd · not_mem_nil)
  | removed => exact (absurd · not_mem_nil)

theorem handleClientMessage_openFiles_of_ne (hstand : s.Standing) {msg : Message}
    (hf : f ∈ (s.handleClientMessage msg).1.openFiles) (howner : f.owner ≠ msg.source) :
    f ∈ s.openFiles := by
  have hensured := openFiles_ensureClient s msg.source
  have hreceived := handleClientMessage_received (hstand.slash_notMem msg.source)
  generalize (s.handleClientMessage msg).1 = t at hreceived hf
  cases hreceived with
  | ignored => exact hf
  | maintained | repeated => exact hensured ▸ hf
  | executed _ _ he => exact hensured ▸ he.openFiles_of_ne howner hf

end Steps

/-! ## From the start -/

/-- A server nobody has talked to. -/
structure Fresh (s : FileServer) : Prop where
  openFiles : s.openFiles = []
  clients : s.clients = []
  nextHandle : s.nextHandle = 1

theorem fresh_setUp (config : FileServerConfig) (calls : List SetUp) :
    (run setUp (new config) calls).Fresh := by
  refine run_induction (I := Fresh) ⟨rfl, rfl, rfl⟩ ?_ calls
  intro s call h
  have hcall := setUp_frame s call
  exact ⟨hcall.1.trans h.openFiles, hcall.2.1.trans h.clients, hcall.2.2.trans h.nextHandle⟩

theorem Fresh.standing {s : FileServer} (h : s.Fresh) : s.Standing := by
  intro a
  rw [currentDirectory, h.clients]
  exact directoryPath_root

theorem Fresh.handleTable {s : FileServer} (h : s.Fresh) : s.HandleTable := by
  obtain ⟨hopen, hclients, hnext⟩ := h
  constructor <;> simp [hopen, hclients, hnext, InRange]

/-- Two bits for the access mode, and three of the four modes excluded. -/
theorem readOnly_of_not_writes {flags : UInt8} (hdir : (getAccessMode flags == openDir.bit) = false)
    (hwrites : openModeWrites flags = false) : getAccessMode flags = read.bit := by
  have hle : (getAccessMode flags).toNat ≤ 3 := by
    exact Nat.and_le_right
  simp only [openModeWrites, Bool.or_eq_false_iff, beq_eq_false_iff_ne] at hwrites hdir
  obtain ⟨⟨hwrite, hreadWrite⟩, -⟩ := hwrites
  have h1 : (getAccessMode flags).toNat ≠ 1 := fun he => hwrite (UInt8.toNat_inj.mp he)
  have h2 : (getAccessMode flags).toNat ≠ 2 := fun he => hreadWrite (UInt8.toNat_inj.mp he)
  have h3 : (getAccessMode flags).toNat ≠ 3 := fun he => hdir (UInt8.toNat_inj.mp he)
  have h0 : (getAccessMode flags).toNat = 0 := by omega
  exact UInt8.toNat_inj.mp h0

/-- **Handle table integrity.** Whatever clients send and however time
passes, no two open handles share a number and all lie in `1..=254`; each
client's list is the list of the handles it owns; the limits per client
and in total hold; of two handles on one file neither may write; nothing
is open on a removed volume; and no message changes a handle of a client
other than its sender. -/
theorem handle_table_integrity (config : FileServerConfig) (calls : List SetUp)
    (acts : List ServerAct) :
    let s := run step (run setUp (new config) calls) acts
    (s.openFiles.map (·.handle)).Nodup ∧
    (∀ f ∈ s.openFiles, 1 ≤ f.handle.toNat ∧ f.handle.toNat ≤ 254) ∧
    (∀ a c, s.clients.get a = some c → c.openHandles = s.handlesOf a) ∧
    (∀ f ∈ s.openFiles, ∃ c, s.clients.get f.owner = some c ∧ f.handle ∈ c.openHandles) ∧
    (∀ a c, s.clients.get a = some c → c.openHandles.length ≤ s.config.maxOpenFilesPerClient) ∧
    s.openFiles.length ≤ s.config.maxOpenFilesTotal ∧
    s.openFiles.length ≤ s.properties.maxSimultaneousFiles ∧
    (∀ f ∈ s.openFiles, ∀ g ∈ s.openFiles, f.handle ≠ g.handle → f.isDirectory = false →
      g.isDirectory = false → f.path = g.path →
      getAccessMode f.flags = OpenFlags.read.bit ∧ getAccessMode g.flags = OpenFlags.read.bit) ∧
    (s.volumeState = .removed → s.openFiles = []) ∧
    ∀ (msg : Message), ∀ f ∈ (s.handleClientMessage msg).1.openFiles, f.owner ≠ msg.source →
      f ∈ s.openFiles := by
  have hfresh := fresh_setUp config calls
  obtain ⟨hstand, h⟩ := handleTable_preserved.run hfresh.standing hfresh.handleTable acts
  have htotal := h.total
  rw [maxOpenFiles, Nat.le_min] at htotal
  refine ⟨h.distinct, h.range, h.listed, ?_, h.perClient, htotal.1, htotal.2, ?_, h.removed, ?_⟩
  · intro f hf
    obtain ⟨c, hc⟩ := Option.isSome_iff_exists.mp (h.known f hf)
    refine ⟨c, hc, ?_⟩
    rw [h.listed _ c hc]
    exact mem_map_of_mem (mem_filter.mpr ⟨hf, by simp⟩)
  · intro f hf g hg hne hfdir hgdir hpath
    obtain ⟨hwf, hwg⟩ := h.shared.forall hf hg (fun he => hne (he ▸ rfl)) hfdir hgdir hpath
    exact ⟨readOnly_of_not_writes (h.mode f hf ▸ hfdir) hwf,
      readOnly_of_not_writes (h.mode g hg ▸ hgdir) hwg⟩
  · exact fun msg f hf howner => handleClientMessage_openFiles_of_ne hstand hf howner

end FileServer

end Machbus.Fs
