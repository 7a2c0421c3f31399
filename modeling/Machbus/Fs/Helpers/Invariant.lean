import Machbus.Common.Run
import Machbus.Fs.Helpers.Effect
/-!
# File server — invariants of a server

What is kept by the few changes a message and an update are made of is
kept by every run. One invariant comes with the rule: every client stands
in a directory in normal form, which is what makes the paths it asks for
come out in normal form too.
-/

namespace Machbus.Fs.FileServer

open OrderedMap

/-- Every client stands in a directory in normal form. -/
def Standing (s : FileServer) : Prop := ∀ a, DirectoryPath (s.currentDirectory a)

/-- What the rest of a server relies on in a client's entry. -/
def known (c : ServerClientConnection) : Text × List FileHandle :=
  (c.currentDirectory, c.openHandles)

/-- **What the passing of time keeps.** -/
structure KeptByTime (I : FileServer → Prop) : Prop where
  clock : ∀ s now status removal state, (state = .removed ↔ s.volumeState = .removed) → I s →
    I { s with
      currentTimeMs := now
      statusTimerMs := status
      volumeRemovalTimerMs := removal
      volumeState := state }
  entries : ∀ s clients, (∀ a, (get clients a).map known = (s.clients.get a).map known) → I s →
    I { s with clients := clients }
  removed : ∀ s, I s → I s.setVolumeRemoved.1
  pruned : ∀ s, I s → I s.cleanupDisconnectedClients

/-- **What each part of a step keeps.** -/
structure Preserved (I : FileServer → Prop) : Prop extends KeptByTime I where
  /-- A client is heard from. -/
  ensured : ∀ s a, I s → I (s.ensureClient a)
  /-- Its request has an effect. -/
  effect : ∀ s a request t, s.Standing → (s.clients.get a).isSome = true → I s →
    Effect a request s t → I t

section Clients

variable (s : FileServer) (a b : Address) {f : ServerClientConnection → ServerClientConnection}

/-- Only the entries can change. -/
theorem ensureClient_eq : s.ensureClient a = { s with clients := (s.ensureClient a).clients } := by
  rw [ensureClient]
  split <;> rfl

theorem openFiles_ensureClient : (s.ensureClient a).openFiles = s.openFiles := by
  rw [ensureClient_eq]

theorem get_ensureClient : (s.ensureClient a).clients.get b =
      if b = a then some ((s.clients.get a).getD (.new a)) else s.clients.get b := by
  rw [ensureClient]
  split
  next h =>
    obtain ⟨c, hc⟩ := Option.isSome_iff_exists.mp h
    split
    · subst b
      rw [hc]
      rfl
    · rfl
  next h =>
    rw [get_insert, Option.not_isSome_iff_eq_none.mp h]
    rfl

theorem get_modifyClient (f : ServerClientConnection → ServerClientConnection) :
    (s.modifyClient a f).clients.get b =
      if b = a then (s.clients.get a).map f else s.clients.get b :=
  get_modify

/-- A change of an entry that leaves the directory alone. -/
theorem currentDirectory_modifyClient (hf : ∀ c, (f c).currentDirectory = c.currentDirectory) :
    (s.modifyClient a f).currentDirectory b = s.currentDirectory b :=
  congrArg (·.getD root) (map_get_modify hf)

theorem currentDirectory_congr {t : FileServer}
    (h : (t.clients.get a).map known = (s.clients.get a).map known) :
    t.currentDirectory a = s.currentDirectory a := by
  have hfst := congrArg (Option.map Prod.fst) h
  rw [Option.map_map, Option.map_map] at hfst
  exact congrArg (·.getD root) hfst

theorem currentDirectory_setCurrentDirectory (f : Text → Text) :
    (s.setCurrentDirectory a f).currentDirectory b =
      if b = a then f (s.currentDirectory a) else s.currentDirectory b := by
  rw [currentDirectory, setCurrentDirectory, get_modifyClient, get_ensureClient]
  split
  · rw [if_pos rfl, currentDirectory]
    cases s.clients.get a <;> rfl
  · rw [get_ensureClient, if_neg ‹_›]
    rfl

theorem currentDirectory_mapValues
    (hf : ∀ c, (f c).currentDirectory = root ∨ (f c).currentDirectory = c.currentDirectory) :
    { s with clients := s.clients.mapValues f }.currentDirectory a = root ∨
      { s with clients := s.clients.mapValues f }.currentDirectory a = s.currentDirectory a := by
  rw [currentDirectory, currentDirectory, get_mapValues]
  cases s.clients.get a with
  | none => exact .inl rfl
  | some c => exact hf c

/-- What is left of an entry without a volume. -/
theorem get_clearMediaDependentClientState : s.clearMediaDependentClientState.clients.get a =
      (s.clients.get a).map fun c => { c with openHandles := [], currentDirectory := root } := by
  rw [clearMediaDependentClientState, get_mapValues]

/-- Which clients are forgotten does not depend on the entries. -/
theorem get_cleanupDisconnectedClients : s.cleanupDisconnectedClients.clients.get a =
      if a ∈ s.disconnectedClients then none else s.clients.get a := by
  split
  · exact get_filter_none (by simp [*])
  · exact get_filter (by simp [*])

end Clients

/-! ## The rule -/

section Rule

variable {I : FileServer → Prop} {s : FileServer}

theorem Standing.slash_notMem (h : s.Standing) (a : Address) : '/' ∉ s.currentDirectory a :=
  (h a).slash_notMem

theorem Standing.ensureClient (h : s.Standing) (a : Address) : (s.ensureClient a).Standing :=
  fun b => by rw [ensureClient_currentDirectory]; exact h b

theorem isSome_ensureClient (s : FileServer) (a : Address) :
    ((s.ensureClient a).clients.get a).isSome = true := by
  rw [get_ensureClient, if_pos rfl]
  rfl

/-- No handle is on a path that is not open. -/
theorem ne_of_isPathOpen {path : Text} (hopen : s.isPathOpen path = false) {f : OpenFile}
    (hf : f ∈ s.openFiles) : f.path ≠ path := by
  rw [isPathOpen, List.any_eq_false] at hopen
  simpa using hopen f hf

theorem KeptByTime.modified (hI : KeptByTime I) (hs : I s) {a : Address}
    {f : ServerClientConnection → ServerClientConnection} (hf : ∀ c, known (f c) = known c) :
    I (s.modifyClient a f) :=
  hI.entries s _ (fun _ => map_get_modify hf) hs

/-- **What time does to the volume**: it is in use or not, and one that is
about to be removed is gone in the end. -/
theorem updateVolumeStateMachine_cases (s : FileServer) (elapsedMs : ℕ) :
    (∃ state timer, (state = .present ∨ state = .inUse ↔
          s.volumeState = .present ∨ s.volumeState = .inUse) ∧
        (state = .removed ↔ s.volumeState = .removed) ∧ s.updateVolumeStateMachine elapsedMs =
          ({ s with volumeState := state, volumeRemovalTimerMs := timer }, [])) ∨
      s.volumeState = .preparingForRemoval ∧ ∃ timer, s.updateVolumeStateMachine elapsedMs =
        { s with volumeRemovalTimerMs := timer }.setVolumeRemoved := by
  rw [updateVolumeStateMachine]
  split
  next h =>
    left
    split
    · exact ⟨.inUse, s.volumeRemovalTimerMs, by simp [h], by simp [h], rfl⟩
    · exact ⟨s.volumeState, s.volumeRemovalTimerMs, .rfl, .rfl, rfl⟩
  next h =>
    left
    split
    · exact ⟨.present, s.volumeRemovalTimerMs, by simp [h], by simp [h], rfl⟩
    · exact ⟨s.volumeState, s.volumeRemovalTimerMs, .rfl, .rfl, rfl⟩
  next h =>
    dsimp only
    split
    · exact .inr ⟨h, _, rfl⟩
    · exact .inl ⟨s.volumeState, satAdd32 s.volumeRemovalTimerMs elapsedMs, .rfl, .rfl, rfl⟩
  · exact .inl ⟨s.volumeState, s.volumeRemovalTimerMs, .rfl, .rfl, rfl⟩

theorem KeptByTime.updateVolumeStateMachine (hI : KeptByTime I) (hs : I s) (elapsedMs : ℕ) :
    I (s.updateVolumeStateMachine elapsedMs).1 := by
  rcases s.updateVolumeStateMachine_cases elapsedMs with ⟨state, timer, -, hstate, h⟩ |
    ⟨-, timer, h⟩
  · rw [h]
    exact hI.clock s _ _ timer state hstate hs
  · rw [h]
    exact hI.removed _ (hI.clock s _ _ timer s.volumeState .rfl hs)

theorem KeptByTime.update (hI : KeptByTime I) (hs : I s) (elapsedMs : ℕ) :
    I (s.update elapsedMs).1 := by
  have htime := hI.clock s (satAdd32 s.currentTimeMs elapsedMs) s.statusTimerMs
    s.volumeRemovalTimerMs s.volumeState .rfl hs
  have hexpired : ∀ {s}, I s → I s.cleanupExpiredTanCache := fun hs => hI.entries _ _ (fun a => by
    rw [get_mapValues, Option.map_map]
    rfl) hs
  have hclean := hI.pruned _ (hexpired (hI.updateVolumeStateMachine htime elapsedMs))
  rw [FileServer.update]
  dsimp only
  split
  · exact hI.clock _ _ 0 _ _ .rfl hclean
  · exact hI.clock _ _ (satAdd32 _ elapsedMs) _ _ .rfl hclean

theorem Preserved.handleClientMessage (hI : Preserved I) (hstand : s.Standing) (hs : I s)
    (msg : Message) : I (s.handleClientMessage msg).1 := by
  have hensured := hI.ensured s msg.source hs
  have hreceived := handleClientMessage_received (hstand.slash_notMem msg.source)
  generalize (s.handleClientMessage msg).1 = t at hreceived ⊢
  cases hreceived with
  | ignored => exact hs
  | maintained => exact hI.modified hensured fun _ => rfl
  | repeated => exact hensured
  | executed _ _ h =>
    exact hI.modified (hI.effect _ _ _ _ (hstand.ensureClient _) (isSome_ensureClient _ _)
      hensured h) fun _ => rfl

/-- **What the parts keep, a step keeps.** -/
theorem Preserved.step (hI : Preserved I) (hstand : s.Standing) (hs : I s) (a : ServerAct) :
    I (s.step a) := by
  cases a with
  | message msg => exact hI.handleClientMessage hstand hs msg
  | update elapsedMs => exact hI.update hs elapsedMs

end Rule

/-! ## Where clients stand -/

section Standing

variable {s t : FileServer}

theorem Standing.of_eq (h : s.Standing)
    (ht : ∀ a, t.currentDirectory a = root ∨ t.currentDirectory a = s.currentDirectory a) :
    t.Standing := by
  intro a
  rcases ht a with he | he
  · rw [he]
    exact directoryPath_root
  · rw [he]
    exact h a

/-- One directory up from a directory in normal form is one in normal
form. -/
theorem directoryPath_parentOfCurrent {cwd : Text} (h : DirectoryPath cwd) :
    DirectoryPath (parentOfCurrent cwd) := by
  obtain ⟨cs, hcs, rfl, hlen⟩ := h
  rcases List.eq_nil_or_concat' cs with rfl | ⟨ds, d, rfl⟩
  · exact directoryPath_root
  · rw [parentOfCurrent_directoryPath hcs]
    refine ⟨ds, fun c hc => hcs c (List.mem_append_left _ hc), rfl, Nat.le_trans ?_ hlen⟩
    rw [directoryPath, directoryPath]
    simp [utf8]

/-- **What opening does** once the file is there: a handle is looked for,
and if there is one it goes into both tables. -/
theorem openHandle_induction {P : FileServer → Prop} {client : Address} {tan : TAN}
    {path pattern : Text} {position : ℕ} {flags : UInt8} {isDirectory : Bool}
    (hnext : P { s with nextHandle := s.allocateHandle.2 })
    (hpush : s.allocateHandle.1 ≠ invalidFileHandle →
      P ({ s with nextHandle := s.allocateHandle.2 }.pushOpen
        ⟨s.allocateHandle.1, client, path, position, flags, isDirectory, pattern⟩)) :
    P (s.openHandle client tan path pattern position flags isDirectory).1 := by
  rw [openHandle]
  dsimp only
  split
  · exact hnext
  · exact hpush ‹_›

theorem Standing.effect {a : Address} {request : List UInt8} (h : s.Standing)
    (he : Effect a request s t) : t.Standing := by
  cases he with
  | nothing | sought | wrote | movedFile | deletedDirectory | deletedFile
  | setAttributes | prepared | maintained => exact h
  | @opened u _ _ _ _ _ _ _ _ _ _ hprovided =>
    have hu : u.Standing := h.of_eq fun b => .inr (by cases hprovided <;> rfl)
    refine openHandle_induction (P := Standing) hu fun _ => hu.of_eq fun b => .inr ?_
    exact currentDirectory_modifyClient { u with openFiles := _, nextHandle := _ } _ _ fun _ => rfl
  | closed => exact h.of_eq fun b => .inr (currentDirectory_modifyClient _ _ _ fun _ => rfl)
  | wentUp =>
    intro b
    rw [currentDirectory_setCurrentDirectory]
    split
    · exact directoryPath_parentOfCurrent (h a)
    · exact h b
  | wentTo htarget =>
    intro b
    rw [currentDirectory_setCurrentDirectory]
    split
    · rcases htarget with rfl | ⟨htarget, -⟩
      · exact directoryPath_root
      · exact htarget
    · exact h b
  | initialized _ _ ht =>
    rw [ht]
    exact h.of_eq fun b => currentDirectory_mapValues s b fun _ => .inl rfl
  | removed => exact h.of_eq fun b => currentDirectory_mapValues s b fun _ => .inl rfl

/-- **Clients always stand in normal form.** -/
theorem standing_preserved : Preserved Standing where
  ensured _ a h := h.ensureClient a
  effect _ _ _ _ _ _ h he := h.effect he
  clock _ _ _ _ _ _ h := h
  entries s _ hsame h := h.of_eq fun b => .inr (currentDirectory_congr s b (hsame b))
  removed s h := h.of_eq fun b => currentDirectory_mapValues s b fun _ => .inl rfl
  pruned s h := h.of_eq fun b => by
    rw [currentDirectory, get_cleanupDisconnectedClients]
    split
    · exact .inl rfl
    · exact .inr rfl

/-- **What set-up does.** A file is put in or taken out or a directory is
put in, or else some of what is said about them and the volume changes. -/
theorem setUp_induction {P : FileServer → Prop}
    (hrest : ∀ dateTimes name capacity properties reading writing, P { s with
      fileDateTimes := dateTimes
      volumeName := name
      volumeCapacityBytes := capacity
      properties := properties
      busyReading := reading
      busyWriting := writing })
    (hadd : ∀ p data attrs dateTimes, FilePath p → P { s with
      files := s.files.insert p data
      fileAttrs := s.fileAttrs.insert p attrs
      fileDateTimes := dateTimes })
    (hdrop : ∀ p, P (s.dropFile p))
    (hdirectory : ∀ p dateTimes, DirectoryPath p → P { s with
      directories := if s.directories.contains p then s.directories else s.directories ++ [p]
      fileDateTimes := dateTimes })
    (call : SetUp) : P (s.setUp call) := by
  have hsame : P s := hrest ..
  cases call with
  | addFile path data attrs =>
    rw [setUp, addFile]
    cases hpath : normalizePreloadedFilePath path with
    | error e => exact hsame
    | ok p => exact hadd p data attrs _ (normalizeClientPath_spec (show '/' ∉ root by decide) hpath)
  | removeFile path =>
    rw [setUp, removeFile]
    cases normalizePreloadedFilePath path with
    | error e => exact hsame
    | ok p => exact hdrop p
  | addDirectory path =>
    rw [setUp, addDirectory]
    cases hpath : normalizeDirectoryPath path root with
    | error e => exact hsame
    | ok p => exact hdirectory p _ (normalizeDirectoryPath_spec (by decide) hpath)
  | setFileDateTime path date time =>
    rw [setUp, setFileDateTime, require]
    split
    · cases s.dateTimePath path <;> exact hrest ..
    · exact hsame
  | setProperties p | setVolumeCapacityBytes bytes | setBusy reading writing => exact hrest ..
  | setVolumeName name =>
    rw [setUp, setVolumeName, require]
    split <;> exact hrest ..

/-- Set-up leaves clients and their handles alone. -/
theorem setUp_frame (s : FileServer) (call : SetUp) :
    (s.setUp call).openFiles = s.openFiles ∧ (s.setUp call).clients = s.clients ∧
      (s.setUp call).nextHandle = s.nextHandle :=
  setUp_induction (P := fun t => t.openFiles = s.openFiles ∧ t.clients = s.clients ∧
      t.nextHandle = s.nextHandle)
    (fun _ _ _ _ _ _ => ⟨rfl, rfl, rfl⟩) (fun _ _ _ _ _ => ⟨rfl, rfl, rfl⟩)
    (fun _ => ⟨rfl, rfl, rfl⟩) (fun _ _ _ => ⟨rfl, rfl, rfl⟩) call

/-- **What the application's calls do**: set-up, a step, or something about
the volume. -/
theorem call_induction {P : FileServer → Prop} (hsetUp : ∀ c, P (s.setUp c))
    (hact : ∀ a, P (s.step a))
    (hvolume : ∀ state timerMs requests, P { s with
      volumeState := state
      volumeRemovalTimerMs := timerMs
      volumeMaintainRequests := requests })
    (hremoved : P s.setVolumeRemoved.1) (c : Call) : P (s.call c) := by
  cases c with
  | setUp c => exact hsetUp c
  | act a => exact hact a
  | prepareVolumeForRemoval =>
    rw [call, prepareVolumeForRemoval]
    split <;> exact hvolume ..
  | receiveVolumeMaintainRequest client =>
    rw [call, receiveVolumeMaintainRequest]
    repeat' split
    all_goals exact hvolume ..
  | clearVolumeMaintainRequest client => exact hvolume ..
  | setVolumeRemoved => exact hremoved
  | reinsertVolume =>
    rw [call, reinsertVolume]
    split <;> exact hvolume ..

/-- **Clients stand in normal form whatever the application calls.** -/
theorem Standing.call (h : s.Standing) : ∀ c, (s.call c).Standing := by
  refine call_induction (fun c => h.of_eq fun a => .inr ?_) (standing_preserved.step h h)
    (fun _ _ _ => h) (standing_preserved.removed s h)
  rw [currentDirectory, (setUp_frame s c).2.1]
  rfl

theorem standing_new (config : FileServerConfig) : (new config).Standing :=
  fun _ => directoryPath_root

theorem standing_calls (config : FileServerConfig) (calls : List Call) :
    (run .call (new config) calls).Standing :=
  run_induction (standing_new config) (fun _ c h => h.call c) calls

/-- What rests on an invariant is kept along with it. -/
theorem Preserved.and {I J : FileServer → Prop} (hI : Preserved I) (hJ : KeptByTime J)
    (ensured : ∀ s a, J s → J (s.ensureClient a))
    (effect : ∀ s a request t, I s → J s → Effect a request s t → J t) :
    Preserved fun s => I s ∧ J s where
  ensured s a h := ⟨hI.ensured s a h.1, ensured s a h.2⟩
  effect s a request t hstand hknown h he :=
    ⟨hI.effect s a request t hstand hknown h.1 he, effect s a request t h.1 h.2 he⟩
  clock s _ _ _ state hs h := ⟨hI.clock s _ _ _ state hs h.1, hJ.clock s _ _ _ state hs h.2⟩
  entries s clients hs h := ⟨hI.entries s clients hs h.1, hJ.entries s clients hs h.2⟩
  removed s h := ⟨hI.removed s h.1, hJ.removed s h.2⟩
  pruned s h := ⟨hI.pruned s h.1, hJ.pruned s h.2⟩

/-- **The invariant rule.** What the parts of a step keep holds in every
state of a run. -/
theorem Preserved.run {I : FileServer → Prop} (hI : Preserved I) (hstand : s.Standing) (hs : I s)
    (acts : List ServerAct) : (run .step s acts).Standing ∧ I (run .step s acts) :=
  run_induction (I := fun s => s.Standing ∧ I s) ⟨hstand, hs⟩
    (fun _ a h => ⟨standing_preserved.step h.1 h.1 a, hI.step h.1 h.2 a⟩) acts

end Standing

end Machbus.Fs.FileServer
