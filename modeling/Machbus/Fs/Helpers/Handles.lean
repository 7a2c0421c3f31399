import Machbus.Fs.Helpers.Conversation
/-!
# File server — a client's handles and the answers it gets

What a request does to the handles of the client that sends it, and what
the answer says about that: a handle is lost only with the answer that it
was closed, and one that is announced is there.
-/

namespace Machbus.Fs.FileServer

open List FSFunction

/-- The client has the handle open. -/
def HasOpen (s : FileServer) (client : Address) (handle : FileHandle) : Prop :=
  (client, handle) ∈ s.openFiles.map fun f => (f.owner, f.handle)

theorem hasOpen_iff {s : FileServer} {client : Address} {handle : FileHandle} :
    s.HasOpen client handle ↔ (s.findOpen client handle).isSome = true := by
  rw [HasOpen, findOpen, find?_isSome, mem_map]
  constructor
  · rintro ⟨f, hf, heq⟩
    cases heq
    exact ⟨f, hf, by simp [OpenFile.isOf]⟩
  · rintro ⟨f, hf, hof⟩
    simp only [OpenFile.isOf, Bool.and_eq_true, beq_iff_eq] at hof
    exact ⟨f, hf, Prod.ext hof.2 hof.1⟩

variable {s t : FileServer} {client a : Address} {request response : List UInt8}
  {handle : FileHandle} {tan : TAN}

theorem HasOpen.of_eq (h : s.HasOpen a handle) (ht : t.openFiles = s.openFiles) :
    t.HasOpen a handle := by
  rw [HasOpen, ht]
  exact h

theorem hasOpen_setPosition {position : ℕ} {h : FileHandle} :
    (s.setPosition client h position).HasOpen a handle ↔ s.HasOpen a handle := by
  have hmap : (s.setPosition client h position).openFiles.map (fun f => (f.owner, f.handle)) =
      s.openFiles.map fun f => (f.owner, f.handle) := map_modifyFirst fun _ => rfl
  rw [HasOpen, HasOpen, hmap]

theorem HasOpen.erase (h : s.HasOpen a handle) (closed : FileHandle) :
    (a, handle) ∈ (s.openFiles.eraseP (OpenFile.isOf client closed)).map
        (fun f => (f.owner, f.handle)) ∨ handle = closed := by
  obtain ⟨f, hf, heq⟩ := mem_map.mp h
  by_cases hof : OpenFile.isOf client closed f = true
  · right
    cases heq
    simp only [OpenFile.isOf, Bool.and_eq_true, beq_iff_eq] at hof
    exact hof.1
  · exact .inl (mem_map.mpr ⟨f, (mem_eraseP_of_neg hof).mpr hf, heq⟩)

/-- **A handle is lost by a request to close it**, or with the volume. -/
theorem Effect.keeps (he : Effect client request s t) (hvolume : t.volumeState ≠ .removed)
    (h : s.HasOpen a handle) :
    t.HasOpen a handle ∨ u8At request 0 = closeFile.asU8 ∧ handle = u8At request 2 := by
  cases he with
  | nothing => exact .inl h
  | @opened u _ _ _ _ _ _ _ _ _ _ hprovided =>
    have hu : u.openFiles = s.openFiles := by cases hprovided <;> rfl
    refine .inl (openHandle_induction (P := (HasOpen · a handle)) (h.of_eq hu) fun _ => ?_)
    change _ ∈ (u.openFiles ++ [_]).map _
    rw [map_append, hu]
    exact mem_append_left _ h
  | closed hfunction hhandle =>
    rcases @HasOpen.erase s client a handle h (u8At request 2) with h | h
    · exact .inl (by rw [hhandle]; exact h)
    · exact .inr ⟨hfunction, h⟩
  | sought => exact .inl (hasOpen_setPosition.mpr h)
  | wrote => exact .inl (hasOpen_setPosition.mpr (h.of_eq rfl))
  | wentUp | wentTo =>
    exact .inl (h.of_eq (by rw [setCurrentDirectory, modifyClient, openFiles_ensureClient]))
  | movedFile | deletedDirectory | deletedFile | setAttributes | prepared
  | maintained => exact .inl (h.of_eq rfl)
  | initialized _ hopen =>
    rw [HasOpen, hopen] at h
    cases h
  | removed => exact absurd rfl hvolume

/-! ## Answers -/

/-- The handle an answer announces. -/
def opensHandle (response : List UInt8) : Option FileHandle :=
  if u8At response 0 = FSFunction.openFile.asU8 ∧ u8At response 2 = FSError.success.asU8 ∧
      ¬(u8At response 3 = reservedFileHandle0 ∨ u8At response 3 = invalidFileHandle) then
    some (u8At response 3)
  else none

/-- **A handle that is announced is there.** -/
theorem handleOpenFile_opens (h : s.handleOpenFile client tan request = .ok (t, response))
    (hopens : opensHandle response = some handle) : t.HasOpen client handle := by
  simp only [handleOpenFile, require_then_eq_ok, given_then_eq_ok] at h
  obtain ⟨-, -, _, -, _, -, -, -, -, h⟩ := h
  obtain ⟨⟨path, pattern⟩, -, h⟩ := bind_eq_ok.mp h
  simp only [require_then_eq_ok] at h
  obtain ⟨-, -, h⟩ := h
  obtain ⟨u, -, h⟩ := bind_eq_ok.mp h
  obtain ⟨position, -, h⟩ := bind_eq_ok.mp h
  have hresponse := congrArg Prod.snd (Except.ok.inj h)
  have ht := congrArg Prod.fst (Except.ok.inj h)
  rw [openHandle] at hresponse ht
  dsimp only at hresponse ht
  split at hresponse
  · rw [← hresponse] at hopens
    cases hopens
  rename_i hfound
  rw [if_neg hfound] at ht
  rw [← hresponse, opensHandle] at hopens
  split at hopens
  · rw [← ht]
    change _ ∈ (u.openFiles ++ [_]).map _
    rw [map_append, ← Option.some.inj hopens]
    exact mem_append_right _ mem_cons_self
  · cases hopens

theorem handleCloseFile_answers (h : s.handleCloseFile client tan request = .ok (t, response)) :
    response = successResponse .closeFile tan := by
  simp only [handleCloseFile, require_then_eq_ok] at h
  obtain ⟨-, -, -, h⟩ := h
  exact (congrArg Prod.snd (Except.ok.inj h)).symm

/-- **An answer has the number of its request.** -/
theorem handleFunction_tan (function : FSFunction) :
    Ensures (fun r => u8At r.2 1 = tan) (s.handleFunction client function tan request) := by
  cases function with
  | openFile =>
    simp only [handleFunction, handleOpenFile, ensures_bind, ensures_ok]
    intros
    rw [openHandle]
    dsimp only
    split <;> rfl
  | closeFile | writeFile | seekFile | moveFile | setFileAttributes | initializeVolume =>
    simp only [handleFunction, handleCloseFile, handleWriteFile, handleSeekFile, handleMoveFile,
      handleSetFileAttributes, handleInitializeVolume, ensures_bind, ensures_ok]
    intros
    rfl
  | readFile | deleteFile | changeDirectory | getFileServerProperties | getCurrentDirectory
  | getFileAttributes | getFileDateTime =>
    simp only [handleFunction, handleReadFile, handleReadDirectory, handleDeleteFile,
      handleChangeDirectory, same, ensures_map, handleGetProperties, handleGetCurrentDirectory,
      handleGetFileAttributes, handleGetFileDateTime, ensures_bind]
    intros
    repeat' split
    all_goals
      simp only [ensures_bind, ensures_ok]
      intros
      rfl
  | fileServerStatus | volumeStatus =>
    intro r hr
    simp only [handleFunction, reduceCtorEq] at hr

/-- **What the answer to a request says about the handles.** -/
structure Served (client : Address) (s : FileServer) (request : List UInt8) (t : FileServer)
    (o : FSOutbound) : Prop where
  reaches : Reaches client o
  tan : u8At o.data 1 = u8At request 1 ∨ u8At o.data 1 = invalidTan
  keeps : t.volumeState ≠ .removed → ∀ handle, s.HasOpen client handle → t.HasOpen client handle ∨
    u8At request 0 = FSFunction.closeFile.asU8 ∧ handle = u8At request 2 ∧
      o.data = successResponse .closeFile (u8At request 1)
  opens : u8At request 0 = FSFunction.openFile.asU8 → ∀ handle, opensHandle o.data = some handle →
    t.HasOpen client handle

/-- A request of any function but the volume's. -/
theorem executeFunction_served (hcwd : '/' ∉ s.currentDirectory client) (function : FSFunction)
    (hfunction : u8At request 0 = function.asU8) (htan : u8At request 1 = tan) :
    Served client s request (s.executeFunction client (u8At request 0) tan request).1
      (.sendTo (s.executeFunction client (u8At request 0) tan request).2 client) := by
  rw [hfunction, executeFunction, tryFromU8_asU8]
  dsimp only
  cases hr : s.handleFunction client function tan request with
  | error e =>
    refine ⟨.inl rfl, .inl htan.symm, fun _ handle h => .inl h, fun _ handle hopens => ?_⟩
    have hnone : opensHandle (encodeErrorResponse function.asU8 tan e) = none :=
      if_neg fun h => h.2.2 (.inr rfl)
    cases hnone.symm.trans hopens
  | ok r =>
    refine ⟨.inl rfl, .inl ((handleFunction_tan function _ hr).trans htan.symm),
      fun hvolume handle h => ?_, fun hopen handle hopens => ?_⟩
    · rcases (handleFunction_effect hcwd hfunction hr).keeps hvolume h with h | ⟨hclose, hhandle⟩
      · exact .inl h
      · refine .inr ⟨hclose, hhandle, ?_⟩
        obtain rfl := asU8_injective (hfunction.symm.trans hclose)
        rw [htan]
        exact handleCloseFile_answers hr
    · obtain rfl := asU8_injective (hfunction.symm.trans hopen)
      exact handleOpenFile_opens hr hopens

/-- A request about the volume. -/
theorem handleVolumeStatus_served (s : FileServer) (client : Address)
    (hfunction : u8At request 0 = volumeStatus.asU8) :
    ∃ t o, s.handleVolumeStatus client (u8At request 1) request = (t, [o]) ∧
      Served client s request t o := by
  obtain ⟨t, o, h, he, htan, hreaches⟩ := handleVolumeStatus_effect s client (u8At request 1)
    request
  refine ⟨t, o, h, hreaches, htan, fun hvolume handle hs => ?_, fun hopen => ?_⟩
  · rcases he.keeps hvolume hs with h | ⟨hclose, -⟩
    · exact .inl h
    · rw [hfunction] at hclose
      exact absurd hclose (by decide)
  · rw [hfunction] at hopen
    exact absurd hopen (by decide)

theorem Served.cached {o : FSOutbound} (h : Served client s request t o) (tan : TAN)
    (request' response' : List UInt8) :
    Served client s request (t.cacheResponse client tan request' response') o :=
  ⟨h.reaches, h.tan, h.keeps, h.opens⟩

theorem Served.ensured {o : FSOutbound} (h : Served client (s.ensureClient client) request t o) :
    Served client s request t o :=
  ⟨h.reaches, h.tan, fun hvolume handle hs =>
    h.keeps hvolume handle (hs.of_eq (openFiles_ensureClient s client)),
    h.opens⟩

/-- **A request that is carried out is answered by one frame.** -/
theorem handleClientMessage_served {msg : Message} {function : FSFunction} (hstand : s.Standing)
    (haccepted : Accepted msg) (hfunction : u8At msg.data 0 = function.asU8)
    (hnew : (s.ensureClient msg.source).cachedResponse msg.source (u8At msg.data 1) msg.data
      = none) :
    ∃ t o, s.handleClientMessage msg = (t, [o]) ∧ Served msg.source s msg.data t o := by
  by_cases hvolume : function = .volumeStatus
  · subst hvolume
    obtain ⟨t, o, h, hserved⟩ := handleVolumeStatus_served (s.ensureClient msg.source) msg.source
      hfunction
    refine ⟨t.cacheResponse msg.source (u8At msg.data 1) msg.data o.data, o, ?_,
      (hserved.cached _ _ _).ensured⟩
    rw [handleClientMessage]
    dsimp only
    rw [if_neg haccepted.envelope, if_neg haccepted.function, if_neg haccepted.tan, hnew]
    rw [if_pos hfunction, h]
    rfl
  · refine ⟨_, _, handleClientMessage_executed haccepted hnew hfunction hvolume, ?_⟩
    exact ((executeFunction_served ((hstand.ensureClient _).slash_notMem _) function hfunction
      rfl).cached _ _ _).ensured

end Machbus.Fs.FileServer
