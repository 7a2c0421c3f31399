import Machbus.Common.Pointed
import Machbus.Fs.HandleTable
/-!
# File server — files are byte arrays with pointers

A read, a write and a seek through a handle are what they are on an array
of bytes with a pointer: the file is the array, the handle's position the
pointer. That the code slices and copies within bounds rests on every
pointer lying within its file, whoever else writes to it, moves it or
deletes it in the meantime. Positions are told in 32 bits; a file that
the application made longer than that ends there for its readers.
-/

namespace Machbus.Fs

open List OrderedMap Option OpenFlags OpenFile

variable {data : List UInt8}

/-! ## The abstract files -/

/-- An open file as a pointer. -/
def OpenFile.pointer (f : OpenFile) : Pointer Text where
  name := f.path
  position := f.position
  mayRead := getAccessMode f.flags == OpenFlags.read.bit ||
    getAccessMode f.flags == OpenFlags.readWrite.bit
  mayWrite := getAccessMode f.flags == OpenFlags.write.bit ||
    getAccessMode f.flags == OpenFlags.readWrite.bit

/-- **The files of a server as arrays with pointers**, one for every handle
on a regular file. -/
def FileServer.arrays (s : FileServer) : PointedArrays Text (Address × FileHandle) UInt8 where
  array path := (s.files.get path).getD []
  locked := s.isReadOnly
  pointer h := ((s.findOpen h.1 h.2).filter fun f => !f.isDirectory).map pointer

def seekOrigin (mode : UInt8) : Option Origin :=
  match mode.toNat with
  | 0 => some .start
  | 1 => some .current
  | 2 => some .finish
  | _ => none

/-- **The access a request asks for**, if the request is well formed. -/
def requestedAccess (function : FSFunction) (request : List UInt8) : Option (Access UInt8) :=
  match function with
  | .readFile =>
    if 8 ≤ request.length ∧ fsPayloadLenIsCanonical request 8 ∧
        (u8At request 6 = 0xFF ∧ u8At request 7 = 0xFF) ∧
        (u8At request 5 = 0 ∨ u8At request 5 = 0xFF ∨ u8At request 5 = 1) then
      some (.read (u16At request 3))
    else none
  | .writeFile =>
    if 5 ≤ request.length ∧ fsPayloadLenIsCanonical request (5 + u16At request 3) then
      some (.write (slice request 5 (5 + u16At request 3)))
    else none
  | .seekFile =>
    if fsPayloadLenIsCanonical request 8 then
      (seekOrigin (u8At request 3)).map (.seek · (FileServer.i32At request 4))
    else none
  | _ => none

/-- What an access is answered with. -/
def accessAnswer (tan : TAN) : Accessed UInt8 → List UInt8
  | .items bytes => FileServer.readResponse tan bytes.length bytes
  | .written count =>
    frame8 ([FSFunction.writeFile.asU8, tan, FSError.success.asU8] ++ leBytes count 2)
  | .position p => [FSFunction.seekFile.asU8, tan, FSError.success.asU8, 0xFF] ++ leBytes p 4

theorem writeAt_eq_overwrite {bytes : List UInt8} {position : ℕ} (h : position ≤ data.length) :
    FileServer.writeAt data position bytes = overwrite data position bytes := by
  have hdrop : (data ++ .replicate (position + bytes.length - data.length) 0).drop
      (position + bytes.length) = data.drop (position + bytes.length) := by
    rw [drop_append, drop_replicate]
    have : position + bytes.length - data.length - (position + bytes.length - data.length) = 0 := by
      omega
    rw [this, replicate_zero, append_nil]
  rw [FileServer.writeAt, overwrite, hdrop, take_append_of_le_length h]

namespace FileServer

variable {f : OpenFile}

/-- **Every pointer lies within its file.** -/
def Within (s : FileServer) : Prop :=
  ∀ f ∈ s.openFiles, f.isDirectory = false → f.position ≤ s.wireSize f.path

section View

variable {s : FileServer} {client : Address} {handle : FileHandle} {f : OpenFile}

theorem extent_eq_wireSize (path : Text) : s.arrays.extent u32Max path = s.wireSize path := by
  change min ((s.files.get path).getD []).length u32Max = s.wireSize path
  rw [wireSize]
  cases s.files.get path with
  | none => rfl
  | some data => rfl

theorem pointer_of_findOpen (hf : s.findOpen client handle = some f)
    (hdir : f.isDirectory = false) : s.arrays.pointer (client, handle) = some f.pointer := by
  simp [arrays, hf, hdir]

theorem array_of_get (hdata : s.files.get f.path = some data) :
    s.arrays.array f.pointer.name = data := by
  change (s.files.get f.path).getD [] = data
  rw [hdata]
  rfl

theorem findOpen_of_pointer {q : Pointer Text} (h : s.arrays.pointer (client, handle) = some q) :
    ∃ f, s.findOpen client handle = some f ∧ f.isDirectory = false ∧ q = f.pointer := by
  simp only [arrays, map_eq_some_iff, filter_eq_some_iff, Bool.not_eq_true'] at h
  obtain ⟨f, ⟨hf, hdir⟩, rfl⟩ := h
  exact ⟨f, hf, hdir, rfl⟩

theorem findOpen_setPosition (s : FileServer) (client : Address) (handle : FileHandle)
    (position : ℕ) : (s.setPosition client handle position).findOpen client handle =
      (s.findOpen client handle).map fun f => { f with position } :=
  find?_modifyFirst fun _ => rfl

/-- Setting a position moves the pointer. -/
theorem arrays_setPosition (hf : s.findOpen client handle = some f) (hdir : f.isDirectory = false)
    (position : ℕ) :
    (s.setPosition client handle position).arrays = s.arrays.move
    (client, handle) f.pointer position := by
  ext1
  · rfl
  · rfl
  · funext ⟨c, h⟩
    refine .trans ?_ (Function.update_apply ..).symm
    split
    next he =>
      cases he
      have hfind := findOpen_setPosition s client handle position
      rw [hf] at hfind
      exact pointer_of_findOpen hfind hdir
    next hne =>
      have hfind : (s.setPosition client handle position).findOpen c h = s.findOpen c h := by
        refine find?_modifyFirst_of_ne (fun g hg => ?_) fun _ => rfl
        simp only [isOf, Bool.and_eq_true, beq_iff_eq] at hg
        obtain ⟨rfl, rfl⟩ := hg
        rw [isOf, Bool.and_eq_false_iff]
        by_contra hboth
        simp only [beq_eq_false_iff_ne, not_or, not_not] at hboth
        exact hne (Prod.ext hboth.2.symm hboth.1.symm)
      simp [arrays, hfind]

/-- Storing a file replaces the array. -/
theorem arrays_insert (path : Text) (data : List UInt8) :
    { s with files := s.files.insert path data }.arrays = s.arrays.put path data := by
  ext1
  · funext p
    refine .trans ?_ (Function.update_apply ..).symm
    change ((s.files.insert path data).get p).getD [] = _
    rw [get_insert]
    split <;> rfl
  · rfl
  · rfl

end View

/-! ## The three requests -/

section Requests

variable {s t : FileServer} {client : Address} {tan : TAN} {request response : List UInt8}
  {a : Access UInt8} {r : PointedArrays Text (Address × FileHandle) UInt8 × Accessed UInt8}

/-- The access a request asks for is made. -/
def Accesses (s : FileServer) (client : Address) (tan : TAN) (function : FSFunction)
    (request : List UInt8) (t : FileServer) (response : List UInt8) : Prop :=
  ∃ a out, requestedAccess function request = some a ∧
    s.arrays.access u32Max (client, u8At request 2) a = some (t.arrays, out) ∧
    response = accessAnswer tan out

/-- **A read.** -/
theorem handleReadFile_accesses (hfile : ∀ f, s.findOpen client (u8At request 2) = some f →
      f.isDirectory = false) (h : s.handleReadFile client tan request = .ok (t, response)) :
    s.Accesses client tan .readFile request t response := by
  simp only [handleReadFile, require_then_eq_ok, given_then_eq_ok] at h
  obtain ⟨-, hlength, hcanonical, hreserved, hhidden, f, hf, h⟩ := h
  have hdir := hfile f hf
  rw [if_neg (ne_true_of_eq_false hdir)] at h
  simp only [require_then_eq_ok, given_then_eq_ok] at h
  obtain ⟨hmode, data, hdata, hbefore, h⟩ := h
  cases h
  have hsize : s.wireSize f.path = fsFileSizeToWire data.length := by rw [wireSize, hdata]; rfl
  have hstop : min (f.position + u16At request 3) (s.wireSize f.path) =
      f.position + min (u16At request 3) (fsFileSizeToWire data.length - f.position) := by
    omega
  have hlen : (slice data f.position (f.position +
      min (u16At request 3) (fsFileSizeToWire data.length - f.position))).length =
      min (u16At request 3) (fsFileSizeToWire data.length - f.position) := by
    rw [fsFileSizeToWire] at hbefore ⊢
    simp only [slice, length_drop, length_take]
    omega
  refine ⟨.read (u16At request 3), .items (slice data f.position (f.position +
    min (u16At request 3) (fsFileSizeToWire data.length - f.position))), ?_, ?_, ?_⟩
  · rw [requestedAccess, if_pos ⟨hlength, hcanonical, hreserved, hhidden⟩]
  · rw [PointedArrays.access, pointer_of_findOpen hf hdir, bind_some]
    dsimp only
    rw [extent_eq_wireSize, if_pos ⟨by simpa [pointer] using hmode, hsize ▸ hbefore⟩,
      arrays_setPosition hf hdir, array_of_get hdata]
    change some (s.arrays.move _ f.pointer (min (f.position + _) (s.wireSize f.path)),
      Accessed.items ((data.take (min (f.position + _) (s.wireSize f.path))).drop f.position)) = _
    rw [hstop]
    rfl
  · rw [accessAnswer, hlen]

/-- **A write.** -/
theorem handleWriteFile_accesses (hwithin : s.Within)
    (h : s.handleWriteFile client tan request = .ok (t, response)) :
    s.Accesses client tan .writeFile request t response := by
  simp only [handleWriteFile, require_then_eq_ok, given_then_eq_ok] at h
  obtain ⟨-, hlength, hcanonical, f, hf, hdir, hmode, hlocked, data, hdata, hfit, h⟩ := h
  cases h
  have hdir : f.isDirectory = false := by simpa using hdir
  have hlen := length_writtenBytes hcanonical
  have hposition : f.pointer.position ≤ data.length := by
    have := hwithin f (findOpen_eq_some hf).1 hdir
    rw [wireSize, hdata] at this
    exact Nat.le_trans this (Nat.min_le_left ..)
  refine ⟨.write (slice request 5 (5 + u16At request 3)), .written (u16At request 3), ?_, ?_, rfl⟩
  · rw [requestedAccess, if_pos ⟨hlength, hcanonical⟩]
  · rw [PointedArrays.access, pointer_of_findOpen hf hdir, bind_some]
    dsimp only
    rw [if_pos ⟨by simpa [pointer] using hmode, hlocked, by rw [hlen]; exact hfit⟩,
      array_of_get hdata, hlen, ← writeAt_eq_overwrite hposition, ← arrays_insert]
    change some ((arrays { s with files := s.files.insert f.path (writeAt data f.position _) }).move
      _ _ (f.position + _), _) = _
    generalize writeAt data f.position (slice request 5 (5 + u16At request 3)) = new
    have hstored := arrays_setPosition (s := { s with files := s.files.insert f.path new }) hf hdir
      (f.position + u16At request 3)
    exact congrArg (fun m => some (m, Accessed.written (u16At request 3))) hstored.symm

/-- The code's base is that of the origin. -/
theorem seekBase_of_origin (f : OpenFile) {mode : UInt8} {origin : Origin} {offset : ℤ}
    (h : seekOrigin mode = some origin) :
    ∃ base, seekBase mode f.position (s.wireSize f.path) = some base ∧
      s.arrays.target u32Max f.pointer origin offset = base + offset := by
  rw [seekOrigin] at h
  split at h
  next hmode =>
    cases h
    exact ⟨0, by simp [seekBase, hmode], rfl⟩
  next hmode =>
    cases h
    exact ⟨f.position, by simp [seekBase, hmode], rfl⟩
  next hmode =>
    cases h
    refine ⟨s.wireSize f.path, by simp [seekBase, hmode], ?_⟩
    rw [PointedArrays.target, extent_eq_wireSize]
    rfl
  · cases h

theorem origin_of_seekBase {mode : UInt8} {base : ℕ} {offset : ℤ}
    (h : seekBase mode f.position (s.wireSize f.path) = some base) :
    ∃ origin, seekOrigin mode = some origin ∧
      s.arrays.target u32Max f.pointer origin offset = base + offset := by
  have hsome : ∃ origin, seekOrigin mode = some origin := by
    rw [seekBase] at h
    split at h
    · exact ⟨.start, by simp [seekOrigin, *]⟩
    · exact ⟨.current, by simp [seekOrigin, *]⟩
    · exact ⟨.finish, by simp [seekOrigin, *]⟩
    · cases h
  obtain ⟨origin, horigin⟩ := hsome
  obtain ⟨base', hbase, htarget⟩ := seekBase_of_origin f (s := s) horigin
  rw [h, Option.some.injEq] at hbase
  exact ⟨origin, horigin, hbase ▸ htarget⟩

/-- **A seek.** -/
theorem handleSeekFile_accesses (h : s.handleSeekFile client tan request = .ok (t, response)) :
    s.Accesses client tan .seekFile request t response := by
  simp only [handleSeekFile, require_then_eq_ok, given_then_eq_ok] at h
  obtain ⟨-, hcanonical, f, hf, hdir, base, hbase, hrange, h⟩ := h
  cases h
  have hdir : f.isDirectory = false := by simpa using hdir
  change 0 ≤ (base : ℤ) + i32At request 4 ∧
    (base : ℤ) + i32At request 4 ≤ s.wireSize f.pointer.name at hrange
  obtain ⟨origin, horigin, htarget⟩ := origin_of_seekBase hbase
  refine ⟨.seek origin (i32At request 4), .position ((base : ℤ) + i32At request 4).toNat, ?_, ?_,
    rfl⟩
  · rw [requestedAccess, if_pos hcanonical, horigin]
    rfl
  · rw [PointedArrays.access, pointer_of_findOpen hf hdir, bind_some]
    dsimp only
    rw [htarget, extent_eq_wireSize, if_pos hrange, arrays_setPosition hf hdir]

section

variable (h : s.HandleTable) (hr : s.arrays.access u32Max (client, u8At request 2) a = some r)
include h hr

/-- What an access that was made says about the handle. -/
theorem exists_of_access :
    ∃ f data, s.findOpen client (u8At request 2) = some f ∧ f.isDirectory = false ∧
      s.volumeState ≠ .removed ∧ s.files.get f.path = some data ∧
      s.wireSize f.path = fsFileSizeToWire data.length ∧
      s.arrays.pointer (client, u8At request 2) = some f.pointer := by
  obtain ⟨q, hq, -⟩ := bind_eq_some_iff.mp hr
  obtain ⟨f, hf, hdir, rfl⟩ := findOpen_of_pointer hq
  have hmem := (findOpen_eq_some hf).1
  obtain ⟨data, hdata⟩ := isSome_iff_exists.mp (h.stored f hmem hdir)
  refine ⟨f, data, hf, hdir, fun hremoved => ?_, hdata, ?_, hq⟩
  · rw [h.removed hremoved] at hmem
    cases hmem
  · rw [wireSize, hdata]
    rfl

/-- **What can be accessed is not refused.** -/
theorem handleReadFile_succeeds (ha : requestedAccess .readFile request = some a) :
    ∃ result, s.handleReadFile client tan request = .ok result := by
  obtain ⟨f, data, hf, hdir, hvolume, hdata, hsize, hq⟩ := exists_of_access h hr
  rw [requestedAccess] at ha
  split at ha
  next hformed =>
    cases ha
    rw [PointedArrays.access, hq, bind_some] at hr
    dsimp only at hr
    rw [extent_eq_wireSize] at hr
    split at hr
    next hallowed =>
      obtain ⟨hlength, hcanonical, hreserved, hhidden⟩ := hformed
      have hmode : getAccessMode f.flags = read.bit ∨ getAccessMode f.flags = readWrite.bit := by
        simpa [pointer] using hallowed.1
      have hbefore : f.position < fsFileSizeToWire data.length := hsize ▸ hallowed.2
      simp only [handleReadFile, require_bind_of hvolume, require_bind_of hlength,
        require_bind_of hcanonical, require_bind_of hreserved, require_bind_of hhidden,
        given_bind_of hf, hdir, require_bind_of hmode, given_bind_of hdata, require_bind_of hbefore]
      exact ⟨_, rfl⟩
    · cases hr
  · cases ha

theorem handleWriteFile_succeeds (ha : requestedAccess .writeFile request = some a) :
    ∃ result, s.handleWriteFile client tan request = .ok result := by
  obtain ⟨f, data, hf, hdir, hvolume, hdata, -, hq⟩ := exists_of_access h hr
  rw [requestedAccess] at ha
  split at ha
  next hformed =>
    cases ha
    rw [PointedArrays.access, hq, bind_some] at hr
    dsimp only at hr
    split at hr
    next hallowed =>
      obtain ⟨hlength, hcanonical⟩ := hformed
      obtain ⟨hmode, hlocked, hfit⟩ := hallowed
      rw [length_writtenBytes hcanonical] at hfit
      have hmode : getAccessMode f.flags = write.bit ∨ getAccessMode f.flags = readWrite.bit := by
        simpa [pointer] using hmode
      have hlocked : ¬s.isReadOnly f.path = true := hlocked
      have hfit : f.position + u16At request 3 ≤ u32Max := hfit
      have hfile : ¬f.isDirectory = true := ne_true_of_eq_false hdir
      simp only [handleWriteFile, require_bind_of hvolume, require_bind_of hlength,
        require_bind_of hcanonical, given_bind_of hf, require_bind_of hfile, require_bind_of hmode,
        require_bind_of hlocked, given_bind_of hdata, require_bind_of hfit]
      exact ⟨_, rfl⟩
    · cases hr
  · cases ha

theorem handleSeekFile_succeeds (ha : requestedAccess .seekFile request = some a) :
    ∃ result, s.handleSeekFile client tan request = .ok result := by
  obtain ⟨f, data, hf, hdir, hvolume, hdata, hsize, hq⟩ := exists_of_access h hr
  rw [requestedAccess] at ha
  split at ha
  next hcanonical =>
    obtain ⟨origin, horigin, rfl⟩ := map_eq_some_iff.mp ha
    rw [PointedArrays.access, hq, bind_some] at hr
    dsimp only at hr
    split at hr
    next hrange =>
      obtain ⟨base, hbase, htarget⟩ := seekBase_of_origin f horigin
      rw [htarget, extent_eq_wireSize] at hrange
      have hfile : ¬f.isDirectory = true := ne_true_of_eq_false hdir
      simp only [handleSeekFile, require_bind_of hvolume, require_bind_of hcanonical,
        given_bind_of hf, require_bind_of hfile]
      have hrange : 0 ≤ (base : ℤ) + i32At request 4 ∧ (base : ℤ) + i32At request 4 ≤
          ((s.files.get f.path).map (fsFileSizeToWire ·.length)).getD 0 := hrange
      rw [wireSize] at hbase
      rw [given_bind_of hbase, require_bind_of hrange]
      exact ⟨_, rfl⟩
    · cases hr
  · cases ha

end

/-- Failures are told apart from success. -/
theorem handleReadFile_refuses : Refuses (· ≠ .success) (s.handleReadFile client tan request) := by
  simp only [handleReadFile, handleReadDirectory, refuses_require, refuses_given]
  simp only [ne_eq, reduceCtorEq, not_false_eq_true, implies_true, true_and]
  intros
  split <;> simp

theorem handleSeekFile_refuses : Refuses (· ≠ .success) (s.handleSeekFile client tan request) := by
  simp only [handleSeekFile, refuses_require, refuses_given, refuses_ok]
  simp only [ne_eq, reduceCtorEq, not_false_eq_true, implies_true, true_and, and_true]
  intros
  split <;> simp

end Requests

/-! ## Pointers stay within -/

section Pointers

variable {s t : FileServer}

theorem wireSize_le_of_length {path : Text} {new : List UInt8}
    (hdata : s.files.get path = some data) (hlength : data.length ≤ new.length) (p : Text) :
    s.wireSize p ≤ { s with files := s.files.insert path new }.wireSize p := by
  rw [wireSize, wireSize, get_insert]
  split
  · subst p
    rw [hdata]
    simp only [map_some, getD_some, fsFileSizeToWire]
    omega
  · exact Nat.le_refl _

/-- Handles where they were, and no file shorter. -/
theorem Within.transfer (h : s.Within)
    (hopen : ∀ f ∈ t.openFiles, f.isDirectory = false → f ∈ s.openFiles ∨
      f.position ≤ t.wireSize f.path)
    (hsize : ∀ f ∈ s.openFiles, f.isDirectory = false → s.wireSize f.path ≤ t.wireSize f.path) :
    t.Within := by
  intro f hf hdir
  rcases hopen f hf hdir with hmem | hle
  · exact Nat.le_trans (h f hmem hdir) (hsize f hmem hdir)
  · exact hle

theorem Within.of_same (h : s.Within) (hopen : ∀ f ∈ t.openFiles, f ∈ s.openFiles)
    (hfiles : t.files = s.files) : t.Within := by
  refine h.transfer (fun f hf _ => .inl (hopen f hf)) fun f _ _ => ?_
  rw [wireSize, wireSize, hfiles]

theorem Within.ensureClient (h : s.Within) (a : Address) : (s.ensureClient a).Within := by
  refine h.of_same (fun f hf => ?_) ?_
  · exact openFiles_ensureClient s a ▸ hf
  · rw [ensureClient_eq]

theorem wireSize_congr {p : Text} (h : t.files.get p = s.files.get p) :
    t.wireSize p = s.wireSize p := by
  rw [wireSize, wireSize, h]

/-- A file that is made is one that was not open. -/
theorem Within.provides {path : Text} {flags : UInt8} {isDirectory : Bool} (h : s.Within)
    (htable : s.HandleTable) (hp : s.Provides path flags isDirectory t) : t.Within := by
  cases hp with
  | directory => exact h
  | file => exact h
  | newDirectory => exact h.of_same (fun _ hf => hf) rfl
  | newFile hnew =>
    refine h.transfer (fun f hf _ => .inl hf) fun f hf hdir => ?_
    have hne : f.path ≠ path := by
      rintro rfl
      rw [htable.stored f hf hdir] at hnew
      cases hnew
    refine (wireSize_congr ?_).ge
    rw [get_insert, if_neg hne]

theorem Within.pushOpen (h : s.Within)
    (hf : f.isDirectory = false → f.position ≤ s.wireSize f.path) : (s.pushOpen f).Within := by
  refine h.transfer (fun g hg hdir => ?_) fun g _ _ => Nat.le_refl _
  rcases mem_append.mp hg with hg | hg
  · exact .inl hg
  · rw [mem_singleton.mp hg] at hdir ⊢
    exact .inr (hf hdir)

/-- A pointer is set within its file. -/
theorem Within.setPosition {client : Address} {handle : FileHandle} {position : ℕ}
    (h : s.Within) (hf : s.findOpen client handle = some f)
    (hposition : f.isDirectory = false → position ≤ s.wireSize f.path) :
    (s.setPosition client handle position).Within := by
  refine h.transfer (fun g hg hdir => ?_) fun g _ _ => Nat.le_refl _
  rcases mem_modifyFirst_find? hg with hg | ⟨g', hg', rfl⟩
  · exact .inl hg
  · rw [findOpen, hg', Option.some.injEq] at hf
    subst hf
    exact .inr (hposition hdir)

theorem Within.effect {a : Address} {request : List UInt8} (h : s.Within) (htable : s.HandleTable)
    (he : Effect a request s t) : t.Within := by
  cases he with
  | nothing => exact h
  | @opened u _ _ _ _ _ _ _ _ _ _ hprovided hposition =>
    have hu : ∀ next, { u with nextHandle := next }.Within := fun _ =>
      (h.provides htable hprovided).of_same (fun _ hf => hf) rfl
    exact openHandle_induction (P := Within) (hu _) fun _ => (hu _).pushOpen hposition
  | closed => exact h.of_same (fun _ hf => mem_of_mem_eraseP hf) rfl
  | sought hf hposition => exact h.setPosition hf hposition
  | @wrote handle f data bytes dateTimes hf hdata hfit =>
    -- the file grows if anything, and the pointer ends where the bytes end
    have hlength : data.length ≤ (writeAt data f.position bytes).length ∧
        f.position + bytes.length ≤ (writeAt data f.position bytes).length := by
      simp only [writeAt, length_append, length_take, length_drop, length_replicate]
      omega
    generalize writeAt data f.position bytes = new at hlength ⊢
    have hstored : { s with files := s.files.insert f.path new }.Within :=
      h.transfer (fun g hg _ => .inl hg) fun g _ _ => wireSize_le_of_length hdata hlength.1 g.path
    refine .of_same (hstored.setPosition hf fun _ => ?_) (fun _ hg => hg) rfl
    rw [wireSize, get_insert, if_pos rfl]
    simp only [map_some, getD_some, fsFileSizeToWire]
    omega
  | wentUp | wentTo => exact h.ensureClient a
  | @movedFile source dest data attrs dateTimes _ hopen hfree =>
    refine h.transfer (fun f hf _ => .inl hf) fun f hf hdir => (wireSize_congr ?_).ge
    have hne : f.path ≠ dest := by
      rintro rfl
      rw [htable.stored f hf hdir] at hfree
      cases hfree
    rw [get_insert, if_neg hne, get_remove, if_neg (ne_of_isPathOpen hopen hf)]
  | deletedDirectory | setAttributes | prepared | maintained =>
    exact h.of_same (fun _ hf => hf) rfl
  | deletedFile hopen =>
    refine h.transfer (fun f hf _ => .inl hf) fun f hf hdir => (wireSize_congr ?_).ge
    rw [dropFile, get_remove, if_neg (ne_of_isPathOpen hopen hf)]
  | initialized _ _ ht =>
    rw [ht]
    exact fun _ hf => absurd hf not_mem_nil
  | removed => exact fun _ hf => absurd hf not_mem_nil

/-- **Pointers stay within their files.** -/
theorem within_preserved : Preserved fun s => s.HandleTable ∧ s.Within :=
  handleTable_preserved.and
    { clock := fun _ _ _ _ _ _ h => h.of_same (fun _ hf => hf) rfl
      entries := fun _ _ _ h => h.of_same (fun _ hf => hf) rfl
      removed := fun _ _ => nofun
      pruned := fun _ h => h.of_same (fun _ hf => mem_of_mem_filter hf) rfl }
    (fun _ a h => h.ensureClient a) fun _ _ _ _ htable h he => h.effect htable he

end Pointers

/-! ## Runs -/

section Runs

variable {s : FileServer} {client : Address} {request : List UInt8}

/-- **A request is the access it asks for**, or an error and nothing else. -/
theorem executeFunction_accesses (htable : s.HandleTable) (hwithin : s.Within) (tan : TAN)
    {function : FSFunction}
    (hkind : function = .readFile ∨ function = .writeFile ∨ function = .seekFile)
    (hfile : ∀ f, s.findOpen client (u8At request 2) = some f → f.isDirectory = false) :
    match (requestedAccess function request).bind
        (s.arrays.access u32Max (client, u8At request 2)) with
    | some (m, out) =>
      (s.executeFunction client function.asU8 tan request).1.arrays = m ∧
      (s.executeFunction client function.asU8 tan request).2 = accessAnswer tan out
    | none =>
      (s.executeFunction client function.asU8 tan request).1 = s ∧
      ∃ e, e ≠ .success ∧ (s.executeFunction client function.asU8 tan request).2 =
        encodeErrorResponse function.asU8 tan e := by
  -- the three handlers agree with the access in each direction
  have hmade : ∀ t response, s.handleFunction client function tan request = .ok (t, response) →
      s.Accesses client tan function request t response := by
    obtain rfl | rfl | rfl := hkind
    · exact fun _ _ h => handleReadFile_accesses hfile h
    · exact fun _ _ h => handleWriteFile_accesses hwithin h
    · exact fun _ _ h => handleSeekFile_accesses h
  have hpossible : ∀ a r, requestedAccess function request = some a →
      s.arrays.access u32Max (client, u8At request 2) a = some r →
      ∃ result, s.handleFunction client function tan request = .ok result := by
    obtain rfl | rfl | rfl := hkind
    · exact fun _ _ ha hr => handleReadFile_succeeds htable hr ha
    · exact fun _ _ ha hr => handleWriteFile_succeeds htable hr ha
    · exact fun _ _ ha hr => handleSeekFile_succeeds htable hr ha
  have hfailure : Refuses (· ≠ .success) (s.handleFunction client function tan request) := by
    obtain rfl | rfl | rfl := hkind
    · exact handleReadFile_refuses
    · simp [FileServer.handleFunction, handleWriteFile]
    · exact handleSeekFile_refuses
  cases hhandled : s.handleFunction client function tan request with
  | ok result =>
    obtain ⟨t, response⟩ := result
    have hexecuted : s.executeFunction client function.asU8 tan request = (t, response) := by
      simp [executeFunction, hhandled]
    obtain ⟨a, out, ha, hout, rfl⟩ := hmade t response hhandled
    rw [ha, bind_some, hout, hexecuted]
    exact ⟨rfl, rfl⟩
  | error e =>
    have hexecuted : s.executeFunction client function.asU8 tan request =
        (s, encodeErrorResponse function.asU8 tan e) := by
      simp [executeFunction, hhandled]
    have hnone : (requestedAccess function request).bind
        (s.arrays.access u32Max (client, u8At request 2)) = none := by
      cases hbind : (requestedAccess function request).bind
          (s.arrays.access u32Max (client, u8At request 2)) with
      | none => rfl
      | some r =>
        obtain ⟨a, ha, hr⟩ := bind_eq_some_iff.mp hbind
        obtain ⟨result, hok⟩ := hpossible a r ha hr
        rw [hok] at hhandled
        cases hhandled
    rw [hnone, hexecuted]
    exact ⟨rfl, e, hfailure e hhandled, rfl⟩

theorem arrays_ensureClient (s : FileServer) (a : Address) :
    (s.ensureClient a).arrays = s.arrays := by
  rw [ensureClient_eq]
  rfl

theorem Fresh.within (h : s.Fresh) : s.Within := by
  intro f hf
  rw [h.openFiles] at hf
  cases hf

/-- **File access refines byte arrays with pointers.** In every state a
server can get to, every pointer lies within its file, as far as 32 bits
tell; and a read, write or seek that is carried out on a regular file
does what the access does on the arrays and answers with what it gives
back, or fails and leaves arrays and pointers as they are, just when the
access is not possible. -/
theorem file_access_refines (config : FileServerConfig) (calls : List SetUp)
    (acts : List ServerAct) :
    let s := run step (run setUp (new config) calls) acts
    (∀ h q, s.arrays.pointer h = some q → q.position ≤ s.arrays.extent u32Max q.name) ∧
    ∀ (msg : Message) (function : FSFunction), Accepted msg →
      (s.ensureClient msg.source).cachedResponse msg.source (u8At msg.data 1) msg.data = none →
      function = .readFile ∨ function = .writeFile ∨ function = .seekFile →
      u8At msg.data 0 = function.asU8 →
      (∀ f, s.findOpen msg.source (u8At msg.data 2) = some f → f.isDirectory = false) →
      match (requestedAccess function msg.data).bind
          (s.arrays.access u32Max (msg.source, u8At msg.data 2)) with
      | some (m, out) =>
        (s.handleClientMessage msg).1.arrays = m ∧
        (s.handleClientMessage msg).2 = [.sendTo (accessAnswer (u8At msg.data 1) out) msg.source]
      | none =>
        (s.handleClientMessage msg).1.arrays = s.arrays ∧
        ∃ e, e ≠ .success ∧ (s.handleClientMessage msg).2 =
          [.sendTo (encodeErrorResponse (u8At msg.data 0) (u8At msg.data 1) e) msg.source] := by
  intro s
  have hfresh := fresh_setUp config calls
  obtain ⟨-, htable, hwithin⟩ :=
    within_preserved.run hfresh.standing ⟨hfresh.handleTable, hfresh.within⟩ acts
  refine ⟨fun ⟨client, handle⟩ q hq => ?_, fun msg function haccepted hnew hkind hcode hfile => ?_⟩
  · obtain ⟨f, hf, hdir, rfl⟩ := findOpen_of_pointer hq
    rw [extent_eq_wireSize]
    exact hwithin f (findOpen_eq_some hf).1 hdir
  · have hopen : (s.ensureClient msg.source).findOpen = s.findOpen := by
      rw [ensureClient_eq]
      rfl
    have hstate := executeFunction_accesses (handleTable_preserved.ensured s msg.source htable)
      (hwithin.ensureClient msg.source) (u8At msg.data 1) hkind (hopen ▸ hfile)
    rw [arrays_ensureClient, ← hcode] at hstate
    have hother : function ≠ .volumeStatus := by rcases hkind with rfl | rfl | rfl <;> decide
    rw [handleClientMessage_executed haccepted hnew hcode hother]
    dsimp only
    split at hstate
    · exact ⟨hstate.1, by rw [hstate.2]⟩
    obtain ⟨hsame, e, he, hanswer⟩ := hstate
    refine ⟨?_, e, he, by rw [hanswer]⟩
    have hkept := congrArg arrays hsame
    rw [arrays_ensureClient] at hkept
    exact hkept

/-- A file is opened for reading and its pointer set to the end. -/
def openedAtEnd : List ServerAct :=
  [.message (requestOf 0x21 ([0x20, 0, 0x00, 2, 0] ++ utf8 "\\A".toList)),
   .message (requestOf 0x21 [0x21, 1, 1, 2, 0, 0, 0, 0])]

/-- The end is where 32 bits end. -/
theorem openedAtEnd_state (hdata : u32Max < data.length) :
    let s := run step (run setUp (new {}) [.addFile "\\A".toList data 0]) openedAtEnd
    s.volumeState = .present ∧ s.files.get "\\A".toList = some data ∧
      (s.ensureClient 0x21).cachedResponse 0x21 2 [0x22, 2, 1, 1, 0, 0, 0xFF, 0xFF] = none ∧
      s.findOpen 0x21 1 = some ⟨1, 0x21, "\\A".toList, u32Max, 0, false, ['*']⟩ := by
  intro s
  have hsize : fsFileSizeToWire data.length = u32Max := by
    rw [fsFileSizeToWire]
    omega
  obtain ⟨u, hu⟩ : ∃ u, u = step (run setUp (new {}) [.addFile "\\A".toList data 0])
      (.message (requestOf 0x21 ([0x20, 0, 0x00, 2, 0] ++ utf8 "\\A".toList))) := ⟨_, rfl⟩
  have hs : s = (u.handleClientMessage (requestOf 0x21 [0x21, 1, 1, 2, 0, 0, 0, 0])).1 := by
    rw [hu]
    rfl
  have hensured : u.ensureClient 0x21 = u := by
    rw [hu]
    rfl
  have hfiles : u.files.get "\\A".toList = some data := by
    rw [hu]
    rfl
  have hopen : u.findOpen 0x21 1 = some ⟨1, 0x21, "\\A".toList, 0, 0, false, ['*']⟩ := by
    rw [hu]
    rfl
  have hvolume : u.volumeState = .present := by
    rw [hu]
    rfl
  have hnew : (u.ensureClient 0x21).cachedResponse 0x21 1 [0x21, 1, 1, 2, 0, 0, 0, 0] = none := by
    rw [hu]
    rfl
  have hstop : ((u.files.get "\\A".toList).map (fsFileSizeToWire ·.length)).getD 0 = u32Max := by
    rw [hfiles]
    exact hsize
  have hseek : (u.ensureClient 0x21).handleFunction 0x21 .seekFile 1 [0x21, 1, 1, 2, 0, 0, 0, 0] =
      .ok (u.setPosition 0x21 1 u32Max, [0x21, 1, 0, 0xFF] ++ leBytes u32Max 4) := by
    have hhandle : u8At [0x21, 1, 1, 2, 0, 0, 0, 0] 2 = 1 := rfl
    rw [hensured, handleFunction]
    simp only [handleSeekFile, hvolume, hhandle, given_bind_of hopen, hstop]
    rfl
  have hstep := handleClientMessage_of_ok (⟨rfl, rfl, rfl, by decide, by decide, by decide⟩ :
      Accepted (requestOf 0x21 [0x21, 1, 1, 2, 0, 0, 0, 0])) hnew rfl (by decide) hseek
  rw [hs, hstep]
  refine ⟨hvolume, hfiles, by rw [hu]; rfl, ?_⟩
  have hmoved := findOpen_setPosition u 0x21 1 u32Max
  rw [hopen] at hmoved
  exact hmoved

/-- The pointer is before the end of the file, and a read fails. -/
theorem read_fails_at_limit (hdata : u32Max < data.length) :
    let s := run step (run setUp (new {}) [.addFile "\\A".toList data 0]) openedAtEnd
    ∃ q, s.arrays.pointer (0x21, 1) = some q ∧ q.position < (s.arrays.array q.name).length ∧
      (s.handleClientMessage (requestOf 0x21 [0x22, 2, 1, 1, 0, 0, 0xFF, 0xFF])).2 =
        [.sendTo (encodeErrorResponse 0x22 2 .endOfFile) 0x21] := by
  intro s
  obtain ⟨hvolume, hfiles, hnew, hopen⟩ := openedAtEnd_state hdata
  change s.volumeState = _ at hvolume
  change s.files.get _ = _ at hfiles
  change s.findOpen 0x21 1 = _ at hopen
  change (s.ensureClient 0x21).cachedResponse _ _ _ = _ at hnew
  clear_value s
  refine ⟨_, pointer_of_findOpen hopen rfl, ?_, ?_⟩
  · change u32Max < ((s.files.get "\\A".toList).getD []).length
    rw [hfiles]
    exact hdata
  · have hsize : fsFileSizeToWire data.length = u32Max := by
      rw [fsFileSizeToWire]
      omega
    have hread : (s.ensureClient 0x21).handleFunction 0x21 .readFile 2
        [0x22, 2, 1, 1, 0, 0, 0xFF, 0xFF] = .error .endOfFile := by
      rw [ensureClient_eq]
      simp only [hvolume]
      change (given (s.findOpen 0x21 1) _ >>= _) = _
      rw [given_bind_of hopen]
      rw [given_bind_of hfiles]
      rw [hsize]
      rfl
    exact congrArg Prod.snd (handleClientMessage_of_error
      (⟨rfl, rfl, rfl, by decide, by decide, by decide⟩ :
        Accepted (requestOf 0x21 [0x22, 2, 1, 1, 0, 0, 0xFF, 0xFF])) hnew rfl (by decide) hread)

/-- **Behind 32 bits nothing is read.** A file of `2^32` bytes: the pointer
is before its end, and a read fails. -/
theorem read_stops_at_limit :
    let s := run step (run setUp (new {}) [.addFile "\\A".toList (List.replicate (2 ^ 32) 0) 0])
      openedAtEnd
    ∃ q, s.arrays.pointer (0x21, 1) = some q ∧ q.position < (s.arrays.array q.name).length ∧
      (s.handleClientMessage (requestOf 0x21 [0x22, 2, 1, 1, 0, 0, 0xFF, 0xFF])).2 =
        [.sendTo (encodeErrorResponse 0x22 2 .endOfFile) 0x21] :=
  read_fails_at_limit (List.length_replicate.symm ▸ (by decide : u32Max < 2 ^ 32))

end Runs

end FileServer

end Machbus.Fs
