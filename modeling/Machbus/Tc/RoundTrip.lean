import Machbus.Tc.Model.Ddop
/-!
# Object pools survive the wire

For each kind of object: the bytes it is written as, and that its parser
takes exactly these off the front and gives the object. Only a device
depends on what follows it. Without an extended label its record ends
where the next one starts, and the parser tells the two apart by the next
byte, which must not look like the length of a label.

A pool is a list of records, read back one by one. `validate` checks most
of what the writer and the reader insist on, but not all of it: the writer
refuses an extended label of more than 32 bytes and process data whose
property bits are reserved or contradict each other, and the reader
refuses the reserved dictionary ids. With these conditions a validated
pool comes back; without any one of them it does not.
-/

namespace Machbus.Tc

open Reader

variable {bytes : List UInt8} {s : String}

/-- Nothing follows, or the first letter of a table id does. -/
def AtRecord (rest : List UInt8) : Prop := rest = [] ∨ ∃ tail, rest = 68 :: tail

namespace Parse

variable {P : List UInt8 → Prop}

theorem reads_readWord {n : ℕ} {bs : List UInt8} (h : bs.length = n) :
    Reads P (readWord n) bs (ofLe bs) :=
  (reads_take h).map ofLe

theorem length_leBytes (w n : ℕ) : (leBytes w n).length = n := by simp [leBytes]

/-- A word that fits its bytes is read back. -/
theorem reads_leBytes {n w : ℕ} (h : w < 256 ^ n) : Reads P (readWord n) (leBytes w n) w := by
  have hread : Reads P (readWord n) (leBytes w n) _ := reads_readWord (length_leBytes w n)
  rwa [ofLe_leBytes, Nat.mod_eq_of_lt h] at hread

theorem reads_readU8 (b : UInt8) : Reads P readU8 [b] b := by
  have h : Reads P readU8 [b] (UInt8.ofNat (ofLe [b])) := (reads_readWord rfl).map UInt8.ofNat
  simpa using h

theorem reads_readU16 (v : UInt16) : Reads P readU16 (pushU16Le v) v := by
  have h := (reads_leBytes (P := P) (n := 2) (by simpa using v.toNat_lt)).map UInt16.ofNat
  rwa [UInt16.ofNat_toNat] at h

theorem reads_readI32 (v : Int32) : Reads P readI32 (pushI32Le v) v := by
  have h := (reads_leBytes (P := P) (n := 4) (by simpa using v.toUInt32.toNat_lt)).map
    (fun w => (UInt32.ofNat w).toInt32)
  rwa [UInt32.ofNat_toNat] at h

theorem reads_readLabel (v : Vector UInt8 7) : Reads P readLabel v.toList v := by
  have h := (reads_take (P := P) (e := truncatedError) (v.length_toList)).map
    fun l => Vector.ofFn fun i : Fin 7 => l.getD i 0
  have hv : (.ofFn fun i : Fin 7 => v.toList.getD i 0) = v := by
    simp
  rwa [hv] at h

theorem textOfBytes_asBytes (s : String) : textOfBytes (asBytes s) = s := by
  have h : String.fromUTF8? ⟨(asBytes s).toArray⟩ = some s := by
    simp [asBytes, String.fromUTF8?, String.fromUTF8, s.isValidUTF8]
  rw [textOfBytes, h, Option.getD_some]

theorem reads_readString (h : (asBytes s).length ≤ ddopTextMaxBytes) :
    Reads P readString (.ofNat (asBytes s).length :: asBytes s) s := by
  have hlen : (UInt8.ofNat (asBytes s).length).toNat = (asBytes s).length := by
    have : ddopTextMaxBytes < 256 := by decide
    exact Nat.mod_eq_of_lt (by omega)
  refine (reads_readU8 _).bind ((reads_take hlen.symm).finish ?_)
  rw [textOfBytes_asBytes]
  exact reads_pure s

/-- A label of at most 32 bytes is read back, whatever follows. -/
theorem reads_label {l : List UInt8} (h : l.length ≤ 32) :
    Reads P readExtendedStructureLabel (UInt8.ofNat l.length :: l) l := by
  intro rest _
  have hlen : (UInt8.ofNat l.length).toNat = l.length := by
    exact Nat.mod_eq_of_lt (by omega)
  have hfits : l.length ≤ 32 ∧ l.length ≤ (l ++ rest).length := by
    rw [List.length_append]
    omega
  simp only [readExtendedStructureLabel, List.cons_append, hlen, if_pos hfits, List.take_left,
    List.drop_left]

/-- A table id is not taken for a label. -/
theorem reads_no_label : Reads AtRecord readExtendedStructureLabel [] [] := by
  rintro rest (rfl | ⟨tail, rfl⟩)
  · rfl
  · rfl

end Parse

/-- What a text is written as, once it is short enough. -/
theorem pushStrWithLen_eq_ok {field : String} (h : pushStrWithLen field s = .ok bytes) :
    (asBytes s).length ≤ ddopTextMaxBytes ∧ bytes = .ofNat (asBytes s).length :: asBytes s := by
  rw [pushStrWithLen, check_bind_eq_ok, require_eq_ok] at h
  obtain ⟨hlen, heq⟩ := h
  cases heq
  exact ⟨hlen, rfl⟩

theorem pushStrWithLen_of_le (field : String) (h : (asBytes s).length ≤ ddopTextMaxBytes) :
    pushStrWithLen field s = .ok (.ofNat (asBytes s).length :: asBytes s) := by
  rw [pushStrWithLen, check_bind_eq_ok, require_eq_ok]
  exact ⟨h, rfl⟩

/-- The device as a version writes it: the extended label only from
version 4 on. -/
def DeviceObject.atVersion (d : DeviceObject) (version : UInt8) : DeviceObject :=
  if ddopVersionExtendedStructureLabel ≤ version then d
  else { d with extendedStructureLabel := [] }

open Parse

theorem DeviceObject.reads {d : DeviceObject} {v : UInt8}
    (h : d.serializeForVersion v = .ok bytes) :
    ∃ body, bytes = TCObjectType.device.tableId ++ (pushU16Le d.id ++ body) ∧
      Reads AtRecord (parseDevice d.id) body (d.atVersion v) := by
  rw [serializeForVersion, check_bind_eq_ok, require_eq_ok] at h
  obtain ⟨hlabel, h⟩ := h
  simp only [bind_eq_ok] at h
  obtain ⟨_, hdesw, _, hsvw, _, hserw, h⟩ := h
  obtain ⟨hdes, rfl⟩ := pushStrWithLen_eq_ok hdesw
  obtain ⟨hsv, rfl⟩ := pushStrWithLen_eq_ok hsvw
  obtain ⟨hser, rfl⟩ := pushStrWithLen_eq_ok hserw
  cases h
  refine ⟨_, rfl, ?_⟩
  refine (reads_readString hdes).bind ((reads_readString hsv).bind
    ((reads_leBytes (by simpa using d.clientName.toNat_lt)).bind
      ((reads_readString hser).bind (.need ?_ ((reads_readLabel _).bind
        ((reads_readLabel _).bind ?_))))))
  · simp
    omega
  · -- with the label whatever follows, without it in front of a record only
    rw [atVersion, UInt64.ofNat_toNat]
    split
    · exact (reads_label hlabel).finish (reads_pure _)
    · exact reads_no_label.finish (reads_pure _)

theorem elementType_asU8 (t : DeviceElementType) : elementType t.asU8 = some t := by
  cases t <;> rfl

theorem DeviceElement.reads {e : DeviceElement} (h : e.serialize = .ok bytes) :
    ∃ body, bytes = TCObjectType.deviceElement.tableId ++ (pushU16Le e.id ++ body) ∧
      Reads AtRecord (parseElement e.id) body e := by
  rw [serialize, check_bind_eq_ok, require_eq_ok, bind_eq_ok] at h
  obtain ⟨hchildren, _, hdesw, h⟩ := h
  obtain ⟨hdes, rfl⟩ := pushStrWithLen_eq_ok hdesw
  cases h
  have hcount : (UInt16.ofNat e.childObjects.length).toNat = e.childObjects.length := by
    exact Nat.mod_eq_of_lt (by omega)
  refine ⟨_, rfl, ?_⟩
  refine (reads_readU8 _).bind ?_
  rw [elementType_asU8]
  refine (reads_readString hdes).bind (.need ?_ ((reads_readU16 _).bind
    ((reads_readU16 _).bind ((reads_readU16 _).bind (.need ?_ ?_)))))
  · simp [pushU16Le, length_leBytes]
    omega
  · simp [pushU16Le, length_leBytes, hcount]
  · rw [hcount]
    exact (reads_times reads_readU16 _).finish (reads_pure _)

/-- A data dictionary id a reader accepts. -/
def DDI.Named (ddi : DDI) : Prop := ddi ≠ 0 ∧ ddi ≠ 0xFFFF

theorem DeviceProcessData.reads {pd : DeviceProcessData}
    (h : pd.serialize = .ok bytes) (hddi : DDI.Named pd.ddi) :
    ∃ body, bytes = TCObjectType.deviceProcessData.tableId ++ (pushU16Le pd.id ++ body) ∧
      Reads AtRecord (parseProcessData pd.id) body pd := by
  rw [serialize, check_bind_eq_ok, check_bind_eq_ok, bind_eq_ok] at h
  obtain ⟨htrigger, hprops, _, hdesw, h⟩ := h
  obtain ⟨hdes, rfl⟩ := pushStrWithLen_eq_ok hdesw
  rw [validateTriggerMethods, require_eq_ok] at htrigger
  cases h
  refine ⟨_, rfl, .need ?_ ((reads_readU16 _).bind (.ensure hddi
    ((reads_readU8 _).bind ((reads_readU8 _).bind (.ensure htrigger
      ((reads_readString hdes).bind ((reads_readU16 _).finish ?_)))))))⟩
  · simp [pushU16Le, length_leBytes]
    omega
  · intro rest _
    change (liftM pd.validateProperties >>= fun _ => pure pd : Parse DeviceProcessData) rest = _
    rw [hprops]
    rfl

theorem DeviceProperty.reads {p : DeviceProperty}
    (h : p.serialize = .ok bytes) (hddi : DDI.Named p.ddi) :
    ∃ body, bytes = TCObjectType.deviceProperty.tableId ++ (pushU16Le p.id ++ body) ∧
      Reads AtRecord (parseProperty p.id) body p := by
  rw [serialize, bind_eq_ok] at h
  obtain ⟨_, hdesw, h⟩ := h
  obtain ⟨hdes, rfl⟩ := pushStrWithLen_eq_ok hdesw
  cases h
  refine ⟨_, rfl, .need ?_ ((reads_readU16 _).bind (.ensure hddi
    ((reads_readI32 _).bind ((reads_readString hdes).bind
      ((reads_readU16 _).finish (reads_pure _))))))⟩
  simp [pushU16Le, pushI32Le, length_leBytes]
  omega

theorem DeviceValuePresentation.reads {vp : DeviceValuePresentation}
    (h : vp.serialize = .ok bytes) :
    ∃ body, bytes = TCObjectType.deviceValuePresentation.tableId ++ (pushU16Le vp.id ++ body) ∧
      Reads AtRecord (parseValuePresentation vp.id) body vp := by
  rw [serialize, check_bind_eq_ok, require_eq_ok, bind_eq_ok] at h
  obtain ⟨hscale, _, hdesw, h⟩ := h
  obtain ⟨hdes, rfl⟩ := pushStrWithLen_eq_ok hdesw
  cases h
  refine ⟨_, rfl, .need ?_ ((reads_readI32 _).bind
    ((reads_leBytes (by simpa using vp.scale.bits.toNat_lt)).bind ?_))⟩
  · simp [pushI32Le, length_leBytes]
    omega
  · rw [UInt32.ofNat_toNat]
    exact .ensure hscale ((reads_readU8 _).bind ((reads_readString hdes).finish (reads_pure _)))

/-! ## Pools -/

open List Yields

variable {v : UInt8}

/-- One object of a pool. -/
inductive Record
  | device (d : DeviceObject)
  | element (e : DeviceElement)
  | processData (pd : DeviceProcessData)
  | property (p : DeviceProperty)
  | valuePresentation (vp : DeviceValuePresentation)

namespace Record

def serialize (v : UInt8) : Record → Except Error (List UInt8)
  | device d => d.serializeForVersion v
  | element e => e.serialize
  | processData pd => pd.serialize
  | property p => p.serialize
  | valuePresentation vp => vp.serialize

/-- The bytes of a record that can be written. -/
def write (v : UInt8) (r : Record) : List UInt8 := (r.serialize v).toOption.getD []

theorem serialize_eq_write {r : Record} (h : ∃ bytes, r.serialize v = .ok bytes) :
    r.serialize v = .ok (r.write v) := by
  obtain ⟨bytes, h⟩ := h
  rw [write, h]
  rfl

def atVersion (v : UInt8) : Record → Record
  | device d => device (d.atVersion v)
  | r => r

def push (pool : DDOP) : Record → DDOP
  | device d => { pool with devices := pool.devices ++ [d] }.noteId d.id
  | element e => { pool with elements := pool.elements ++ [e] }.noteId e.id
  | processData pd => { pool with processData := pool.processData ++ [pd] }.noteId pd.id
  | property p => { pool with properties := pool.properties ++ [p] }.noteId p.id
  | valuePresentation vp =>
    { pool with valuePresentations := pool.valuePresentations ++ [vp] }.noteId vp.id

/-- What the reader insists on and the writer does not. -/
def Named : Record → Prop
  | processData pd => DDI.Named pd.ddi
  | property p => DDI.Named p.ddi
  | _ => True

end Record

theorem fromTableId_tableId (t : TCObjectType) : TCObjectType.fromTableId t.tableId = some t := by
  cases t <;> rfl

/-- The header of a record is five bytes and starts with a letter. -/
theorem reads_readRecord {t : TCObjectType} {id : ObjectID} {body : List UInt8} {pool pool' : DDOP}
    (h : Reads AtRecord (pool.readObject id t) body pool') :
    Reads AtRecord pool.readRecord (t.tableId ++ (pushU16Le id ++ body)) (pool'.noteId id) := by
  have hlen : t.tableId.length = 3 := by cases t <;> rfl
  refine .need ?_ (.bind (reads_take hlen) ?_)
  · simp only [length_append, pushU16Le, Parse.length_leBytes]
    omega
  · rw [fromTableId_tableId]
    exact (Parse.reads_readU16 id).bind (h.finish (reads_pure _))

/-- **One round of the reading loop takes one record.** -/
theorem Record.reads {r : Record} {bytes : List UInt8}
    (h : r.serialize v = .ok bytes) (hn : r.Named) :
    (∃ tail, bytes = 68 :: tail) ∧
      ∀ pool : DDOP, Reads AtRecord pool.readRecord bytes (Record.push pool (r.atVersion v)) := by
  cases r with
  | device d =>
    obtain ⟨body, rfl, hbody⟩ := DeviceObject.reads h
    have hid : (d.atVersion v).id = d.id := by
      rw [DeviceObject.atVersion]
      split <;> rfl
    refine ⟨⟨_, rfl⟩, fun pool => ?_⟩
    rw [atVersion, push, hid]
    exact reads_readRecord (t := .device) (hbody.finish (reads_pure _))
  | element e =>
    obtain ⟨body, rfl, hbody⟩ := DeviceElement.reads h
    exact ⟨⟨_, rfl⟩, fun pool =>
      reads_readRecord (t := .deviceElement) (hbody.finish (reads_pure _))⟩
  | processData pd =>
    obtain ⟨body, rfl, hbody⟩ := DeviceProcessData.reads h hn
    exact ⟨⟨_, rfl⟩, fun pool =>
      reads_readRecord (t := .deviceProcessData) (hbody.finish (reads_pure _))⟩
  | property p =>
    obtain ⟨body, rfl, hbody⟩ := DeviceProperty.reads h hn
    exact ⟨⟨_, rfl⟩, fun pool =>
      reads_readRecord (t := .deviceProperty) (hbody.finish (reads_pure _))⟩
  | valuePresentation vp =>
    obtain ⟨body, rfl, hbody⟩ := DeviceValuePresentation.reads h
    exact ⟨⟨_, rfl⟩, fun pool =>
      reads_readRecord (t := .deviceValuePresentation) (hbody.finish (reads_pure _))⟩

/-! ## Pools as lists of records -/

namespace DDOP

variable {d : DDOP}

/-- The records of a pool, in the order they are written. -/
def records (d : DDOP) : List Record :=
  d.devices.map .device ++ (d.elements.map .element ++ (d.processData.map .processData ++
    (d.properties.map .property ++ d.valuePresentations.map .valuePresentation)))

/-- **A pool whose records can all be written is their concatenation.** -/
theorem serializeForVersion_eq (hs : d.validateSerializable = .ok ())
    (h : ∀ r ∈ d.records, ∃ bytes, r.serialize v = .ok bytes) :
    d.serializeForVersion v = .ok (d.records.flatMap (Record.write v)) := by
  have hlist : ∀ {α : Type} {l : List α} (k : α → Record), (∀ x ∈ l, k x ∈ d.records) →
      l.mapM (fun x => (k x).serialize v) = .ok (l.map fun x => (k x).write v) :=
    fun k hk => mapM_eq_ok_map fun x hx => Record.serialize_eq_write (h _ (hk x hx))
  have hdev : d.devices.mapM (·.serializeForVersion v) = _ := hlist .device (by simp [records])
  have helem : d.elements.mapM (·.serialize) = _ := hlist .element (by simp [records])
  have hpd : d.processData.mapM (·.serialize) = _ := hlist .processData (by simp [records])
  have hprop : d.properties.mapM (·.serialize) = _ := hlist .property (by simp [records])
  have hvp : d.valuePresentations.mapM (·.serialize) = _ :=
    hlist .valuePresentation (by simp [records])
  rw [serializeForVersion, hs, hdev, helem, hpd, hprop, hvp]
  simp only [records, flatMap_append, flatMap_map]
  rfl

/-- The objects of `d'` are those of `d` as version `v` writes them: the
same lists in the same order, the extended labels empty before
version 4. -/
structure ReadsAs (d' d : DDOP) (v : UInt8) : Prop where
  devices : d'.devices = d.devices.map (·.atVersion v)
  elements : d'.elements = d.elements
  processData : d'.processData = d.processData
  properties : d'.properties = d.properties
  valuePresentations : d'.valuePresentations = d.valuePresentations

/-- A list of the pool that each record extends by what it selects of it
collects what all of them select. -/
theorem foldl_push {α : Type} (list : DDOP → List α) (select : Record → Option α)
    (h : ∀ pool r, list (Record.push pool r) = list pool ++ (select r).toList) :
    ∀ (rs : List Record) (pool : DDOP),
      list (rs.foldl Record.push pool) = list pool ++ rs.filterMap select
  | [], pool => by simp
  | r :: rs, pool => by
    rw [foldl_cons, foldl_push list select h rs, h]
    cases hsel : select r <;> simp [hsel]

@[simp] theorem noteId_eq (d : DDOP) (id : ObjectID) :
    d.noteId id = { d with nextId := if d.nextId ≤ id then id + 1 else d.nextId } := by
  rw [noteId]
  split_ifs <;> rfl

/-- Pushing the records of a pool one after the other rebuilds it. -/
theorem readsAs_foldl_push (d : DDOP) (v : UInt8) :
    ReadsAs ((d.records.map (.atVersion v)).foldl Record.push {}) d v := by
  -- each list gets the records of its kind
  refine ⟨(foldl_push devices (fun | .device x => some x | _ => none) ?_ _ _).trans ?_,
    (foldl_push elements (fun | .element x => some x | _ => none) ?_ _ _).trans ?_,
    (foldl_push processData (fun | .processData x => some x | _ => none) ?_ _ _).trans ?_,
    (foldl_push properties (fun | .property x => some x | _ => none) ?_ _ _).trans ?_,
    (foldl_push valuePresentations (fun | .valuePresentation x => some x | _ => none)
      ?_ _ _).trans ?_⟩
  all_goals first
    | rintro pool (_ | _ | _ | _ | _) <;> simp [Record.push]
    | simp [records, Function.comp_def, Record.atVersion]

/-! ## What the reader accepts -/

/-- What every pool that was read satisfies. -/
structure Accepted (d : DDOP) : Prop where
  processData : ∀ pd ∈ d.processData, DDI.Named pd.ddi ∧ pd.validateProperties = .ok ()
  properties : ∀ p ∈ d.properties, DDI.Named p.ddi

theorem yields_parseProcessData (id : ObjectID) : Yields (Parse.parseProcessData id)
      fun pd => DDI.Named pd.ddi ∧ pd.validateProperties = .ok () := by
  refine (trivial _).bind fun _ _ => (trivial _).bind fun ddi _ =>
    yields_ensure.bind fun _ hddi => (trivial _).bind fun _ _ =>
      (trivial _).bind fun _ _ => (trivial _).bind fun _ _ =>
        (trivial _).bind fun _ _ => (trivial _).bind fun _ _ => ?_
  exact (yields_lift _).bind fun _ hprops => yields_pure ⟨hddi, hprops⟩

theorem yields_parseProperty (id : ObjectID) :
    Yields (Parse.parseProperty id) fun p => DDI.Named p.ddi :=
  (trivial _).bind fun _ _ => (trivial _).bind fun _ _ =>
    yields_ensure.bind fun _ hddi => (trivial _).bind fun _ _ =>
      (trivial _).bind fun _ _ => (trivial _).bind fun _ _ => yields_pure hddi

theorem yields_readObject (h : d.Accepted) (id : ObjectID) (t : TCObjectType) :
    Yields (d.readObject id t) Accepted := by
  cases t with
  | device | deviceElement | deviceValuePresentation =>
    exact (trivial _).bind fun _ _ => yields_pure ⟨h.1, h.2⟩
  | deviceProcessData =>
    exact (yields_parseProcessData id).bind fun pd hpd =>
      yields_pure ⟨forall_mem_append.mpr ⟨h.1, forall_mem_singleton.mpr hpd⟩, h.2⟩
  | deviceProperty =>
    exact (yields_parseProperty id).bind fun p hp =>
      yields_pure ⟨h.1, forall_mem_append.mpr ⟨h.2, forall_mem_singleton.mpr hp⟩⟩

theorem yields_readRecord (h : d.Accepted) : Yields d.readRecord Accepted := by
  refine (trivial _).bind fun _ _ => (trivial _).bind fun tableId _ => ?_
  cases TCObjectType.fromTableId tableId with
  | none => exact yields_throw _
  | some t =>
    refine (trivial _).bind fun id _ => (yields_readObject h id t).bind fun d' hd' =>
      yields_pure ⟨?_, ?_⟩
    · simpa using hd'.1
    · simpa using hd'.2

/-- **What was read was accepted.** -/
theorem accepted_of_deserialize {data : List UInt8} (h : deserialize data = .ok d) : d.Accepted :=
  drain_keeps (fun _ => yields_readRecord) _ _ _ _ ⟨forall_mem_nil _, forall_mem_nil _⟩ h

/-! ## Round trips -/

/-- What the writer and the reader insist on and `validate` does not
check. -/
structure Encodable (d : DDOP) : Prop where
  label : ∀ dev ∈ d.devices, dev.extendedStructureLabel.length ≤ 32
  processData : ∀ pd ∈ d.processData,
    pd.properties &&& 0xF8 = 0 ∧ (pd.properties &&& 0x02 = 0 ∨ pd.properties &&& 0x04 = 0) ∧
      pd.ddi ≠ 0 ∧ pd.ddi ≠ 0xFFFF
  properties : ∀ p ∈ d.properties, p.ddi ≠ 0 ∧ p.ddi ≠ 0xFFFF

/-- Writing succeeds, and reading what was written gives the objects
back. -/
def RoundTrips (d : DDOP) (v : UInt8) : Prop :=
  ∃ data d', d.serializeForVersion v = .ok data ∧ deserialize data = .ok d' ∧ ReadsAs d' d v

theorem validateProperties_eq_ok {pd : DeviceProcessData} : pd.validateProperties = .ok () ↔
      pd.properties &&& 0xF8 = 0 ∧ (pd.properties &&& 0x02 = 0 ∨ pd.properties &&& 0x04 = 0) := by
  rw [DeviceProcessData.validateProperties, check_bind_eq_ok, require_eq_ok, require_eq_ok]

/-- A pool that passes the check of its texts has nothing left to fail on
but what `Encodable` names. -/
theorem serialize_records (v : UInt8) (hs : d.validateSerializable = .ok ())
    (he : d.Encodable) : ∀ r ∈ d.records, ∃ bytes, r.serialize v = .ok bytes := by
  simp only [validateSerializable, check_bind_eq_ok, forM_eq_ok, require_eq_ok,
    validateWireText] at hs
  obtain ⟨hdev, helem, hpd, hprop, hvp⟩ := hs
  intro r hr
  simp only [records, mem_append, mem_map] at hr
  rcases hr with ⟨x, hx, rfl⟩ | ⟨x, hx, rfl⟩ | ⟨x, hx, rfl⟩ | ⟨x, hx, rfl⟩ | ⟨x, hx, rfl⟩
  · obtain ⟨-, hdes, hsv, hser⟩ := hdev x hx
    exact ⟨_, check_bind_eq_ok.mpr ⟨require_eq_ok.mpr (he.label x hx),
      bind_eq_ok.mpr ⟨_, pushStrWithLen_of_le _ hdes, bind_eq_ok.mpr ⟨_, pushStrWithLen_of_le _ hsv,
        bind_eq_ok.mpr ⟨_, pushStrWithLen_of_le _ hser, rfl⟩⟩⟩⟩⟩
  · obtain ⟨hdes, hchildren⟩ := helem x hx
    exact ⟨_, check_bind_eq_ok.mpr ⟨require_eq_ok.mpr hchildren,
      bind_eq_ok.mpr ⟨_, pushStrWithLen_of_le _ hdes, rfl⟩⟩⟩
  · obtain ⟨htrigger, hdes⟩ := hpd x hx
    obtain ⟨hbits, hexcl, -⟩ := he.processData x hx
    exact ⟨_, check_bind_eq_ok.mpr ⟨htrigger, check_bind_eq_ok.mpr
      ⟨validateProperties_eq_ok.mpr ⟨hbits, hexcl⟩,
        bind_eq_ok.mpr ⟨_, pushStrWithLen_of_le _ hdes, rfl⟩⟩⟩⟩
  · exact ⟨_, bind_eq_ok.mpr ⟨_, pushStrWithLen_of_le _ (hprop x hx), rfl⟩⟩
  · obtain ⟨hscale, hdes⟩ := hvp x hx
    exact ⟨_, check_bind_eq_ok.mpr ⟨require_eq_ok.mpr hscale,
      bind_eq_ok.mpr ⟨_, pushStrWithLen_of_le _ hdes, rfl⟩⟩⟩

theorem Encodable.named (he : d.Encodable) : ∀ r ∈ d.records, r.Named := by
  intro r hr
  simp only [records, mem_append, mem_map] at hr
  rcases hr with ⟨x, hx, rfl⟩ | ⟨x, hx, rfl⟩ | ⟨x, hx, rfl⟩ | ⟨x, hx, rfl⟩ | ⟨x, hx, rfl⟩
  · trivial
  · trivial
  · exact (he.processData x hx).2.2
  · exact he.properties x hx
  · trivial

/-- What was written is read back. -/
theorem roundTrips_of_encodable (v : UInt8) (hs : d.validateSerializable = .ok ())
    (he : d.Encodable) : d.RoundTrips v := by
  have hser := serialize_records v hs he
  refine ⟨_, _, serializeForVersion_eq hs hser, ?_, readsAs_foldl_push d v⟩
  have hread : deserialize (d.records.flatMap (Record.write v))
      = .ok (d.records.foldl (fun pool r => Record.push pool (r.atVersion v)) {}) := by
    refine drain_flatMap (P := AtRecord) (.inl rfl) _ (fun r hr => ?_) _ le_rfl
    obtain ⟨⟨tail, hhead⟩, hreads⟩ :=
      Record.reads (Record.serialize_eq_write (hser r hr)) (he.named r hr)
    refine ⟨?_, fun l => .inr ⟨tail ++ l, ?_⟩, hreads⟩
    · rw [hhead]
      exact cons_ne_nil _ _
    · rw [hhead]
      rfl
  rw [hread, foldl_map]

/-- A pool that comes back could be written and was accepted. -/
theorem encodable_of_roundTrips (h : d.RoundTrips v) : d.Encodable := by
  obtain ⟨data, d', hwrite, hread, hsame⟩ := h
  have hacc := accepted_of_deserialize hread
  constructor
  · rw [serializeForVersion, check_bind_eq_ok, bind_eq_ok] at hwrite
    obtain ⟨-, _, hdevices, -⟩ := hwrite
    intro dev hdev
    obtain ⟨_, hbytes⟩ := exists_eq_ok_of_mapM hdevices dev hdev
    rw [DeviceObject.serializeForVersion, check_bind_eq_ok, require_eq_ok] at hbytes
    exact hbytes.1
  · intro pd hpd
    rw [← hsame.processData] at hpd
    obtain ⟨hddi, hprops⟩ := hacc.processData pd hpd
    obtain ⟨hbits, hexcl⟩ := validateProperties_eq_ok.mp hprops
    exact ⟨hbits, hexcl, hddi⟩
  · intro p hp
    rw [← hsame.properties] at hp
    exact hacc.properties p hp

theorem validateSerializable_of_validate (h : d.validate = .ok ()) :
    d.validateSerializable = .ok () := by
  simp only [validate, check_bind_eq_ok] at h
  exact h.2.2.1

/-- **A validated pool comes back exactly when it is encodable.** -/
theorem round_trip {d : DDOP} (h : d.validate = .ok ()) (v : UInt8) :
    d.RoundTrips v ↔ d.Encodable :=
  ⟨encodable_of_roundTrips, roundTrips_of_encodable v (validateSerializable_of_validate h)⟩

/-- A device with one element, which reports one process datum. -/
def oneDatum (pd : DeviceProcessData) : DDOP where
  devices := [{ designator := "D", extendedStructureLabel := [1, 2] }]
  elements := [{ id := 2, childObjects := [3] }]
  processData := [{ pd with id := 3 }]

theorem round_trip_one_datum : (oneDatum { ddi := 1, designator := "m³" }).validate = .ok () ∧
      (oneDatum { ddi := 1, designator := "m³" }).RoundTrips 4 := by
  have hvalid : (oneDatum { ddi := 1, designator := "m³" }).validate = .ok () := by
    decide +kernel
  refine ⟨hvalid, (round_trip hvalid 4).mpr ⟨?_, ?_, ?_⟩⟩ <;> decide

/-- The default process datum has the dictionary id 0: the pool is
validated and written, and its bytes are refused. -/
theorem null_ddi_refused :
    (oneDatum {}).validate = .ok () ∧
      ((oneDatum {}).serializeForVersion 4).bind deserialize
        = .error (poolError "DDOP process data DDI 0 and 65535 are reserved NULL DDIs") ∧
      ¬ (oneDatum {}).RoundTrips 4 := by
  refine ⟨by decide +kernel, by decide +kernel, ?_⟩
  intro h
  have hnamed := (encodable_of_roundTrips h).processData _ (mem_singleton_self _)
  exact hnamed.2.2.1 rfl

end DDOP

end Machbus.Tc
