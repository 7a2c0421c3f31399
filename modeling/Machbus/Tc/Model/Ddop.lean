import Machbus.Common.Reader
import Machbus.Tc.Model.Objects
/-!
# Task controller — device descriptor object pools

A pool is five lists of objects. `validate` checks the references between
them, `serializeForVersion` writes them one record after the other, and
`deserialize` reads records until the bytes are used up.
-/

namespace Machbus.Tc

structure DDOP where
  devices : List DeviceObject := []
  elements : List DeviceElement := []
  processData : List DeviceProcessData := []
  properties : List DeviceProperty := []
  valuePresentations : List DeviceValuePresentation := []
  nextId : ObjectID := 0
  deriving DecidableEq, Repr

def maxProcessDataElementNumber : ℕ := 0x0FFF

def poolError (msg : String) : Error := .withMessage .poolValidation msg

def validateWireText (field value : String) : Except Error Unit :=
  require ((asBytes value).length ≤ ddopTextMaxBytes) (textLimitError field)

def pushUniqueId (ids : List ObjectID) (id : ObjectID) : Except Error (List ObjectID) := do
  require (id ≠ ObjectID.null) (poolError "object ID 0xFFFF is reserved")
  require (id ∉ ids) (poolError "duplicate DDOP object id")
  pure (ids ++ [id])

namespace DDOP

/-! ## Validation -/

variable (d : DDOP)

def objectKind (id : ObjectID) : Option TCObjectType :=
  if d.devices.any (·.id == id) then some .device
  else if d.elements.any (·.id == id) then some .deviceElement
  else if d.processData.any (·.id == id) then some .deviceProcessData
  else if d.properties.any (·.id == id) then some .deviceProperty
  else if d.valuePresentations.any (·.id == id) then some .deviceValuePresentation
  else none

def vpExists (id : ObjectID) : Bool := d.valuePresentations.any (·.id == id)

def validateSerializable : Except Error Unit := do
  d.devices.forM fun dev => do
    require (dev.designator ≠ "") (.invalidState "device designator is required")
    validateWireText "device designator" dev.designator
    validateWireText "device software version" dev.softwareVersion
    validateWireText "device serial number" dev.serialNumber
  d.elements.forM fun elem => do
    validateWireText "device element designator" elem.designator
    require (elem.childObjects.length ≤ 0xFFFF) tooManyChildrenError
  d.processData.forM fun pd => do
    pd.validateTriggerMethods
    validateWireText "process data designator" pd.designator
  d.properties.forM fun prop => validateWireText "property designator" prop.designator
  d.valuePresentations.forM fun vp => do
    require vp.scale.isFinite scaleError
    validateWireText "value presentation unit designator" vp.unitDesignator

def validateUniqueObjectIds : Except Error Unit := do
  let ids ← (d.devices.map (·.id)).foldlM pushUniqueId []
  let ids ← (d.elements.map (·.id)).foldlM pushUniqueId ids
  let ids ← (d.processData.map (·.id)).foldlM pushUniqueId ids
  let ids ← (d.properties.map (·.id)).foldlM pushUniqueId ids
  let _ ← (d.valuePresentations.map (·.id)).foldlM pushUniqueId ids
  pure ()

/-- One device, with id 0, and one element of its kind, numbered 0. -/
def validateObjectHierarchy : Except Error Unit := do
  match d.devices with
  | [dev] =>
    require (dev.id = 0) (poolError "A.7 Figure A.1: the DeviceObject has ObjectId 0")
  | _ => throw (poolError "A.7: a DDOP shall contain exactly one DeviceObject")
  match d.elements.filter (·.type == .device) with
  | [root] =>
    require (root.number = 0) (poolError "A.3: the device-type DeviceElement is element number 0")
  | _ => throw (poolError "A.3: a DDOP shall contain exactly one DeviceElement of type device")
  d.elements.forM fun elem =>
    require (elem.number.toNat ≤ maxProcessDataElementNumber)
      (poolError "element number exceeds the 12-bit process-data field")

def validateParent (elem : DeviceElement) : Except Error Unit :=
  if elem.parentId = ObjectID.null then .ok ()
  else
    match d.objectKind elem.parentId with
    | some .device | some .deviceElement => .ok ()
    | some _ => .error (poolError "element parent references unsupported object type")
    | none => .error (poolError "element references non-existent parent")

def validateChild (elem : DeviceElement) (cid : ObjectID) : Except Error Unit := do
  require (cid ≠ elem.id) (poolError "element child list references itself")
  match d.objectKind cid with
  | some .deviceElement | some .deviceProcessData | some .deviceProperty => pure ()
  | some _ => throw (poolError "element child references unsupported object type")
  | none => throw (poolError "element references non-existent child object")

/-- A property may also name object 0 as its presentation. -/
def validate : Except Error Unit := do
  require (d.devices ≠ []) (.invalidState "DDOP must have at least one device")
  require (d.elements ≠ []) (.invalidState "DDOP must have at least one device element")
  d.validateSerializable
  d.validateUniqueObjectIds
  d.validateObjectHierarchy
  d.elements.forM fun elem => do
    require (elem.parentId ≠ elem.id) (poolError "element parent references itself")
    d.validateParent elem
    elem.childObjects.forM (d.validateChild elem)
  d.processData.forM fun pd =>
    require (pd.presentationObjectId = ObjectID.null ∨ d.vpExists pd.presentationObjectId)
      (poolError "process data references non-existent presentation object")
  d.properties.forM fun p =>
    require (p.presentationObjectId = ObjectID.null ∨ p.presentationObjectId = 0 ∨
        d.vpExists p.presentationObjectId)
      (poolError "property references non-existent presentation object")

/-! ## Writing -/

def serializeForVersion (version : UInt8) : Except Error (List UInt8) := do
  d.validateSerializable
  let devices ← d.devices.mapM (·.serializeForVersion version)
  let elements ← d.elements.mapM (·.serialize)
  let processData ← d.processData.mapM (·.serialize)
  let properties ← d.properties.mapM (·.serialize)
  let valuePresentations ← d.valuePresentations.mapM (·.serialize)
  pure (devices.flatten ++ (elements.flatten ++ (processData.flatten ++ (properties.flatten ++
    valuePresentations.flatten))))

end DDOP

/-! ## Reading -/

def truncatedError : Error := poolError "DDOP data truncated during deserialization"

abbrev Parse := Reader UInt8 Error

namespace Parse

def take (n : ℕ) : Parse (List UInt8) := Reader.take n truncatedError

def need (n : ℕ) : Parse Unit := Reader.need n truncatedError

def readWord (n : ℕ) : Parse ℕ := ofLe <$> take n

def readU8 : Parse UInt8 := UInt8.ofNat <$> readWord 1
def readU16 : Parse UInt16 := UInt16.ofNat <$> readWord 2
def readI32 : Parse Int32 := (fun w => (UInt32.ofNat w).toInt32) <$> readWord 4

/-- Seven bytes. -/
def readLabel : Parse (Vector UInt8 7) :=
  (fun l => Vector.ofFn fun i : Fin 7 => l.getD i 0) <$> take 7

/-- Bytes that are not UTF-8 are read as one character each. -/
def textOfBytes (bytes : List UInt8) : String :=
  (String.fromUTF8? ⟨bytes.toArray⟩).getD (String.ofList (bytes.map fun b => Char.ofNat b.toNat))

def readString : Parse String := do
  let len ← readU8
  let bytes ← take len.toNat
  pure (textOfBytes bytes)

/-- The label is there when the next byte can be its length. -/
def readExtendedStructureLabel : Parse (List UInt8) := fun data =>
  match data with
  | [] => .ok ([], [])
  | len :: tail =>
    if len.toNat ≤ 32 ∧ len.toNat ≤ tail.length then
      .ok (tail.take len.toNat, tail.drop len.toNat)
    else .ok ([], len :: tail)

variable (id : ObjectID)

def parseDevice : Parse DeviceObject := do
  let designator ← readString
  let softwareVersion ← readString
  let clientName ← readWord 8
  let serialNumber ← readString
  need 14
  let structureLabel ← readLabel
  let localizationLabel ← readLabel
  let extendedStructureLabel ← readExtendedStructureLabel
  pure { id, designator, softwareVersion, clientName := UInt64.ofNat clientName, serialNumber,
         structureLabel, localizationLabel, extendedStructureLabel }

def elementType (b : UInt8) : Option DeviceElementType :=
  match b with
  | 1 => some .device
  | 2 => some .function
  | 3 => some .bin
  | 4 => some .section_
  | 5 => some .unit
  | 6 => some .connector
  | 7 => some .navigationReference
  | _ => none

def parseElement : Parse DeviceElement := do
  let b ← readU8
  let some type := elementType b | throw (poolError "unknown device element type in DDOP")
  let designator ← readString
  need 6
  let number ← readU16
  let parentId ← readU16
  let numChildren ← readU16
  need (numChildren.toNat * 2)
  let childObjects ← Reader.times readU16 numChildren.toNat
  pure { id, type, number, parentId, designator, childObjects }

def parseProcessData : Parse DeviceProcessData := do
  need 5
  let ddi ← readU16
  Reader.ensure (ddi ≠ 0 ∧ ddi ≠ 0xFFFF)
    (poolError "DDOP process data DDI 0 and 65535 are reserved NULL DDIs")
  let properties ← readU8
  let triggerMethods ← readU8
  Reader.ensure (triggerMethods &&& 0xE0 = 0)
    (poolError "DDOP trigger method reserved bits 5..7 must be zero")
  let designator ← readString
  let presentationObjectId ← readU16
  let processData : DeviceProcessData :=
    { id, ddi, properties, triggerMethods, presentationObjectId, designator }
  processData.validateProperties
  pure processData

def parseProperty : Parse DeviceProperty := do
  need 8
  let ddi ← readU16
  Reader.ensure (ddi ≠ 0 ∧ ddi ≠ 0xFFFF)
    (poolError "DDOP property DDI 0 and 65535 are reserved NULL DDIs")
  let value ← readI32
  let designator ← readString
  let presentationObjectId ← readU16
  pure { id, ddi, value, presentationObjectId, designator }

def parseValuePresentation : Parse DeviceValuePresentation := do
  need 9
  let offset ← readI32
  let scale ← readWord 4
  let scale : F32 := ⟨UInt32.ofNat scale⟩
  Reader.ensure scale.isFinite (poolError "DDOP value presentation scale is not finite")
  let decimalDigits ← readU8
  let unitDesignator ← readString
  pure { id, offset, scale, decimalDigits, unitDesignator }

end Parse

namespace DDOP

variable (d : DDOP)

/-- The next free id stays above every id read. -/
def noteId (id : ObjectID) : DDOP :=
  if d.nextId ≤ id then { d with nextId := id + 1 } else d

/-- The body of a record, behind its header. -/
def readObject (objId : ObjectID) : TCObjectType → Parse DDOP
  | .device => do
      let dev ← Parse.parseDevice objId
      pure { d with devices := d.devices ++ [dev] }
  | .deviceElement => do
      let e ← Parse.parseElement objId
      pure { d with elements := d.elements ++ [e] }
  | .deviceProcessData => do
      let pd ← Parse.parseProcessData objId
      pure { d with processData := d.processData ++ [pd] }
  | .deviceProperty => do
      let p ← Parse.parseProperty objId
      pure { d with properties := d.properties ++ [p] }
  | .deviceValuePresentation => do
      let vp ← Parse.parseValuePresentation objId
      pure { d with valuePresentations := d.valuePresentations ++ [vp] }

/-- One round of the reading loop. -/
def readRecord : Parse DDOP := do
  Parse.need 5
  let tableId ← Parse.take 3
  let some objectType := TCObjectType.fromTableId tableId
    | throw (poolError "unknown TC object table ID in DDOP")
  let objId ← Parse.readU16
  let d ← d.readObject objId objectType
  pure (d.noteId objId)

/-- Every record takes its five header bytes at least, so there are fewer
rounds than bytes. -/
def deserialize (data : List UInt8) : Except Error DDOP :=
  Reader.drain readRecord truncatedError data.length {} data

/-! ## Building a pool -/

def objectCount : ℕ :=
  d.devices.length + d.elements.length + d.processData.length + d.properties.length +
    d.valuePresentations.length

def noIdError : Error := poolError "DDOP has no available object identifiers"

/-- The search for a free id, from a candidate on. -/
def findId (d : DDOP) : ℕ → ObjectID → Except Error (DDOP × ObjectID)
  | 0, _ => .error noIdError
  | n + 1, candidate =>
    if candidate ≠ ObjectID.null ∧ (d.objectKind candidate).isNone then
      let next := candidate + 1
      .ok ({ d with nextId := if next = ObjectID.null then 0 else next }, candidate)
    else d.findId n (candidate + 1)

def allocateNextId : Except Error (DDOP × ObjectID) := do
  require (d.objectCount < 65535) noIdError
  d.findId 65536 d.nextId

/-- The id an object comes with, or a new one if it comes with `0`. -/
def idFor (id : ObjectID) : Except Error (DDOP × ObjectID) :=
  if id = 0 then d.allocateNextId else .ok (d, id)

/-- The device is object `0`, whatever id it comes with. -/
def addDevice (obj : DeviceObject) : Except Error (DDOP × ObjectID) := do
  require (obj.designator ≠ "") (.invalidState "device designator is required")
  pure ({ d with devices := d.devices ++ [{ obj with id := 0 }] }, 0)

def addElement (elem : DeviceElement) : Except Error (DDOP × ObjectID) := do
  let (d, id) ← d.idFor elem.id
  pure ({ d with elements := d.elements ++ [{ elem with id }] }, id)

def addProcessData (pd : DeviceProcessData) : Except Error (DDOP × ObjectID) := do
  let (d, id) ← d.idFor pd.id
  pure ({ d with processData := d.processData ++ [{ pd with id }] }, id)

def addProperty (prop : DeviceProperty) : Except Error (DDOP × ObjectID) := do
  let (d, id) ← d.idFor prop.id
  pure ({ d with properties := d.properties ++ [{ prop with id }] }, id)

def addValuePresentation (vp : DeviceValuePresentation) : Except Error (DDOP × ObjectID) := do
  let (d, id) ← d.idFor vp.id
  pure ({ d with valuePresentations := d.valuePresentations ++ [{ vp with id }] }, id)

end DDOP

end Machbus.Tc
