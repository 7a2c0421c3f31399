import Machbus.Common.Checks
import Machbus.Net.Model.Frame
/-!
# Task controller — objects and messages

The five kinds of objects a device description is made of, and how each is
written: a three-letter table id, the object id, then its fields. Texts
carry their length in bytes in front; nothing carries the length of the
record. Then the command bytes a task controller and its clients exchange,
the error codes of their answers, and the layout of a process-data message.
-/

namespace Machbus.Tc

abbrev ObjectID := UInt16
abbrev DDI := UInt16
abbrev ElementNumber := UInt16

def ObjectID.null : ObjectID := 0xFFFF

/-- A single-precision number, by its bits. -/
structure F32 where
  bits : UInt32
  deriving DecidableEq, Repr

/-- Neither an infinity nor a NaN: the exponent is not all ones. -/
def F32.isFinite (x : F32) : Bool := x.bits &&& 0x7F800000 != 0x7F800000

def ddopTextMaxBytes : ℕ := 128

/-- The bytes of a text. -/
def asBytes (s : String) : List UInt8 := s.toUTF8.data.toList

def pushU16Le (v : UInt16) : List UInt8 := leBytes v.toNat 2

def textLimitError (field : String) : Error :=
  .withMessage .poolValidation
    (field ++ " exceeds the " ++ toString ddopTextMaxBytes ++ "-byte DDOP text limit")

/-- A text behind its length in bytes. -/
def pushStrWithLen (field s : String) : Except Error (List UInt8) := do
  require ((asBytes s).length ≤ ddopTextMaxBytes) (textLimitError field)
  pure (UInt8.ofNat (asBytes s).length :: asBytes s)

/-! ## Table ids -/

inductive TCObjectType
  | device
  | deviceElement
  | deviceProcessData
  | deviceProperty
  | deviceValuePresentation
  deriving DecidableEq, Repr

/-- Three letters of ASCII. -/
def TCObjectType.tableId : TCObjectType → List UInt8
  | .device => [68, 86, 67]
  | .deviceElement => [68, 69, 84]
  | .deviceProcessData => [68, 80, 68]
  | .deviceProperty => [68, 80, 84]
  | .deviceValuePresentation => [68, 86, 80]

def TCObjectType.fromTableId (id : List UInt8) : Option TCObjectType :=
  match id with
  | 68 :: 86 :: 67 :: _ => some .device
  | 68 :: 69 :: 84 :: _ => some .deviceElement
  | 68 :: 80 :: 68 :: _ => some .deviceProcessData
  | 68 :: 80 :: 84 :: _ => some .deviceProperty
  | 68 :: 86 :: 80 :: _ => some .deviceValuePresentation
  | _ => none

/-! ## Devices -/

def ddopVersionExtendedStructureLabel : UInt8 := 4

structure DeviceObject where
  id : ObjectID := 0
  designator : String := ""
  softwareVersion : String := ""
  clientName : UInt64 := 0
  serialNumber : String := ""
  structureLabel : Vector UInt8 7 := .replicate 7 0
  localizationLabel : Vector UInt8 7 := .replicate 7 0
  extendedStructureLabel : List UInt8 := []
  deriving DecidableEq, Repr

/-- The extended structure label is part of the record from version 4 on. -/
def DeviceObject.serializeForVersion (d : DeviceObject) (version : UInt8) :
    Except Error (List UInt8) := do
  require (d.extendedStructureLabel.length ≤ 32)
    (.withMessage .poolValidation "device extended structure label exceeds 32 bytes")
  let designator ← pushStrWithLen "device designator" d.designator
  let softwareVersion ← pushStrWithLen "device software version" d.softwareVersion
  let serialNumber ← pushStrWithLen "device serial number" d.serialNumber
  let label :=
    if ddopVersionExtendedStructureLabel ≤ version then
      UInt8.ofNat d.extendedStructureLabel.length :: d.extendedStructureLabel
    else []
  pure (TCObjectType.device.tableId ++ (pushU16Le d.id ++ (designator ++ (softwareVersion ++
    (leBytes d.clientName.toNat 8 ++ (serialNumber ++ (d.structureLabel.toList ++
      (d.localizationLabel.toList ++ label))))))))

/-! ## Elements -/

inductive DeviceElementType
  | device
  | function
  | bin
  | section_
  | unit
  | connector
  | navigationReference
  deriving DecidableEq, Repr

def DeviceElementType.asU8 : DeviceElementType → UInt8
  | .device => 1
  | .function => 2
  | .bin => 3
  | .section_ => 4
  | .unit => 5
  | .connector => 6
  | .navigationReference => 7

structure DeviceElement where
  id : ObjectID := 0
  type : DeviceElementType := .device
  number : ElementNumber := 0
  parentId : ObjectID := 0
  designator : String := ""
  childObjects : List ObjectID := []
  deriving DecidableEq, Repr

def tooManyChildrenError : Error :=
  .withMessage .poolValidation "device element has too many child object references"

def DeviceElement.serialize (e : DeviceElement) : Except Error (List UInt8) := do
  require (e.childObjects.length ≤ 0xFFFF) tooManyChildrenError
  let designator ← pushStrWithLen "device element designator" e.designator
  pure (TCObjectType.deviceElement.tableId ++ (pushU16Le e.id ++ ([e.type.asU8] ++ (designator ++
    (pushU16Le e.number ++ (pushU16Le e.parentId ++
      (pushU16Le (UInt16.ofNat e.childObjects.length) ++ e.childObjects.flatMap pushU16Le)))))))

/-! ## Process data -/

structure DeviceProcessData where
  id : ObjectID := 0
  ddi : DDI := 0
  /-- Bit 0: in the default set. Bit 1: settable. Bit 2: control source. -/
  properties : UInt8 := 0
  triggerMethods : UInt8 := 0
  presentationObjectId : ObjectID := ObjectID.null
  designator : String := ""
  deriving DecidableEq, Repr

variable (pd : DeviceProcessData)

def DeviceProcessData.validateTriggerMethods : Except Error Unit :=
  require (pd.triggerMethods &&& 0xE0 = 0)
    (.withMessage .poolValidation "process data trigger methods contain reserved bits")

/-- Nothing beyond the three defined bits, and a datum is settable or a
control source, not both. -/
def DeviceProcessData.validateProperties : Except Error Unit := do
  require (pd.properties &&& 0xF8 = 0)
    (.withMessage .poolValidation "process data properties contain reserved bits")
  require (pd.properties &&& 0x02 = 0 ∨ pd.properties &&& 0x04 = 0) (.withMessage .poolValidation
      "process data properties: settable and control source are mutually exclusive")

def DeviceProcessData.serialize : Except Error (List UInt8) := do
  pd.validateTriggerMethods
  pd.validateProperties
  let designator ← pushStrWithLen "process data designator" pd.designator
  pure (TCObjectType.deviceProcessData.tableId ++ (pushU16Le pd.id ++ (pushU16Le pd.ddi ++
    ([pd.properties] ++ ([pd.triggerMethods] ++ (designator ++
      pushU16Le pd.presentationObjectId))))))

/-! ## Properties -/

structure DeviceProperty where
  id : ObjectID := 0
  ddi : DDI := 0
  value : Int32 := 0
  presentationObjectId : ObjectID := ObjectID.null
  designator : String := ""
  deriving DecidableEq, Repr

/-- Four bytes of two's complement. -/
def pushI32Le (v : Int32) : List UInt8 := leBytes v.toUInt32.toNat 4

def DeviceProperty.serialize (p : DeviceProperty) : Except Error (List UInt8) := do
  let designator ← pushStrWithLen "property designator" p.designator
  pure (TCObjectType.deviceProperty.tableId ++ (pushU16Le p.id ++ (pushU16Le p.ddi ++
    (pushI32Le p.value ++ (designator ++ pushU16Le p.presentationObjectId)))))

/-! ## Value presentations -/

structure DeviceValuePresentation where
  id : ObjectID := 0
  offset : Int32 := 0
  scale : F32 := ⟨0x3F800000⟩
  decimalDigits : UInt8 := 0
  unitDesignator : String := ""
  deriving DecidableEq, Repr

def scaleError : Error :=
  .withMessage .poolValidation "value presentation scale must be finite"

def DeviceValuePresentation.serialize (vp : DeviceValuePresentation) :
    Except Error (List UInt8) := do
  require vp.scale.isFinite scaleError
  let unitDesignator ← pushStrWithLen "value presentation unit designator" vp.unitDesignator
  pure (TCObjectType.deviceValuePresentation.tableId ++ (pushU16Le vp.id ++
    (pushI32Le vp.offset ++ (leBytes vp.scale.bits.toNat 4 ++ ([vp.decimalDigits] ++
      unitDesignator)))))

/-! ## Messages -/

def pgnWorkingSetMaster : ℕ := 0xFE0D
def pgnTcToEcu : ℕ := 0xCB00
def pgnEcuToTc : ℕ := 0xCC00

namespace Cmd

def versionRequest : UInt8 := 0x00
def versionResponse : UInt8 := 0x10
def requestStructureLabel : UInt8 := 0x01
def structureLabel : UInt8 := 0x11
def requestLocalizationLabel : UInt8 := 0x21
def localizationLabel : UInt8 := 0x31
def objectPoolTransfer : UInt8 := 0x61
def objectPoolResponse : UInt8 := 0x71
def activatePool : UInt8 := 0x81
def activateResponse : UInt8 := 0x91
def deletePool : UInt8 := 0xA1
def deletePoolResponse : UInt8 := 0xB1
def tcStatus : UInt8 := 0xFE

end Cmd

inductive ProcessDataCommands
  | technicalCapabilities
  | deviceDescriptor
  | requestValue
  | value
  | measurementTimeInterval
  | measurementDistanceInterval
  | measurementMinimumWithinThreshold
  | measurementMaximumWithinThreshold
  | measurementChangeThreshold
  | peerControlAssignment
  | setValueAndAcknowledge
  | acknowledge
  | status
  | clientTask
  deriving DecidableEq, Repr

namespace ProcessDataCommands

def asU8 : ProcessDataCommands → UInt8
  | technicalCapabilities => 0x00
  | deviceDescriptor => 0x01
  | requestValue => 0x02
  | value => 0x03
  | measurementTimeInterval => 0x04
  | measurementDistanceInterval => 0x05
  | measurementMinimumWithinThreshold => 0x06
  | measurementMaximumWithinThreshold => 0x07
  | measurementChangeThreshold => 0x08
  | peerControlAssignment => 0x09
  | setValueAndAcknowledge => 0x0A
  | acknowledge => 0x0D
  | status => 0x0E
  | clientTask => 0x0F

/-- The low four bits of the first byte. -/
def tryFromU8 (v : UInt8) : Option ProcessDataCommands :=
  match (v &&& 0x0F).toNat with
  | 0x00 => some technicalCapabilities
  | 0x01 => some deviceDescriptor
  | 0x02 => some requestValue
  | 0x03 => some value
  | 0x04 => some measurementTimeInterval
  | 0x05 => some measurementDistanceInterval
  | 0x06 => some measurementMinimumWithinThreshold
  | 0x07 => some measurementMaximumWithinThreshold
  | 0x08 => some measurementChangeThreshold
  | 0x09 => some peerControlAssignment
  | 0x0A => some setValueAndAcknowledge
  | 0x0D => some acknowledge
  | 0x0E => some status
  | 0x0F => some clientTask
  | _ => none

/-- The name `{:?}` prints. -/
def debugName : ProcessDataCommands → String
  | technicalCapabilities => "TechnicalCapabilities"
  | deviceDescriptor => "DeviceDescriptor"
  | requestValue => "RequestValue"
  | value => "Value"
  | measurementTimeInterval => "MeasurementTimeInterval"
  | measurementDistanceInterval => "MeasurementDistanceInterval"
  | measurementMinimumWithinThreshold => "MeasurementMinimumWithinThreshold"
  | measurementMaximumWithinThreshold => "MeasurementMaximumWithinThreshold"
  | measurementChangeThreshold => "MeasurementChangeThreshold"
  | peerControlAssignment => "PeerControlAssignment"
  | setValueAndAcknowledge => "SetValueAndAcknowledge"
  | acknowledge => "Acknowledge"
  | status => "Status"
  | clientTask => "ClientTask"

end ProcessDataCommands

/-! ## Error codes -/

inductive ObjectPoolActivationError
  | noErrors
  | thereAreErrorsInTheDDOP
  deriving DecidableEq, Repr

def ObjectPoolActivationError.asU8 : ObjectPoolActivationError → UInt8
  | noErrors => 0x00
  | thereAreErrorsInTheDDOP => 0x01

inductive ObjectPoolErrorCodes
  | noErrors
  | anyOtherError
  deriving DecidableEq, Repr

def ObjectPoolErrorCodes.asU8 : ObjectPoolErrorCodes → UInt8
  | noErrors => 0x00
  | anyOtherError => 0x04

/-- `ObjectPoolDeletionErrors::ErrorDetailsNotAvailable`. -/
def errorDetailsNotAvailable : UInt8 := 0xFF

inductive ProcessDataAcknowledgeErrorCodes
  | noError
  | elementNotSupportedByThisDevice
  | valueIsOutsideValidRange
  | noProcessingResourcesAvailable
  | ddexValueNotSupported
  deriving DecidableEq, Repr

def ProcessDataAcknowledgeErrorCodes.asU8 : ProcessDataAcknowledgeErrorCodes → UInt8
  | noError => 0x00
  | elementNotSupportedByThisDevice => 0x01
  | valueIsOutsideValidRange => 0x02
  | noProcessingResourcesAvailable => 0x03
  | ddexValueNotSupported => 0x04

/-- None of the reserved option bits. -/
def tcOptionsByteIsValid (options : UInt8) : Bool := options &&& 0xE0 == 0

/-! ## Layout -/

variable (data : List UInt8)

/-- The byte at an index; `0xFF` past the end. -/
def byteAt (i : ℕ) : UInt8 := data.getD i 0xFF

def isPaddedFixed8 (used : ℕ) : Bool :=
  data.length == 8 && (data.drop used).all (· == 0xFF)

def versionResponseIsCanonical : Bool :=
  data.length == 8 && tcOptionsByteIsValid (byteAt data 3) && byteAt data 4 == 0x00

/-- Eight bytes, `0xFF` behind what is given. -/
def padded8 (used : List UInt8) : List UInt8 := used ++ List.replicate (8 - used.length) 0xFF

/-- Twelve bits over the first two bytes. -/
def elementOf : ElementNumber :=
  UInt16.ofNat (((byteAt data 0).toNat >>> 4 &&& 0x0F) ||| ((byteAt data 1).toNat <<< 4))

def ddiOf : DDI := UInt16.ofNat (ofLe [byteAt data 2, byteAt data 3])

def valueOf : Int32 :=
  (UInt32.ofNat (ofLe [byteAt data 4, byteAt data 5, byteAt data 6, byteAt data 7])).toInt32

/-- Command and element, then the dictionary id. -/
def processDataHeader (command : ProcessDataCommands) (element : ElementNumber) (ddi : DDI) :
    List UInt8 :=
  [UInt8.ofNat ((command.asU8.toNat &&& 0x0F) ||| ((element.toNat &&& 0x0F) <<< 4)),
   UInt8.ofNat ((element.toNat >>> 4) &&& 0xFF)] ++ pushU16Le ddi

def encodeProcessDataAck (element : ElementNumber) (ddi : DDI)
    (error : ProcessDataAcknowledgeErrorCodes) : List UInt8 :=
  padded8 (processDataHeader .acknowledge element ddi ++ [error.asU8])

def encodeValue (element : ElementNumber) (ddi : DDI) (value : Int32) : List UInt8 :=
  processDataHeader .value element ddi ++ pushI32Le value

/-- A frame to be sent: to everyone when it has no destination. -/
structure Outbound where
  pgn : ℕ
  data : List UInt8
  dest : Option Address
  deriving DecidableEq, Repr

end Machbus.Tc
