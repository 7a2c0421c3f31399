import Machbus.Common.Bytes
/-!
# Frames and identifiers

The scalar types of the network layer, the 29-bit identifier with its
packing, and the eight-byte frame. Machine integers are natural numbers
with the masks the code writes, a PGN among them; bytes, addresses and
ports stay `UInt8`.
-/

namespace Machbus

/-- Source or destination address on the bus. -/
abbrev Address := UInt8

/-! ## Constants -/

def nullAddress : Address := 0xFE
def broadcastAddress : Address := 0xFF
def maxAddress : Address := 0xFD

def addressClaimTimeoutMs : ℕ := 250
def addressClaimRtxdMaxMs : ℕ := 153

def tpTimeoutT1Ms : ℕ := 750
def tpTimeoutT2Ms : ℕ := 1250
def tpTimeoutT3Ms : ℕ := 1250
def etpTimeoutT1Ms : ℕ := tpTimeoutT1Ms
def etpTimeoutT2Ms : ℕ := tpTimeoutT2Ms
def etpTimeoutT3Ms : ℕ := tpTimeoutT3Ms
def tpBamInterPacketMs : ℕ := 50

def canDataLength : ℕ := 8
def tpMaxDataLength : ℕ := 1785
def etpMaxDataLength : ℕ := 117440505
def tpBytesPerFrame : ℕ := 7
def tpMaxPacketsPerCts : ℕ := 16
def fastPacketMaxData : ℕ := 223

def pgnRequest : ℕ := 0xEA00
def pgnAddressClaimed : ℕ := 0xEE00
def pgnCommandedAddress : ℕ := 0xFED8
def pgnTpCm : ℕ := 0xEC00
def pgnTpDt : ℕ := 0xEB00
def pgnEtpCm : ℕ := 0xC800
def pgnEtpDt : ℕ := 0xC700

/-! ## Saturating counters -/

def u32Max : ℕ := 4294967295
def u64Max : ℕ := 18446744073709551615

/-- `u32::saturating_add`. -/
def satAdd32 (a b : ℕ) : ℕ := min (a + b) u32Max

/-- `u64::saturating_add`. -/
def satAdd64 (a b : ℕ) : ℕ := min (a + b) u64Max

/-- `u8::saturating_add`. -/
def satAdd8 (a b : ℕ) : ℕ := min (a + b) 255

/-- `u32::div_ceil`. -/
def divCeil (a b : ℕ) : ℕ := (a + b - 1) / b

/-! ## Priorities and PGNs -/

/-- The 3-bit priority field of an identifier. -/
inductive Priority
  | highest
  | high
  | aboveNormal
  | normal
  | belowNormal
  | low
  | default
  | lowest
  deriving DecidableEq, Repr

namespace Priority

def fromU8 : ℕ → Priority
  | 0 => highest
  | 1 => high
  | 2 => aboveNormal
  | 3 => normal
  | 4 => belowNormal
  | 5 => low
  | 6 => default
  | _ => lowest

def asU8 : Priority → ℕ
  | highest => 0
  | high => 1
  | aboveNormal => 2
  | normal => 3
  | belowNormal => 4
  | low => 5
  | default => 6
  | lowest => 7

end Priority

def pgnIsValid (pgn : ℕ) : Bool := pgn ≤ 0x3FFFF

def pgnPduFormat (pgn : ℕ) : ℕ := (pgn >>> 8) &&& 0xFF

/-- The PGN as identifiers route it: the low byte of a PDU1 PGN is the
destination's. -/
def pgnNormalize (pgn : ℕ) : ℕ :=
  if pgnPduFormat pgn < 240 then (pgn >>> 8) <<< 8 else pgn

/-! ## Identifiers -/

/-- A 29-bit extended identifier; `from_raw` masks whatever is above. -/
structure Identifier where
  raw : ℕ
  raw_lt : raw < 2 ^ 29
  deriving DecidableEq, Repr

namespace Identifier

def fromRaw (id : ℕ) : Identifier where
  raw := id &&& 0x1FFFFFFF
  raw_lt := Nat.lt_of_le_of_lt Nat.and_le_right (by decide)

/-- Priority, data pages, PF, PS and SA, or-ed together. The destination
goes in the PS byte of a PDU1 PGN only. -/
def encode (prio : Priority) (pgn : ℕ) (src dst : Address) : Identifier :=
  let pgn := pgnNormalize pgn
  let edp := (pgn >>> 17) &&& 0x01
  let dp := (pgn >>> 16) &&& 0x01
  let pf := (pgn >>> 8) &&& 0xFF
  let ps := pgn &&& 0xFF
  fromRaw ((((((prio.asU8 &&& 0x07) <<< 26 ||| edp <<< 25) ||| dp <<< 24) ||| pf <<< 16) |||
    (if pf < 240 then dst.toNat else ps) <<< 8) ||| src.toNat)

variable (id : Identifier)

def priority : Priority := Priority.fromU8 ((id.raw >>> 26) &&& 0x07)

def pduFormat : ℕ := (id.raw >>> 16) &&& 0xFF

def pduSpecific : UInt8 := UInt8.ofNat ((id.raw >>> 8) &&& 0xFF)

def source : Address := UInt8.ofNat (id.raw &&& 0xFF)

def isPdu2 : Bool := 240 ≤ id.pduFormat

def pgn : ℕ :=
  let dp := (id.raw >>> 24) &&& 0x01
  let edp := (id.raw >>> 25) &&& 0x01
  let pf := id.pduFormat
  if pf < 240 then edp <<< 17 ||| dp <<< 16 ||| pf <<< 8
  else edp <<< 17 ||| dp <<< 16 ||| pf <<< 8 ||| id.pduSpecific.toNat

def destination : Address :=
  if id.isPdu2 then broadcastAddress else id.pduSpecific

def isBroadcast : Bool := id.isPdu2 || id.destination == broadcastAddress

end Identifier

/-! ## Frames -/

/-- The data field of a frame, `[u8; 8]`. -/
structure Bytes8 where
  b0 : UInt8
  b1 : UInt8
  b2 : UInt8
  b3 : UInt8
  b4 : UInt8
  b5 : UInt8
  b6 : UInt8
  b7 : UInt8
  deriving DecidableEq, Repr

namespace Bytes8

def toList (d : Bytes8) : List UInt8 := [d.b0, d.b1, d.b2, d.b3, d.b4, d.b5, d.b6, d.b7]

/-- The seven bytes behind the sequence number. -/
def tail (d : Bytes8) : List UInt8 := [d.b1, d.b2, d.b3, d.b4, d.b5, d.b6, d.b7]

/-- A data field that starts as all `0xFF` and has the head of a list
copied over it. -/
def padded (l : List UInt8) : Bytes8 where
  b0 := l.getD 0 0xFF
  b1 := l.getD 1 0xFF
  b2 := l.getD 2 0xFF
  b3 := l.getD 3 0xFF
  b4 := l.getD 4 0xFF
  b5 := l.getD 5 0xFF
  b6 := l.getD 6 0xFF
  b7 := l.getD 7 0xFF

end Bytes8

/-- A single CAN data frame. -/
structure Frame where
  id : Identifier
  data : Bytes8
  /-- Number of valid bytes in `data`. -/
  length : ℕ
  /-- Receive timestamp, supplied by the driver. -/
  timestampUs : ℕ
  deriving DecidableEq, Repr

namespace Frame

/-- A frame of eight bytes; every builder of the stack passes `8`. -/
def new (id : Identifier) (data : Bytes8) : Frame := ⟨id, data, 8, 0⟩

variable (f : Frame)

def pgn : ℕ := f.id.pgn
def source : Address := f.id.source
def destination : Address := f.id.destination
def priority : Priority := f.id.priority
def isBroadcast : Bool := f.id.isBroadcast

/-- The valid part of the data field. -/
def payload : List UInt8 := f.data.toList.take (min f.length 8)

end Frame

/-!
## Messages

A decoded message of any length, as the parts of the stack above the
transport see it.
-/

/-- A decoded message: payload and addressing. -/
structure Message where
  pgn : ℕ
  data : List UInt8
  source : Address
  destination : Address
  priority : Priority
  timestampUs : ℕ
  deriving DecidableEq, Repr

namespace Message

def withAddressing (pgn : ℕ) (data : List UInt8) (source destination : Address)
    (priority : Priority) : Message :=
  ⟨pgn, data, source, destination, priority, 0⟩

variable (msg : Message)

def isBroadcast : Bool := msg.destination == broadcastAddress

/-- The source address can identify a sender. -/
def hasUsableSource : Bool :=
  msg.source != nullAddress && msg.source != broadcastAddress

/-- A PDU2 group number leaves no room for a destination. -/
def hasValidDestinationForPgn : Bool :=
  msg.destination != nullAddress &&
    (!decide (240 ≤ (msg.pgn >>> 8) &&& 0xFF) || msg.destination == broadcastAddress)

end Message

/-! ## NAMEs

The 64-bit device identity of ISO 11783-5. Arbitration reads it as one
unsigned number, the lower one winning, and the wire carries it as eight
little-endian bytes. -/

/-- A 64-bit device identity. -/
structure Name where
  raw : ℕ
  raw_lt : raw < 2 ^ 64
  deriving DecidableEq, Repr

namespace Name

/-- Lower NAME wins: the order of the raw values. -/
instance : LT Name := ⟨fun a b => a.raw < b.raw⟩

instance (a b : Name) : Decidable (a < b) := inferInstanceAs (Decidable (a.raw < b.raw))

def fromRaw (value : ℕ) : Name where
  raw := value % 2 ^ 64
  raw_lt := Nat.mod_lt _ (by decide)

variable (n : Name)

def identityNumber : ℕ := n.raw &&& 0x1FFFFF
def manufacturerCode : ℕ := (n.raw >>> 21) &&& 0x7FF
def ecuInstance : ℕ := (n.raw >>> 32) &&& 0x07
def functionInstance : ℕ := (n.raw >>> 35) &&& 0x1F
def functionCode : ℕ := (n.raw >>> 40) &&& 0xFF
def deviceClass : ℕ := (n.raw >>> 49) &&& 0x7F
def deviceClassInstance : ℕ := (n.raw >>> 56) &&& 0x0F
def industryGroup : ℕ := (n.raw >>> 60) &&& 0x07
def selfConfigurable : Bool := (n.raw >>> 63) &&& 0x01 != 0

/-- Eight little-endian bytes. -/
def toBytes : Bytes8 where
  b0 := leByte n.raw 0
  b1 := leByte n.raw 1
  b2 := leByte n.raw 2
  b3 := leByte n.raw 3
  b4 := leByte n.raw 4
  b5 := leByte n.raw 5
  b6 := leByte n.raw 6
  b7 := leByte n.raw 7

/-- Decodes exactly eight bytes. -/
def fromBytes (data : List UInt8) : Option Name :=
  if data.length ≠ 8 then none else some (fromRaw (ofLe data))

end Name

/-! ## Errors

The error codes of the stack and the constructors the modelled functions
use, with their texts. -/

inductive ErrorCode
  | ok
  | timeout
  | addressClaimFailed
  | addressConflict
  | transportAborted
  | transportTimeout
  | invalidPgn
  | invalidAddress
  | invalidData
  | bufferOverflow
  | notConnected
  | invalidState
  | poolError
  | poolValidation
  | sessionExists
  | noResources
  | driverError
  | socketError
  | interfaceDown
  deriving DecidableEq, Repr

/-- A code with its text. -/
structure Error where
  code : ErrorCode
  message : String
  deriving DecidableEq, Repr

/-- One upper-case hexadecimal digit. -/
def hexDigitUpper (n : ℕ) : Char :=
  if n < 10 then Char.ofNat (48 + n) else Char.ofNat (55 + n)

/-- The upper-case hexadecimal digits of a number below `16 ^ fuel`. -/
def hexDigits : ℕ → ℕ → List Char
  | 0, _ => []
  | fuel + 1, n =>
    if n < 16 then [hexDigitUpper n] else hexDigits fuel (n / 16) ++ [hexDigitUpper (n % 16)]

/-- `{n:0widthX}`: upper-case hexadecimal, padded with zeros on the left.
Sixteen digits cover every integer of the stack. -/
def hexUpper (width n : ℕ) : String :=
  let ds := hexDigits 16 n
  String.ofList (List.replicate (width - ds.length) '0' ++ ds)

namespace Error

def new (code : ErrorCode) : Error := ⟨code, ""⟩
def withMessage (code : ErrorCode) (message : String) : Error := ⟨code, message⟩
def invalidPgn (pgn : ℕ) : Error :=
  ⟨.invalidPgn, "0x" ++ hexUpper 4 pgn ++ " (" ++ toString pgn ++ ")"⟩
def invalidAddress (addr : Address) : Error := ⟨.invalidAddress, "0x" ++ hexUpper 2 addr.toNat⟩
def notConnected : Error := new .notConnected
variable (msg : String)

def invalidState : Error := ⟨.invalidState, msg⟩
def invalidData : Error := ⟨.invalidData, msg⟩
def bufferOverflow : Error := new .bufferOverflow
def driverError : Error := ⟨.driverError, msg⟩

end Error

end Machbus
