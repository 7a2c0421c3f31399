import Machbus.Tc.Model.Ddop
import Mathlib.Data.List.DropRight
/-!
# Task controller — ISOXML

A pool is exported as an XML document, one markup per line. A
single-precision number is printed with the fewest digits that are read
back as the same number, by the digit generation of Steele and White on
exact integers, and without an exponent. The import side is a parser for
the subset that task data uses: elements, quoted attributes, nesting; text
between the markup is skipped. A string is the list of its characters here.
-/

namespace Machbus.Tc

/-- `{}` of an unsigned number. -/
def displayNat (n : ℕ) : List Char := Nat.toDigits 10 n

def displayInt (n : ℤ) : List Char :=
  if n < 0 then '-' :: displayNat n.natAbs else displayNat n.natAbs

/-- `b'0' + d`, for a digit. -/
def decimalDigit : ℕ → Char
  | 0 => '0'
  | 1 => '1'
  | 2 => '2'
  | 3 => '3'
  | 4 => '4'
  | 5 => '5'
  | 6 => '6'
  | 7 => '7'
  | 8 => '8'
  | _ => '9'

/-- A finite number with its rounding interval: the number is
`mant * 2 ^ exp`, and everything between `(mant - minus) * 2 ^ exp` and
`(mant + plus) * 2 ^ exp` is read back as it, the ends only when
`inclusive`. -/
structure Decoded where
  mant : ℕ
  minus : ℕ
  plus : ℕ
  exp : ℤ
  inclusive : Bool

namespace F32

variable (x : F32)

def negative : Bool := x.bits &&& 0x80000000 != 0

def exponentBits : ℕ := (x.bits.toNat >>> 23) &&& 0xFF

def fraction : ℕ := x.bits.toNat &&& 0x7FFFFF

/-- A finite number other than zero. Below the smallest significand of a
binade the distance to the next number is half as large. -/
def decode : Decoded :=
  let mant := if x.exponentBits = 0 then x.fraction * 2 else x.fraction + 2 ^ 23
  let exp : ℤ := x.exponentBits - 150
  let even := mant % 2 == 0
  if x.exponentBits = 0 then ⟨mant, 1, 1, exp, even⟩
  else if mant = 2 ^ 23 then ⟨mant * 4, 1, 2, exp - 2, even⟩
  else ⟨mant * 2, 1, 1, exp - 1, even⟩

end F32

/-- The interval scaled to integers: the number is `mant / scale`. -/
structure Scaled where
  mant : ℕ
  minus : ℕ
  plus : ℕ
  scale : ℕ

namespace Scaled

/-- Below the lower end of the interval. -/
def down (s : Scaled) (inclusive : Bool) : Bool :=
  if inclusive then decide (s.mant ≤ s.minus) else decide (s.mant < s.minus)

/-- Above the upper end of the interval, counted from the next digit. -/
def up (s : Scaled) (inclusive : Bool) : Bool :=
  if inclusive then decide (s.scale ≤ s.mant + s.plus) else decide (s.scale < s.mant + s.plus)

def timesTen (s : Scaled) : Scaled :=
  { s with mant := s.mant * 10, minus := s.minus * 10, plus := s.plus * 10 }

/-- One more in the last place; a leading one appears when all are nines. -/
def roundUp : List ℕ → List ℕ × Bool
  | [] => ([], true)
  | d :: ds =>
    match roundUp ds with
    | (ds, false) => (d :: ds, false)
    | (ds, true) => if d = 9 then (0 :: ds, true) else ((d + 1) :: ds, false)

/-- Digits until the interval is reached, and whether the last one is
rounded up. Nine digits are always enough. -/
def digits (inclusive : Bool) : ℕ → Scaled → List ℕ × Bool
  | 0, _ => ([], false)
  | fuel + 1, s =>
    let d := s.mant / s.scale
    let s := { s with mant := s.mant % s.scale }
    let down := s.down inclusive
    let up := s.up inclusive
    if down || up then ([d], up && (!down || decide (s.scale ≤ s.mant * 2)))
    else
      let (ds, r) := digits inclusive fuel s.timesTen
      (d :: ds, r)

end Scaled

namespace Decoded

/-- The interval in units of `10 ^ k`. -/
def scaled (x : Decoded) (k : ℤ) : Scaled :=
  let two := 2 ^ x.exp.natAbs
  let ten := 10 ^ k.natAbs
  let num := (if 0 ≤ x.exp then two else 1) * (if k < 0 then ten else 1)
  let scale := (if x.exp < 0 then two else 1) * (if 0 ≤ k then ten else 1)
  ⟨x.mant * num, x.minus * num, x.plus * num, scale⟩

/-- The first power of ten that the interval stays below. -/
def magnitude (x : Decoded) : ℕ → ℤ → ℤ
  | 0, k => k
  | fuel + 1, k => if (x.scaled k).up x.inclusive then magnitude x fuel (k + 1) else k

/-- The shortest digits `d₁ d₂ …` and the `k` with the number near
`0.d₁d₂… * 10 ^ k`. -/
def shortest (x : Decoded) : List ℕ × ℤ :=
  let k := x.magnitude 100 (-50)
  let (ds, r) := Scaled.digits x.inclusive 20 (x.scaled k).timesTen
  if r then
    match Scaled.roundUp ds with
    | (ds, false) => (ds, k)
    | (ds, true) => (1 :: ds, k + 1)
  else (ds, k)

end Decoded

/-- Places the decimal point. -/
def digitsToDecStr (digits : List Char) (k : ℤ) : List Char :=
  if k ≤ 0 then '0' :: '.' :: (List.replicate k.natAbs '0' ++ digits)
  else if k.natAbs < digits.length then
    digits.take k.natAbs ++ '.' :: digits.drop k.natAbs
  else digits ++ List.replicate (k.natAbs - digits.length) '0'

/-- `{}` of a single-precision number. -/
def F32.display (x : F32) : List Char :=
  let sign := if x.negative then ['-'] else []
  if !x.isFinite then
    if x.fraction ≠ 0 then ['N', 'a', 'N'] else sign ++ ['i', 'n', 'f']
  else if x.exponentBits = 0 ∧ x.fraction = 0 then sign ++ ['0']
  else
    let (ds, k) := x.decode.shortest
    sign ++ digitsToDecStr (ds.map decimalDigit) k

/-! ## Export -/

def xmlEscapeChar (c : Char) : List Char :=
  if c = '&' then ['&', 'a', 'm', 'p', ';']
  else if c = '<' then ['&', 'l', 't', ';']
  else if c = '>' then ['&', 'g', 't', ';']
  else if c = '"' then ['&', 'q', 'u', 'o', 't', ';']
  else if c = '\'' then ['&', 'a', 'p', 'o', 's', ';']
  else [c]

def xmlEscape (s : String) : List Char := s.toList.flatMap xmlEscapeChar

/-- A name with its value, in double quotes. -/
abbrev Attribute := String × List Char

def Attribute.text (a : Attribute) : List Char :=
  ' ' :: (a.1.toList ++ '=' :: '"' :: (a.2 ++ ['"']))

/-- One line of the document. -/
inductive Line
  /-- The XML declaration. -/
  | declaration
  /-- A start tag, or an empty element when it closes itself. -/
  | tag (indent : ℕ) (name : String) (attributes : List Attribute) (selfClosing : Bool)
  | endTag (indent : ℕ) (name : String)

def xmlDeclaration : String := "<?xml version=\"1.0\" encoding=\"UTF-8\"?>"

def Line.text : Line → List Char
  | declaration => xmlDeclaration.toList ++ ['\n']
  | tag indent name attributes selfClosing =>
    List.replicate indent ' ' ++ '<' :: (name.toList ++ (attributes.flatMap Attribute.text ++
      ((if selfClosing then ['/'] else []) ++ ['>', '\n'])))
  | endTag indent name => List.replicate indent ' ' ++ '<' :: '/' :: (name.toList ++ ['>', '\n'])

def rootElement : String := "ISO11783_TaskData"
def deviceElementTag : String := "DVC"
def deviceElementElementTag : String := "DET"

/-- An object reference: its table id, a dash and its number. -/
def reference (tableId : String) (id : ObjectID) : List Char :=
  tableId.toList ++ '-' :: displayNat id.toNat

/-- A presentation is named only when there is one. -/
def presentation (id : ObjectID) : List Attribute :=
  if id ≠ 0xFFFF then [("E", reference "DVP" id)] else []

def DeviceProcessData.line (pd : DeviceProcessData) : Line :=
  .tag 6 "DPD" ([("A", reference "DPD" pd.id), ("B", (hexUpper 4 pd.ddi.toNat).toList),
    ("C", displayNat pd.triggerMethods.toNat), ("D", xmlEscape pd.designator)] ++
      presentation pd.presentationObjectId) true

def DeviceProperty.line (p : DeviceProperty) : Line :=
  .tag 6 "DPT" ([("A", reference "DPT" p.id), ("B", displayNat p.ddi.toNat),
    ("C", displayInt p.value.toInt), ("D", xmlEscape p.designator)] ++
      presentation p.presentationObjectId) true

def DeviceElement.attributes (e : DeviceElement) : List Attribute :=
  [("A", reference "DET" e.id), ("B", displayNat e.type.asU8.toNat),
   ("C", xmlEscape e.designator), ("D", displayNat e.number.toNat),
   ("E", reference "DET" e.parentId)]

def DeviceObject.attributes (d : DeviceObject) : List Attribute :=
  [("A", reference "DVC" d.id), ("B", xmlEscape d.designator),
   ("C", xmlEscape d.softwareVersion), ("D", xmlEscape d.serialNumber)]

def rootAttributes : List Attribute :=
  [("VersionMajor", ['4']), ("VersionMinor", ['0']), ("DataTransferOrigin", ['1'])]

namespace DDOP

variable (d : DDOP)

/-- The children of an element are looked up by their id. -/
def childLines (elem : DeviceElement) : List Line :=
  elem.childObjects.flatMap fun cid =>
    (d.processData.filter (·.id == cid)).map (·.line) ++
      (d.properties.filter (·.id == cid)).map (·.line)

def emitElementXml (elem : DeviceElement) : List Line :=
  .tag 4 deviceElementElementTag elem.attributes false ::
    (d.childLines elem ++ [.endTag 4 deviceElementElementTag])

/-- Every device is given all elements of the pool. -/
def deviceLines (dev : DeviceObject) : List Line :=
  .tag 2 deviceElementTag dev.attributes false ::
    (d.elements.flatMap d.emitElementXml ++ [.endTag 2 deviceElementTag])

def valuePresentationLine (vp : DeviceValuePresentation) : Line :=
  .tag 2 "DVP"
    [("A", reference "DVP" vp.id), ("B", displayInt vp.offset.toInt), ("C", vp.scale.display),
     ("D", displayNat vp.decimalDigits.toNat), ("E", xmlEscape vp.unitDesignator)] true

def isoxmlLines : List Line :=
  .declaration :: .tag 0 rootElement rootAttributes false ::
    (d.devices.flatMap d.deviceLines ++
      (d.valuePresentations.map valuePresentationLine ++ [.endTag 0 rootElement]))

def toIsoxml : String := String.ofList (d.isoxmlLines.flatMap Line.text)

end DDOP

/-! ## Import -/

/-- Unicode white space. -/
def isWhitespace (c : Char) : Bool :=
  c.toNat ∈ [0x09, 0x0A, 0x0B, 0x0C, 0x0D, 0x20, 0x85, 0xA0, 0x1680, 0x2000, 0x2001, 0x2002, 0x2003,
    0x2004, 0x2005, 0x2006, 0x2007, 0x2008, 0x2009, 0x200A, 0x2028, 0x2029, 0x202F, 0x205F, 0x3000]

def trimStart (l : List Char) : List Char := l.dropWhile isWhitespace

def trim (l : List Char) : List Char := (trimStart l).rdropWhile isWhitespace

/-- What comes before and behind the first occurrence of a character. -/
def splitAtChar (c : Char) : List Char → Option (List Char × List Char)
  | [] => none
  | x :: xs => if x = c then some ([], xs) else (splitAtChar c xs).map fun (a, b) => (x :: a, b)

def xmlErr (msg : String) : Error := .invalidData ("malformed ISOXML: " ++ msg)

/-- What comes behind the first occurrence of a text. -/
def findAfter (needle : List Char) : List Char → Except Error (List Char)
  | [] => .error (xmlErr "unterminated markup")
  | x :: xs =>
    if needle.isPrefixOf (x :: xs) then .ok ((x :: xs).drop needle.length)
    else findAfter needle xs

inductive XmlElement
  | mk (name : String) (attributes : List (String × String)) (children : List XmlElement)

namespace XmlElement

def name : XmlElement → String
  | mk n _ _ => n

def attributes : XmlElement → List (String × String)
  | mk _ as _ => as

def children : XmlElement → List XmlElement
  | mk _ _ cs => cs

def addChild (e child : XmlElement) : XmlElement :=
  mk e.name e.attributes (e.children ++ [child])

def attr (e : XmlElement) (key : String) : Option String :=
  (e.attributes.find? (·.1 == key)).map (·.2)

def childrenNamed (e : XmlElement) (name : String) : List XmlElement :=
  e.children.filter (·.name == name)

end XmlElement

/-- One round of the loop over the attributes of a start tag. -/
def parseAttribute (attributes : List (String × String)) :
    Reader Char Error (List (String × String)) := fun rest =>
  match splitAtChar '=' rest with
  | none => .error (xmlErr "attribute without '='")
  | some (key, after) =>
    match trimStart after with
    | [] => .error (xmlErr "attribute value not quoted")
    | quote :: after =>
      if quote = '"' ∨ quote = '\'' then
        match splitAtChar quote after with
        | none => .error (xmlErr "unterminated attribute value")
        | some (value, rest) =>
          .ok (attributes ++ [(String.ofList (trim key), String.ofList value)], trimStart rest)
      else .error (xmlErr "attribute value not quoted")

def parseStartTag (inner : List Char) : Except Error XmlElement := do
  let inner := trim inner
  let name := inner.takeWhile fun c => !isWhitespace c
  require (name ≠ []) (xmlErr "empty tag name")
  let rest := trimStart (inner.dropWhile fun c => !isWhitespace c)
  let attributes ← Reader.drain parseAttribute (xmlErr "attribute without '='") rest.length [] rest
  pure (.mk (String.ofList name) attributes [])

/-- The elements that are still open, the innermost first, and the root
once it is closed. -/
structure ParseState where
  stack : List XmlElement := []
  root : Option XmlElement := none

section

variable (st : ParseState)

def ParseState.attach (elem : XmlElement) : Except Error ParseState :=
  match st.stack with
  | parent :: stack => .ok { st with stack := parent.addChild elem :: stack }
  | [] =>
    match st.root with
    | none => .ok { st with root := some elem }
    | some _ => .error (xmlErr "multiple root elements")

def parseEndTag : Reader Char Error ParseState := fun rest =>
  match splitAtChar '>' rest with
  | none => .error (xmlErr "unterminated end tag")
  | some (before, after) =>
    match st.stack with
    | [] => .error (xmlErr "unmatched end tag")
    | elem :: stack =>
      if elem.name ≠ String.ofList (trim (before.drop 2)) then
        .error (xmlErr "mismatched end tag")
      else ({ st with stack } : ParseState).attach elem |>.map fun st => (st, after)

def parseOpenTag : Reader Char Error ParseState := fun rest =>
  match splitAtChar '>' rest with
  | none => .error (xmlErr "unterminated start tag")
  | some (before, after) => do
      let elem ← parseStartTag (trim ((before.drop 1).rdropWhile (· == '/')))
      if before.getLast? = some '/' then
        (st.attach elem).map fun st => (st, after)
      else .ok ({ st with stack := elem :: st.stack }, after)

/-- The markup in front of `rest`, which starts with `<`. -/
def parseMarkup : Reader Char Error ParseState := fun rest =>
  if "<?".toList.isPrefixOf rest then (findAfter "?>".toList rest).map fun rest => (st, rest)
  else if "<!--".toList.isPrefixOf rest then
    (findAfter "-->".toList rest).map fun rest => (st, rest)
  else if "<!".toList.isPrefixOf rest then (findAfter ">".toList rest).map fun rest => (st, rest)
  else if "</".toList.isPrefixOf rest then parseEndTag st rest
  else parseOpenTag st rest

/-- One round of the parsing loop: on to the next markup, if there is one. -/
def parseNext : Reader Char Error ParseState := fun input =>
  match input.dropWhile (· != '<') with
  | [] => .ok (st, [])
  | rest => parseMarkup st rest

end

/-- Every round takes a character at least. -/
def parseXml (input : String) : Except Error XmlElement := do
  let st ← Reader.drain parseNext (xmlErr "unterminated markup") input.toList.length {} input.toList
  require (st.stack.isEmpty) (xmlErr "unclosed element(s) at end of document")
  match st.root with
  | some root => pure root
  | none => throw (xmlErr "document has no root element")

/-! ## Task data -/

/-- A device of a task data document. -/
structure XmlDevice where
  id : String
  designator : String
  deriving DecidableEq, Repr

/-- A device element of a task data document. -/
structure XmlDeviceElement where
  id : String
  designator : String
  deriving DecidableEq, Repr

structure TaskData where
  root : XmlElement

namespace TaskData

def fromXml (input : String) : Except Error TaskData := do
  let root ← parseXml input
  require (root.name = rootElement)
    (.invalidData ("TASKDATA root element must be " ++ rootElement ++ ", found " ++ root.name))
  pure ⟨root⟩

/-- The designator of a device is attribute `B`. -/
def devices (t : TaskData) : List XmlDevice :=
  (t.root.childrenNamed deviceElementTag).map fun d =>
    ⟨(d.attr "A").getD "", (d.attr "B").getD ""⟩

/-- The designator of a device element is attribute `D`. -/
def deviceElements (t : TaskData) : List XmlDeviceElement :=
  ((t.root.childrenNamed deviceElementTag).flatMap (·.childrenNamed deviceElementElementTag)).map
    fun e => ⟨(e.attr "A").getD "", (e.attr "D").getD ""⟩

end TaskData

end Machbus.Tc
