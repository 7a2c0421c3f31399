import Machbus.Tc.Helpers.Markup
/-!
# Export and import of ISOXML

The exported document is well formed for every pool, and importing it
gives back the tree it was written from. The two sides disagree on what
the tree says. Escaping is not undone, the import takes the designator of
a device element from attribute `D`, where the export puts its number, and
the export lists all elements under every device.
-/

namespace Machbus.Tc

open List Attribute XmlElement TaskData

/-! ## Values are plain -/

/-- Two plain texts in a row are plain. -/
theorem Plain.append {a b : List Char} (ha : Plain a) (hb : Plain b) : Plain (a ++ b) :=
  forall_mem_append.mpr ⟨ha, hb⟩

/-- So is one with a plain character before it. -/
theorem Plain.cons {x : Char} {l : List Char} (hx : x ≠ '"' ∧ x ≠ '>') (hl : Plain l) :
    Plain (x :: l) :=
  forall_mem_cons.mpr ⟨hx, hl⟩

theorem plain_nil : Plain [] := forall_mem_nil _

instance (l : List Char) : Decidable (Plain l) := List.decidableBAll (fun c => c ≠ '"' ∧ c ≠ '>') l

/-- A plain character repeated is plain. -/
theorem plain_replicate {n : ℕ} {x : Char} (hx : x ≠ '"' ∧ x ≠ '>') : Plain (replicate n x) := by
  intro c hc
  rw [eq_of_mem_replicate hc]
  exact hx

/-- A natural number is plain. -/
theorem plain_displayNat (n : ℕ) : Plain (displayNat n) := by
  intro c hc
  have hdigit := Nat.isDigit_of_mem_toDigits (by decide) le_rfl hc
  constructor
  all_goals
    rintro rfl
    cases hdigit

/-- So is an integer. -/
theorem plain_displayInt (n : ℤ) : Plain (displayInt n) := by
  rw [displayInt]
  split
  · exact (plain_displayNat _).cons (by decide)
  · exact plain_displayNat _

/-- Hexadecimal digits are plain. -/
theorem plain_hexDigits (fuel n : ℕ) : Plain (hexDigits fuel n) := by
  have hdigit : ∀ k < 16, hexDigitUpper k ≠ '"' ∧ hexDigitUpper k ≠ '>' := by decide
  induction fuel generalizing n with
  | zero => exact plain_nil
  | succ fuel ih =>
    rw [hexDigits]
    split
    case isTrue h => exact plain_nil.cons (hdigit n h)
    case isFalse => exact (ih _).append (plain_nil.cons (hdigit _ (Nat.mod_lt _ (by decide))))

/-- Zeros before them do no harm. -/
theorem plain_hexUpper (width n : ℕ) : Plain (hexUpper width n).toList := by
  rw [hexUpper, String.toList_ofList]
  exact (plain_replicate (by decide)).append (plain_hexDigits _ _)

/-- Decimal digits are plain. -/
theorem plain_digits (ds : List ℕ) : Plain (ds.map decimalDigit) := by
  intro c hc
  obtain ⟨d, -, rfl⟩ := mem_map.mp hc
  unfold decimalDigit
  split <;> decide

/-- A decimal point does no harm. -/
theorem plain_digitsToDecStr {l : List Char} (hl : Plain l) (k : ℤ) : Plain
    (digitsToDecStr l k) := by
  rw [digitsToDecStr]
  split_ifs
  · exact (((plain_replicate (by decide)).append hl).cons (by decide)).cons (by decide)
  · exact .append (fun c hc => hl c (mem_of_mem_take hc))
      (.cons (by decide) fun c hc => hl c (mem_of_mem_drop hc))
  · exact hl.append (plain_replicate (by decide))

/-- **A float is written plainly**, whatever it is. -/
theorem plain_display (x : F32) : Plain x.display := by
  have hsign : Plain (if x.negative then ['-'] else []) := by split <;> decide
  rw [F32.display]
  generalize (if x.negative then ['-'] else []) = sign at hsign
  split_ifs
  · decide
  · exact hsign.append (by decide)
  · exact hsign.append (by decide)
  · exact hsign.append (plain_digitsToDecStr (plain_digits _) _)

/-- Escaping leaves neither quotes nor brackets. -/
theorem plain_xmlEscape (s : String) : Plain (xmlEscape s) := by
  intro c hc
  obtain ⟨x, -, hc⟩ := mem_flatMap.mp hc
  have hplain : Plain (xmlEscapeChar x) := by
    rw [xmlEscapeChar]
    split_ifs with h1 h2 hgt hquot h5
    case neg => exact plain_nil.cons ⟨hquot, hgt⟩
    all_goals decide
  exact hplain c hc

/-- A reference is a table and a number. -/
theorem plain_reference {tableId : String} (h : Ident tableId) (id : ObjectID) :
    Plain (reference tableId id) := by
  have hid : Plain tableId.toList := by
    intro c hc
    exact ⟨ne_of_isIdent (h.2 c hc) rfl, ne_of_isIdent (h.2 c hc) rfl⟩
  exact hid.append ((plain_displayNat _).cons (by decide))

/-! ## Documents are trees -/

namespace XmlElement

def addChildren (e : XmlElement) (ts : List XmlElement) : XmlElement :=
  mk e.name e.attributes (e.children ++ ts)

/-- Children are added one after the other. -/
theorem addChildren_append (e : XmlElement) (ts us : List XmlElement) :
    (e.addChildren ts).addChildren us = e.addChildren (ts ++ us) := by
  simp [addChildren, name, attributes, children]

end XmlElement

/-- **The lines of a list of subtrees**: they add these to the innermost
open element and leave everything else as it is. -/
def Renders (lines : List Line) (ts : List XmlElement) : Prop :=
  ∀ p stack root, lines.foldlM Line.apply ⟨p :: stack, root⟩ = .ok ⟨p.addChildren ts :: stack, root⟩

theorem renders_nil : Renders [] [] := by
  rintro ⟨n, as, cs⟩ stack root
  simp [addChildren, name, attributes, children, pure, Except.pure]

/-- Lines after lines build trees after trees. -/
theorem Renders.append {ls ms : List Line} {ts us : List XmlElement} (hl : Renders ls ts)
    (hm : Renders ms us) : Renders (ls ++ ms) (ts ++ us) := by
  intro p stack root
  rw [foldlM_append, hl, ← addChildren_append]
  exact hm _ _ _

/-- The lines of each object build the trees of each. -/
theorem Renders.flatMap {α : Type} {lines : α → List Line} {trees : α → List XmlElement} :
    ∀ xs : List α, (∀ x ∈ xs, Renders (lines x) (trees x)) →
      Renders (xs.flatMap lines) (xs.flatMap trees)
  | [], _ => renders_nil
  | x :: xs, h => by
    rw [forall_mem_cons] at h
    exact h.1.append (.flatMap xs h.2)

/-- An element around its children. -/
theorem Renders.element {ls : List Line} {ts : List XmlElement} (h : Renders ls ts)
    (indent indent' : ℕ) (name : String) (as : List Attribute) :
    Renders (.tag indent name as false :: (ls ++ [.endTag indent' name]))
      [.mk name (as.map parsed) ts] := by
  intro p stack root
  have hinner := h (.mk name (as.map parsed) []) (p :: stack) root
  change (ls ++ [Line.endTag indent' name]).foldlM Line.apply
    ⟨.mk name (as.map parsed) [] :: p :: stack, root⟩ = _
  rw [foldlM_append, hinner]
  change Line.apply ⟨.mk name (as.map parsed) ([] ++ ts) :: p :: stack, root⟩
    (.endTag indent' name) >>= pure = _
  rw [Line.apply]
  simp [XmlElement.name, ParseState.attach, XmlElement.addChild, XmlElement.addChildren, pure,
    Except.pure, bind, Except.bind]

/-! ## The document of a pool -/

/-- The tree of a tag without children. -/
def Line.leaf : Line → List XmlElement
  | .tag _ name as _ => [.mk name (as.map parsed) []]
  | _ => []

/-- Lines that are all empty elements. -/
theorem renders_leaves {ls : List Line} (h : ∀ l ∈ ls, ∃ i n as, l = .tag i n as true) :
    Renders ls (ls.flatMap Line.leaf) := by
  have hlines : ∀ l ∈ ls, Renders [l] l.leaf := by
    intro l hl
    obtain ⟨i, n, as, rfl⟩ := h l hl
    exact fun _ _ _ => rfl
  have h := Renders.flatMap ls hlines
  rwa [flatMap_singleton'] at h

namespace DDOP

variable (d : DDOP) (e : DeviceElement)

def elementTree : XmlElement :=
  .mk deviceElementElementTag (e.attributes.map parsed) ((d.childLines e).flatMap Line.leaf)

variable (dev : DeviceObject)

def deviceTree : XmlElement :=
  .mk deviceElementTag (dev.attributes.map parsed) (d.elements.map d.elementTree)

/-- The tree the document is written from. -/
def documentTree : XmlElement :=
  .mk rootElement (rootAttributes.map parsed)
    (d.devices.map d.deviceTree ++
      (d.valuePresentations.map valuePresentationLine).flatMap Line.leaf)

/-- Process data and properties are leaves of their element. -/
theorem renders_childLines : Renders (d.childLines e) ((d.childLines e).flatMap Line.leaf) := by
  refine renders_leaves fun l hl => ?_
  obtain ⟨cid, -, hl⟩ := mem_flatMap.mp hl
  rcases mem_append.mp hl with hl | hl
  · obtain ⟨pd, -, rfl⟩ := mem_map.mp hl
    exact ⟨_, _, _, rfl⟩
  · obtain ⟨p, -, rfl⟩ := mem_map.mp hl
    exact ⟨_, _, _, rfl⟩

/-- A device is the parent of its elements. -/
theorem renders_device : Renders (d.deviceLines dev) [d.deviceTree dev] := by
  have h := Renders.flatMap d.elements fun e _ =>
    (d.renders_childLines e).element 4 4 deviceElementElementTag e.attributes
  rw [← map_eq_flatMap] at h
  exact h.element 2 2 deviceElementTag dev.attributes

/-- **The lines of the document build its tree.** -/
theorem foldlM_isoxmlLines :
    d.isoxmlLines.foldlM Line.apply {} = .ok { stack := [], root := some d.documentTree } := by
  have hdevices := Renders.flatMap d.devices fun dev _ => d.renders_device dev
  have hvps : Renders (d.valuePresentations.map valuePresentationLine)
      ((d.valuePresentations.map valuePresentationLine).flatMap Line.leaf) := by
    refine renders_leaves fun l hl => ?_
    obtain ⟨vp, -, rfl⟩ := mem_map.mp hl
    exact ⟨_, _, _, rfl⟩
  rw [← map_eq_flatMap] at hdevices
  have hbody := (hdevices.append hvps) (.mk rootElement (rootAttributes.map parsed) []) [] none
  change foldlM Line.apply ⟨[.mk rootElement _ []], none⟩ _ = _
  rw [← append_assoc, foldlM_append, hbody]
  rfl

/-! ## Every line is read back -/

/-- A reference to a presentation reads back. -/
theorem good_presentation (id : ObjectID) : ∀ a ∈ presentation id, a.Good := by
  rw [presentation]
  split
  · simp only [forall_mem_singleton, Good]
    exact ⟨by decide, plain_reference (by decide) _⟩
  · exact forall_mem_nil _

/-- So does the line of process data. -/
theorem good_pdLine (pd : DeviceProcessData) : pd.line.Good := by
  refine ⟨by decide, forall_mem_append.mpr ⟨?_, good_presentation _⟩⟩
  simp only [forall_mem_cons, Good]
  exact ⟨⟨by decide, plain_reference (by decide) _⟩, ⟨by decide, plain_hexUpper _ _⟩,
    ⟨by decide, plain_displayNat _⟩, ⟨by decide, plain_xmlEscape _⟩, forall_mem_nil _⟩

/-- So does the line of a property. -/
theorem good_propertyLine (p : DeviceProperty) : p.line.Good := by
  refine ⟨by decide, forall_mem_append.mpr ⟨?_, good_presentation _⟩⟩
  simp only [forall_mem_cons, Good]
  exact ⟨⟨by decide, plain_reference (by decide) _⟩, ⟨by decide, plain_displayNat _⟩,
    ⟨by decide, plain_displayInt _⟩, ⟨by decide, plain_xmlEscape _⟩, forall_mem_nil _⟩

/-- So do the lines of an element. -/
theorem good_element : ∀ l ∈ d.emitElementXml e, l.Good := by
  have hend : Ident deviceElementElementTag := by decide
  rw [emitElementXml, forall_mem_cons, forall_mem_append, forall_mem_singleton]
  refine ⟨⟨hend, ?_⟩, fun l hl => ?_, hend⟩
  · simp only [DeviceElement.attributes, forall_mem_cons, Good]
    exact ⟨⟨by decide, plain_reference (by decide) _⟩, ⟨by decide, plain_displayNat _⟩,
      ⟨by decide, plain_xmlEscape _⟩, ⟨by decide, plain_displayNat _⟩,
      ⟨by decide, plain_reference (by decide) _⟩, forall_mem_nil _⟩
  · obtain ⟨cid, -, hl⟩ := mem_flatMap.mp hl
    rcases mem_append.mp hl with hl | hl
    · obtain ⟨pd, -, rfl⟩ := mem_map.mp hl
      exact good_pdLine pd
    · obtain ⟨p, -, rfl⟩ := mem_map.mp hl
      exact good_propertyLine p

/-- So do the lines of a device. -/
theorem good_device : ∀ l ∈ d.deviceLines dev, l.Good := by
  have hend : Ident deviceElementTag := by decide
  rw [deviceLines, forall_mem_cons, forall_mem_append, forall_mem_singleton]
  refine ⟨⟨hend, ?_⟩, fun l hl => ?_, hend⟩
  · simp only [DeviceObject.attributes, forall_mem_cons, Good]
    exact ⟨⟨by decide, plain_reference (by decide) _⟩, ⟨by decide, plain_xmlEscape _⟩,
      ⟨by decide, plain_xmlEscape _⟩, ⟨by decide, plain_xmlEscape _⟩, forall_mem_nil _⟩
  · obtain ⟨e, -, hl⟩ := mem_flatMap.mp hl
    exact d.good_element e l hl

/-- So does the line of a value presentation. -/
theorem good_valuePresentation (vp : DeviceValuePresentation) :
    (valuePresentationLine vp).Good := by
  refine ⟨by decide, ?_⟩
  simp only [forall_mem_cons, Good]
  exact ⟨⟨by decide, plain_reference (by decide) _⟩, ⟨by decide, plain_displayInt _⟩,
    ⟨by decide, plain_display _⟩, ⟨by decide, plain_displayNat _⟩, ⟨by decide, plain_xmlEscape _⟩,
    forall_mem_nil _⟩

/-- **Every line of the document reads back.** -/
theorem good_isoxmlLines : ∀ l ∈ d.isoxmlLines, l.Good := by
  have hend : Ident rootElement := by decide
  rw [isoxmlLines, forall_mem_cons, forall_mem_cons, forall_mem_append,
    forall_mem_append, forall_mem_singleton]
  refine ⟨trivial, ⟨hend, ?_⟩, fun l hl => ?_, fun l hl => ?_, hend⟩
  · simp only [rootAttributes, forall_mem_cons, Good]
    exact ⟨by decide, by decide, by decide, forall_mem_nil _⟩
  · obtain ⟨dev, -, hl⟩ := mem_flatMap.mp hl
    exact d.good_device dev l hl
  · obtain ⟨vp, -, rfl⟩ := mem_map.mp hl
    exact good_valuePresentation vp

/-- **The import reads the tree the export wrote**, for every pool. -/
theorem fromXml_toIsoxml : fromXml d.toIsoxml = .ok ⟨d.documentTree⟩ := by
  have hdrain := drain_lines (xmlErr "unterminated markup") d.isoxmlLines {} [] _
    d.good_isoxmlLines (by simp) le_rfl
  rw [nil_append, d.foldlM_isoxmlLines] at hdrain
  rw [fromXml, parseXml, toIsoxml, String.toList_ofList, hdrain]
  rfl

/-! ## What the import reports -/

/-- The value presentations beside the devices are not devices. -/
theorem childrenNamed_documentTree :
    d.documentTree.childrenNamed deviceElementTag = d.devices.map d.deviceTree := by
  have hdev : (d.devices.map d.deviceTree).filter (·.name == deviceElementTag)
      = d.devices.map d.deviceTree := by
    rw [filter_eq_self]
    intro t ht
    obtain ⟨dev, -, rfl⟩ := mem_map.mp ht
    exact beq_self_eq_true deviceElementTag
  have hvp : ((d.valuePresentations.map valuePresentationLine).flatMap Line.leaf).filter
      (·.name == deviceElementTag) = [] := by
    rw [filter_eq_nil_iff]
    intro t ht
    obtain ⟨l, hl, ht⟩ := mem_flatMap.mp ht
    obtain ⟨vp, -, rfl⟩ := mem_map.mp hl
    rw [mem_singleton.mp ht]
    exact (by decide : ¬ ("DVP" == deviceElementTag) = true)
  change filter _ (_ ++ _) = _
  rw [filter_append, hdev, hvp, append_nil]

/-- A device has its elements for children. -/
theorem childrenNamed_deviceTree :
    (d.deviceTree dev).childrenNamed deviceElementElementTag = d.elements.map d.elementTree := by
  change (d.elements.map d.elementTree).filter _ = _
  rw [filter_eq_self]
  intro t ht
  obtain ⟨e, -, rfl⟩ := mem_map.mp ht
  exact beq_self_eq_true deviceElementElementTag

/-- The designators of the devices are reported as they were escaped. -/
theorem devices_documentTree : (TaskData.mk d.documentTree).devices = d.devices.map fun dev =>
          ⟨String.ofList (reference "DVC" dev.id), String.ofList (xmlEscape dev.designator)⟩ := by
  rw [TaskData.devices, childrenNamed_documentTree, map_map]
  rfl

/-- Once for every device, the elements are reported with their numbers. -/
theorem deviceElements_documentTree : (TaskData.mk d.documentTree).deviceElements
      = d.devices.flatMap fun _ => d.elements.map fun e =>
          ⟨String.ofList (reference "DET" e.id), toString e.number.toNat⟩ := by
  rw [TaskData.deviceElements, childrenNamed_documentTree, flatMap_map]
  simp only [childrenNamed_deviceTree, map_flatMap, map_map]
  rfl

end DDOP

/-! ## When the two agree -/

/-- A character that is not escaped. -/
def Unescaped (c : Char) : Prop := c ≠ '&' ∧ c ≠ '<' ∧ c ≠ '>' ∧ c ≠ '"' ∧ c ≠ '\''
  deriving Decidable

/-- A character is escaped as itself or as something longer. -/
theorem xmlEscapeChar_cases (c : Char) :
    (Unescaped c ∧ xmlEscapeChar c = [c]) ∨ (¬ Unescaped c ∧ 2 ≤ (xmlEscapeChar c).length) := by
  rw [xmlEscapeChar]
  split_ifs with h1 h2 h3 h4 h5
  · exact .inr ⟨fun h => h.1 h1, by decide⟩
  · exact .inr ⟨fun h => h.2.1 h2, by decide⟩
  · exact .inr ⟨fun h => h.2.2.1 h3, by decide⟩
  · exact .inr ⟨fun h => h.2.2.2.1 h4, by decide⟩
  · exact .inr ⟨fun h => h.2.2.2.2 h5, by decide⟩
  · exact .inl ⟨⟨h1, h2, h3, h4, h5⟩, rfl⟩

/-- Escaping makes no text shorter. -/
theorem length_le_flatMap_xmlEscapeChar (l : List Char) :
    l.length ≤ (l.flatMap xmlEscapeChar).length := by
  induction l with
  | nil => exact le_rfl
  | cons c l ih =>
    have hc : 1 ≤ (xmlEscapeChar c).length := by
      rcases xmlEscapeChar_cases c with ⟨-, h⟩ | ⟨-, h⟩
      · rw [h]
        exact le_rfl
      · omega
    rw [flatMap_cons, length_append, length_cons]
    omega

/-- **Escaping changes nothing just when there is nothing to escape.** -/
theorem xmlEscape_eq_iff (s : String) :
    .ofList (xmlEscape s) = s ↔ ∀ c ∈ s.toList, Unescaped c := by
  have hlist : ∀ l : List Char, l.flatMap xmlEscapeChar = l ↔ ∀ c ∈ l, Unescaped c := by
    intro l
    induction l with
    | nil => exact ⟨nofun, fun _ => rfl⟩
    | cons c l ih =>
      rw [flatMap_cons, forall_mem_cons]
      rcases xmlEscapeChar_cases c with ⟨hc, heq⟩ | ⟨hc, hlong⟩
      · rw [heq, singleton_append, cons.injEq, ih]
        exact ⟨fun h => ⟨hc, h.2⟩, fun h => ⟨rfl, h.2⟩⟩
      · refine ⟨fun h => ?_, fun h => absurd h.1 hc⟩
        -- what was escaped became longer, and nothing becomes shorter
        have hlen := congrArg length h
        have := length_le_flatMap_xmlEscapeChar l
        rw [length_append, length_cons] at hlen
        omega
  rw [← hlist, xmlEscape]
  constructor
  · intro h
    have := congrArg String.toList h
    rwa [String.toList_ofList] at this
  · intro h
    rw [h, String.ofList_toList]

namespace DDOP

/-- Importing the export succeeds and lists the devices and the elements of
the pool, in order, with their designators. -/
def ImportsBack (d : DDOP) : Prop :=
  ∃ t, fromXml d.toIsoxml = .ok t ∧ t.devices = (d.devices.map fun dev =>
      ⟨String.ofList (reference "DVC" dev.id), dev.designator⟩) ∧
    t.deviceElements = (d.elements.map fun e =>
      ⟨String.ofList (reference "DET" e.id), e.designator⟩)

/-- **Export and import agree** just when no designator of a device needs
escaping and, if there are elements at all, there is one device and every
element is named by its number. -/
theorem imports_back_iff (d : DDOP) :
    d.ImportsBack ↔
      (∀ dev ∈ d.devices, ∀ c ∈ dev.designator.toList, Unescaped c) ∧
      (d.elements = [] ∨
        (d.devices.length = 1 ∧ ∀ e ∈ d.elements, e.designator = toString e.number.toNat)) := by
  have hdevices : (TaskData.mk d.documentTree).devices = (d.devices.map fun dev =>
      ⟨String.ofList (reference "DVC" dev.id), dev.designator⟩) ↔
      ∀ dev ∈ d.devices, ∀ c ∈ dev.designator.toList, Unescaped c := by
    rw [devices_documentTree, map_inj_left]
    refine forall₂_congr fun dev _ => ?_
    rw [XmlDevice.mk.injEq, xmlEscape_eq_iff]
    exact and_iff_right rfl
  have helements : (TaskData.mk d.documentTree).deviceElements = (d.elements.map fun e =>
      ⟨String.ofList (reference "DET" e.id), e.designator⟩) ↔
      (d.elements = [] ∨
        (d.devices.length = 1 ∧ ∀ e ∈ d.elements, e.designator = toString e.number.toNat)) := by
    rw [deviceElements_documentTree]
    constructor
    · intro h
      rcases eq_or_ne d.elements [] with hnil | hne
      · exact .inl hnil
      have hlen := congrArg length h
      simp only [length_flatMap, length_map, map_const', sum_replicate_nat] at hlen
      have hpos := length_pos_of_ne_nil hne
      have hone : d.devices.length = 1 :=
        Nat.eq_of_mul_eq_mul_right hpos (by rw [hlen, Nat.one_mul])
      obtain ⟨dev, hdev⟩ := length_eq_one_iff.mp hone
      rw [hdev, flatMap_singleton, map_inj_left] at h
      refine .inr ⟨hone, fun e he => ?_⟩
      exact (congrArg XmlDeviceElement.designator (h e he)).symm
    · rintro (hnil | ⟨hone, hnum⟩)
      · rw [hnil]
        simp
      · obtain ⟨dev, hdev⟩ := length_eq_one_iff.mp hone
        rw [hdev, flatMap_singleton]
        exact map_congr_left fun e he => by rw [hnum e he]
  constructor
  · rintro ⟨t, ht, hdev, helem⟩
    rw [fromXml_toIsoxml] at ht
    cases ht
    exact ⟨hdevices.mp hdev, helements.mp helem⟩
  · rintro ⟨hdev, helem⟩
    exact ⟨_, d.fromXml_toIsoxml, hdevices.mpr hdev, helements.mpr helem⟩

/-- A device and one element, numbered 7 and named otherwise: the import
names it `7`. -/
theorem element_named_by_number :
    let d : DDOP := { devices := [{ designator := "Seeder" }]
                      elements := [{ id := 2, number := 7, designator := "Hopper" }] }
    (TaskData.fromXml d.toIsoxml).map (·.deviceElements) = .ok [⟨"DET-2", "7"⟩] ∧
      ¬ d.ImportsBack := by
  intro d
  have hread : (fromXml d.toIsoxml).map (·.deviceElements) = .ok [⟨"DET-2", "7"⟩] := by
    decide +kernel
  refine ⟨hread, ?_⟩
  rintro ⟨t, ht, -, helem⟩
  rw [ht] at hread
  change Except.ok t.deviceElements = _ at hread
  rw [helem, Except.ok.injEq] at hread
  revert hread
  decide

end DDOP

end Machbus.Tc
