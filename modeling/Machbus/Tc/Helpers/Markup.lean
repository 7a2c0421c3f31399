import Machbus.Tc.Model.Isoxml
/-!
# What is emitted is parsed back, line by line

A line of the export is one markup. The parser finds its end at the next
`>` and the ends of its attribute values at the next quote, so a line is
read as what it was written from when names are plain identifiers and
values contain neither. Escaping and the printing of numbers see to that.
-/

namespace Machbus.Tc

open List Attribute Reader

variable {c : Char} {x : Char} {s : String}

/-! ## Characters -/

/-- A letter, a digit or an underscore. -/
def isIdent (c : Char) : Bool := c.isAlphanum || c == '_'

/-- A name of the format. -/
def Ident (s : String) : Prop := s.toList ≠ [] ∧ ∀ c ∈ s.toList, isIdent c = true

instance (s : String) : Decidable (Ident s) :=
  have := List.decidableBAll (fun c => isIdent c = true) s.toList
  inferInstanceAs (Decidable (s.toList ≠ [] ∧ _))

/-- A value that ends neither itself nor its tag. -/
def Plain (l : List Char) : Prop := ∀ c ∈ l, c ≠ '"' ∧ c ≠ '>'

theorem isWhitespace_of_isIdent (h : isIdent c = true) : isWhitespace c = false := by
  have hall : ∀ n ∈ [0x09, 0x0A, 0x0B, 0x0C, 0x0D, 0x20, 0x85, 0xA0, 0x1680, 0x2000, 0x2001, 0x2002,
      0x2003, 0x2004, 0x2005, 0x2006, 0x2007, 0x2008, 0x2009, 0x200A, 0x2028, 0x2029, 0x202F,
      0x205F, 0x3000], isIdent (Char.ofNat n) = false := by decide
  by_contra hws
  rw [Bool.not_eq_false, isWhitespace, decide_eq_true_eq] at hws
  have hno := hall _ hws
  rw [Char.ofNat_toNat, h] at hno
  cases hno

theorem ne_of_isIdent (h : isIdent c = true) (hx : isIdent x = false) : c ≠ x := by
  rintro rfl
  rw [h] at hx
  cases hx

theorem Ident.not_mem (h : Ident s) (hx : isIdent x = false) : x ∉ s.toList :=
  fun hmem => ne_of_isIdent (h.2 x hmem) hx rfl

theorem Ident.exists_cons (h : Ident s) : ∃ c l, s.toList = c :: l ∧ isIdent c = true := by
  obtain ⟨c, l, hcl⟩ := exists_cons_of_ne_nil h.1
  exact ⟨c, l, hcl, h.2 c (by rw [hcl]; exact mem_cons_self)⟩

/-! ## Scanning -/

theorem splitAtChar_append {a : List Char} (h : c ∉ a) (b : List Char) :
    splitAtChar c (a ++ c :: b) = some (a, b) := by
  induction a with
  | nil => rw [nil_append, splitAtChar, if_pos rfl]
  | cons x a ih =>
    obtain ⟨hx, ha⟩ := not_or.mp (fun h' => h (mem_cons.mpr h'))
    rw [cons_append, splitAtChar, if_neg (fun h' => hx h'.symm), ih ha]
    rfl

theorem trimStart_cons (h : isWhitespace c = false) (l : List Char) :
    trimStart (c :: l) = c :: l := by
  rw [trimStart, dropWhile_cons, h]
  rfl

/-- Nothing is trimmed between two characters that are not white space. -/
theorem trim_eq_self {d : Char} {l init : List Char} (hc : isWhitespace c = false)
    (hd : isWhitespace d = false) (heq : c :: l = init ++ [d]) : trim (c :: l) = c :: l := by
  rw [trim, trimStart_cons hc, heq]
  exact rdropWhile_concat_neg _ _ _ (by simp [hd])

theorem Ident.trim (h : Ident s) : trim s.toList = s.toList := by
  obtain ⟨c, l, hcl, hc⟩ := h.exists_cons
  obtain ⟨init, d, hd⟩ : ∃ init d, s.toList = init ++ [d] :=
    ⟨_, _, (dropLast_append_getLast h.1).symm⟩
  have hdw := isWhitespace_of_isIdent (h.2 d (by rw [hd]; simp))
  rw [hcl] at hd ⊢
  exact trim_eq_self (isWhitespace_of_isIdent hc) hdw hd

/-! ## Attributes -/

/-- An attribute that is read back. -/
def Attribute.Good (a : Attribute) : Prop := Ident a.1 ∧ Plain a.2

/-- The attribute as the parser reports it. -/
def Attribute.parsed (a : Attribute) : String × String := (a.1, String.ofList a.2)

/-- **One attribute is read back**, and the white space behind it is
skipped. -/
theorem parseAttribute_text {a : Attribute} (h : a.Good) (acc : List (String × String))
    (rest : List Char) :
    parseAttribute acc (a.1.toList ++ '=' :: '"' :: (a.2 ++ '"' :: rest))
      = .ok (acc ++ [a.parsed], trimStart rest) := by
  have hq : '"' ∉ a.2 := fun hmem => (h.2 _ hmem).1 rfl
  rw [parseAttribute, splitAtChar_append (h.1.not_mem rfl)]
  dsimp only
  rw [trimStart_cons rfl]
  dsimp only
  rw [splitAtChar_append hq]
  rw [h.1.trim, String.ofList_toList]
  rfl

/-- What is left of the text of an attribute behind its leading blank. -/
theorem trimStart_text {a : Attribute} (h : Ident a.1) (rest : List Char) :
    trimStart (a.text ++ rest) = a.1.toList ++ '=' :: '"' :: (a.2 ++ '"' :: rest) := by
  obtain ⟨c, l, hcl, hc⟩ := h.exists_cons
  have hblank : ∀ l', trimStart (' ' :: l') = trimStart l' := fun _ => rfl
  rw [text, cons_append, hblank, hcl, append_assoc, cons_append,
    trimStart_cons (isWhitespace_of_isIdent hc)]
  simp

/-- The attributes of a tag are read back in order. -/
theorem drain_attributes (e : Error) :
    ∀ (as : List Attribute) (acc : List (String × String)) (fuel : ℕ), (∀ a ∈ as, a.Good) →
      (trimStart (as.flatMap text)).length ≤ fuel →
      drain parseAttribute e fuel acc (trimStart (as.flatMap text)) = .ok (acc ++ as.map parsed)
  | [], acc, fuel, _, _ => by
    have hnil : trimStart (([] : List Attribute).flatMap text) = [] := rfl
    rw [hnil, map_nil, append_nil]
    cases fuel <;> rfl
  | a :: as, acc, fuel, hgood, hfuel => by
    rw [forall_mem_cons] at hgood
    obtain ⟨ha, has⟩ := hgood
    rw [flatMap_cons, trimStart_text ha.1] at hfuel ⊢
    have hshort : (trimStart (as.flatMap text)).length ≤ (as.flatMap text).length :=
      (dropWhile_sublist _).length_le
    simp only [length_append, length_cons] at hfuel
    obtain ⟨fuel, rfl⟩ : ∃ n, fuel = n + 1 := ⟨fuel - 1, by omega⟩
    obtain ⟨c, l, hcl⟩ := exists_cons_of_ne_nil ha.1.1
    have hunroll : drain parseAttribute e (fuel + 1) acc
        (a.1.toList ++ '=' :: '"' :: (a.2 ++ '"' :: as.flatMap text))
        = (parseAttribute acc (a.1.toList ++ '=' :: '"' :: (a.2 ++ '"' :: as.flatMap text))).bind
            fun r => drain parseAttribute e fuel r.1 r.2 := by
      rw [hcl]
      rfl
    rw [hunroll, parseAttribute_text ha]
    change drain parseAttribute e fuel (acc ++ [a.parsed]) (trimStart (as.flatMap text)) = _
    rw [drain_attributes e as (acc ++ [a.parsed]) fuel has (by omega), append_assoc]
    rfl

/-! ## Tags -/

/-- The text of a tag between its brackets. -/
def tagBody (name : String) (as : List Attribute) : List Char :=
  name.toList ++ as.flatMap Attribute.text

variable {name : String} {as : List Attribute}

section

variable (hname : Ident name) (as : List Attribute)
include hname

/-- It ends with a quote, or with the last letter of the name. -/
theorem exists_tagBody_concat :
    ∃ init d, tagBody name as = init ++ [d] ∧ isWhitespace d = false ∧ d ≠ '/' := by
  rcases eq_nil_or_concat as with rfl | ⟨bs, a, rfl⟩
  · obtain ⟨hne, hall⟩ := hname
    have hd := hall _ (getLast_mem hne)
    refine ⟨name.toList.dropLast, _, ?_, isWhitespace_of_isIdent hd, ne_of_isIdent hd rfl⟩
    rw [tagBody, flatMap_nil, append_nil]
    exact (dropLast_append_getLast hne).symm
  · refine ⟨name.toList ++ (bs.flatMap text ++ ' ' :: (a.1.toList ++ '=' :: '"' :: a.2)),
      '"', ?_, rfl, by decide⟩
    simp [tagBody, text]

theorem tagBody_trim : trim (tagBody name as) = tagBody name as := by
  obtain ⟨init, d, heq, hd, -⟩ := exists_tagBody_concat hname as
  obtain ⟨c, l, hcl, hc⟩ := hname.exists_cons
  have hcons : tagBody name as = c :: (l ++ as.flatMap text) := by
    rw [tagBody, hcl]
    rfl
  rw [hcons] at heq ⊢
  exact trim_eq_self (isWhitespace_of_isIdent hc) hd heq

/-- The name ends at the first blank. -/
theorem tagBody_name : (tagBody name as).takeWhile (fun c => !isWhitespace c) = name.toList ∧
      (tagBody name as).dropWhile (fun c => !isWhitespace c) = as.flatMap text := by
  have hall : ∀ c ∈ name.toList, (!isWhitespace c) = true := by
    intro c hc
    rw [isWhitespace_of_isIdent (hname.2 c hc)]
    rfl
  rw [tagBody, takeWhile_append_of_pos hall, dropWhile_append_of_pos hall]
  cases as with
  | nil | cons a as => exact ⟨append_nil _, rfl⟩

end

/-- **A tag is read back.** -/
theorem parseStartTag_tagBody (hname : Ident name) (has : ∀ a ∈ as, a.Good) :
    parseStartTag (tagBody name as) = .ok (.mk name (as.map parsed) []) := by
  obtain ⟨htake, hdrop⟩ := tagBody_name hname as
  rw [parseStartTag]
  dsimp only
  rw [tagBody_trim hname, htake, hdrop, drain_attributes _ _ _ _ has le_rfl, check_bind_eq_ok,
    require_eq_ok]
  refine ⟨hname.1, ?_⟩
  rw [String.ofList_toList]
  rfl

theorem not_mem_tagBody (hname : Ident name) (has : ∀ a ∈ as, a.Good) : '>' ∉ tagBody name as := by
  intro hmem
  rcases mem_append.mp hmem with hmem | hmem
  · exact hname.not_mem rfl hmem
  · obtain ⟨a, ha, hmem⟩ := mem_flatMap.mp hmem
    obtain ⟨hkey, hvalue⟩ := has a ha
    simp only [text, mem_cons, mem_append] at hmem
    rcases hmem with hc | hmem | hc | hc | hmem | hc | hc
    · cases hc
    · exact hkey.not_mem rfl hmem
    · cases hc
    · cases hc
    · exact (hvalue _ hmem).2 rfl
    · cases hc
    · cases hc

/-! ## Lines -/

/-- A line that is read back. -/
def Line.Good : Line → Prop
  | .declaration => True
  | .tag _ name as _ => Ident name ∧ ∀ a ∈ as, a.Good
  | .endTag _ name => Ident name

/-- What a line does to the open elements. -/
def Line.apply (st : ParseState) : Line → Except Error ParseState
  | .declaration => .ok st
  | .tag _ name as selfClosing =>
    let elem := XmlElement.mk name (as.map Attribute.parsed) []
    if selfClosing then st.attach elem else .ok { st with stack := elem :: st.stack }
  | .endTag _ name =>
    match st.stack with
    | [] => .error (xmlErr "unmatched end tag")
    | elem :: stack =>
      if elem.name ≠ name then .error (xmlErr "mismatched end tag")
      else ({ st with stack } : ParseState).attach elem

/-- The markup of a line, without the blanks in front and the line break
behind. -/
def Line.markup : Line → List Char
  | .declaration => xmlDeclaration.toList
  | .tag _ name as selfClosing =>
    '<' :: (tagBody name as ++ ((if selfClosing then ['/'] else []) ++ ['>']))
  | .endTag _ name => '<' :: '/' :: (name.toList ++ ['>'])

theorem Line.text_eq (line : Line) :
    ∃ n, line.text = replicate n ' ' ++ (line.markup ++ ['\n']) := by
  cases line with
  | declaration => exact ⟨0, rfl⟩
  | tag indent name as selfClosing =>
    refine ⟨indent, ?_⟩
    rw [Line.text, Line.markup, tagBody]
    simp only [append_assoc, cons_append, nil_append]
  | endTag indent name =>
    rw [Line.text, Line.markup]
    simp

/-- A name is not a mark that starts a comment, a declaration or an end
tag. -/
theorem isPrefixOf_tagBody (hname : Ident name) (hx : isIdent x = false) (marks l : List Char) :
    ('<' :: x :: marks).isPrefixOf ('<' :: (tagBody name as ++ l)) = false := by
  obtain ⟨c, m, hcm, hident⟩ := hname.exists_cons
  have hc : x ≠ c := (ne_of_isIdent hident hx).symm
  rw [tagBody, hcm]
  simp [isPrefixOf, hc]

theorem parseOpenTag_markup (hname : Ident name) (has : ∀ a ∈ as, a.Good) (st : ParseState)
    (selfClosing : Bool) (rest : List Char) :
    parseOpenTag st ('<' :: (tagBody name as ++ ((if selfClosing then ['/'] else []) ++
        '>' :: rest)))
      = ((Line.tag 0 name as selfClosing).apply st).map fun st => (st, rest) := by
  obtain ⟨init, d, heq, -, hd⟩ := exists_tagBody_concat hname as
  have hlast : (tagBody name as).rdropWhile (· == '/') = tagBody name as := by
    rw [heq]
    exact rdropWhile_concat_neg _ _ _ (by simpa using hd)
  have hno := not_mem_tagBody hname has
  have htag := parseStartTag_tagBody hname has
  cases selfClosing with
  | true =>
    have hsplit : splitAtChar '>' (('<' :: (tagBody name as ++ ['/'])) ++ '>' :: rest)
        = some ('<' :: (tagBody name as ++ ['/']), rest) :=
      splitAtChar_append (by simp [hno]) rest
    have hslash : (tagBody name as ++ ['/']).rdropWhile (· == '/') = tagBody name as := by
      rw [rdropWhile_concat_pos _ _ _ rfl, hlast]
    have hend : ('<' :: (tagBody name as ++ ['/'])).getLast? = some '/' := by
      rw [← cons_append, getLast?_concat]
    simp only [cons_append, append_assoc, nil_append] at hsplit
    rw [parseOpenTag]
    simp only [↓reduceIte, cons_append, nil_append, hsplit, drop_succ_cons,
      drop_zero, hslash, tagBody_trim hname, htag, hend]
    rfl
  | false =>
    have hsplit : splitAtChar '>' (('<' :: tagBody name as) ++ '>' :: rest)
        = some ('<' :: tagBody name as, rest) :=
      splitAtChar_append (by simp [hno]) rest
    have hend : ('<' :: tagBody name as).getLast? ≠ some '/' := by
      rw [heq, ← cons_append, getLast?_concat]
      simpa using hd
    simp only [cons_append] at hsplit
    rw [parseOpenTag]
    simp only [Bool.false_eq_true, ↓reduceIte, nil_append, hsplit, drop_succ_cons,
      drop_zero, hlast, tagBody_trim hname, htag]
    change (if ('<' :: tagBody name as).getLast? = some '/' then _ else _) = _
    rw [if_neg hend]
    rfl

theorem parseEndTag_markup (hname : Ident name) (st : ParseState) (rest : List Char) :
    parseEndTag st ('<' :: '/' :: (name.toList ++ '>' :: rest))
      = ((Line.endTag 0 name).apply st).map fun st => (st, rest) := by
  have hsplit : splitAtChar '>' (('<' :: '/' :: name.toList) ++ '>' :: rest)
      = some ('<' :: '/' :: name.toList, rest) :=
    splitAtChar_append (by simp [hname.not_mem (show isIdent '>' = false from rfl)]) rest
  simp only [cons_append] at hsplit
  rw [parseEndTag, hsplit, Line.apply]
  simp only [drop_succ_cons, drop_zero, hname.trim, String.ofList_toList]
  cases st.stack with
  | nil => rfl
  | cons elem stack =>
    dsimp only
    split <;> rfl

/-- The marks the parser tells apart. -/
theorem marks : "<?".toList = ['<', '?'] ∧ "<!--".toList = ['<', '!', '-', '-'] ∧
    "<!".toList = ['<', '!'] ∧ "</".toList = ['<', '/'] := by decide

/-- The declaration runs to its first closing mark. -/
theorem findAfter_append {a : List Char} (h : '?' ∉ a) (rest : List Char) :
    findAfter ['?', '>'] (a ++ '?' :: '>' :: rest) = .ok rest := by
  induction a with
  | nil => rfl
  | cons x a ih =>
    obtain ⟨hx, ha⟩ := not_or.mp (fun h' => h (mem_cons.mpr h'))
    rw [cons_append, findAfter, if_neg (by simp [hx]), ih ha]

theorem xmlDeclaration_eq : ∃ body, '?' ∉ body ∧
    xmlDeclaration.toList = '<' :: '?' :: 'x' :: (body ++ ['?', '>']) :=
  ⟨"ml version=\"1.0\" encoding=\"UTF-8\"".toList, by decide, by decide⟩

theorem findAfter_declaration (rest : List Char) :
    findAfter ['?', '>'] (xmlDeclaration.toList ++ rest) = .ok rest := by
  obtain ⟨body, hbody, heq⟩ := xmlDeclaration_eq
  have hrest := findAfter_append (a := 'x' :: body) (by simp [hbody]) rest
  rw [heq]
  simp only [cons_append, append_assoc] at hrest ⊢
  exact hrest

/-- **One markup is read back.** -/
theorem parseMarkup_markup {line : Line} (h : line.Good) (st : ParseState) (rest : List Char) :
    parseMarkup st (line.markup ++ rest) = (line.apply st).map fun st => (st, rest) := by
  obtain ⟨hpi, hcomment, hbang, hend⟩ := marks
  rw [parseMarkup, hpi, hcomment, hbang, hend]
  cases line with
  | declaration =>
    obtain ⟨body, -, heq⟩ := xmlDeclaration_eq
    have hprefix : ['<', '?'].isPrefixOf (xmlDeclaration.toList ++ rest) = true := by
      rw [heq]
      simp
    have hclose : "?>".toList = ['?', '>'] := by decide
    rw [Line.markup, if_pos hprefix, hclose, findAfter_declaration]
    rfl
  | tag indent name as selfClosing =>
    obtain ⟨hname, has⟩ := h
    have hshape : (Line.tag indent name as selfClosing).markup ++ rest
        = '<' :: (tagBody name as ++ ((if selfClosing then ['/'] else []) ++ '>' :: rest)) := by
      rw [Line.markup]
      simp
    rw [hshape, isPrefixOf_tagBody hname rfl, isPrefixOf_tagBody hname rfl,
      isPrefixOf_tagBody hname rfl, isPrefixOf_tagBody hname rfl]
    exact parseOpenTag_markup hname has st selfClosing rest
  | endTag indent name =>
    have hshape : (Line.endTag indent name).markup ++ rest
        = '<' :: '/' :: (name.toList ++ '>' :: rest) := by
      rw [Line.markup]
      simp
    rw [hshape]
    exact parseEndTag_markup h st rest

theorem Line.markup_eq_cons (line : Line) : ∃ l, line.markup = '<' :: l := by
  cases line with
  | declaration =>
    obtain ⟨body, -, heq⟩ := xmlDeclaration_eq
    exact ⟨_, heq⟩
  | tag | endTag => exact ⟨_, rfl⟩

/-- **One round of the parsing loop reads one line**, whatever text stands
in front of it. -/
theorem parseNext_text {line : Line} (h : line.Good) (st : ParseState) {ws : List Char}
    (hws : '<' ∉ ws) (rest : List Char) :
    parseNext st (ws ++ (line.text ++ rest))
      = (line.apply st).map fun st => (st, '\n' :: rest) := by
  obtain ⟨n, htext⟩ := line.text_eq
  obtain ⟨l, hmarkup⟩ := line.markup_eq_cons
  have hpre : ∀ c ∈ ws ++ replicate n ' ', (c != '<') = true := by
    intro c hc
    rw [bne_iff_ne]
    rintro rfl
    rcases mem_append.mp hc with hc | hc
    · exact hws hc
    · exact absurd (eq_of_mem_replicate hc) (by decide)
  have hskip : (ws ++ (line.text ++ rest)).dropWhile (· != '<') = '<' :: (l ++ '\n' :: rest) := by
    have hshape : ws ++ (line.text ++ rest)
        = (ws ++ replicate n ' ') ++ '<' :: (l ++ '\n' :: rest) := by
      rw [htext, hmarkup]
      simp
    rw [hshape, dropWhile_append_of_pos hpre]
    rfl
  rw [parseNext, hskip]
  have hread := parseMarkup_markup h st ('\n' :: rest)
  rw [hmarkup] at hread
  exact hread

/-- **Lines are read back in order.** -/
theorem drain_lines (e : Error) :
    ∀ (lines : List Line) (st : ParseState) (ws : List Char) (fuel : ℕ), (∀ l ∈ lines, l.Good) →
      '<' ∉ ws → (ws ++ lines.flatMap Line.text).length ≤ fuel →
      drain parseNext e fuel st (ws ++ lines.flatMap Line.text) = lines.foldlM Line.apply st
  | [], st, ws, fuel, _, hws, hfuel => by
    rw [flatMap_nil, append_nil] at hfuel ⊢
    cases ws with
    | nil => cases fuel <;> rfl
    | cons c ws =>
      obtain ⟨fuel, rfl⟩ : ∃ n, fuel = n + 1 := ⟨fuel - 1, by simp at hfuel; omega⟩
      have hskip : (c :: ws).dropWhile (· != '<') = [] := by
        rw [dropWhile_eq_nil_iff]
        intro x hx
        rw [bne_iff_ne]
        rintro rfl
        exact hws hx
      have hstep : parseNext st (c :: ws) = .ok (st, []) := by rw [parseNext, hskip]
      rw [drain, hstep]
      · cases fuel <;> rfl
      · exact cons_ne_nil _ _
  | line :: lines, st, ws, fuel, hgood, hws, hfuel => by
    rw [forall_mem_cons] at hgood
    rw [flatMap_cons] at hfuel ⊢
    have hread := parseNext_text hgood.1 st hws (lines.flatMap Line.text)
    obtain ⟨n, htext⟩ := line.text_eq
    obtain ⟨l, hmarkup⟩ := line.markup_eq_cons
    have hlen : 2 ≤ line.text.length := by
      rw [htext, hmarkup]
      simp
      omega
    simp only [length_append] at hfuel
    obtain ⟨fuel, rfl⟩ : ∃ n, fuel = n + 1 := ⟨fuel - 1, by omega⟩
    have hne : ws ++ (line.text ++ lines.flatMap Line.text) ≠ [] := by
      intro hnil
      have := congrArg length hnil
      simp only [length_append, length_nil] at this
      omega
    rw [drain, hread, foldlM_cons]
    · cases happly : line.apply st with
      | error e => rfl
      | ok st' =>
        exact drain_lines e lines st' ['\n'] fuel hgood.2 (by decide)
          (by simp only [length_append, length_singleton]; omega)
    · exact hne

end Machbus.Tc
