import SectionStore.Markup.Value
import SectionStore.Proofs.Markup.Fragment
import SectionStore.Proofs.Running
import SectionStore.Proofs.Text.Decimal

/-!
# Typed values are read back

The element of a value is a sequence of tokens that the check of a fragment admits
(`reads_element`), and wherever such elements stand one after the other, the reader finds the values
that they were written from (`readValues_written`). So a text that consists of them is well-formed
content (`checkFragment_written`), and its values are read back, alone and within an element that
ends behind them (`valuesOf_written`, `readValues_within`).
-/

namespace SectionStore.Markup

open Cut

/-- An integer is written in full, but only one of 64 bits is read. -/
def Value.Fits : Value → Prop
  | .int n => Integer.int64Min ≤ n ∧ n ≤ Integer.int64Max
  | _ => True

instance : (value : Value) → Decidable value.Fits
  | .int n => inferInstanceAs (Decidable (Integer.int64Min ≤ n ∧ n ≤ Integer.int64Max))
  | .null | .boolean _ | .string _ => inferInstanceAs (Decidable True)

/-- The elements of named values, one after the other. -/
def writtenValues (values : List (List Char × Value)) : List Char :=
  values.flatMap fun v => v.2.element v.1

theorem writtenValues_cons (name : List Char) (value : Value) (values : List (List Char × Value)) :
    writtenValues ((name, value) :: values) = value.element name ++ writtenValues values :=
  rfl

/-- The text of a boolean. -/
def booleanText (value : Bool) : List Char :=
  if value then ['t', 'r', 'u', 'e'] else ['f', 'a', 'l', 's', 'e']

/-- The tag of the element that holds a value under a name. -/
def Value.tag (name : List Char) : Value → StartTag
  | .null => ⟨['n', 'u', 'l', 'l'], [⟨nameAttribute, escape name⟩], true⟩
  | .int n =>
    ⟨['i', 'n', 't'], [⟨nameAttribute, escape name⟩, ⟨valueAttribute, Integer.decimal n⟩], true⟩
  | .boolean b =>
    ⟨['b', 'o', 'o', 'l', 'e', 'a', 'n'],
      [⟨nameAttribute, escape name⟩, ⟨valueAttribute, booleanText b⟩], true⟩
  | .string _ => ⟨['s', 't', 'r', 'i', 'n', 'g'], [⟨nameAttribute, escape name⟩], false⟩

/-- The content of the element that holds a value. -/
def Value.content : Value → List Char
  | .string text => escape text
  | _ => []

/-! ### Plain text -/

/-- Text without a character that has a meaning in markup is its own escaped form. -/
theorem escape_of_plain {text : List Char} (plain : ∀ c ∈ text, escapeChar c = [c]) :
    escape text = text := by
  induction text with
  | nil => rfl
  | cons c rest ih =>
    obtain ⟨first, others⟩ := List.forall_mem_cons.1 plain
    have rest := ih others
    rw [escape] at rest ⊢
    rw [List.flatMap_cons, first, rest, List.singleton_append]

theorem escapeChar_of_decimal {n : Int} {c : Char} (inside : c ∈ Integer.decimal n) :
    escapeChar c = [c] := by
  have other (d : Char) (none : d.isDigit = false) (unsigned : d ≠ '-') : c ≠ d := by
    rintro rfl
    exact Integer.not_mem_decimal none unsigned n inside
  rw [escapeChar, if_neg (other '&' rfl (by decide)), if_neg (other '<' rfl (by decide)),
    if_neg (other '>' rfl (by decide)), if_neg (other '"' rfl (by decide)),
    if_neg (other '\'' rfl (by decide))]

theorem escape_decimal (n : Int) : escape (Integer.decimal n) = Integer.decimal n :=
  escape_of_plain fun _ => escapeChar_of_decimal

theorem escape_booleanText (b : Bool) : escape (booleanText b) = booleanText b := by
  cases b <;> decide

theorem resolve_escape (text : List Char) : Escape.resolve (escape text) = .ok text := by
  rw [Escape.resolve, if_neg (not_mem_escape text), Escape.resolveAll_escape]

/-- Tags whose attributes are escaped text pass the check. -/
theorem isAdmitted_opening {name : List Char} {attributes : List Attribute} {closes : Bool}
    (escaped : ∀ a ∈ attributes, ∃ text, a.raw = escape text) :
    (Token.opening ⟨name, attributes, closes⟩).isAdmitted = true := by
  refine List.all_eq_true.2 fun a mem => ?_
  obtain ⟨text, raw⟩ := escaped a mem
  rw [raw, resolve_escape]
  rfl

theorem isAdmitted_tag (name : List Char) (value : Value) :
    (Token.opening (value.tag name)).isAdmitted = true := by
  cases value with
  | null | string => exact isAdmitted_opening (List.forall_mem_singleton.2 ⟨name, rfl⟩)
  | int n =>
    exact isAdmitted_opening (List.forall_mem_cons.2
      ⟨⟨name, rfl⟩, List.forall_mem_singleton.2 ⟨_, (escape_decimal n).symm⟩⟩)
  | boolean b =>
    exact isAdmitted_opening (List.forall_mem_cons.2
      ⟨⟨name, rfl⟩, List.forall_mem_singleton.2 ⟨_, (escape_booleanText b).symm⟩⟩)

/-! ### The tokens of an element -/

/-- An element with its name between quotes. -/
theorem form_namedTag {tag tail : List Char} {closes : Bool} (named : isName tag = true)
    (name : List Char) (rest : AttributesForm [] closes tail) :
    TokenForm (.opening ⟨tag, [⟨nameAttribute, escape name⟩], closes⟩)
      ('<' :: tag ++ ' ' :: 'n' :: 'a' :: 'm' :: 'e' :: '=' :: '"' :: escape name ++ '"' :: tail) := by
  have first : AttributeForm ⟨nameAttribute, escape name⟩
      (nameAttribute ++ [] ++ '=' :: [] ++ '"' :: escape name ++ ['"']) :=
    .mk (by decide) rfl rfl (.inl rfl) (quote_not_mem_escape name) (not_mem_escape name)
  have form := TokenForm.opening named (.another blank_space (by simp) first rest)
  simpa [nameAttribute] using form

theorem form_tag_string (name text : List Char) :
    TokenForm (.opening ((Value.string text).tag name))
      (['<', 's', 't', 'r', 'i', 'n', 'g', ' ', 'n', 'a', 'm', 'e', '=', '"'] ++ escape name ++
        ['"', '>']) := by
  have named : isName ['s', 't', 'r', 'i', 'n', 'g'] = true := by decide
  simpa [Value.tag] using form_namedTag named name (.bracket blank_nil)

/-- A value other than a string is one tag. -/
theorem form_element {value : Value} (closes : (value.tag name).selfClosing = true) :
    TokenForm (.opening (value.tag name)) (value.element name) := by
  cases value with
  | null =>
    have named : isName ['n', 'u', 'l', 'l'] = true := by decide
    simpa [Value.tag, Value.element, nullElement] using
      form_namedTag named name (.selfClosing blank_space)
  | int n =>
    exact form_valueTag (by decide) (Integer.not_mem_decimal rfl (by decide) n)
      (Integer.not_mem_decimal rfl (by decide) n)
  | boolean b => exact form_valueTag (by decide) (by cases b <;> decide) (by cases b <;> decide)
  | string text => cases closes

namespace Reader

variable {name rest : List Char} {opened : List (List Char)} {r : Reader}

/-- The text between the tags of a string is one token, or none. -/
theorem reads_escaped (text : List Char) (begins : BeginsMarkup rest)
    (here : At (escape text ++ rest) opened r) :
    ∃ inner r', Content inner ∧ spell inner = escape text ∧ AllOf Token.isAdmitted inner ∧
      Reads r inner r' ∧ At rest opened r' := by
  by_cases empty : escape text = []
  · rw [empty] at here ⊢
    exact ⟨[], r, .nil, rfl, allOf_nil _, .nil r, here⟩
  · obtain ⟨r', step, there⟩ :=
      nextScanned_other (.text empty (not_mem_escape text)) begins rfl here
    have admitted : (Token.text (escape text)).isAdmitted = true := by
      rw [Token.isAdmitted, resolve_escape]
      rfl
    exact ⟨[⟨.text (escape text), escape text⟩], r', .leaf rfl .nil, by simp,
      allOf_cons.2 ⟨admitted, allOf_nil _⟩, .single step, there⟩

/-- The element of a value is read as an element, all of whose tokens may stand in a payload. -/
theorem reads_element (value : Value) (here : At (value.element name ++ rest) opened r) :
    ∃ lexemes r', Element (value.tag name) value.content lexemes ∧
      AllOf Token.isAdmitted lexemes ∧ Reads r lexemes r' ∧ At rest opened r' := by
  cases kind : value with
  | string text =>
    subst kind
    have named : isName ['s', 't', 'r', 'i', 'n', 'g'] = true := by decide
    simp only [Value.element, stringElement, List.append_assoc] at here
    rw [← List.append_assoc, ← List.append_assoc] at here
    obtain ⟨r₁, first, inside⟩ := nextScanned_opening (form_tag_string name text) here
    obtain ⟨inner, r₂, content, spelled, admitted, reads, before⟩ :=
      reads_escaped text (beginsMarkup_closeTag _ _) inside
    obtain ⟨r', last, there⟩ := nextScanned_closing (form_closeTag named) before
    refine ⟨_ :: (inner ++ [_]), r', ?_, ?_, .cons first (reads.append (.single last)), there⟩
    · rw [Value.content, ← spelled]
      exact .filled rfl content
    · exact allOf_cons.2 ⟨isAdmitted_tag name (.string text),
        allOf_append.2 ⟨admitted, allOf_cons.2 ⟨rfl, allOf_nil _⟩⟩⟩
  | null | int | boolean =>
    rw [kind] at here
    obtain ⟨r', step, there⟩ := nextScanned_opening (form_element rfl) here
    exact ⟨_, r', .empty rfl, allOf_cons.2 ⟨isAdmitted_tag _ _, allOf_nil _⟩, .single step, there⟩

/-! ### Reading a value -/

theorem skipElement_of_content {tag : StartTag} {content : List Char} {r' : Reader}
    (read : elementContent tag r = .ok content r') : skipElement tag r = .ok () r' := by
  rw [skipElement, run_bind, read]
  rfl

theorem valueName_of_escaped {tag : StartTag}
    (named : tag.attribute? nameAttribute = some (escape name)) :
    valueName tag r = .ok name r := by
  simp only [valueName, named, run_bind, run_get, unescape_escape]
  rfl

/-- The name attribute comes first in the tag of a value. -/
theorem attribute?_tag (name : List Char) (value : Value) :
    (value.tag name).attribute? nameAttribute = some (escape name) := by
  cases value <;> rfl

theorem int?_tag {n : Int} (fits : (Value.int n).Fits) : ((Value.int n).tag name).int? = .ok n := by
  have raw : ((Value.int n).tag name).attribute? valueAttribute = some (Integer.decimal n) := rfl
  rw [StartTag.int?, raw]
  simp only [Integer.trim_decimal, Integer.int64?_decimal fits.1 fits.2]
  rfl

theorem boolean?_tag (b : Bool) : ((Value.boolean b).tag name).boolean? = .ok b := by
  cases b <;> rfl

theorem ofExcept_ok {α : Type} (a : α) (r : Reader) : ofExcept (.ok a) r = .ok a r :=
  rfl

theorem ofExcept_mapError {α ε : Type} {x : Except ε α} {a : α} (held : x = .ok a) (wrap : ε → Error)
    (r : Reader) : ofExcept (x.mapError wrap) r = .ok a r := by
  rw [held]
  rfl

/-- Behind its tag, the rest of the element of a value is read as the value. -/
theorem readValue_of_content {value : Value} {r' : Reader} (fits : value.Fits)
    (read : elementContent (value.tag name) r = .ok value.content r') :
    readValue (value.tag name) r = .ok (name, value) r' := by
  have named := valueName_of_escaped (r := r) (attribute?_tag name value)
  have skipped := skipElement_of_content read
  rw [readValue, run_bind, named]
  cases value with
  | null =>
    have kind : ValueKind.ofName? (Value.null.tag name).name = some .null := rfl
    simp only [kind, run_bind, skipped]
    rfl
  | int n =>
    have kind : ValueKind.ofName? ((Value.int n).tag name).name = some .int := rfl
    simp only [kind, readInt, run_bind, ofExcept_mapError (int?_tag fits), skipped]
    rfl
  | boolean b =>
    have kind : ValueKind.ofName? ((Value.boolean b).tag name).name = some .boolean := rfl
    simp only [kind, run_bind, ofExcept_mapError (boolean?_tag b), skipped]
    rfl
  | string text =>
    have kind : ValueKind.ofName? ((Value.string text).tag name).name = some .string := rfl
    simp only [kind, run_bind, run_get, read, Value.content, unescape_escape, ofExcept_ok]
    rfl

/-! ### Reading one value after the other -/

theorem readValues_of_child {tag : StartTag} {v : List Char × Value} {r₁ r' : Reader}
    (found : nextChild r = .ok (some tag) r₁) (read : readValue tag r₁ = .ok v r') :
    readValues r = (readValues r').map (v :: ·) := by
  rw [readValues]
  split
  · simp_all
  · simp_all
  · rename_i same
    rw [found] at same
    cases same
    split
    · simp_all
    · rename_i same
      rw [read] at same
      cases same
      rfl

theorem readValues_of_none {r' : Reader} (found : nextChild r = .ok none r') :
    readValues r = .ok [] := by
  rw [readValues]
  split <;> simp_all

/-- Outside of all elements the values end where the text ends. -/
theorem nextChild_end (here : At [] [] r) : nextChild r = .ok none r :=
  (nextChild_outside_iff here.opened).2 ⟨[], allOf_nil _, .nil r, here.rest⟩

theorem readValues_element {value : Value} (fits : value.Fits)
    (here : At (value.element name ++ rest) opened r) :
    ∃ r', readValues r = (readValues r').map ((name, value) :: ·) ∧ At rest opened r' := by
  obtain ⟨lexemes, r', element, -, reads, there⟩ := reads_element value here
  obtain ⟨r₁, found, read⟩ := child_eq_ok_iff.2 ⟨_, .mk (allOf_nil _) element, reads⟩
  exact ⟨r', readValues_of_child found (readValue_of_content fits read), there⟩

/-- The values that the elements were written from are read, and then what follows them. -/
theorem readValues_written {values : List (List Char × Value)} (fits : ∀ v ∈ values, v.2.Fits)
    (here : At (writtenValues values ++ rest) opened r) :
    ∃ r', readValues r = (readValues r').map (values ++ ·) ∧ At rest opened r' := by
  induction values generalizing r with
  | nil =>
    refine ⟨r, ?_, here⟩
    cases readValues r <;> rfl
  | cons v values ih =>
    obtain ⟨name, value⟩ := v
    obtain ⟨first, others⟩ := List.forall_mem_cons.1 fits
    rw [writtenValues_cons, List.append_assoc] at here
    obtain ⟨r₁, read, next⟩ := readValues_element first here
    obtain ⟨r', rest, there⟩ := ih others next
    refine ⟨r', ?_, there⟩
    rw [read, rest]
    cases readValues r' <;> rfl

/-- The tokens of the elements may all stand in a payload. -/
theorem reads_written (values : List (List Char × Value))
    (here : At (writtenValues values ++ rest) opened r) :
    ∃ lexemes r', AllOf Token.isAdmitted lexemes ∧ Reads r lexemes r' ∧ At rest opened r' := by
  induction values generalizing r with
  | nil => exact ⟨[], r, allOf_nil _, .nil r, here⟩
  | cons v values ih =>
    rw [writtenValues_cons, List.append_assoc] at here
    obtain ⟨first, r₁, -, admitted, reads, next⟩ := reads_element v.2 here
    obtain ⟨others, r', admitted', reads', there⟩ := ih next
    exact ⟨first ++ others, r', allOf_append.2 ⟨admitted, admitted'⟩, reads.append reads', there⟩

/-- Within an element the values are read up to its closing tag. -/
theorem readValues_within {values : List (List Char × Value)} {tag after : List Char}
    {outer : List (List Char)} (fits : ∀ v ∈ values, v.2.Fits) (named : isName tag = true)
    (here : At (writtenValues values ++ (closeTag tag ++ after)) (tag :: outer) r) :
    readValues r = .ok values := by
  obtain ⟨r', read, there⟩ := readValues_written fits here
  obtain ⟨_, closed, -⟩ := nextChild_closing (form_closeTag named) there
  rw [read, readValues_of_none closed]
  exact congrArg Except.ok (List.append_nil values)

end Reader

/-- Values that are written one after the other are well-formed content of an element. -/
theorem checkFragment_written (values : List (List Char × Value)) :
    checkFragment (writtenValues values) = .ok () := by
  have start : Reader.At (writtenValues values ++ []) [] (.ofText (writtenValues values)) :=
    ⟨(List.append_nil _).symm, rfl⟩
  obtain ⟨lexemes, r, admitted, reads, there⟩ := Reader.reads_written values start
  exact (Reader.checkRest_eq_ok_iff reads there.rest there.opened).2 admitted

/-- Values that are written one after the other are read back. -/
theorem valuesOf_written {values : List (List Char × Value)} (fits : ∀ v ∈ values, v.2.Fits) :
    valuesOf (writtenValues values) = .ok values := by
  have start : Reader.At (writtenValues values ++ []) [] (.ofText (writtenValues values)) :=
    ⟨(List.append_nil _).symm, rfl⟩
  obtain ⟨r, read, there⟩ := Reader.readValues_written fits start
  rw [valuesOf, read, Reader.readValues_of_none (Reader.nextChild_end there)]
  exact congrArg Except.ok (List.append_nil values)

end SectionStore.Markup
