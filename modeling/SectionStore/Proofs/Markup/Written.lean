import SectionStore.Markup.Value
import SectionStore.Proofs.Markup.TokenForm

/-!
# What the writer writes

The pieces of a document are tokens: each of them has one of the forms of `TokenForm`. A value of an
attribute may be written between quotes as long as it holds none, and `escape` leaves none
(`quote_not_mem_escape`).
-/

namespace SectionStore.Markup

open Cut

/-- The declaration, its last mark apart from the end of the line. -/
theorem declaration_eq : declaration =
    '<' :: '?' :: ['x', 'm', 'l', ' ', 'v', 'e', 'r', 's', 'i', 'o', 'n', '=', '\'', '1', '.', '0', '\'', ' ',
      'e', 'n', 'c', 'o', 'd', 'i', 'n', 'g', '=', '\'', 'u', 't', 'f', '-', '8', '\'', ' ', 's',
      't', 'a', 'n', 'd', 'a', 'l', 'o', 'n', 'e', '=', '\'', 'y', 'e', 's', '\'', ' '] ++
      ['?', '>'] ++ ['\n'] :=
  String.toList_ofList

theorem form_declaration :
    ∃ lexeme, declaration = lexeme ++ ['\n'] ∧ TokenForm .declaration lexeme :=
  ⟨_, declaration_eq, .declaration ⟨_, rfl⟩ (by decide)⟩

theorem blank_nil : isBlank [] = true :=
  rfl

theorem blank_space : isBlank [' '] = true :=
  rfl

theorem blank_newline : isBlank ['\n'] = true :=
  rfl

theorem form_blank {gap : List Char} (blank : isBlank gap = true) (nonempty : gap ≠ []) :
    TokenForm (.text gap) gap := by
  apply TokenForm.text nonempty
  intro inside
  have : isSpace '<' = true := List.all_eq_true.1 blank _ inside
  cases this

theorem form_openTag {name : List Char} (named : isName name = true) :
    TokenForm (.opening ⟨name, [], false⟩) (openTag name) :=
  .opening named (.bracket blank_nil)

theorem form_emptyTag {name : List Char} (named : isName name = true) :
    TokenForm (.opening ⟨name, [], true⟩) (emptyTag name) :=
  .opening named (.selfClosing blank_space)

theorem form_closeTag {name : List Char} (named : isName name = true) :
    TokenForm (.closing name) (closeTag name) := by
  simpa [closeTag] using TokenForm.closing named blank_nil

theorem beginsMarkup_openTag (name after : List Char) : BeginsMarkup (openTag name ++ after) :=
  stopsAt_cons.2 (by decide)

theorem beginsMarkup_emptyTag (name after : List Char) : BeginsMarkup (emptyTag name ++ after) :=
  stopsAt_cons.2 (by decide)

theorem beginsMarkup_closeTag (name after : List Char) : BeginsMarkup (closeTag name ++ after) :=
  stopsAt_cons.2 (by decide)

theorem quote_not_mem_escape (text : List Char) : '"' ∉ escape text :=
  not_mem_escape_of_replaced (by decide) text

/-- An element with a name and a value, both between quotes. -/
theorem form_valueTag {tag name value : List Char} (named : isName tag = true)
    (inside : '"' ∉ value) (plain : '<' ∉ value) :
    TokenForm (.opening ⟨tag, [⟨nameAttribute, escape name⟩, ⟨valueAttribute, value⟩], true⟩)
      (valueTag tag name value) := by
  have first : AttributeForm ⟨nameAttribute, escape name⟩
      (nameAttribute ++ [] ++ '=' :: [] ++ '"' :: escape name ++ ['"']) :=
    .mk (by decide) rfl rfl (.inl rfl) (quote_not_mem_escape name) (not_mem_escape name)
  have second : AttributeForm ⟨valueAttribute, value⟩
      (valueAttribute ++ [] ++ '=' :: [] ++ '"' :: value ++ ['"']) :=
    .mk (by decide) rfl rfl (.inl rfl) inside plain
  have rest := AttributesForm.another blank_space (by simp) first
    (.another blank_space (by simp) second (.selfClosing blank_space))
  have form := TokenForm.opening named rest
  simpa [valueTag, nameAttribute, valueAttribute] using form

end SectionStore.Markup
