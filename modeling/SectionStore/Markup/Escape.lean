import SectionStore.Markup.Error
import SectionStore.Text.Cut
import SectionStore.Text.Utf8

/-!
# Escaped character data

`escape` replaces the five characters that have a meaning in markup by references, `unescape`
resolves references: the five names, and the number of a character in decimal or hexadecimal.
An error of `unescape` carries the text from the faulty place on, so that a caller that knows where
the data stands can tell the offset (`Escape.Fault.error`). `unescape_escape` says that nothing is lost.
-/

namespace SectionStore.Markup

/-- The reference that stands for a character, or the character itself. -/
def escapeChar (c : Char) : List Char :=
  if c = '&' then ['&', 'a', 'm', 'p', ';']
  else if c = '<' then ['&', 'l', 't', ';']
  else if c = '>' then ['&', 'g', 't', ';']
  else if c = '"' then ['&', 'q', 'u', 'o', 't', ';']
  else if c = '\'' then ['&', 'a', 'p', 'o', 's', ';']
  else [c]

/-- The text as character data or attribute value. -/
def escape (text : List Char) : List Char :=
  text.flatMap escapeChar

/-- The character with the given number, if there is one. -/
def charOf? (code : Nat) : Option Char :=
  if h : code.isValidChar then some (Char.ofNatAux code h) else none

/-- The character that the body of a reference stands for. -/
def resolve? (body : List Char) : Option Char :=
  match body with
  | ['a', 'm', 'p'] => some '&'
  | ['l', 't'] => some '<'
  | ['g', 't'] => some '>'
  | ['q', 'u', 'o', 't'] => some '"'
  | ['a', 'p', 'o', 's'] => some '\''
  | '#' :: 'x' :: digits => (Integer.word32? 16 digits).bind charOf?
  | '#' :: digits => (Integer.word32? 10 digits).bind charOf?
  | _ => none

namespace Escape

/-- Why character data cannot be resolved; `here` is the data from the faulty place on. -/
inductive Fault where
  | angle (here : List Char)
  | reference (here : List Char) (entity : List Char)
  deriving DecidableEq, Repr

/-- The error of a fault in `raw` data that stands at octet `base` of its document. -/
def Fault.error (base : Nat) (raw : List Char) : Fault → Error
  | .angle here => .syntaxError (base + (Utf8.size raw - Utf8.size here)) .angleInText
  | .reference here entity => .invalidEntity (base + (Utf8.size raw - Utf8.size here)) entity

/-- Resolves the references from left to right. A reference ends at the first semicolon; without
one, all that follows the ampersand is reported. -/
def resolveAll : List Char → Except Fault (List Char)
  | [] => .ok []
  | c :: rest =>
    if c = '&' then
      match h : Cut.cutAtChar? ';' rest with
      | none => .error (.reference (c :: rest) rest)
      | some (body, after) =>
        have := Cut.length_lt_of_cutAtChar? h
        match resolve? body with
        | none => .error (.reference (c :: rest) body)
        | some resolved => (resolveAll after).map (resolved :: ·)
    else (resolveAll rest).map (c :: ·)
termination_by text => text.length

theorem resolveAll_reference {rest body after : List Char} {c : Char}
    (cut : Cut.cutAtChar? ';' rest = some (body, after)) (known : resolve? body = some c) :
    resolveAll ('&' :: rest) = (resolveAll after).map (c :: ·) := by
  rw [resolveAll, if_pos rfl]
  split <;> simp_all

theorem resolveAll_plain {c : Char} (plain : c ≠ '&') (rest : List Char) :
    resolveAll (c :: rest) = (resolveAll rest).map (c :: ·) := by
  rw [resolveAll, if_neg plain]

theorem resolveAll_escapeChar_append (c : Char) (text : List Char) :
    resolveAll (escapeChar c ++ text) = (resolveAll text).map (c :: ·) := by
  unfold escapeChar
  repeat' split
  case isFalse.isFalse.isFalse.isFalse.isFalse => exact resolveAll_plain ‹_› text
  all_goals
    subst_vars
    exact resolveAll_reference rfl rfl

theorem resolveAll_escape (text : List Char) : resolveAll (escape text) = .ok text := by
  induction text with
  | nil => simp [escape, resolveAll]
  | cons c text ih =>
    rw [escape, List.flatMap_cons, resolveAll_escapeChar_append]
    rw [escape] at ih
    rw [ih]
    rfl

/-- The data with its references resolved. An opening bracket anywhere in it comes first. -/
def resolve (raw : List Char) : Except Fault (List Char) :=
  if '<' ∈ raw then .error (.angle (raw.dropWhile (· != '<'))) else resolveAll raw

end Escape

/-- Resolves the references of `raw` data that stands at octet `base` of its document. -/
def unescape (base : Nat) (raw : List Char) : Except Error (List Char) :=
  (Escape.resolve raw).mapError (Escape.Fault.error base raw)

/-- The characters that are replaced do not come back in the references that stand for characters,
apart from the ampersand. -/
theorem not_mem_escapeChar {c : Char} (replaced : c ∈ ['<', '>', '"', '\'']) (d : Char) :
    c ∉ escapeChar d := by
  simp only [List.mem_cons, List.not_mem_nil, or_false] at replaced
  unfold escapeChar
  repeat' split
  case isFalse.isFalse.isFalse.isFalse.isFalse =>
    rw [List.mem_singleton]
    rintro rfl
    simp_all
  all_goals rcases replaced with rfl | rfl | rfl | rfl <;> decide

theorem not_mem_escape_of_replaced {c : Char} (replaced : c ∈ ['<', '>', '"', '\''])
    (text : List Char) : c ∉ escape text := by
  intro inside
  obtain ⟨d, -, here⟩ := List.mem_flatMap.1 inside
  exact not_mem_escapeChar replaced d here

theorem not_mem_escape (text : List Char) : '<' ∉ escape text :=
  not_mem_escape_of_replaced (by decide) text

theorem unescape_escape (base : Nat) (text : List Char) : unescape base (escape text) = .ok text := by
  rw [unescape, Escape.resolve, if_neg (not_mem_escape text), Escape.resolveAll_escape]
  rfl

end SectionStore.Markup
