import SectionStore.Envelope.Error
import SectionStore.Markup.Value

/-!
# Reading an envelope

A `Parser` reads one document: first the header (root tag, version, integrity block), then section
after section, then whatever may follow the root element. Sections are the children of the root, so
markup within a payload is never taken for a section. Like a reader, a parser keeps its state when
an operation fails and can be used on.

`Parser.sections` runs a parser to the end of its document, or to the first error;
`Envelope.decode` is the whole.
-/

namespace SectionStore.Envelope

open Markup

/-- How far a parser has come. -/
inductive Phase where
  /-- Before the root tag. -/
  | start
  /-- Behind the root tag; the version is not read yet. -/
  | header
  /-- Behind the version, among the sections. -/
  | sections
  /-- Behind the end of the document. -/
  | done
  deriving DecidableEq, Repr

/-- A reader together with what is known about the document. -/
structure Parser where
  reader : Reader
  phase : Phase
  version : Option DataVersion
  deriving DecidableEq

/-- An operation of a parser. -/
abbrev Parse (α : Type) := EStateM Error Parser α

namespace Parser

/-- A parser at the beginning of a text. -/
def ofText (text : List Char) : Parser :=
  ⟨Reader.ofText text, .start, none⟩

/-- A parser at the beginning of a document, if its octets are text. -/
def ofBytes (octets : ByteArray) : Except Error Parser :=
  ((Utf8.decode octets).map ofText).mapError .notText

/-- The number of characters not read yet. -/
def left (p : Parser) : Nat :=
  p.reader.left

/-- A parser that has read on. -/
def behind (p : Parser) (reader : Reader) : Parser :=
  ⟨reader, p.phase, p.version⟩

/-- An operation of the reader, with `wrap` making its errors errors of the document. -/
def reading {α : Type} (wrap : Markup.Error → Error) (m : Read α) : Parse α := fun p =>
  match m p.reader with
  | .ok a r => .ok a (p.behind r)
  | .error e r => .error (wrap e) (p.behind r)

/-- Reads up to and including the root tag. -/
def seekRoot : Parse Unit := fun p =>
  match h : p.reader.nextScanned with
  | .error e r => .error (.markup e) (p.behind r)
  | .ok none r => .error (.missingStart .endOfDocument) (p.behind r)
  | .ok (some scanned) r =>
    have := Reader.left_lt h
    match scanned.value with
    | .declaration | .comment => seekRoot (p.behind r)
    | .text content =>
      if isBlank content then seekRoot (p.behind r)
      else .error (.missingStart (.characterData r.tokenStart)) (p.behind r)
    | .cdata _ => .error (.missingStart (.characterData r.tokenStart)) (p.behind r)
    | .closing name => .error (.missingStart (.closing name)) (p.behind r)
    | .opening tag =>
      if tag.name = rootName ∧ tag.selfClosing = false then .ok () (p.behind r)
      else .error (.missingStart (.opening tag.name)) (p.behind r)
termination_by p => p.left

/-- Is this the tag of the version value? -/
def isVersionTag (tag : StartTag) : Bool :=
  tag.name = ['i', 'n', 't'] && tag.attribute? nameAttribute = some versionName

/-- Reads the version value. -/
def readVersion : Parse DataVersion := do
  match ← reading .markup Reader.nextChild with
  | none => throw .missingVersion
  | some tag =>
    if isVersionTag tag then
      match tag.int? with
      | .error fault => throw (.malformedVersion fault)
      | .ok raw =>
        reading .markup (Reader.skipElement tag)
        match DataVersion.ofInt? raw with
        | none => throw (.unsupportedVersion raw)
        | some version => return version
    else throw .missingVersion

/-- Reads over the integrity block. -/
def skipIntegrity : Parse Unit := do
  match ← reading .markup Reader.nextChild with
  | none => throw .missingIntegrity
  | some tag =>
    if tag.name = integrityName then reading .markup (Reader.skipElement tag)
    else throw .missingIntegrity

/-- Reads up to the first section, unless that is done already. -/
def readHeader : Parse DataVersion := do
  match (← get).version with
  | some version => return version
  | none =>
    seekRoot
    modify fun p => ⟨p.reader, .header, p.version⟩
    let version ← readVersion
    if version.hasIntegrityBlock then skipIntegrity
    modify fun p => ⟨p.reader, .sections, some version⟩
    return version

/-- Reads what follows the root element: blanks and comments only. -/
def finish : Parse Unit := fun p =>
  match h : p.reader.nextScanned with
  | .error _ r => .error (.trailingContent p.reader.offset) (p.behind r)
  | .ok none r => .ok () ⟨r, .done, p.version⟩
  | .ok (some scanned) r =>
    have := Reader.left_lt h
    match scanned.value with
    | .comment => finish (p.behind r)
    | .text content =>
      if isBlank content then finish (p.behind r)
      else .error (.trailingContent p.reader.offset) (p.behind r)
    | _ => .error (.trailingContent p.reader.offset) (p.behind r)
termination_by p => p.left

/-- Among the sections, a text that ends too early is a document without end. -/
def endMissing : Markup.Error → Error
  | .unexpectedEnd _ => .missingEnd
  | e => .markup e

/-- The next section behind the header, `none` at the end of the document. -/
def nextInBody : Parse (Option Section) := do
  match ← reading endMissing Reader.nextChild with
  | none =>
    finish
    return none
  | some tag =>
    let content ← reading endMissing (Reader.elementContent tag)
    return some ⟨String.ofList tag.name, Utf8.encode content⟩

/-- The next section, `none` at the end of the document. The header is read first if need be. -/
def nextSection : Parse (Option Section) := do
  match (← get).phase with
  | .done => return none
  | .sections => nextInBody
  | .start | .header =>
    let _ ← readHeader
    nextInBody

theorem reading_shrinks {α : Type} {wrap : Markup.Error → Error} {m : Read α}
    (h : Shrinks Reader.left m) : Shrinks left (reading wrap m) := by
  intro p p' a hp
  unfold reading at hp
  split at hp
  · rename_i run
    cases hp
    exact h run
  · cases hp

theorem seekRoot_shrinks : Shrinks left seekRoot := by
  intro p p' a h
  induction hn : p.left using Nat.strongRecOn generalizing p with
  | ind n ih =>
    subst hn
    rw [seekRoot] at h
    split at h
    · cases h
    · cases h
    · rename_i scanned r step
      have short := Reader.left_lt step
      simp only at h
      split at h
      · exact Nat.le_trans (ih _ short h rfl) (Nat.le_of_lt short)
      · exact Nat.le_trans (ih _ short h rfl) (Nat.le_of_lt short)
      · split at h
        · exact Nat.le_trans (ih _ short h rfl) (Nat.le_of_lt short)
        · cases h
      · cases h
      · cases h
      · split at h
        · cases h
          exact Nat.le_of_lt short
        · cases h

theorem readVersion_shrinks : Shrinks left readVersion := by
  refine .bind (reading_shrinks Reader.nextChild_shrinks) fun child => ?_
  split
  · exact .throw _
  · split
    · split
      · exact .throw _
      · refine .bind (reading_shrinks (Reader.skipElement_shrinks _)) fun _ => ?_
        split
        · exact .throw _
        · exact .pure _
    · exact .throw _

theorem skipIntegrity_shrinks : Shrinks left skipIntegrity := by
  refine .bind (reading_shrinks Reader.nextChild_shrinks) fun child => ?_
  split
  · exact .throw _
  · split
    · exact reading_shrinks (Reader.skipElement_shrinks _)
    · exact .throw _

theorem modify_shrinks {f : Parser → Parser} (same : ∀ p, (f p).left = p.left) :
    Shrinks left (modify f : Parse Unit) := by
  intro p p' a h
  cases h
  exact Nat.le_of_eq (same p)

theorem readHeader_shrinks : Shrinks left readHeader := by
  refine .bind .get fun p => ?_
  split
  · exact .pure _
  · refine .bind seekRoot_shrinks fun _ => .bind (modify_shrinks fun _ => rfl) fun _ =>
      .bind readVersion_shrinks fun version => ?_
    split
    · exact .bind skipIntegrity_shrinks fun _ => .bind (modify_shrinks fun _ => rfl) fun _ => .pure _
    · exact .bind (modify_shrinks fun _ => rfl) fun _ => .pure _

theorem left_lt_of_nextInBody {p p' : Parser} {s : Section} (h : nextInBody p = .ok (some s) p') :
    p'.left < p.left := by
  simp only [nextInBody, Bind.bind, EStateM.bind] at h
  split at h
  · rename_i child p₁ first
    split at h
    · simp only [EStateM.bind] at h
      split at h <;> cases h
    · rename_i tag
      have short : p₁.left < p.left := by
        unfold reading at first
        split at first
        · rename_i run
          cases first
          exact Reader.left_lt_of_nextChild run
        · cases first
      simp only [EStateM.bind] at h
      split at h
      · rename_i content p₂ second
        cases h
        exact Nat.lt_of_le_of_lt (reading_shrinks (Reader.elementContent_shrinks _) second) short
      · cases h
  · cases h

theorem left_lt_of_nextSection {p p' : Parser} {s : Section}
    (h : nextSection p = .ok (some s) p') : p'.left < p.left := by
  have unread (run : (readHeader >>= fun _ => nextInBody) p = .ok (some s) p') :
      p'.left < p.left := by
    simp only [Bind.bind, EStateM.bind] at run
    split at run
    · rename_i version p₁ first
      exact Nat.lt_of_lt_of_le (left_lt_of_nextInBody run) (readHeader_shrinks first)
    · cases run
  have unfolded : nextSection p = (match p.phase with
    | .done => pure none
    | .sections => nextInBody
    | .start | .header => readHeader >>= fun _ => nextInBody : Parse (Option Section)) p := rfl
  rw [unfolded] at h
  cases phase : p.phase <;> rw [phase] at h
  · exact unread h
  · exact unread h
  · exact left_lt_of_nextInBody h
  · cases h

/-- The sections up to the end of the document or the first error, and that error. -/
def sections (p : Parser) : List Section × Option Error :=
  match h : nextSection p with
  | .error e _ => ([], some e)
  | .ok none _ => ([], none)
  | .ok (some s) p' =>
    have := left_lt_of_nextSection h
    let rest := sections p'
    (s :: rest.1, rest.2)
termination_by p.left

end Parser

/-- Reads a whole document. -/
def decode (octets : ByteArray) : Except Error Envelope := do
  let p ← Parser.ofBytes octets
  match Parser.readHeader p with
  | .error e _ => throw e
  | .ok version p' =>
    match p'.sections with
    | (sections, none) => return ⟨version, sections⟩
    | (_, some e) => throw e

end SectionStore.Envelope
