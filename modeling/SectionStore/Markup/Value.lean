import SectionStore.Markup.Reader
import SectionStore.Markup.Writer
import SectionStore.Text.WhiteSpace

/-!
# Typed values

A typed value is an element with a `name` attribute: an integer or boolean in a `value` attribute,
a string as content, or nothing. `Value.element` writes one, `Reader.readValue` reads one, and
`valuesOf` reads a payload that consists of them.
-/

namespace SectionStore.Markup

/-- A value that an element can hold. -/
inductive Value where
  | null
  | int (value : Int)
  | boolean (value : Bool)
  | string (value : List Char)
  deriving DecidableEq, Repr

/-- The element that holds a value under a name. -/
def Value.element (name : List Char) : Value → List Char
  | .null => nullElement name
  | .int value => intElement name value
  | .boolean value => booleanElement name value
  | .string value => stringElement name value

/-- The attribute that holds the name of a value. -/
def nameAttribute : List Char := ['n', 'a', 'm', 'e']

/-- The attribute that holds an integer or a boolean. -/
def valueAttribute : List Char := ['v', 'a', 'l', 'u', 'e']

/-- The integer in the value attribute of a tag; white space around it is ignored. -/
def StartTag.int? (tag : StartTag) : Except ValueFault Int :=
  match tag.attribute? valueAttribute with
  | none => .error .missingValue
  | some raw => (Integer.int64? (WhiteSpace.trim raw)).mapError (.notInteger raw)

/-- The boolean in the value attribute of a tag. -/
def StartTag.boolean? (tag : StartTag) : Except ValueFault Bool :=
  match tag.attribute? valueAttribute with
  | some ['t', 'r', 'u', 'e'] => .ok true
  | some ['f', 'a', 'l', 's', 'e'] => .ok false
  | raw => .error (.notBoolean raw)

/-- The kinds of elements that hold values. -/
inductive ValueKind where
  | null
  | int
  | boolean
  | string
  deriving DecidableEq, Repr

/-- The kind that a tag name stands for. -/
def ValueKind.ofName? : List Char → Option ValueKind
  | ['n', 'u', 'l', 'l'] => some .null
  | ['i', 'n', 't'] => some .int
  | ['l', 'o', 'n', 'g'] => some .int
  | ['b', 'o', 'o', 'l', 'e', 'a', 'n'] => some .boolean
  | ['s', 't', 'r', 'i', 'n', 'g'] => some .string
  | _ => none

namespace Reader

/-- The outcome of a computation that does not read. -/
def ofExcept {α : Type} : Except Error α → Read α
  | .ok a => pure a
  | .error e => throw e

/-- The name of the value that `tag` opens. -/
def valueName (tag : StartTag) : Read (List Char) := do
  match tag.attribute? nameAttribute with
  | some raw => ofExcept (unescape (← get).tokenStart raw)
  | none => throw (.malformedValue tag.name .missingName)

/-- Reads the integer that `tag` holds under `name`, with all of its element. -/
def readInt (name : List Char) (tag : StartTag) : Read Int := do
  let value ← ofExcept (tag.int?.mapError (.malformedValue name))
  skipElement tag
  return value

/-- Reads the name and the value of the element that `tag` opens. -/
def readValue (tag : StartTag) : Read (List Char × Value) := do
  let name ← valueName tag
  match ValueKind.ofName? tag.name with
  | some .null =>
    skipElement tag
    return (name, .null)
  | some .int =>
    return (name, .int (← readInt name tag))
  | some .boolean =>
    let value ← ofExcept (tag.boolean?.mapError (.malformedValue name))
    skipElement tag
    return (name, .boolean value)
  | some .string =>
    let base := (← get).offset
    let content ← elementContent tag
    return (name, .string (← ofExcept (unescape base content)))
  | none => throw (.malformedValue name (.unknownType tag.name))

theorem ofExcept_shrinks {α : Type} (x : Except Error α) : Shrinks left (ofExcept x) := by
  cases x with
  | ok a => exact .pure a
  | error e => exact .throw e

theorem valueName_shrinks (tag : StartTag) : Shrinks left (valueName tag) := by
  unfold valueName
  split
  · exact .bind .get fun _ => ofExcept_shrinks _
  · exact .throw _

theorem readInt_shrinks (name : List Char) (tag : StartTag) : Shrinks left (readInt name tag) :=
  .bind (ofExcept_shrinks _) fun _ => .bind (skipElement_shrinks tag) fun _ => .pure _

theorem readValue_shrinks (tag : StartTag) : Shrinks left (readValue tag) := by
  refine .bind (valueName_shrinks tag) fun name => ?_
  split
  · exact .bind (skipElement_shrinks tag) fun _ => .pure _
  · exact .bind (readInt_shrinks name tag) fun _ => .pure _
  · exact .bind (ofExcept_shrinks _) fun _ => .bind (skipElement_shrinks tag) fun _ => .pure _
  · exact .bind .get fun _ => .bind (elementContent_shrinks tag) fun _ =>
      .bind (ofExcept_shrinks _) fun _ => .pure _
  · exact .throw _

/-- The named values of the children from the reader's position to the end. -/
def readValues (r : Reader) : Except Error (List (List Char × Value)) :=
  match h : nextChild r with
  | .error e _ => .error e
  | .ok none _ => .ok []
  | .ok (some tag) r' =>
    match h' : readValue tag r' with
    | .error e _ => .error e
    | .ok value r'' =>
      have : r''.left < r.left :=
        Nat.lt_of_le_of_lt (readValue_shrinks tag h') (left_lt_of_nextChild h)
      (readValues r'').map (value :: ·)
termination_by r.left

end Reader

/-- The named values that a payload consists of. -/
def valuesOf (payload : List Char) : Except Error (List (List Char × Value)) :=
  Reader.readValues (Reader.ofText payload)

end SectionStore.Markup
