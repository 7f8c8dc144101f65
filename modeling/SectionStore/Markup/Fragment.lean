import SectionStore.Markup.Reader

/-!
# Well-formed content

A fragment may stand between the tags of an element if its own tags are balanced, its references
resolve, and it holds no declaration. `checkFragment` reports the first thing that is wrong. An
error in an attribute value is placed relative to the tag that the attribute stands in.
-/

namespace SectionStore.Markup

/-- Checks a token of content that begins at octet `start`. -/
def checkToken (start : Nat) : Token → Except Error Unit
  | .declaration => .error (.syntaxError start .declarationInContent)
  | .text content => (unescape start content).map fun _ => ()
  | .opening tag => tag.attributes.forM fun a => (unescape start a.raw).map fun _ => ()
  | .comment | .cdata _ | .closing _ => .ok ()

/-- Checks the tokens that a reader has not read yet. -/
def checkRest (r : Reader) : Except Error Unit :=
  match h : r.nextScanned with
  | .error e _ => .error e
  | .ok none r' =>
    match r'.endError? with
    | none => .ok ()
    | some e => .error e
  | .ok (some scanned) r' =>
    have := Reader.left_lt h
    match checkToken r'.tokenStart scanned.value with
    | .error e => .error e
    | .ok () => checkRest r'
termination_by r.left

/-- Checks that the text is well-formed content of an element. -/
def checkFragment (text : List Char) : Except Error Unit :=
  checkRest (Reader.ofText text)

end SectionStore.Markup
