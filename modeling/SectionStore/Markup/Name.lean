/-!
# Names of tags and attributes

A name begins with an ASCII letter or an underscore and goes on with letters, digits, underscores,
points and hyphens. `takeName` reads the longest name at the head of a text; it reads nothing where
no name begins. Blank text consists of the four characters that separate parts of a tag.
-/

namespace SectionStore.Markup

/-- The characters that separate the parts of a tag. -/
def isSpace (c : Char) : Bool :=
  c == ' ' || c == '\t' || c == '\r' || c == '\n'

def isNameStart (c : Char) : Bool :=
  c == '_' || c.isAlpha

def isNameChar (c : Char) : Bool :=
  isNameStart c || c == '-' || c == '.' || c.isDigit

/-- The name at the head of the text, empty if none begins there. -/
def takeName : List Char → List Char
  | [] => []
  | c :: rest => if isNameStart c then c :: rest.takeWhile isNameChar else []

/-- The text behind the name at its head. -/
def dropName : List Char → List Char
  | [] => []
  | c :: rest => if isNameStart c then rest.dropWhile isNameChar else c :: rest

/-- Is the whole text one name? -/
def isName (text : List Char) : Bool :=
  match text with
  | [] => false
  | c :: rest => isNameStart c && rest.all isNameChar

/-- Does the text hold separating characters only? -/
def isBlank (text : List Char) : Bool :=
  text.all isSpace

theorem takeName_append_dropName (text : List Char) : takeName text ++ dropName text = text := by
  cases text with
  | nil => rfl
  | cons c rest =>
    by_cases h : isNameStart c <;> simp [takeName, dropName, h, List.takeWhile_append_dropWhile]

end SectionStore.Markup
