/-!
# Tokens

The lexical units of a document. Attribute values, character data and CDATA are kept as they stand
in the document, with their references unresolved.
-/

namespace SectionStore.Markup

/-- An attribute with its raw value. -/
structure Attribute where
  name : List Char
  raw : List Char
  deriving DecidableEq, Repr

/-- An opening tag; a self-closing one is an element without content. -/
structure StartTag where
  name : List Char
  attributes : List Attribute
  selfClosing : Bool
  deriving DecidableEq, Repr

/-- The raw value of the first attribute of the given name. -/
def StartTag.attribute? (tag : StartTag) (name : List Char) : Option (List Char) :=
  (tag.attributes.find? (·.name = name)).map (·.raw)

/-- A lexical unit. -/
inductive Token where
  | declaration
  | comment
  | cdata (content : List Char)
  | opening (tag : StartTag)
  | closing (name : List Char)
  | text (content : List Char)
  deriving DecidableEq, Repr

def Token.isClosing : Token → Bool
  | .closing _ => true
  | _ => false

end SectionStore.Markup
