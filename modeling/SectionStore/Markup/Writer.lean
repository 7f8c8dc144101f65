import SectionStore.Markup.Escape

/-!
# Writing markup

The pieces that documents and payloads are put together from, each as the characters it is written
with. Names are written as they are: whoever commits a document checks it.
-/

namespace SectionStore.Markup

/-- The declaration that stands at the head of every document. -/
def declaration : List Char :=
  "<?xml version='1.0' encoding='utf-8' standalone='yes' ?>\n".toList

def openTag (name : List Char) : List Char :=
  '<' :: name ++ ['>']

def closeTag (name : List Char) : List Char :=
  '<' :: '/' :: name ++ ['>']

def emptyTag (name : List Char) : List Char :=
  '<' :: name ++ [' ', '/', '>']

/-- An element without content that carries a name and a value. -/
def valueTag (tag name value : List Char) : List Char :=
  '<' :: tag ++ [' ', 'n', 'a', 'm', 'e', '=', '"'] ++ escape name ++
    ['"', ' ', 'v', 'a', 'l', 'u', 'e', '=', '"'] ++ value ++ ['"', ' ', '/', '>']

def intElement (name : List Char) (value : Int) : List Char :=
  valueTag ['i', 'n', 't'] name (Integer.decimal value)

def booleanElement (name : List Char) (value : Bool) : List Char :=
  valueTag ['b', 'o', 'o', 'l', 'e', 'a', 'n'] name
    (if value then ['t', 'r', 'u', 'e'] else ['f', 'a', 'l', 's', 'e'])

def nullElement (name : List Char) : List Char :=
  ['<', 'n', 'u', 'l', 'l', ' ', 'n', 'a', 'm', 'e', '=', '"'] ++ escape name ++
    ['"', ' ', '/', '>']

def stringElement (name value : List Char) : List Char :=
  ['<', 's', 't', 'r', 'i', 'n', 'g', ' ', 'n', 'a', 'm', 'e', '=', '"'] ++ escape name ++
    ['"', '>'] ++ escape value ++ closeTag ['s', 't', 'r', 'i', 'n', 'g']

end SectionStore.Markup
