import SectionStore.DataVersion
import SectionStore.Text.Utf8

/-!
# Envelopes

What one store file holds: a format version and a list of named sections, each with the payload of
one provider. The order of the sections means nothing, but it is kept, and names may repeat.
-/

namespace SectionStore

/-- A named payload. -/
structure Section where
  name : String
  payload : ByteArray
  deriving DecidableEq

/-- The content of a store file. -/
structure Envelope where
  version : DataVersion
  sections : List Section
  deriving DecidableEq

namespace Envelope

/-- The first section of the given name. -/
def find? (envelope : Envelope) (name : String) : Option Section :=
  envelope.sections.find? (·.name = name)

/-- The tag of the root element. -/
def rootName : List Char :=
  ['C', 'o', 'n', 'f', 'i', 'g', 'S', 't', 'o', 'r', 'e', 'D', 'a', 't', 'a']

/-- The name of the version value. -/
def versionName : List Char :=
  ['V', 'e', 'r', 's', 'i', 'o', 'n']

/-- The tag of the integrity block. -/
def integrityName : List Char :=
  ['I', 'n', 't', 'e', 'g', 'r', 'i', 't', 'y']

end Envelope

end SectionStore
