import SectionStore.Envelope.Error
import SectionStore.Markup.Fragment
import SectionStore.Markup.Writer

/-!
# Writing an envelope

`Envelope.encode` writes a document: the declaration, and in the root element the version, the
integrity block where the version asks for one, and each section on a line of its own. Names must
be names of tags and payloads well-formed content, so that what is written can be read again.
-/

namespace SectionStore

open Markup

namespace Section

/-- The payload as text, if the section may stand in a document. -/
def check (s : Section) : Except Envelope.Error (List Char) :=
  if isName s.name.toList then
    match Utf8.decode s.payload with
    | .error fault => .error (.malformedPayload s.name (.notText fault))
    | .ok payload =>
      match checkFragment payload with
      | .error e => .error (.malformedPayload s.name (.markup e))
      | .ok () => .ok payload
  else .error (.invalidName s.name)

/-- The element of a section with the given payload. -/
def element (name payload : List Char) : List Char :=
  if payload = [] then emptyTag name else openTag name ++ payload ++ closeTag name

/-- The line of a section in a document. -/
def line (s : Section) : Except Envelope.Error (List Char) :=
  s.check.map fun payload => element s.name.toList payload ++ ['\n']

end Section

namespace Envelope

/-- The lines before the first section. -/
def header (version : DataVersion) : List Char :=
  declaration ++ openTag rootName ++ ['\n'] ++ intElement versionName version.number ++ ['\n'] ++
    if version.hasIntegrityBlock then emptyTag integrityName ++ ['\n'] else []

/-- The document of an envelope, or the first section that cannot be written. -/
def encode (envelope : Envelope) : Except Error ByteArray := do
  let lines ← envelope.sections.mapM Section.line
  return Utf8.encode (header envelope.version ++ lines.flatten ++ closeTag rootName ++ ['\n'])

end Envelope

end SectionStore
