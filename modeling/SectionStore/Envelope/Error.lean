import SectionStore.Envelope
import SectionStore.Markup.Error
import SectionStore.Text.Utf8

/-!
# What can be wrong with a document

Every cause is final for the document: nothing is repaired or given a default.
-/

namespace SectionStore.Envelope

/-- What stands where the root element should begin. -/
inductive Found where
  | endOfDocument
  | opening (name : List Char)
  | closing (name : List Char)
  | characterData (offset : Nat)
  deriving DecidableEq, Repr

def Found.message : Found → String
  | .endOfDocument => "end of document"
  | .opening name => "<" ++ String.ofList name ++ ">"
  | .closing name => "</" ++ String.ofList name ++ ">"
  | .characterData offset => s!"character data at byte {offset}"

/-- Why a payload may not stand in a section. -/
inductive PayloadFault where
  | notText (fault : Utf8.Fault)
  | markup (error : Markup.Error)
  deriving DecidableEq, Repr

def PayloadFault.message : PayloadFault → String
  | .notText fault => fault.message
  | .markup error => error.message

/-- Why a document could not be read, or an envelope not be written. -/
inductive Error where
  /-- The octets are not text. -/
  | notText (fault : Utf8.Fault)
  /-- The markup is wrong. -/
  | markup (error : Markup.Error)
  /-- The document does not begin with the root element. -/
  | missingStart (found : Found)
  /-- The root element does not begin with the version value. -/
  | missingVersion
  /-- The version value is no integer. -/
  | malformedVersion (fault : Markup.ValueFault)
  /-- The version is none that is supported. -/
  | unsupportedVersion (raw : Int)
  /-- The version asks for an integrity block, and none follows. -/
  | missingIntegrity
  /-- The root element is not closed. -/
  | missingEnd
  /-- Something other than blanks and comments follows the root element. -/
  | trailingContent (offset : Nat)
  /-- A section cannot have the name. -/
  | invalidName (name : String)
  /-- A payload is no well-formed content. -/
  | malformedPayload (name : String) (fault : PayloadFault)
  deriving DecidableEq, Repr

def Error.message : Error → String
  | .notText fault => "document is not valid UTF-8: " ++ fault.message
  | .markup error => error.message
  | .missingStart found =>
    "document start <" ++ String.ofList rootName ++ "> not found, found " ++ found.message
  | .missingVersion => "version value not found"
  | .malformedVersion fault => "malformed version value: " ++ fault.message
  | .unsupportedVersion raw => DataVersion.unsupportedMessage raw
  | .missingIntegrity => "integrity block missing from version 2 document"
  | .missingEnd => "document end </" ++ String.ofList rootName ++ "> not found"
  | .trailingContent offset => s!"trailing content after document end at byte {offset}"
  | .invalidName name => "invalid section name: " ++ Quoted.text name
  | .malformedPayload name fault =>
    "malformed payload for section '" ++ name ++ "': " ++ fault.message

/-- The messages of an error and of what it came from, the error itself first. -/
def Error.chain (error : Error) : List String :=
  match error with
  | .notText fault => [error.message, fault.message]
  | _ => [error.message]

end SectionStore.Envelope
