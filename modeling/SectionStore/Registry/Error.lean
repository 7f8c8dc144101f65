import SectionStore.FileId
import SectionStore.Provider.Error

/-!
# What can go wrong between a file and its providers
-/

namespace SectionStore

/-- Why a provider was not registered, or a file not served. -/
inductive RegistryError where
  /-- The name cannot be the tag of a section. -/
  | invalidName (name : String)
  /-- The provider is meant for a file that is not in use. -/
  | unknownFile (name : String) (file : FileId)
  /-- The name is taken. -/
  | alreadyRegistered (name : String)
  /-- The file holds a section that no provider of the file owns. -/
  | unknownSection (file : FileId) (name : String) (known : List String)
  /-- The file holds a section twice. -/
  | duplicateSection (file : FileId) (name : String)
  /-- The file is no envelope, or none could be made for it. -/
  | envelope (file : FileId) (error : Envelope.Error)
  /-- A hook failed. -/
  | provider (name : String) (error : ProviderError)
  deriving DecidableEq, Repr

namespace RegistryError

def message : RegistryError → String
  | invalidName name => "store data name " ++ Quoted.text name ++ " is not a valid section name"
  | unknownFile name file =>
    "store data '" ++ name ++ "' targets unknown store file " ++ file.name
  | alreadyRegistered name => "store data '" ++ name ++ "' is already registered"
  | unknownSection file name known =>
    "unknown store data '" ++ name ++ "' in " ++ file.name ++ "; registered: " ++ Quoted.list known
  | duplicateSection file name => "duplicate store data '" ++ name ++ "' in " ++ file.name
  | envelope file error => "envelope error in " ++ file.name ++ ": " ++ error.message
  | provider name error => "store data '" ++ name ++ "' failed: " ++ error.message

/-- Does the error lie in the content of a file? Errors of envelopes count also when the envelope
could not be written. -/
def isParseError : RegistryError → Bool
  | unknownSection _ _ _ | duplicateSection _ _ | envelope _ _ => true
  | _ => false

end RegistryError

end SectionStore
