import SectionStore.Registry.Error
import SectionStore.StoreFile.Error

/-!
# What can go wrong in a store
-/

namespace SectionStore

/-- Why an operation of a store failed. -/
inductive StoreError where
  | registry (error : RegistryError)
  | file (error : FileError)
  deriving DecidableEq, Repr

namespace StoreError

def message : StoreError → String
  | registry e => e.message
  | file e => e.message

/-- Does the error lie in the content of a store file? -/
def isParseError : StoreError → Bool
  | registry e => e.isParseError
  | file _ => false

end StoreError

end SectionStore
