import SectionStore.FileId
import SectionStore.FileSystem.Fault
import SectionStore.Path

/-!
# What can go wrong with a store file
-/

namespace SectionStore

/-- Why an operation on a store file failed. A file that is absent can be read, and holds nothing. -/
inductive FileError where
  | read (path : Path) (fault : FileFault)
  /-- The content was not replaced; what was committed before is intact. -/
  | write (path : Path) (fault : FileFault)
  | createDirectory (path : Path) (fault : FileFault)
  /-- The path does not name a file. -/
  | invalidPath (path : Path)
  /-- The file is not in use. -/
  | unknownId (id : FileId)
  deriving DecidableEq, Repr

def FileError.message : FileError → String
  | read path fault => "failed to read " ++ path.text ++ ": " ++ fault.message
  | write path fault => "failed to write " ++ path.text ++ ": " ++ fault.message
  | createDirectory path fault =>
    "failed to create store directory " ++ path.text ++ ": " ++ fault.message
  | invalidPath path => "invalid store file path: " ++ path.text
  | unknownId id => "no file name configured for " ++ id.name

end SectionStore
