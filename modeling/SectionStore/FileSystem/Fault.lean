/-!
# Faults of a file system
-/

namespace SectionStore

/-- Why an operation on files failed. -/
inductive FileFault where
  | notFound
  | permissionDenied
  | notADirectory
  | isADirectory
  | alreadyExists
  /-- A name, or the whole path, is too long. -/
  | nameTooLong
  /-- The path holds a character that no path can hold. -/
  | invalidInput
  /-- The target cannot be replaced. -/
  | busy
  | other
  deriving DecidableEq, Repr

def FileFault.message : FileFault → String
  | notFound => "No such file or directory (os error 2)"
  | permissionDenied => "Permission denied (os error 13)"
  | notADirectory => "Not a directory (os error 20)"
  | isADirectory => "Is a directory (os error 21)"
  | alreadyExists => "File exists (os error 17)"
  | nameTooLong => "File name too long (os error 36)"
  | invalidInput => "file name contained an unexpected NUL byte"
  | busy => "Device or resource busy (os error 16)"
  | other => "other error"

end SectionStore
