import SectionStore.CommandLine.Outcome

/-!
# The program

Reads the file that the command line asks for, and shows what the command comes to.
-/

namespace SectionStore.CommandLine

/-- The fault that an error of the system stands for. -/
def faultOf : IO.Error → FileFault
  | .noFileOrDirectory .. => .notFound
  | .permissionDenied .. => .permissionDenied
  | .inappropriateType _ code _ => if code = 21 then .isADirectory else .notADirectory
  | .alreadyExists .. => .alreadyExists
  | .resourceBusy .. => .busy
  | .invalidArgument _ code _ => if code = 22 then .invalidInput else .nameTooLong
  | _ => .other

/-- The content of a file. -/
def readOctets (path : Path) : IO (Except FileFault ByteArray) := do
  try
    return .ok (← IO.FS.readBinFile path.text)
  catch e =>
    return .error (faultOf e)

/-- Runs a command line. -/
def program (args : List String) : IO UInt32 := do
  let content ←
    match (parse? args).bind Invocation.input? with
    | some path => readOctets path
    | none => pure (.error .notFound)
  let outcome := run (fun _ => content) args
  IO.print outcome.output
  for error in outcome.error.toList do
    IO.eprint error
  return outcome.code.toUInt32

end SectionStore.CommandLine

def main (args : List String) : IO UInt32 :=
  SectionStore.CommandLine.program args
