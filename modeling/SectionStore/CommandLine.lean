import SectionStore.Path

/-!
# The command line

A command line names one command with its arguments. Two options belong to every command and may
stand before or behind its name: the output format, where the one behind wins, and verbose logging.
Arguments are read from left to right, so what comes first, an error or the request for the version,
decides.
-/

namespace SectionStore.CommandLine

/-- How answers are shown. -/
inductive OutputFormat where
  | text
  | json
  deriving DecidableEq, Repr

/-- The format with the given name. -/
def OutputFormat.ofName? (name : String) : Option OutputFormat :=
  if name = "text" then some text else if name = "json" then some json else none

/-- What is asked for. -/
inductive Command where
  /-- Show the version and the sections of a store file. -/
  | inspect (path : Path)
  /-- Check that a store file can be read. -/
  | validate (path : Path)
  /-- Show the files of a configuration. -/
  | files (config : Option Path)
  deriving DecidableEq, Repr

/-- A command line that was understood. -/
inductive Invocation where
  | version
  | run (command : Command) (format : OutputFormat)
  deriving DecidableEq, Repr

/-- The names of the commands. -/
inductive CommandName where
  | inspect
  | validate
  | files
  deriving DecidableEq, Repr

/-- The command with the given name. -/
def CommandName.ofText? (text : String) : Option CommandName :=
  if text = "inspect" then some inspect
  else if text = "validate" then some validate
  else if text = "files" then some files
  else none

/-- The options that have been read on one side of the name of the command. -/
structure Options where
  verbose : Bool
  format : Option OutputFormat
  config : Option Path
  path : Option Path

namespace Options

def none : Options :=
  ⟨false, .none, .none, .none⟩

/-- Every option may be given once. -/
def setVerbose? (o : Options) : Option Options :=
  if o.verbose then .none else some { o with verbose := true }

def setFormat? (o : Options) (value : String) : Option Options :=
  match o.format, OutputFormat.ofName? value with
  | .none, some format => some { o with format }
  | _, _ => .none

/-- A path is not empty. -/
def setConfig? (o : Options) (value : String) : Option Options :=
  if o.config.isSome ∨ value = "" then .none else some { o with config := some ⟨value⟩ }

def setPath? (o : Options) (value : String) : Option Options :=
  if o.path.isSome ∨ value = "" then .none else some { o with path := some ⟨value⟩ }

end Options

/-- Does an argument look like an option? A single hyphen does not. -/
def isOption (arg : String) : Bool :=
  arg.toList.head? = some '-' && arg ≠ "-"

/-- The value in an argument that begins with the given text. -/
def attached? (start arg : String) : Option String :=
  (start.toList.isPrefixOf? arg.toList).map String.ofList

/-- The options after a group of one-letter options; without them if the version was asked for. -/
inductive Letters where
  | options (o : Options)
  | version

/-- Reads a group of one-letter options. The version can be asked for before the command only. -/
def readLetters? (withVersion : Bool) (o : Options) : List Char → Option Letters
  | [] => some (.options o)
  | 'v' :: rest => do readLetters? withVersion (← o.setVerbose?) rest
  | 'V' :: _ => if withVersion then some .version else none
  | _ => none

/-! ### Behind the name of the command -/

/-- Takes an argument that is no option. -/
def takeOperand? (name : CommandName) (o : Options) (arg : String) : Option Options :=
  match name with
  | .files => none
  | _ => o.setPath? arg

/-- Reads the arguments of a command. Behind a double hyphen nothing is an option. -/
def readArguments? (name : CommandName) : Options → List String → Option Options
  | o, [] => some o
  | o, "--" :: rest => rest.foldlM (takeOperand? name) o
  | o, "--verbose" :: rest => do readArguments? name (← o.setVerbose?) rest
  | o, "--format" :: value :: rest =>
    if isOption value then none else do readArguments? name (← o.setFormat? value) rest
  | o, "--config" :: value :: rest =>
    if isOption value ∨ name ≠ .files then none
    else do readArguments? name (← o.setConfig? value) rest
  | o, arg :: rest =>
    match attached? "--format=" arg, attached? "--config=" arg, attached? "--" arg with
    | some value, _, _ => do readArguments? name (← o.setFormat? value) rest
    | none, some value, _ =>
      if name = .files then do readArguments? name (← o.setConfig? value) rest else none
    | none, none, some _ => none
    | none, none, none =>
      if isOption arg then
        match readLetters? false o arg.toList.tail with
        | some (.options o) => readArguments? name o rest
        | _ => none
      else do readArguments? name (← takeOperand? name o arg) rest

/-- The command with its arguments. -/
def command? (name : CommandName) (o : Options) : Option Command :=
  match name with
  | .inspect => o.path.map .inspect
  | .validate => o.path.map .validate
  | .files => some (.files o.config)

/-! ### From the start -/

/-- Reads a command line whose first options have been read already. -/
def parseFrom? : Options → List String → Option Invocation
  | _, [] => none
  | _, "--version" :: _ => some .version
  | o, "--verbose" :: rest => do parseFrom? (← o.setVerbose?) rest
  | o, "--format" :: value :: rest =>
    if isOption value then none else do parseFrom? (← o.setFormat? value) rest
  | o, arg :: rest =>
    match attached? "--format=" arg, attached? "--" arg with
    | some value, _ => do parseFrom? (← o.setFormat? value) rest
    | none, some _ => none
    | none, none =>
      if isOption arg then
        match readLetters? true o arg.toList.tail with
        | some (.options o) => parseFrom? o rest
        | some .version => some .version
        | none => none
      else do
        let name ← CommandName.ofText? arg
        let behind ← readArguments? name .none rest
        let command ← command? name behind
        return .run command ((behind.format <|> o.format).getD .text)

/-- Reads a command line. There is none if it was not understood. -/
def parse? (args : List String) : Option Invocation :=
  parseFrom? .none args

end SectionStore.CommandLine
