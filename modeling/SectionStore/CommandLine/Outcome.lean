import SectionStore.CommandLine
import SectionStore.Config
import SectionStore.Envelope.Parser
import SectionStore.FileSystem.Fault

/-!
# What a command comes to

A command reads at most one file, so what it comes to is a function of the command and of what is in
that file (`outcome`). Errors are shown with their causes below them, the nearest first.
-/

namespace SectionStore.CommandLine

/-- What is shown, and how the program ends. -/
structure Outcome where
  code : Nat
  output : String
  /-- The text on the error output; a command line that was not understood has none of ours. -/
  error : Option String
  deriving DecidableEq, Repr

/-- The version of the program. -/
def programVersion : String :=
  "confstore 0.1.0\n"

/-- A command line that was not understood. -/
def Outcome.misused : Outcome :=
  ⟨2, "", none⟩

def Outcome.success (output : String) : Outcome :=
  ⟨0, output ++ "\n", none⟩

/-! ### Errors -/

/-- A text with all lines but the first indented. -/
def indented (margin : String) (text : List Char) : String :=
  String.join (text.map fun c => if c = '\n' then "\n" ++ margin else c.toString)

/-- The causes of an error, numbered if there are several. -/
def renderCauses (causes : List String) : String :=
  match causes with
  | [cause] => "    " ++ indented "    " cause.toList
  | _ =>
    "\n".intercalate (causes.zipIdx.map fun (cause, number) =>
      let shown := toString number
      "".pushn ' ' (5 - shown.length) ++ shown ++ ": " ++ indented "       " cause.toList)

/-- An error with its causes. -/
def renderError (context : String) (causes : List String) : String :=
  "Error: " ++ context ++
    (if causes.isEmpty then "" else "\n\nCaused by:\n" ++ renderCauses causes) ++ "\n"

def Outcome.failure (output context : String) (causes : List String) : Outcome :=
  ⟨1, output, some (renderError context causes)⟩

/-! ### Answers -/

/-- A text filled up with blanks. -/
def padded (width : Nat) (text : String) : String :=
  text ++ "".pushn ' ' (width - text.length)

/-- The content of a store file as a document. -/
def inspectionJson (path : Path) (envelope : Envelope) : Json :=
  .object [("path", .string path.text), ("version", .int envelope.version.number),
    ("sections", .array (envelope.sections.map fun s =>
      .object [("name", .string s.name), ("bytes", .int s.payload.size)]))]

/-- The content of a store file in lines. The column of the names is as wide as the longest has
octets. -/
def inspectionText (path : Path) (envelope : Envelope) : String :=
  let width := (envelope.sections.map fun s => s.name.utf8ByteSize).foldl max 0
  let line (s : Section) : String :=
    "\n    " ++ padded width s.name ++ "  " ++ toString s.payload.size ++ " bytes"
  path.text ++ "\n  Version: " ++ toString envelope.version.number ++
    "\n  Sections: " ++ toString envelope.sections.length ++
    String.join (envelope.sections.map line)

/-- The answer to a check of a store file. -/
def validation (path : Path) (format : OutputFormat) :
    Except Envelope.Error Envelope → String
  | .ok envelope =>
    match format with
    | .json =>
      (Json.object [("path", .string path.text), ("valid", .boolean true),
        ("version", .int envelope.version.number),
        ("sections", .int envelope.sections.length)]).render
    | .text =>
      "✓ " ++ path.text ++ ": valid (version " ++ toString envelope.version.number ++ ", " ++
        toString envelope.sections.length ++ " sections)"
  | .error e =>
    match format with
    | .json =>
      (Json.object [("path", .string path.text), ("valid", .boolean false),
        ("error", .string e.message)]).render
    | .text => "✗ " ++ path.text ++ ": " ++ e.message

/-- What a station does with a file. -/
def role (station : Station) (id : FileId) : String :=
  if id = station.sharedFile then "shared"
  else if id ∈ station.userFiles then "user"
  else "unused"

/-- The files of a configuration as a document. -/
def filesJson (config : Config) : Json :=
  .object [("station", .string config.station.name), ("directory", .string config.directory),
    ("encrypt_credentials", .boolean config.encryptCredentials),
    ("buffered_write_interval_ms", .int config.interval),
    ("files", .array (config.table.entries.map fun (id, name) =>
      .object [("id", .string id.name), ("file", .string name),
        ("role", .string (role config.station id))]))]

/-- The files of a configuration in lines. -/
def filesText (config : Config) : String :=
  let line (entry : FileId × String) : String :=
    "\n  " ++ padded 26 entry.1.name ++ " " ++ padded 36 entry.2 ++ " " ++
      role config.station entry.1
  "Station: " ++ config.station.name ++ "\nDirectory: " ++ config.directory ++
    "\nCredentials encrypted: " ++ (if config.encryptCredentials then "true" else "false") ++
    String.join (config.table.entries.map line)

/-! ### Commands -/

/-- The file that a command reads, if it reads one. -/
def Command.input? : Command → Option Path
  | .inspect path => some path
  | .validate path => some path
  | .files config => config

/-- The file that a command line asks to be read, if there is one. -/
def Invocation.input? : Invocation → Option Path
  | .version => none
  | .run command _ => command.input?

/-- The outcome of a command on the content of a store file. -/
def onStoreFile (path : Path) (content : Except FileFault ByteArray)
    (finish : Except Envelope.Error Envelope → Outcome) : Outcome :=
  match content with
  | .error fault => .failure "" ("failed to read " ++ path.text) [fault.message]
  | .ok octets => finish (Envelope.decode octets)

/-- The configuration in a file. -/
def configIn (path : Path) (content : Except FileFault ByteArray) : Except Outcome Config :=
  let unreadable (reason : String) : Except Outcome Config :=
    .error (.failure "" ("failed to read config " ++ path.text ++ ": " ++ reason) [reason])
  match content with
  | .error fault => unreadable fault.message
  | .ok octets =>
    match Utf8.decode octets with
    | .error _ => unreadable "stream did not contain valid UTF-8"
    | .ok text =>
      match Config.parse? text with
      | none => .error ⟨1, "", some "Error: invalid config:"⟩
      | some config => .ok config

def showFiles (format : OutputFormat) (config : Config) : Outcome :=
  .success (match format with
    | .json => (filesJson config).render
    | .text => filesText config)

/-- What a command comes to, given what is in the file that it reads. -/
def Command.outcome (command : Command) (format : OutputFormat)
    (content : Except FileFault ByteArray) : Outcome :=
  match command with
  | .inspect path =>
    onStoreFile path content fun
      | .error e => .failure "" (path.text ++ " is not a valid store file") e.chain
      | .ok envelope =>
        .success (match format with
          | .json => (inspectionJson path envelope).render
          | .text => inspectionText path envelope)
  | .validate path =>
    onStoreFile path content fun decoded =>
      let shown := validation path format decoded ++ "\n"
      match decoded with
      | .ok _ => ⟨0, shown, none⟩
      | .error e => .failure shown (path.text ++ " failed validation") e.chain
  | .files none => showFiles format .default
  | .files (some path) =>
    match configIn path content with
    | .error outcome => outcome
    | .ok config => showFiles format config

/-- What a command line comes to, where `read` gives the content of a file. -/
def run (read : Path → Except FileFault ByteArray) (args : List String) : Outcome :=
  match parse? args with
  | none => .misused
  | some .version => ⟨0, programVersion, none⟩
  | some (.run command format) =>
    command.outcome format ((command.input?.map read).getD (.error .notFound))

end SectionStore.CommandLine
