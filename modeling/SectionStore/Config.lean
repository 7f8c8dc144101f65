import SectionStore.FailedWritePolicy
import SectionStore.FileTable
import SectionStore.Toml.Reader
import SectionStore.Toml.Writer

/-!
# The configuration of a store

A configuration is read from a JSON or TOML document. What the document leaves out has its default,
members that are not known are ignored, and a member of the wrong kind makes the whole document
invalid. It is written as TOML with one line a member and a table of the file names at the end.
-/

namespace SectionStore

/-- The configuration of one store. -/
structure Config where
  /-- How long buffered data waits for its commit, in milliseconds. -/
  interval : Nat
  /-- The directory of the store files under each base directory. -/
  directory : String
  /-- Do providers get the ciphers of their files? -/
  encryptCredentials : Bool
  station : Station
  policy : FailedWritePolicy
  table : FileTable

namespace Config

def default : Config where
  interval := 10000
  directory := "confstore"
  encryptCredentials := false
  station := .default
  policy := .discard
  table := .default

/-- The value of a member: the default if it is absent, nothing if it cannot be read. -/
def memberOr {α β : Type} (read : α → Option β) (fallback : β) : Option α → Option β
  | none => some fallback
  | some value => read value

/-! ### JSON -/

def intervalOfJson? : Json → Option Nat
  | .int n => if 0 ≤ n ∧ n < 0x10000000000000000 then some n.toNat else none
  | _ => none

def stringOfJson? : Json → Option String
  | .string s => some s
  | _ => none

def booleanOfJson? : Json → Option Bool
  | .boolean b => some b
  | _ => none

/-- The configuration with the given members. -/
def ofJsonMembers? (interval directory encryptCredentials station policy table : Option Json) :
    Option Config := do
  return {
    interval := ← memberOr intervalOfJson? default.interval interval
    directory := ← memberOr stringOfJson? default.directory directory
    encryptCredentials := ← memberOr booleanOfJson? default.encryptCredentials encryptCredentials
    station := ← memberOr Station.ofJson? default.station station
    policy := ← memberOr FailedWritePolicy.ofJson? default.policy policy
    table := ← memberOr FileTable.ofJson? default.table table }

/-- A configuration as an object, or as an array of the leading members. -/
def ofJson? : Json → Option Config
  | .object members =>
    let member := Json.member? members
    ofJsonMembers? (member "buffered_write_interval_ms") (member "store_directory_name")
      (member "encrypt_credentials") (member "sta_id") (member "failed_write_policy")
      (member "file_table")
  | .array items =>
    if items.length ≤ 6 then
      ofJsonMembers? items[0]? items[1]? items[2]? items[3]? items[4]? items[5]?
    else none
  | _ => none

/-! ### TOML -/

def intervalOfToml? : Toml → Option Nat
  | .integer n => if 0 ≤ n then some n.toNat else none
  | _ => none

def stringOfToml? : Toml → Option String
  | .string s => some s
  | _ => none

def booleanOfToml? : Toml → Option Bool
  | .boolean b => some b
  | _ => none

/-- Does the value hold nothing? -/
def isVoid : Toml → Bool
  | .table _ entries => entries.isEmpty
  | .array items => items.isEmpty
  | .tables items => items.isEmpty
  | _ => false

/-- The name that a value gives for one of several alternatives: a string, or the key of the only
entry of a table, which holds nothing. -/
def alternativeOfToml? : Toml → Option String
  | .string name => some name
  | .table _ [(name, value)] => if isVoid value then some name else none
  | _ => none

def tableOfToml? : Toml → Option FileTable
  | .table _ entries => do
    let files ← entries.mapM fun e => do
      return (← FileId.ofName? e.1, ← stringOfToml? e.2)
    return FileTable.ofList files
  | _ => none

/-- The configuration in the entries of a document. -/
def ofToml? (document : Toml.Entries) : Option Config := do
  return {
    interval :=
      ← memberOr intervalOfToml? default.interval (document.get? "buffered_write_interval_ms")
    directory := ← memberOr stringOfToml? default.directory (document.get? "store_directory_name")
    encryptCredentials :=
      ← memberOr booleanOfToml? default.encryptCredentials (document.get? "encrypt_credentials")
    station :=
      ← memberOr (fun v => (alternativeOfToml? v).bind Station.ofName?) default.station
        (document.get? "sta_id")
    policy :=
      ← memberOr (fun v => (alternativeOfToml? v).bind FailedWritePolicy.ofName?) default.policy
        (document.get? "failed_write_policy")
    table := ← memberOr tableOfToml? default.table (document.get? "file_table") }

/-- The configuration in a text. -/
def parse? (text : List Char) : Option Config :=
  (Toml.parse? text).bind ofToml?

/-- The configuration as text. There is none if the interval is too great for a TOML integer. -/
def render? (config : Config) : Option String :=
  if config.interval < 0x8000000000000000 then
    let line (key value : String) := key ++ " = " ++ value ++ "\n"
    some <|
      line "buffered_write_interval_ms" (toString config.interval) ++
      line "store_directory_name" (Toml.quote config.directory) ++
      line "encrypt_credentials" (if config.encryptCredentials then "true" else "false") ++
      line "sta_id" (Toml.quote config.station.name) ++
      line "failed_write_policy" (Toml.quote config.policy.name) ++
      "\n[file_table]\n" ++
      String.join (config.table.entries.map fun e => line e.1.name (Toml.quote e.2))
  else none

end Config

end SectionStore
