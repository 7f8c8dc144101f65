import SectionStore.Json

/-!
# Store files and stations

The files that a store can be kept in form a closed set, and so do the stations that a process can
run as. A station says which of the files it writes. Both have a stable name for configuration and
messages (`name`), which reading gives back (`FileId.ofName?_name`), and a title for state reports.
-/

namespace SectionStore

/-- One physical store file. -/
inductive FileId where
  /-- Data of the device, readable before any user session exists. -/
  | sharedGeneral
  /-- General data of a user. -/
  | userGeneral
  /-- Network suggestions of a user. -/
  | userNetworkSuggestions
  /-- Data of the device for the secondary station. -/
  | sharedSecondary
  /-- Data of a user for the secondary station. -/
  | userSecondary
  deriving DecidableEq, Repr

namespace FileId

/-- Every store file, in the order in which tables list them. -/
def all : List FileId :=
  [sharedGeneral, userGeneral, userNetworkSuggestions, sharedSecondary, userSecondary]

def name : FileId → String
  | sharedGeneral => "shared-general"
  | userGeneral => "user-general"
  | userNetworkSuggestions => "user-network-suggestions"
  | sharedSecondary => "shared-secondary"
  | userSecondary => "user-secondary"

def title : FileId → String
  | sharedGeneral => "SharedGeneral"
  | userGeneral => "UserGeneral"
  | userNetworkSuggestions => "UserNetworkSuggestions"
  | sharedSecondary => "SharedSecondary"
  | userSecondary => "UserSecondary"

/-- The file with the given name. -/
def ofName? (name : String) : Option FileId :=
  all.find? (·.name = name)

/-- The message for a name that no file has. -/
def unknownMessage (name : String) : String :=
  "unknown store file id: " ++ name

/-- Does the file live outside any user session? -/
def isShared (id : FileId) : Bool :=
  id = sharedGeneral || id = sharedSecondary

def ofJson? (document : Json) : Option FileId :=
  document.alternative?.bind ofName?

@[simp] theorem mem_all (id : FileId) : id ∈ all := by
  cases id <;> decide

theorem ofName?_name (id : FileId) : ofName? id.name = some id := by
  cases id <;> decide

end FileId

/-- Which instance of the store a process runs. -/
inductive Station where
  | primary
  | secondary
  deriving DecidableEq, Repr

namespace Station

/-- The station of a process that does not choose one. -/
def default : Station :=
  primary

def name : Station → String
  | primary => "primary"
  | secondary => "secondary"

def title : Station → String
  | primary => "Primary"
  | secondary => "Secondary"

/-- The station with the given name. -/
def ofName? (name : String) : Option Station :=
  [primary, secondary].find? (·.name = name)

/-- The message for a name that no station has. -/
def unknownMessage (name : String) : String :=
  "unknown station id: " ++ name

/-- The shared file that the station writes. -/
def sharedFile : Station → FileId
  | primary => .sharedGeneral
  | secondary => .sharedSecondary

/-- The user files that the station writes, in the order in which they are read. -/
def userFiles : Station → List FileId
  | primary => [.userGeneral, .userNetworkSuggestions]
  | secondary => [.userSecondary]

/-- The file of a provider that does not choose one. -/
def defaultUserFile : Station → FileId
  | primary => .userGeneral
  | secondary => .userSecondary

def ofJson? (document : Json) : Option Station :=
  document.alternative?.bind ofName?

theorem ofName?_name (station : Station) : ofName? station.name = some station := by
  cases station <;> decide

theorem isShared_sharedFile (station : Station) : station.sharedFile.isShared = true := by
  cases station <;> rfl

end Station

end SectionStore
