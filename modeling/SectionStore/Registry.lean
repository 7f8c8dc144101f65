import SectionStore.FileTable
import SectionStore.Markup.Name
import SectionStore.Registry.Error

/-!
# The registry of providers

Which providers there are and which file each one's section goes to, in the order in which they
were registered. Names are distinct, and every file is in use; `Registry.register` sees to both.
-/

namespace SectionStore

/-- A provider with the file that it was routed to. -/
structure Registration where
  name : String
  file : FileId
  deriving DecidableEq, Repr

/-- The providers of one store. -/
structure Registry where
  station : Station
  table : FileTable
  entries : List Registration

namespace Registry

/-- A registry without providers. -/
def new (station : Station) (table : FileTable) : Registry :=
  ⟨station, table, []⟩

def contains (registry : Registry) (name : String) : Bool :=
  registry.entries.any (·.name = name)

/-- Adds a provider. One that does not choose a file goes to the station's default. A provider that
is refused leaves the registry as it was. -/
def register (registry : Registry) (name : String) (file : Option FileId) :
    Except RegistryError Registry :=
  let file := file.getD registry.station.defaultUserFile
  if ¬ Markup.isName name.toList then .error (.invalidName name)
  else if ¬ registry.table.contains file then .error (.unknownFile name file)
  else if registry.contains name then .error (.alreadyRegistered name)
  else .ok { registry with entries := registry.entries ++ [⟨name, file⟩] }

/-- The names of the providers of a file. -/
def namesOf (registry : Registry) (file : FileId) : List String :=
  (registry.entries.filter (·.file = file)).map (·.name)

/-- The state report of a registry. -/
def report (registry : Registry) : String :=
  let entry (r : Registration) :=
    "Registration \x7b name: " ++ Quoted.text r.name ++ ", file_id: " ++ r.file.title ++ " \x7d"
  "StoreDataRegistry \x7b sta_id: " ++ registry.station.title ++ ", entries: [" ++
    ", ".intercalate (registry.entries.map entry) ++ "] \x7d"

theorem mem_namesOf_iff {registry : Registry} {file : FileId} {name : String} :
    name ∈ registry.namesOf file ↔ ⟨name, file⟩ ∈ registry.entries := by
  simp only [namesOf, List.mem_map, List.mem_filter, decide_eq_true_eq]
  constructor
  · rintro ⟨⟨n, f⟩, ⟨h, rfl⟩, rfl⟩
    exact h
  · intro h
    exact ⟨_, ⟨h, rfl⟩, rfl⟩

end Registry

end SectionStore
