import SectionStore.FileId

/-!
# The table of file names

Which name each store file has on disk. A deployment that does not use some of the files leaves
them out of its table.
-/

namespace SectionStore

/-- The name on disk of each store file in use. -/
@[ext] structure FileTable where
  name? : FileId → Option String

namespace FileTable

/-- The table without any file. -/
def empty : FileTable :=
  ⟨fun _ => none⟩

/-- The table with a file added or renamed. -/
def insert (table : FileTable) (id : FileId) (name : String) : FileTable :=
  ⟨fun other => if other = id then some name else table.name? other⟩

/-- The table with a file taken out. -/
def erase (table : FileTable) (id : FileId) : FileTable :=
  ⟨fun other => if other = id then none else table.name? other⟩

def contains (table : FileTable) (id : FileId) : Bool :=
  (table.name? id).isSome

/-- The files in use with their names, in the order of the files. -/
def entries (table : FileTable) : List (FileId × String) :=
  FileId.all.filterMap fun id => (table.name? id).map (id, ·)

/-- The names used where a configuration gives none. -/
def default : FileTable :=
  ⟨fun id => some (match id with
    | .sharedGeneral => "ConfigStore.xml"
    | .userGeneral => "ConfigStore.xml"
    | .userNetworkSuggestions => "ConfigStoreNetworkSuggestions.xml"
    | .sharedSecondary => "ConfigStoreSecondary.xml"
    | .userSecondary => "ConfigStoreSecondary.xml")⟩

/-- The table with the given entries; the last one counts where a file is repeated. -/
def ofList (entries : List (FileId × String)) : FileTable :=
  entries.foldl (fun table entry => table.insert entry.1 entry.2) empty

def ofJson? : Json → Option FileTable
  | .object members => do
    let entries ← members.mapM fun m => do
      match m.2 with
      | .string name => return (← FileId.ofName? m.1, name)
      | _ => none
    return ofList entries
  | _ => none

@[simp] theorem name?_insert (table : FileTable) (id other : FileId) (name : String) :
    (table.insert id name).name? other = if other = id then some name else table.name? other :=
  rfl

@[simp] theorem name?_erase (table : FileTable) (id other : FileId) :
    (table.erase id).name? other = if other = id then none else table.name? other :=
  rfl

theorem mem_entries_iff {table : FileTable} {id : FileId} {name : String} :
    (id, name) ∈ table.entries ↔ table.name? id = some name := by
  simp [entries]

end FileTable

end SectionStore
