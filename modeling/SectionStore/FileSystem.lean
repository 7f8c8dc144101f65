import SectionStore.FileSystem.Fault
import SectionStore.Path
import SectionStore.Text.Utf8

/-!
# File systems

A file system is a table from locations to files and directories. `walk` follows the pieces of a
path from one location to another and finds the faults that are met on the way, in the order in
which they are met. The view of a file system is `get?`; the equations `get?_insert` and `get?_erase`
say what the operations do to it.
-/

namespace SectionStore

/-- Where a file is: the names of the directories from the root on, and its own name. -/
abbrev Location := List String

/-- What is found at a location. -/
inductive Entry where
  | directory
  | file (content : ByteArray) (mode : Nat)
  deriving DecidableEq

structure FileSystem where
  entries : List (Location × Entry)
  /-- Where relative paths begin. -/
  here : Location

namespace FileSystem

/-- A file system that holds nothing. -/
def new : FileSystem :=
  ⟨[([], .directory)], []⟩

def get? (fs : FileSystem) (location : Location) : Option Entry :=
  (fs.entries.find? (·.1 = location)).map (·.2)

/-- The file system without what is at a location. -/
def erase (fs : FileSystem) (location : Location) : FileSystem :=
  { fs with entries := fs.entries.filter (·.1 ≠ location) }

/-- The file system with something new at a location. -/
def insert (fs : FileSystem) (location : Location) (entry : Entry) : FileSystem :=
  { fs with entries := (location, entry) :: (fs.erase location).entries }

theorem get?_erase (fs : FileSystem) (location other : Location) :
    (fs.erase location).get? other = if other = location then none else fs.get? other := by
  unfold get? erase
  induction fs.entries with
  | nil => simp
  | cons e rest ih =>
    by_cases h : e.1 = location
    · rw [List.filter_cons_of_neg (by simpa using h), ih]
      by_cases ho : other = location
      · simp [ho]
      · rw [if_neg ho, List.find?_cons_of_neg (by simpa [h] using Ne.symm ho), if_neg ho]
    · rw [List.filter_cons_of_pos (by simpa using h)]
      by_cases ho : e.1 = other
      · rw [List.find?_cons_of_pos (by simpa using ho), List.find?_cons_of_pos (by simpa using ho),
          if_neg (ho ▸ h)]
      · rw [List.find?_cons_of_neg (by simpa using ho), List.find?_cons_of_neg (by simpa using ho), ih]

theorem get?_insert (fs : FileSystem) (location other : Location) (entry : Entry) :
    (fs.insert location entry).get? other =
      if other = location then some entry else fs.get? other := by
  by_cases h : other = location
  · simp [get?, insert, h]
  · have := fs.get?_erase location other
    rw [if_neg h] at this
    rw [if_neg h, ← this, get?, get?, insert, List.find?_cons_of_neg (by simpa using Ne.symm h)]

/-! ### Following a path -/

/-- The greatest number of octets of a name. -/
def maxNameSize : Nat := 255

/-- The greatest number of octets of a path. -/
def maxPathSize : Nat := 4095

/-- Finds the fault in a path that cannot be followed anywhere, if it is longer by some octets than
it is given. -/
def checkLonger (octets : Nat) (path : Path) : Except FileFault Unit :=
  if path.text.toList.contains '\x00' then .error .invalidInput
  else if path.text = "" then .error .notFound
  else if maxPathSize < path.text.utf8ByteSize + octets then .error .nameTooLong
  else .ok ()

/-- Finds the fault in a path that cannot be followed anywhere. -/
def check (path : Path) : Except FileFault Unit :=
  checkLonger 0 path

/-- Where following a path begins. -/
def start (fs : FileSystem) (path : Path) : Location :=
  if path.isAbsolute then [] else fs.here

/-- Follows the pieces of a path. Each of them is looked up in a directory. -/
def walk (fs : FileSystem) : Location → List String → Except FileFault (Location × Entry)
  | location, [] =>
    match fs.get? location with
    | none => .error .notFound
    | some entry => .ok (location, entry)
  | location, piece :: rest =>
    match fs.get? location with
    | none => .error .notFound
    | some (.file _ _) => .error .notADirectory
    | some .directory =>
      if piece = "" ∨ piece = "." then walk fs location rest
      else if piece = ".." then walk fs location.dropLast rest
      else if maxNameSize < piece.utf8ByteSize then .error .nameTooLong
      else walk fs (location ++ [piece]) rest

/-- The directory that the pieces of a path lead to. -/
def walkToDirectory (fs : FileSystem) (location : Location) (pieces : List String) :
    Except FileFault Location :=
  match fs.walk location pieces with
  | .error fault => .error fault
  | .ok (_, .file _ _) => .error .notADirectory
  | .ok (found, .directory) => .ok found

/-- What a path leads to. -/
def locate (fs : FileSystem) (path : Path) : Except FileFault (Location × Entry) := do
  check path
  fs.walk (fs.start path) path.pieces

/-- Is there anything at the end of a path? -/
def leads (fs : FileSystem) (path : Path) : Bool :=
  (fs.locate path).toOption.isSome

def isDirectory (fs : FileSystem) (path : Path) : Bool :=
  match fs.locate path with
  | .ok (_, .directory) => true
  | _ => false

/-- The content of a file. -/
def read (fs : FileSystem) (path : Path) : Except FileFault ByteArray :=
  match fs.locate path with
  | .error fault => .error fault
  | .ok (_, .directory) => .error .isADirectory
  | .ok (_, .file content _) => .ok content

/-! ### Places for something new -/

/-- A place that something new can be put to. -/
structure Place where
  directory : Location
  name : String
  /-- Is the name followed by a slash? -/
  slash : Bool

/-- Is the name one that always leads to a directory? -/
def Place.isFixed (place : Place) : Bool :=
  place.name = "" || place.name = "." || place.name = ".."

def Place.location (place : Place) : Location :=
  place.directory ++ [place.name]

/-- The place at the end of a path. -/
def place (fs : FileSystem) (path : Path) : Except FileFault Place := do
  check path
  let pieces := path.pieces
  let named := (pieces.reverse.dropWhile (· = "")).reverse
  match named.getLast? with
  | none => return ⟨[], "", true⟩
  | some name =>
    let directory ← fs.walkToDirectory (fs.start path) named.dropLast
    if maxNameSize < name.utf8ByteSize then .error .nameTooLong
    else return ⟨directory, name, named.length ≠ pieces.length⟩

/-- Makes one directory. -/
def makeDirectory (fs : FileSystem) (path : Path) : Except FileFault FileSystem := do
  let place ← fs.place path
  if place.isFixed ∨ (fs.get? place.location).isSome then .error .alreadyExists
  else return fs.insert place.location .directory

/-- Makes one directory unless it is there already. -/
def ensureDirectory (path : Path) : EStateM FileFault FileSystem Unit := fun fs =>
  match fs.makeDirectory path with
  | .ok made => .ok () made
  | .error fault => if fs.isDirectory path then .ok () fs else .error fault fs

/-- Makes a directory with those above it, whose parts are given from the last to the first. Those
above are only made if the directory cannot be made without them. -/
def makeDirectories (absolute : Bool) (path : Path) :
    List String → EStateM FileFault FileSystem Unit
  | [] => fun fs => ensureDirectory path fs
  | part :: above => fun fs =>
    match fs.makeDirectory path with
    | .error .notFound =>
      match makeDirectories absolute (.ofParts absolute (part :: above).reverse) above fs with
      | .ok () made => ensureDirectory path made
      | .error fault made => .error fault made
    | _ => ensureDirectory path fs

/-- Makes a directory with all directories above it. -/
def createDirectory (path : Path) : EStateM FileFault FileSystem Unit :=
  makeDirectories path.isAbsolute path path.parts.reverse.tail

/-- Writes a file in place. A new file can be read by everybody, an old one keeps its mode. -/
def write (fs : FileSystem) (path : Path) (content : ByteArray) : Except FileFault FileSystem := do
  let place ← fs.place path
  match fs.get? place.location with
  | some (.file _ mode) =>
    if place.slash then .error .notADirectory
    else return fs.insert place.location (.file content mode)
  | some .directory => .error .isADirectory
  | none =>
    if place.slash ∨ place.isFixed then .error .isADirectory
    else return fs.insert place.location (.file content 0o644)

/-- Removes what a path leads to, with all that is below it. -/
def remove (fs : FileSystem) (path : Path) : FileSystem :=
  match fs.locate path with
  | .ok (location, _) => { fs with entries := fs.entries.filter fun e => ¬ location.isPrefixOf e.1 }
  | .error _ => fs

/-- The paths of all that is below a location, relative to it and in their order as texts.
Directories end with a slash. -/
def listing (fs : FileSystem) (location : Location) : List String :=
  let below := fs.entries.filterMap fun e =>
    match location.isPrefixOf? e.1 with
    | some (name :: names) =>
      let slash := match e.2 with
        | .directory => "/"
        | .file _ _ => ""
      some ("/".intercalate (name :: names) ++ slash)
    | _ => none
  below.mergeSort fun a b => decide (a ≤ b)

end FileSystem

end SectionStore
