import SectionStore.FileSystem.Temporaries
import SectionStore.StoreFile.Error

/-!
# Replacing a whole file

A file is replaced in steps. The new content goes to a temporary file beside it, which is then
renamed over the target; only the renaming can be seen by a reader of the target. When a step fails,
the temporary file is removed. `Disk.replace` gives the file systems after each step.

Every step may also be refused by the device (`Disk.refuses`), about which nothing is assumed. How
the temporary file is named, and which mode it is made with, is the device's affair too
(`Disk.temporaries`).
-/

namespace SectionStore

/-- What a device may refuse to do for a path. -/
inductive DiskOperation where
  | read
  | createTemporary
  | setMode
  | fill
  | sync
  | rename
  deriving DecidableEq, Repr

/-- A device with files on it. -/
structure Disk where
  files : FileSystem
  refuses : Path → DiskOperation → Option FileFault
  temporaries : Temporaries

/-- What is written to a new file, and the fault that ends the writing, if there is one. -/
structure Fill where
  written : ByteArray
  fault : Option FileFault

/-- Everything is written. -/
def Fill.whole (content : ByteArray) : Fill :=
  ⟨content, none⟩

namespace Disk

/-- A device that refuses nothing. -/
def ofFiles (files : FileSystem) : Disk :=
  ⟨files, fun _ _ => none, .numbered⟩

/-- The content of a file, if there is a file. -/
def read? (disk : Disk) (path : Path) : Except FileError (Option ByteArray) :=
  match (disk.refuses path .read).elim (disk.files.read path) .error with
  | .ok content => .ok (some content)
  | .error .notFound => .ok none
  | .error fault => .error (.read path fault)

/-! ### The steps of a replacement -/

/-- Committed files can be read and written by their owner only. -/
def committedMode : Nat := 0o600

/-- How many octets the name of a temporary file has more than the name that it is made for, with six
octets chosen. -/
def temporaryOverhead : Nat := 12

/-- Where the temporary file for the file of a path is made. Its own path must be short enough, not
the path of the file, which may have more slashes. -/
def temporaryPlace (disk : Disk) (path : Path) (name : String) : Except FileFault Location := do
  FileSystem.checkLonger temporaryOverhead (path.directory.join name)
  let directory ← disk.files.walkToDirectory (disk.files.start path) path.directory.pieces
  if FileSystem.maxNameSize < name.utf8ByteSize + temporaryOverhead then .error .nameTooLong
  else
    let chosen := disk.temporaries.choose disk.files directory name
    return directory ++ [temporaryName name chosen]

/-- Gives the file at a location another mode. -/
def setMode (location : Location) (mode : Nat) (files : FileSystem) : FileSystem :=
  match files.get? location with
  | some (.file content _) => files.insert location (.file content mode)
  | _ => files

/-- Writes behind the content of the file at a location. -/
def append (location : Location) (written : ByteArray) (files : FileSystem) : FileSystem :=
  match files.get? location with
  | some (.file content mode) => files.insert location (.file (content ++ written) mode)
  | _ => files

/-- Renames a file over the one that a path leads to. -/
def renameOver (files : FileSystem) (source : Location) (path : Path) :
    Except FileFault FileSystem := do
  let place ← files.place path
  if place.isFixed then .error .busy
  else if place.slash then .error .notADirectory
  else
    match files.get? source, files.get? place.location with
    | none, _ => .error .notFound
    | some _, some .directory => .error .isADirectory
    | some entry, _ => return (files.erase source).insert place.location entry

/-- A step: what the device is asked for, and what it does to the files. A step that fails may have
changed something. -/
structure Step where
  operation : DiskOperation
  run : FileSystem → FileSystem × Option FileFault

/-- The steps from an empty temporary file to the new content at the path. -/
def steps (path : Path) (temporary : Location) (fill : Fill) : List Step :=
  [⟨.setMode, fun files => (setMode temporary committedMode files, none)⟩,
    ⟨.fill, fun files => (append temporary fill.written files, fill.fault)⟩,
    ⟨.sync, fun files => (files, none)⟩,
    ⟨.rename, fun files =>
      match renameOver files temporary path with
      | .ok renamed => (renamed, none)
      | .error fault => (files, some fault)⟩]

/-- Takes the steps one after the other. The first one that fails ends them, and the temporary file
is removed. Gives the files after each change, and the fault. -/
def takeSteps (refuses : DiskOperation → Option FileFault) (temporary : Location) :
    List Step → FileSystem → List FileSystem × Option FileFault
  | [], _ => ([], none)
  | step :: rest, files =>
    match refuses step.operation with
    | some fault => ([files.erase temporary], some fault)
    | none =>
      match step.run files with
      | (after, some fault) => ([after, after.erase temporary], some fault)
      | (after, none) =>
        let (states, fault) := takeSteps refuses temporary rest after
        (after :: states, fault)

/-- The course of a replacement. -/
structure Replacement where
  /-- The files after each change. -/
  states : List FileSystem
  result : Except FileError Unit

/-- The course of replacing the file of a path. -/
def course (disk : Disk) (path : Path) (fill : Fill) : Replacement :=
  match path.fileName? with
  | none => ⟨[], .error (.invalidPath path)⟩
  | some name =>
    match (disk.refuses path .createTemporary).elim (disk.temporaryPlace path name) .error with
    | .error fault => ⟨[], .error (.write path fault)⟩
    | .ok temporary =>
      let created := disk.files.insert temporary (.file ByteArray.empty disk.temporaries.mode)
      let (states, fault) :=
        takeSteps (disk.refuses path) temporary (steps path temporary fill) created
      ⟨created :: states, fault.elim (.ok ()) fun fault => .error (.write path fault)⟩

/-- Replaces the file of a path. -/
def replace (disk : Disk) (path : Path) (fill : Fill) : Except FileError Unit × Disk :=
  let course := disk.course path fill
  (course.result, { disk with files := course.states.getLastD disk.files })

end Disk

end SectionStore
