import SectionStore.Cipher
import SectionStore.Disk
import SectionStore.FailedWritePolicy
import SectionStore.FileTable
import SectionStore.Text.Quoted

/-!
# Store files

A store file is a file on disk with room for one buffer of new content. Buffering again replaces the
buffer; committing writes it and takes it away. What becomes of a buffer that cannot be committed
is decided by a `FailedWritePolicy`.
-/

namespace SectionStore

/-- One physical store file. -/
structure StoreFile where
  path : Path
  id : FileId
  /-- The cipher that the providers of the file get. -/
  cipher : Option Cipher
  /-- The content that waits to be committed. -/
  pending : Option ByteArray

namespace StoreFile

/-- A store file without a buffer. -/
def new (path : Path) (id : FileId) (cipher : Option Cipher) : StoreFile :=
  ⟨path, id, cipher, none⟩

/-- The store file with the given id, under the given directory of a base directory, which is made
if it is absent. Its cipher is made for its name. -/
def create (base : Path) (directory : String) (id : FileId) (table : FileTable)
    (ciphers : Option (String → Cipher)) : EStateM FileError Disk StoreFile := fun disk =>
  match table.name? id with
  | none => .error (.unknownId id) disk
  | some name =>
    let parent := base.join directory
    let file := new (parent.join name) id (ciphers.map (· name))
    if disk.files.leads parent then .ok file disk
    else
      match FileSystem.createDirectory parent disk.files with
      | .ok () files => .ok file { disk with files }
      | .error fault files => .error (.createDirectory parent fault) { disk with files }

/-- Is there a file on disk? -/
def isPresent (file : StoreFile) (disk : Disk) : Bool :=
  disk.files.leads file.path

/-- The committed content, if there is any. -/
def read? (file : StoreFile) (disk : Disk) : Except FileError (Option ByteArray) :=
  disk.read? file.path

/-- Buffers new content in place of what has been buffered before. -/
def buffer (file : StoreFile) (content : ByteArray) : StoreFile :=
  { file with pending := some content }

def hasPending (file : StoreFile) : Bool :=
  file.pending.isSome

/-- What a commit comes to. -/
structure Commit where
  /-- Was anything written? -/
  result : Except FileError Bool
  file : StoreFile
  disk : Disk

/-- Commits the buffer, if there is one. -/
def commit (file : StoreFile) (policy : FailedWritePolicy) (disk : Disk) : Commit :=
  match file.pending with
  | none => ⟨.ok false, file, disk⟩
  | some content =>
    match disk.replace file.path (.whole content) with
    | (.ok (), disk) => ⟨.ok true, { file with pending := none }, disk⟩
    | (.error e, disk) =>
      match policy with
      | .discard => ⟨.error e, { file with pending := none }, disk⟩
      | .retain => ⟨.error e, file, disk⟩

/-- The state report of a file. -/
def report (file : StoreFile) : String :=
  let pending := match file.pending with
    | none => "None"
    | some content => "Some(" ++ toString content.size ++ ")"
  "StoreFile \x7b file_id: " ++ file.id.title ++ ", path: " ++ Quoted.text file.path.text ++
    ", encrypted: " ++ (if file.cipher.isSome then "true" else "false") ++
    ", pending_bytes: " ++ pending ++ " \x7d"

end StoreFile

end SectionStore
