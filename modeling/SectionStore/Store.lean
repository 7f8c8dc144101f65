import SectionStore.Alarm
import SectionStore.Config
import SectionStore.Metrics
import SectionStore.Registry.Dispatch
import SectionStore.Store.Error
import SectionStore.StoreFile

/-!
# The store

A store has a shared file, the files of the user if there is one, and the registry that routes
providers to files. A write first buffers a fresh document for each file whose providers have new
data (`refreshAll`). The buffers are committed at once if that is asked for; otherwise an alarm is
set, unless one is armed, and they are committed when it goes off (`onAlarm`). A commit attempts every
file and reports the first failure (`commitAll`).

Operations are state transformers that end with a value or an error; the state that an error leaves
behind is part of their meaning. Files are always taken in one order, the shared file first
(`Store.files`).
-/

namespace SectionStore

/-- A store whose providers are kept by a host, and whose alarms are kept by a scheduler. -/
structure Store (W : Type) (A : Type := Alarms) where
  config : Config
  registry : Registry
  providers : W
  shared : StoreFile
  users : Option (List StoreFile)
  disk : Disk
  alarms : A
  clock : Clock
  metrics : Metrics
  /-- The alarm that the buffers wait for. -/
  armed : Option AlarmId
  verbose : Bool

/-- An operation of a store. -/
abbrev StoreM (W A α : Type) := EStateM StoreError (Store W A) α

namespace Store

variable {W A : Type}

/-- A store without providers and user files. -/
def new [AlarmScheduler A] (config : Config) (shared : StoreFile) (providers : W) (disk : Disk)
    (metrics : Metrics) : Store W A where
  config := config
  registry := .new config.station config.table
  providers := providers
  shared := shared
  users := none
  disk := disk
  alarms := AlarmScheduler.new
  clock := .new
  metrics := metrics
  armed := none
  verbose := false

/-- The files of the store, the shared one first. -/
def files (s : Store W A) : List StoreFile :=
  s.shared :: s.users.getD []

/-- The store with its files replaced, one by one. -/
def setFiles (s : Store W A) : List StoreFile → Store W A
  | [] => s
  | shared :: users => { s with shared, users := s.users.map fun _ => users }

/-- Is a buffered write waiting for an alarm? -/
def isWaiting (s : Store W A) : Bool :=
  s.armed.isSome

/-- Does any file have a buffer? -/
def hasBuffered (s : Store W A) : Bool :=
  s.files.any (·.hasPending)

/-- Is the shared file on disk? -/
def isPresent (s : Store W A) : Bool :=
  s.shared.isPresent s.disk

def setVerbose (s : Store W A) (verbose : Bool) : Store W A :=
  { s with verbose }

/-- Installs user files without reading them. -/
def setUserFiles (s : Store W A) (files : List StoreFile) : Store W A :=
  { s with users := some files }

/-- Registers a provider. -/
def register (name : String) (file : Option FileId) : StoreM W A Unit := fun s =>
  match s.registry.register name file with
  | .ok registry => .ok () { s with registry }
  | .error e => .error (.registry e) s

/-! ### The alarm -/

section Alarm

variable [AlarmScheduler A]

/-- Sets the alarm, unless one is armed. -/
def arm (s : Store W A) : Store W A :=
  match s.armed with
  | some _ => s
  | none =>
    let set := AlarmScheduler.schedule s.clock.now s.config.interval s.alarms
    { s with alarms := set.2, armed := some set.1 }

/-- Cancels the alarm that is armed. -/
def disarm (s : Store W A) : Store W A :=
  match s.armed with
  | none => s
  | some id => { s with alarms := AlarmScheduler.cancel id s.alarms, armed := none }

end Alarm

/-- The store after its clock has been read. -/
def afterClock (s : Store W A) : Store W A :=
  { s with clock := s.clock.afterReading }

/-- The store after an operation that began at the given time has ended, with its sample taken. -/
def sampled (s : Store W A) (note : Metrics → Nat → Metrics) (began : Nat) : Store W A :=
  { s.afterClock with metrics := note s.metrics (s.clock.now - began) }

/-! ### Committing -/

/-- Commits the buffers of all files, and gives the first failure. -/
def commitAll (policy : FailedWritePolicy) :
    List StoreFile → Disk → List StoreFile × Disk × Option FileError
  | [], disk => ([], disk, none)
  | file :: rest, disk =>
    let commit := file.commit policy disk
    let (files, disk, fault) := commitAll policy rest commit.disk
    match commit.result with
    | .ok _ => (commit.file :: files, disk, fault)
    | .error e => (commit.file :: files, disk, some e)

/-- Commits every buffer. The alarm is disarmed first. A sample is taken if all went well. -/
def commit [AlarmScheduler A] : StoreM W A Unit := fun s =>
  let s := s.disarm
  let began := s.clock.now
  let s := s.afterClock
  let (files, disk, fault) := commitAll s.config.policy s.files s.disk
  let s := { s.setFiles files with disk }
  match fault with
  | some e => .error (.file e) s
  | none => .ok () (s.sampled Metrics.noteWrite began)

/-- The alarm with the given number goes off. Nothing happens unless it is the one that is armed. -/
def onAlarm [AlarmScheduler A] (id : AlarmId) : StoreM W A Unit := fun s =>
  if s.armed = some id then commit { s with armed := none } else .ok () s

/-- The oldest alarm goes off, without the store being told yet. -/
def fireOldest? (s : Store W) : Option (AlarmId × Store W) :=
  s.alarms.fireOldest?.map fun (id, alarms) => (id, { s with alarms })

section Providers

variable [ProviderHost W]

/-! ### Writing -/

/-- Buffers a fresh document if a provider of the file has new data; says whether it does. -/
def refresh (registry : Registry) (file : StoreFile) :
    EStateM RegistryError W (StoreFile × Bool) := fun w =>
  if registry.hasNewData file.id w then
    match registry.serialize file.id file.cipher w with
    | .ok document w => .ok (file.buffer document, true) w
    | .error e w => .error e w
  else .ok (file, false) w

/-- Refreshes the files one after the other, up to the first failure; says whether any of them had
new data. -/
def refreshAll (registry : Registry) :
    List StoreFile → W → List StoreFile × W × Except RegistryError Bool
  | [], w => ([], w, .ok false)
  | file :: rest, w =>
    match refresh registry file w with
    | .error e w => (file :: rest, w, .error e)
    | .ok (file, isNew) w =>
      let (files, w, result) := refreshAll registry rest w
      (file :: files, w, result.map (isNew || ·))

/-- Buffers what is new. With `force`, all buffers are committed, also those from earlier writes;
without it they wait for the alarm. -/
def write [AlarmScheduler A] (force : Bool) : StoreM W A Unit := fun s =>
  let (files, providers, result) := refreshAll s.registry s.files s.providers
  let s := { s.setFiles files with providers }
  match result with
  | .error e => .error (.registry e) s
  | .ok isNew =>
    if force then
      if isNew || s.isWaiting || s.hasBuffered then commit s else .ok () s
    else .ok () (if isNew then s.arm else s)

/-! ### Reading -/

/-- Hands the committed content of a file to its providers. -/
def readFile (registry : Registry) (disk : Disk) (file : StoreFile) : EStateM StoreError W Unit :=
  fun w =>
    match file.read? disk with
    | .error e => .error (.file e) w
    | .ok content =>
      match registry.deserialize content file.id file.cipher w with
      | .ok () w => .ok () w
      | .error e w => .error (.registry e) w

/-- Reads the files one after the other, up to the first failure. -/
def readAll (registry : Registry) (disk : Disk) : List StoreFile → EStateM StoreError W Unit
  | [] => return ()
  | file :: rest => do
    readFile registry disk file
    readAll registry disk rest

/-- Reads the files like `readAll`, and resets the providers of each just before. -/
def resetAndReadAll (registry : Registry) (disk : Disk) :
    List StoreFile → EStateM StoreError W Unit
  | [] => return ()
  | file :: rest => do
    modify (registry.reset file.id)
    readFile registry disk file
    resetAndReadAll registry disk rest

/-- Resets the providers of all the files. -/
def resetAll (registry : Registry) (files : List StoreFile) (w : W) : W :=
  files.foldl (fun w file => registry.reset file.id w) w

/-- Runs a reading of providers between two looks at the clock. A sample is taken if all went
well. -/
def timedReading (reading : EStateM StoreError W Unit) : StoreM W A Unit := fun s =>
  let began := s.clock.now
  let s := s.afterClock
  match reading s.providers with
  | .error e providers => .error e { s with providers }
  | .ok () providers => .ok () ({ s with providers }.sampled Metrics.noteRead began)

/-- Resets all providers of the files, then reads the files. -/
def read : StoreM W A Unit := fun s =>
  let s := { s with providers := resetAll s.registry s.files s.providers }
  timedReading (readAll s.registry s.disk s.files) s

/-- Makes way for new user files: a write that waits for the alarm is committed, and the providers of
the outgoing files are reset. -/
def leaveUserFiles [AlarmScheduler A] : StoreM W A Unit := do
  if (← get).isWaiting then commit
  modify fun s =>
    { s with providers := resetAll s.registry (s.users.getD []) s.providers }.disarm

/-- Replaces the user files and reads the new ones. -/
def switchUserFiles [AlarmScheduler A] (files : List StoreFile) : StoreM W A Unit := do
  leaveUserFiles
  modify (·.setUserFiles files)
  fun s => timedReading (resetAndReadAll s.registry s.disk files) s

end Providers

end Store

end SectionStore
